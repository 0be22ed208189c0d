import UsageReport.Proofs.Loaded
import UsageReport.Proofs.Surroundings
import UsageReport.Proofs.Wanted

/-!
Texts that have lost their end, or gained one.
-/

namespace UsageReport.Json

/-- A record whose text ends early is not read. If all of its names are known, that is because the
text has ended. -/
theorem Shape.decode_of_append {ρ : Type} {strict : Bool} {blank record : ρ} {fields : Fields ρ}
    {text rest : String} (hspans : fields.spansZero = true)
    (hdecode : (Shape.record strict blank fields).decode (text ++ rest) = .ok record)
    (hrest : ∃ c ∈ rest.toList, Token.isSpace c = false) :
    ∃ failure, (Shape.record strict blank fields).decode text = .error failure ∧
      ((Shape.record strict blank fields).hasUnknown (Document.ofText (text ++ rest)).root =
        false → failure = .ended) := by
  cases hfound : (Shape.record strict blank fields).decode text with
  | ok found =>
      rw [decode_append hfound hrest] at hdecode
      cases hdecode
  | error failure =>
      refine ⟨failure, rfl, fun hknown => ?_⟩
      have hread := read_of_decode hdecode
      have hspelled := Document.spelled_of_complete (complete_of_decode hdecode)
      have hspans : (Shape.record strict blank fields).spansZero = true := by
        simpa only [spansZero] using hspans
      have hwanted := Shape.wanted hspans hread hknown
      have hplain := hspelled.isPlain_tokens hwanted.isPlain
      rw [String.toList_append] at hspelled hplain
      obtain ⟨stub, fault, -, hstub, hrun⟩ :=
        Document.exists_stub_tree hspelled (Token.cut_scan hplain hrest) []
      have hdocument : Document.ofText text = ⟨stub, none⟩ := hrun
      simp only [decode, hdocument] at hfound
      cases hfailed : (Shape.record strict blank fields).read stub with
      | ok found => rw [hfailed] at hfound; cases hfound
      | error other =>
          rw [hfailed] at hfound
          cases hfound
          exact hwanted.ended hstub hfailed

end UsageReport.Json

namespace UsageReport.Store

open Json

theorem ofContent_of_error {text : String} {failure : Failure}
    (hdecode : shape.decode text = .error failure) :
    ofContent (.ok (.text text)) = .error (.json failure) := by
  simp only [ofContent, ofText, hdecode]

/-- A file that has lost its end is not loaded as a smaller store, and one that has gained anything
but blanks is not loaded at all. -/
theorem ofContent_of_other_end (text rest : String) (store : Store)
    (hrest : ∃ c ∈ rest.toList, Token.isSpace c = false) :
    (ofContent (.ok (.text (text ++ rest))) = .ok store →
      ∃ failure, ofContent (.ok (.text text)) = .error (.json failure) ∧
        (shape.hasUnknown (Document.ofText (text ++ rest)).root = false → failure = .ended)) ∧
    (ofContent (.ok (.text text)) = .ok store →
      ofContent (.ok (.text (text ++ rest))) = .error (.json .malformed)) := by
  constructor
  · intro hload
    have hdecode := decode_of_ofText hload
    obtain ⟨failure, hfailed, hended⟩ := Shape.decode_of_append rfl hdecode hrest
    exact ⟨failure, ofContent_of_error hfailed, hended⟩
  · intro hload
    have hdecode := decode_of_ofText hload
    exact ofContent_of_error (Shape.decode_append hdecode hrest)

/-- A store with one tag, which is written as the list of its number. -/
def numberedTag {φ : Type} : Json.Tree φ :=
  .record (.member (.ok "Tags")
    (.list (.item (.list (.item (.number (.integer 12)) .close)) .close)) .close)

theorem printed_numberedTag : (numberedTag : Value).printed = numberedTag := by
  simp only [numberedTag, Tree.printed, Items.printed, Members.printed]
  rw [Number.printed_integer (by decide) (by decide)]

/-- The file that ends after the first digit of the number, the whole file, and one with a letter
after its end. -/
theorem ofContent_of_cutTag :
    ((∃ c ∈ "2]]\x7d".toList, Token.isSpace c = false) ∧
      ofContent (.ok (.text ("\x7b\"Tags\":[[1" ++ "2]]\x7d"))) =
        .ok { tags := [{ id := 12 }] } ∧
      shape.hasUnknown (Document.ofText ("\x7b\"Tags\":[[1" ++ "2]]\x7d")).root = false ∧
      ofContent (.ok (.text "\x7b\"Tags\":[[1")) = .error (.json .ended)) ∧
    (∃ c ∈ "x".toList, Token.isSpace c = false) ∧
      ofContent (.ok (.text ("\x7b\"Tags\":[[1" ++ "2]]\x7d" ++ "x"))) =
        .error (.json .malformed) := by
  have hrest : ∃ c ∈ "2]]\x7d".toList, Token.isSpace c = false :=
    ⟨'2', List.mem_cons_self, rfl⟩
  have hletter : ∃ c ∈ "x".toList, Token.isSpace c = false :=
    ⟨'x', List.mem_cons_self, rfl⟩
  have htext : numberedTag.toText .compact = "\x7b\"Tags\":[[1" ++ "2]]\x7d" := by decide +kernel
  have hspelled := Tree.spelledBy_toText .compact numberedTag
  rw [htext, printed_numberedTag] at hspelled
  have hload : ofContent (.ok (.text ("\x7b\"Tags\":[[1" ++ "2]]\x7d"))) =
      .ok { tags := [{ id := 12 }] } := by
    have hdecode := shape.decode_of_spelledBy hspelled
    simp only [ofContent, ofText, hdecode]
    rfl
  have hknown : shape.hasUnknown
      (Document.ofText ("\x7b\"Tags\":[[1" ++ "2]]\x7d")).root = false := by
    obtain ⟨tokens, htree, htokens⟩ := hspelled
    rw [Document.ofText_of_spelled htree htokens]
    rfl
  obtain ⟨failure, hfailed, hended⟩ := (ofContent_of_other_end _ _ _ hrest).1 hload
  rw [hended hknown] at hfailed
  exact ⟨⟨hrest, hload, hknown, hfailed⟩, hletter,
    (ofContent_of_other_end _ _ _ hletter).2 hload⟩

end UsageReport.Store
