import Mathlib.Data.List.TakeWhile
import UsageReport.Proofs.Spelling

/-!
The scanner against the spelling of tokens, from the text to the tokens: every token that is not
broken is spelled where it was read. So what is scanned of a text without broken tokens is also
scanned of a longer text, unless a number stands at the very end and might go on.
-/

namespace UsageReport.Json

open Text

namespace Numeral

theorem scanDigits_eq_ok {text digits rest : List Char}
    (hscan : scanDigits text = .ok (digits, rest)) :
    IsDigits digits ∧ text = digits ++ rest ∧ Clear Char.isDigit rest := by
  unfold scanDigits at hscan
  split at hscan
  · cases hscan
  · rename_i hpresent
    injection hscan with hscan
    injection hscan with hdigits hrest
    subst hdigits hrest
    refine ⟨⟨hpresent, fun c hc => List.mem_takeWhile_imp hc⟩,
      List.takeWhile_append_dropWhile.symm, clear_dropWhile _ _⟩

theorem scanWhole_eq_ok {text whole rest : List Char}
    (hscan : scanWhole text = .ok (whole, rest)) :
    IsWhole whole ∧ text = whole ++ rest ∧ Clear Char.isDigit rest := by
  unfold scanWhole at hscan
  split at hscan
  · rename_i c after
    split at hscan
    · cases hscan
    · rename_i hc
      cases hscan
      refine ⟨⟨⟨nofun, ?_⟩, fun _ => rfl⟩, rfl, clear_cons.mpr (Bool.eq_false_iff.mpr hc)⟩
      simp
  · rename_i hzero
    obtain ⟨hdigits, rfl, hrest⟩ := scanDigits_eq_ok hscan
    refine ⟨⟨hdigits, fun hhead => ?_⟩, rfl, hrest⟩
    -- More after a zero in front would have been seen above.
    obtain ⟨others, rfl⟩ := List.head?_eq_some_iff.mp hhead
    cases others with
    | nil => rfl
    | cons c others => exact absurd rfl (hzero c (others ++ rest))

theorem scanFraction_eq_ok {text rest : List Char} {fraction : Option (List Char)}
    (hscan : scanFraction text = .ok (fraction, rest)) (htext : Clear Char.isDigit text) :
    ∃ spelling, FractionSpelling fraction spelling ∧ text = spelling ++ rest ∧
      Clear Char.isDigit rest := by
  unfold scanFraction at hscan
  split at hscan
  · rename_i after
    cases hdigits : scanDigits after with
    | error fault => rw [hdigits] at hscan; cases hscan
    | ok found =>
        rw [hdigits] at hscan
        cases hscan
        obtain ⟨hfound, rfl, hrest⟩ := scanDigits_eq_ok hdigits
        exact ⟨_, .some hfound, rfl, hrest⟩
  · cases hscan
    exact ⟨[], .none, rfl, htext⟩

theorem exists_signSpelling (text : List Char) :
    ∃ sign, SignSpelling (splitSign text).1 sign ∧ text = sign ++ (splitSign text).2 := by
  unfold splitSign
  split
  · exact ⟨['-'], .minus, rfl⟩
  · exact ⟨['+'], .plus, rfl⟩
  · exact ⟨[], .bare, rfl⟩

theorem scanExponent_eq_ok {text rest : List Char} {exponent : Option (Bool × List Char)}
    (hscan : scanExponent text = .ok (exponent, rest)) (htext : Clear Char.isDigit text) :
    ∃ spelling, ExponentSpelling exponent spelling ∧ text = spelling ++ rest ∧
      Clear Char.isDigit rest := by
  unfold scanExponent at hscan
  split at hscan
  · rename_i c after
    split at hscan
    · rename_i hmark
      cases hdigits : scanDigits (splitSign after).2 with
      | error fault => rw [hdigits] at hscan; cases hscan
      | ok found =>
          rw [hdigits] at hscan
          cases hscan
          obtain ⟨hfound, hafter, hrest⟩ := scanDigits_eq_ok hdigits
          obtain ⟨sign, hsign, htext⟩ := exists_signSpelling after
          refine ⟨_, .some (by simpa using hmark) hsign hfound, ?_, hrest⟩
          rw [List.cons_append, List.append_assoc, ← hafter, ← htext]
    · cases hscan
      exact ⟨[], .none, rfl, htext⟩
  · cases hscan
    exact ⟨[], .none, rfl, clear_nil _⟩

theorem scanUnsigned_eq_ok {negative : Bool} {text rest : List Char} {numeral : Numeral}
    (hscan : scanUnsigned negative text = .ok (numeral, rest)) :
    numeral.negative = negative ∧ ∃ unsigned, numeral.UnsignedSpelling unsigned ∧
      text = unsigned ++ rest ∧ Clear Char.isDigit rest := by
  simp only [scanUnsigned, bind, Except.bind, pure, Except.pure] at hscan
  split at hscan
  · cases hscan
  · rename_i whole hwhole
    split at hscan
    · cases hscan
    · rename_i fraction hfraction
      split at hscan
      · cases hscan
      · rename_i exponent hexponent
        cases hscan
        obtain ⟨hdigits, rfl, hclear⟩ := scanWhole_eq_ok hwhole
        obtain ⟨_, hspelled, hafter, hclear⟩ := scanFraction_eq_ok hfraction hclear
        obtain ⟨_, hspelledExponent, hrest, hclear⟩ := scanExponent_eq_ok hexponent hclear
        refine ⟨rfl, _, .intro hdigits hspelled hspelledExponent, ?_, hclear⟩
        rw [hafter, hrest]
        simp only [List.append_assoc]

end Numeral

namespace Quotation

theorem spelling_of_scan {text rest : List Char} (hscan : (scan text).2 = .ok rest) :
    ∃ body, Spelling (scan text).1 body ∧ text = body ++ '"' :: rest := by
  fun_induction scan text with
  | case2 after =>
      injection hscan with hscan
      exact ⟨[], .nil, by rw [hscan, List.nil_append]⟩
  | case5 a b c d after code hcode ih =>
      obtain ⟨body, hbody, rfl⟩ := ih hscan
      exact ⟨_, .unit hcode hbody, rfl⟩
  | case8 letter after _ _ c hletter ih =>
      obtain ⟨body, hbody, rfl⟩ := ih hscan
      exact ⟨_, .escape hletter hbody, rfl⟩
  | case10 c after hmark hlone _ _ hescape hvisible ih =>
      obtain ⟨body, hbody, hafter⟩ := ih hscan
      refine ⟨c :: body, .plain (Nat.le_of_not_lt hvisible) hmark ?_ hbody, ?_⟩
      · intro hc
        cases after with
        | nil => exact hlone hc rfl
        | cons letter after => exact hescape letter after hc rfl
      · rw [List.cons_append, ← hafter]
  | _ => cases hscan

theorem read_eq_ok {text rest : List Char} {value : Option String}
    (hread : read text = .ok (value, rest)) :
    ∃ pieces body, Spelling pieces body ∧ value = (join pieces).map String.ofList ∧
      text = body ++ '"' :: rest := by
  unfold read at hread
  split at hread
  · rename_i after hscan
    cases hread
    obtain ⟨body, hbody, htext⟩ := spelling_of_scan hscan
    exact ⟨_, body, hbody, rfl, htext⟩
  · cases hread

end Quotation

namespace Token

def isBroken : Token → Bool
  | .broken _ | .brokenText _ => true
  | _ => false

variable {token : Token} {text rest after : List Char}

theorem takeWord_eq_ok {word : List Char} (htake : takeWord word text = .ok rest) :
    text = word ++ rest := by
  induction word generalizing text with
  | nil =>
      injection htake
  | cons letter word ih =>
      cases text with
      | nil => cases htake
      | cons c text =>
          simp only [takeWord] at htake
          split at htake
          · rename_i hc
            rw [hc, ih htake, List.cons_append]
          · cases htake

theorem ofWord_eq {found : Token} {word : List Char}
    (hread : ofWord token word text = (found, after)) (hfound : found.isBroken = false) :
    found = token ∧ text = word ++ after := by
  unfold ofWord at hread
  split at hread
  · rename_i htake
    cases hread
    exact ⟨rfl, takeWord_eq_ok htake⟩
  · cases hread
    cases hfound

theorem ofNumeral_eq {negative : Bool} (hread : ofNumeral negative text = (token, after))
    (htoken : token.isBroken = false) :
    ∃ numeral unsigned, Numeral.UnsignedSpelling numeral unsigned ∧
      numeral.negative = negative ∧ token = .number numeral.number? ∧
      text = unsigned ++ after ∧ Clear Char.isDigit after := by
  unfold ofNumeral at hread
  split at hread
  · rename_i numeral rest hscan
    cases hread
    obtain ⟨hnegative, unsigned, hunsigned, htext, hafter⟩ := Numeral.scanUnsigned_eq_ok hscan
    exact ⟨numeral, unsigned, hunsigned, hnegative, rfl, htext, hafter⟩
  · cases hread
    cases htoken

theorem ofQuotation_eq (hread : ofQuotation text = (token, after))
    (htoken : token.isBroken = false) :
    ∃ pieces body, Quotation.Spelling pieces body ∧
      token = .text ((Quotation.join pieces).map String.ofList) ∧
      text = body ++ '"' :: after := by
  unfold ofQuotation at hread
  split at hread
  · rename_i value rest hvalue
    cases hread
    obtain ⟨pieces, body, hbody, rfl, htext⟩ := Quotation.read_eq_ok hvalue
    exact ⟨pieces, body, hbody, rfl, htext⟩
  · cases hread
    cases htoken

/-- A token that is not broken is spelled where it was read, and a number there has all of its
digits. -/
theorem spelling_of_read {c : Char} (hread : read c text = (token, after))
    (htoken : token.isBroken = false) :
    ∃ spelling, Spelling token spelling ∧ c :: text = spelling ++ after ∧
      (token.isNumber = true → Clear Char.isDigit after) := by
  unfold read at hread
  split at hread
  case h_1 | h_2 | h_3 | h_4 | h_5 | h_6 =>
      cases hread
      exact ⟨_, by constructor, rfl, nofun⟩
  case h_7 =>
      obtain ⟨pieces, body, hbody, rfl, rfl⟩ := ofQuotation_eq hread htoken
      exact ⟨_, .text hbody, by simp, nofun⟩
  case h_8 | h_9 | h_10 =>
      obtain ⟨rfl, rfl⟩ := ofWord_eq hread htoken
      exact ⟨_, by constructor, rfl, nofun⟩
  case h_11 =>
      obtain ⟨numeral, unsigned, hunsigned, hnegative, rfl, rfl, hafter⟩ :=
        ofNumeral_eq hread htoken
      refine ⟨_, .number (.intro hunsigned), ?_, fun _ => hafter⟩
      rw [hnegative]
      rfl
  case h_12 =>
      split at hread
      · obtain ⟨numeral, unsigned, hunsigned, hnegative, rfl, htext, hafter⟩ :=
          ofNumeral_eq hread htoken
        refine ⟨_, .number (.intro hunsigned), ?_, fun _ => hafter⟩
        rw [hnegative, htext]
        rfl
      · cases hread
        cases htoken

/-- What may go on with a numeral, and is no digit, starts no token. -/
theorem clear_of_scan (htext : Clear Char.isDigit text)
    (hscan : ∀ token ∈ scan text, token.isBroken = false) : Clear Numeral.isPart text := by
  cases text with
  | nil => exact clear_nil _
  | cons c text =>
      rw [clear_cons] at htext ⊢
      rw [Bool.eq_false_iff]
      intro hpart
      simp only [Numeral.isPart, htext, Bool.false_or, Bool.or_eq_true, beq_iff_eq] at hpart
      have hbroken : isSpace c = false ∧ (read c text).1 = .broken (.final .malformed) := by
        rcases hpart with (rfl | rfl) | rfl <;> exact ⟨rfl, rfl⟩
      rw [scan, if_neg (by simp [hbroken.1])] at hscan
      have hfirst := hscan _ List.mem_cons_self
      rw [hbroken.2] at hfirst
      cases hfirst

/-- A token is read in the same way whatever stands further on. -/
theorem read_of_spelling {c : Char} {spelling : List Char} (hspelling : Spelling token spelling)
    (htext : c :: text = spelling ++ after)
    (hafter : token.isNumber = true → Clear Numeral.isPart after) :
    isSpace c = false ∧ read c text = (token, after) := by
  obtain ⟨first, others, rfl, hspace, hread⟩ := read_append hspelling hafter
  injection htext with hc hrest
  subst hc hrest
  exact ⟨hspace, hread⟩

theorem scan_ne_nil {text : List Char} (htext : ∃ c ∈ text, isSpace c = false) :
    scan text ≠ [] := by
  induction text with
  | nil =>
      obtain ⟨c, hc, -⟩ := htext
      cases hc
  | cons c text ih =>
      rw [scan]
      split
      · rename_i hspace
        apply ih
        obtain ⟨other, hother, hvisible⟩ := htext
        refine ⟨other, (List.mem_cons.mp hother).resolve_left ?_, hvisible⟩
        rintro rfl
        rw [hspace] at hvisible
        cases hvisible
      · exact List.cons_ne_nil _ _

/-- Without a number at its end, a text is scanned in the same way whatever stands after it. -/
theorem scan_append (htext : ∀ token ∈ scan text, token.isBroken = false)
    (hlast : ∀ token ∈ (scan text).getLast?, token.isNumber = false) (rest : List Char) :
    scan (text ++ rest) = scan text ++ scan rest := by
  fun_induction scan text with
  | case1 => rfl
  | case2 c text hspace ih =>
      rw [List.cons_append, scan, if_pos hspace]
      exact ih htext hlast
  | case3 c text hspace ih =>
      obtain ⟨hfirst, hothers⟩ := List.forall_mem_cons.mp htext
      have hfound : read c text = ((read c text).1, (read c text).2) := rfl
      obtain ⟨spelling, hspelling, hsplit, hdigit⟩ := spelling_of_read hfound hfirst
      have hread : read c (text ++ rest) = ((read c text).1, (read c text).2 ++ rest) := by
        refine (read_of_spelling hspelling ?_ ?_).2
        · rw [← List.cons_append, hsplit, List.append_assoc]
        · intro hnumber
          have hmore : (read c text).2 ≠ [] := by
            intro hnone
            rw [hnone] at hlast
            have := hlast (read c text).1 (by simp [scan])
            rw [hnumber] at this
            cases this
          rw [clear_append_of_ne_nil rest hmore]
          exact clear_of_scan (hdigit hnumber) hothers
      rw [List.cons_append, scan, if_neg hspace, hread, List.cons_append]
      refine congrArg ((read c text).1 :: ·) (ih hothers fun token htoken => hlast token ?_)
      rw [List.getLast?_cons, Option.mem_def.mp htoken]
      rfl

end Token

end UsageReport.Json
