import UsageReport.Proofs.Printed
import UsageReport.Proofs.Written

/-!
The texts that a value may be written as, and that decoding any of them gives the value back. What is
encoded is such a text in either layout, if not of the value itself then of the one that has for
each real number the number that its text is read as.
-/

namespace UsageReport.Json

mutual

/-- The second value has for every real number of the first the one that its text is read as, and
is the same otherwise. -/
def Shape.Rereads {α : Type} : Shape α → α → α → Prop
  | .text, value, found => value = found
  | .flag, value, found => value = found
  | .natural _, value, found => value = found
  | .integer _ _, value, found => value = found
  | .kind _ _, value, found => value = found
  | .real, value, found => (Number.real value).printed = .number (.real found)
  | .list item, values, found => List.Forall₂ item.Rereads values found
  | .optional present, value, found => Option.Rel present.Rereads value found
  | .record _ _ fields, value, found => fields.Rereads value found

def Fields.Rereads {ρ : Type} : Fields ρ → ρ → ρ → Prop
  | .none, _, _ => True
  | .field _ shape get _ rest, record, found =>
    shape.Rereads (get record) (get found) ∧ rest.Rereads record found

end

mutual

def Shape.hasReal {α : Type} : Shape α → Bool
  | .text | .flag | .natural _ | .integer _ _ | .kind _ _ => false
  | .real => true
  | .list item => item.hasReal
  | .optional present => present.hasReal
  | .record _ _ fields => fields.hasReal

def Fields.hasReal {ρ : Type} : Fields ρ → Bool
  | .none => false
  | .field _ shape _ _ rest => shape.hasReal || rest.hasReal

end

mutual

theorem Shape.rereads_self {α : Type} : ∀ {shape : Shape α}, shape.hasReal = false →
    ∀ value : α, shape.Rereads value value
  | .text, _, _ | .flag, _, _ | .natural _, _, _ | .integer _ _, _, _ | .kind _ _, _, _ => by
      simp only [Shape.Rereads]
  | .list item, hshape, values => by
      simp only [Shape.hasReal] at hshape
      simp only [Shape.Rereads]
      exact List.forall₂_same.mpr fun value _ => Shape.rereads_self hshape value
  | .optional present, hshape, value => by
      simp only [Shape.hasReal] at hshape
      simp only [Shape.Rereads]
      cases value with
      | none => exact .none
      | some held => exact .some (Shape.rereads_self hshape held)
  | .record _ _ fields, hshape, value => by
      simp only [Shape.hasReal] at hshape
      simp only [Shape.Rereads]
      exact Fields.rereads_self hshape value

theorem Fields.rereads_self {ρ : Type} : ∀ {fields : Fields ρ}, fields.hasReal = false →
    ∀ record : ρ, fields.Rereads record record
  | .none, _, _ => by simp only [Fields.Rereads]
  | .field _ shape get _ rest, hfields, record => by
      simp only [Fields.hasReal, Bool.or_eq_false_iff] at hfields
      simp only [Fields.Rereads]
      exact ⟨Shape.rereads_self hfields.1 (get record), Fields.rereads_self hfields.2 record⟩

end

mutual

theorem Shape.canonical_of_rereads {α : Type} : ∀ {shape : Shape α} {value found : α},
    shape.Canonical value → shape.Rereads value found → shape.Canonical found
  | .text, _, _, _, _ | .flag, _, _, _, _ | .real, _, _, _, _ => by simp only [Shape.Canonical]
  | .natural _, _, _, hcanonical, hrereads | .integer _ _, _, _, hcanonical, hrereads
  | .kind _ _, _, _, hcanonical, hrereads => by
      simp only [Shape.Rereads] at hrereads
      exact hrereads ▸ hcanonical
  | .list item, values, found, hcanonical, hrereads => by
      simp only [Shape.Canonical] at hcanonical ⊢
      simp only [Shape.Rereads] at hrereads
      intro held hheld
      obtain ⟨place, hplace, rfl⟩ := List.getElem_of_mem hheld
      have hlength := hrereads.length_eq
      exact Shape.canonical_of_rereads (hcanonical _ (List.getElem_mem _))
        (hrereads.get (hlength ▸ hplace) hplace)
  | .optional present, value, found, hcanonical, hrereads => by
      simp only [Shape.Canonical] at hcanonical ⊢
      simp only [Shape.Rereads] at hrereads
      cases hrereads with
      | none => rintro _ ⟨⟩
      | some hheld =>
          rintro _ ⟨⟩
          exact Shape.canonical_of_rereads (hcanonical _ rfl) hheld
  | .record _ _ fields, _, _, hcanonical, hrereads => by
      simp only [Shape.Canonical] at hcanonical ⊢
      simp only [Shape.Rereads] at hrereads
      exact Fields.canonical_of_rereads hcanonical hrereads

theorem Fields.canonical_of_rereads {ρ : Type} : ∀ {fields : Fields ρ} {record found : ρ},
    fields.Canonical record → fields.Rereads record found → fields.Canonical found
  | .none, _, _, _, _ => by simp only [Fields.Canonical]
  | .field .., _, _, hcanonical, hrereads => by
      simp only [Fields.Canonical] at hcanonical ⊢
      simp only [Fields.Rereads] at hrereads
      exact ⟨Shape.canonical_of_rereads hcanonical.1 hrereads.1,
        Fields.canonical_of_rereads hcanonical.2 hrereads.2⟩

end

theorem Items.printed_ofList (values : List Value) :
    (Items.ofList values).printed = Items.ofList (values.map Tree.printed) := by
  induction values with
  | nil => rfl
  | cons value values ih => rw [Items.ofList, Items.printed, ih]; rfl

theorem printed_integer_of_signed {value : Int} (hleast : leastSigned ≤ value)
    (hgreatest : value ≤ greatestSigned) :
    (Number.integer value).printed = .number (.integer value) := by
  refine Number.printed_integer hleast (hgreatest.trans ?_)
  decide

mutual

/-- What a reader finds where a value has been encoded is a way to write the value that it reads. -/
theorem Shape.writes_printed {α : Type} : ∀ {shape : Shape α}, shape.Faithful →
    ∀ {value found : α}, shape.Canonical value → shape.Rereads value found →
      shape.Writes found (shape.write value).printed
  | .text, _, _, _, _, hrereads | .flag, _, _, _, _, hrereads => by
      simp only [Shape.Rereads] at hrereads
      subst hrereads
      simp only [Shape.Writes, Shape.write, Tree.printed]
  | .real, _, _, _, _, hrereads => by
      simp only [Shape.Rereads] at hrereads
      simp only [Shape.Writes, Shape.write, Tree.printed]
      exact hrereads
  | .natural greatest, hfaithful, value, _, hcanonical, hrereads => by
      simp only [Shape.Rereads] at hrereads
      subst hrereads
      simp only [Shape.Faithful] at hfaithful
      simp only [Shape.Canonical] at hcanonical
      simp only [Shape.Writes, Shape.write, Tree.printed]
      exact Number.printed_integer (by omega) (by omega)
  | .integer least greatest, hfaithful, value, _, hcanonical, hrereads => by
      simp only [Shape.Rereads] at hrereads
      subst hrereads
      simp only [Shape.Faithful] at hfaithful
      simp only [Shape.Canonical] at hcanonical
      simp only [Shape.Writes, Shape.write, Tree.printed]
      exact printed_integer_of_signed (hfaithful.1.trans hcanonical.1)
        (hcanonical.2.trans hfaithful.2)
  | .kind code ofCode, _, value, _, hcanonical, hrereads => by
      simp only [Shape.Rereads] at hrereads
      subst hrereads
      simp only [Shape.Canonical] at hcanonical
      simp only [Shape.Writes, Shape.write, Tree.printed]
      exact printed_integer_of_signed hcanonical.2.1 hcanonical.2.2
  | .list item, hfaithful, values, found, hcanonical, hrereads => by
      simp only [Shape.Faithful] at hfaithful
      simp only [Shape.Canonical] at hcanonical
      simp only [Shape.Rereads] at hrereads
      simp only [Shape.Writes, Shape.write, Tree.printed]
      refine ⟨values.map fun value => (item.write value).printed, ?_, ?_⟩
      · rw [List.forall₂_map_right_iff]
        refine List.Forall₂.flip (((List.forall₂_and_left _ _).mpr ⟨hcanonical, hrereads⟩).imp ?_)
        rintro value held ⟨hvalue, hheld⟩
        exact Shape.writes_printed hfaithful hvalue hheld
      · rw [Items.printed_ofList, List.map_map]
        rfl
  | .optional present, hfaithful, value, found, hcanonical, hrereads => by
      simp only [Shape.Faithful] at hfaithful
      simp only [Shape.Canonical] at hcanonical
      simp only [Shape.Rereads] at hrereads
      cases hrereads with
      | none => simp only [Shape.Writes, Shape.write, Tree.printed]
      | some hheld =>
          simp only [Shape.Writes, Shape.write]
          exact Shape.writes_printed hfaithful.2 (hcanonical _ rfl) hheld
  | .record strict blank fields, hfaithful, value, found, hcanonical, hrereads => by
      simp only [Shape.Faithful] at hfaithful
      simp only [Shape.Canonical] at hcanonical
      simp only [Shape.Rereads] at hrereads
      obtain ⟨entries, hwrites, hentries⟩ :=
        Fields.writes_printed strict hfaithful.1 hcanonical hrereads
      simp only [Shape.write, Tree.printed, hentries]
      refine Shape.writes_record hwrites (List.forall_mem_nil _) ?_
      rw [List.append_nil]

theorem Fields.writes_printed {ρ : Type} (strict : Bool) : ∀ {fields : Fields ρ},
    fields.Faithful → ∀ {record found : ρ}, fields.Canonical record →
      fields.Rereads record found → ∃ entries, fields.Writes strict found entries ∧
        (fields.write record).printed = Members.ofList entries
  | .none, _, _, _, _, _ => by
      refine ⟨[], Fields.writes_none, ?_⟩
      simp only [Fields.write, Members.printed, Members.ofList]
  | .field name shape get _ rest, hfaithful, record, found, hcanonical, hrereads => by
      simp only [Fields.Faithful] at hfaithful
      simp only [Fields.Canonical] at hcanonical
      simp only [Fields.Rereads] at hrereads
      have hfirst := Shape.writes_printed hfaithful.1 hcanonical.1 hrereads.1
      obtain ⟨entries, hrest, hentries⟩ :=
        Fields.writes_printed strict hfaithful.2 hcanonical.2 hrereads.2
      refine ⟨_, Fields.writes_kept hfirst hrest, ?_⟩
      simp only [Fields.write, Members.printed, Members.ofList, hentries]

end

namespace Shape

variable {α : Type} {shape : Shape α} {value found : α} {text : String}

/-- The text spells a tree that the value may be written as, with blanks anywhere between the
tokens. -/
def WrittenAs (shape : Shape α) (value : α) (text : String) : Prop :=
  ∃ tree tokens, shape.Writes value tree ∧ tree.Spelled tokens ∧ Token.Spelled tokens text.toList

theorem decode_of_writtenAs (hlawful : shape.Lawful) (hfaithful : shape.Faithful)
    (hcanonical : shape.Canonical value) (hwritten : shape.WrittenAs value text) :
    shape.decode text = .ok value := by
  obtain ⟨tree, tokens, hwrites, htree, htext⟩ := hwritten
  have hread := read_of_writes hlawful hfaithful hcanonical hwrites
  simp only [decode, Document.ofText_of_spelled htree htext, hread]

theorem writtenAs_encode (hfaithful : shape.Faithful) (hcanonical : shape.Canonical value)
    (hrereads : shape.Rereads value found) (layout : Layout) :
    shape.WrittenAs found (shape.encode layout value) := by
  obtain ⟨tokens, htree, htext⟩ := Tree.spelled_write layout 0 (shape.write value)
  refine ⟨_, tokens, writes_printed hfaithful hcanonical hrereads, htree, ?_⟩
  rwa [encode, Tree.toText, String.toList_ofList]

theorem decode_encode (hlawful : shape.Lawful) (hfaithful : shape.Faithful)
    (hcanonical : shape.Canonical value) (hrereads : shape.Rereads value found)
    (layout : Layout) : shape.decode (shape.encode layout value) = .ok found :=
  decode_of_writtenAs hlawful hfaithful (canonical_of_rereads hcanonical hrereads)
    (writtenAs_encode hfaithful hcanonical hrereads layout)

theorem decode_encode_real {value found : Binary64}
    (hprinted : (Number.real value).printed = .number (.real found)) (layout : Layout) :
    real.decode (real.encode layout value) = .ok found := by
  refine decode_encode ?_ ?_ ?_ ?_ layout
  · simp only [Lawful]
  · simp only [Faithful]
  · simp only [Canonical]
  · simpa only [Rereads] using hprinted

end Shape

end UsageReport.Json
