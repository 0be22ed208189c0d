import UsageReport.Proofs.StubTrees

/-!
Readers who want a value to its end. A reader skips only what has a name that it does not know, so
that one who knows all names in a value comes to every part of it. On what is left of the value
where its text ends early, such a reader fails for no other reason than that.
-/

namespace UsageReport.Json

mutual

/-- Whether any member in the value, at any depth, has a name that its record does not know. -/
def Shape.hasUnknown {α : Type} : Shape α → Tree Fault → Bool
  | .text, _ | .flag, _ | .natural _, _ | .integer _ _, _ | .kind _ _, _ | .real, _ => false
  | .list item, .list items => items.values.any item.hasUnknown
  | .list _, _ => false
  | .optional present, tree => present.hasUnknown tree
  | .record _ _ fields, .list items => fields.hasUnknownIn items.values
  | .record _ _ fields, .record members =>
    members.entries.any fun entry =>
      match entry.1 with
      | .ok name => fields.hasUnknownAt name entry.2
      | .error _ => false
  | .record _ _ _, _ => false

/-- The same of values for the fields in order. -/
def Fields.hasUnknownIn {ρ : Type} : Fields ρ → List (Tree Fault) → Bool
  | .none, _ | .field _ _ _ _ _, [] => false
  | .field _ shape _ _ rest, value :: values =>
    shape.hasUnknown value || rest.hasUnknownIn values

/-- The same of a member. -/
def Fields.hasUnknownAt {ρ : Type} : Fields ρ → String → Tree Fault → Bool
  | .none, _, _ => true
  | .field own shape _ _ rest, name, value =>
    if own = name then shape.hasUnknown value else rest.hasUnknownAt name value

end

mutual

/-- All numbers are integers, and their bounds lie on both sides of zero. -/
def Shape.spansZero {α : Type} : Shape α → Bool
  | .text | .flag | .natural _ | .kind _ _ => true
  | .integer least greatest => decide (least ≤ 0) && decide (0 ≤ greatest)
  | .real => false
  | .list item => item.spansZero
  | .optional present => present.spansZero
  | .record _ _ fields => fields.spansZero

def Fields.spansZero {ρ : Type} : Fields ρ → Bool
  | .none => true
  | .field _ shape _ _ rest => shape.spansZero && rest.spansZero

end

/-- The reader wants the value to its end, and says so wherever the text ends before. -/
structure Tree.Wanted {α : Type} (read : Tree Fault → Except Failure α) (tree : Tree Fault) :
    Prop where
  isPlain : tree.isPlain = true
  ended : ∀ {stub : Tree Fault} {failure : Failure}, stub.IsStub tree →
    read stub = .error failure → failure = .ended

structure Items.Wanted {α : Type} (read : Items Fault → Except Failure α) (items : Items Fault) :
    Prop where
  isPlain : items.isPlain = true
  ended : ∀ {stub : Items Fault} {failure : Failure}, stub.IsStub items →
    read stub = .error failure → failure = .ended

structure Members.Wanted {α : Type} (read : Members Fault → Except Failure α)
    (members : Members Fault) : Prop where
  isPlain : members.isPlain = true
  ended : ∀ {stub : Members Fault} {failure : Failure}, stub.IsStub members →
    read stub = .error failure → failure = .ended

theorem map_eq_error_iff {ε α β : Type} {f : α → β} {attempt : Except ε α} {error : ε} :
    attempt.map f = .error error ↔ attempt = .error error := by
  cases attempt <;> simp [Except.map]

namespace Tree

variable {α β : Type} {read : Tree Fault → Except Failure α} {value : α}

theorem Wanted.map {tree : Tree Fault} (hwanted : tree.Wanted read) (f : α → β) :
    tree.Wanted fun tree => (read tree).map f :=
  ⟨hwanted.isPlain, fun hstub hread => hwanted.ended hstub (map_eq_error_iff.mp hread)⟩

/-- An integer of fewer digits lies within the bounds too. -/
theorem wanted_integer {least greatest value : Int} (hzero : least ≤ 0 ∧ 0 ≤ greatest)
    (hvalue : least ≤ value ∧ value ≤ greatest) :
    (Tree.number (.integer value)).Wanted (readInteger least greatest) := by
  refine ⟨rfl, fun {stub failure} hstub hread => ?_⟩
  have hwithin {found : Int} (hfound : found ∈ Set.uIcc 0 value)
      (hread : readInteger least greatest (.number (.integer found)) = .error failure) : False := by
    rw [Set.mem_uIcc] at hfound
    rw [readInteger, if_pos (by omega)] at hread
    cases hread
  cases hstub with
  | whole => exact (hwithin Set.right_mem_uIcc hread).elim
  | integer hbetween => exact (hwithin hbetween hread).elim
  | ended hended =>
      cases hread
      exact hended

section Refusal

variable (hrefusal : ∀ fault, read (.fault fault) = .error fault.wanted)

include hrefusal

/-- A text is whole or not there at all. -/
theorem wanted_text {text : String} (hread : read (.text text) = .ok value) :
    (Tree.text text).Wanted read := by
  refine ⟨rfl, fun {stub failure} hstub hfailed => ?_⟩
  cases hstub with
  | whole => rw [hread] at hfailed; cases hfailed
  | ended hended => rw [hrefusal] at hfailed; cases hfailed; exact hended

theorem wanted_flag {flag : Bool} (hread : read (.flag flag) = .ok value) :
    (Tree.flag flag).Wanted read := by
  refine ⟨rfl, fun {stub failure} hstub hfailed => ?_⟩
  cases hstub with
  | whole => rw [hread] at hfailed; cases hfailed
  | ended hended => rw [hrefusal] at hfailed; cases hfailed; exact hended

theorem wanted_list {items : Items Fault} (hread : read (.list items) = .ok value)
    (hitems : items.Wanted fun items => read (.list items)) : (Tree.list items).Wanted read := by
  refine ⟨hitems.isPlain, fun {stub failure} hstub hfailed => ?_⟩
  cases hstub with
  | whole => rw [hread] at hfailed; cases hfailed
  | ended hended => rw [hrefusal] at hfailed; cases hfailed; exact hended
  | list hstub => exact hitems.ended hstub hfailed

theorem wanted_record {members : Members Fault} (hread : read (.record members) = .ok value)
    (hmembers : members.Wanted fun members => read (.record members)) :
    (Tree.record members).Wanted read := by
  refine ⟨hmembers.isPlain, fun {stub failure} hstub hfailed => ?_⟩
  cases hstub with
  | whole => rw [hread] at hfailed; cases hfailed
  | ended hended => rw [hrefusal] at hfailed; cases hfailed; exact hended
  | record hstub => exact hmembers.ended hstub hfailed

/-- What may also be null is wanted as it is without. -/
theorem wanted_optional {tree : Tree Fault} (hwanted : tree ≠ .null → tree.Wanted read) :
    tree.Wanted (readOptional read) := by
  by_cases hnull : tree = .null
  · subst hnull
    refine ⟨rfl, fun {stub failure} hstub hfailed => ?_⟩
    cases hstub with
    | whole => cases hfailed
    | ended hended =>
        have hread := map_eq_error_iff.mp hfailed
        rw [hrefusal] at hread
        cases hread
        exact hended
  · refine ⟨(hwanted hnull).isPlain, fun {stub failure} hstub hfailed => ?_⟩
    cases stub with
    | null => cases hfailed
    | _ => exact (hwanted hnull).ended hstub (map_eq_error_iff.mp hfailed)

end Refusal

end Tree

namespace Items

variable {α ρ : Type} {read : Items Fault → Except Failure α}

theorem wanted_close (hcut : ∀ fault, read (.cut fault) = .error fault.wanted) :
    Items.close.Wanted read := by
  refine ⟨rfl, fun {stub failure} hstub hfailed => ?_⟩
  cases hstub with
  | cut hended => rw [hcut] at hfailed; cases hfailed; exact hended

theorem wanted_item {tree : Tree Fault} {rest : Items Fault}
    (hcut : ∀ fault, read (.cut fault) = .error fault.wanted)
    (hplain : tree.isPlain = true ∧ rest.isPlain = true)
    (hended : ∀ {first : Tree Fault} {stub : Items Fault} {failure : Failure}, first.IsStub tree →
      stub.IsStub rest → read (.item first stub) = .error failure → failure = .ended) :
    (Items.item tree rest).Wanted read := by
  refine ⟨Bool.and_eq_true_iff.mpr hplain, fun {stub failure} hstub hfailed => ?_⟩
  cases hstub with
  | cut hended => rw [hcut] at hfailed; cases hfailed; exact hended
  | item hfirst hrest => exact hended hfirst hrest hfailed

theorem wanted_read {read : Tree Fault → Except Failure α} :
    ∀ {items : Items Fault} {values : List α}, items.read read = .ok values →
      (∀ tree ∈ items.values, ∀ value, read tree = .ok value → tree.Wanted read) →
      items.Wanted fun items => items.read read
  | .close, _, _, _ => wanted_close fun _ => rfl
  | .cut fault, _, hread, _ => by cases hread
  | .item tree rest, _, hread, hwanted => by
      simp only [Items.read] at hread
      split at hread
      · cases hread
      · rename_i value hvalue
        obtain ⟨others, hothers, -⟩ := map_eq_ok_iff.mp hread
        obtain ⟨hfirst, hwanted⟩ := List.forall_mem_cons.mp hwanted
        have htree := hfirst value hvalue
        have hrest := wanted_read hothers hwanted
        refine wanted_item (fun _ => rfl) ⟨htree.isPlain, hrest.isPlain⟩ ?_
        intro first stub failure hstub hstubs hfailed
        simp only [Items.read] at hfailed
        split at hfailed
        · rename_i hfound
          cases hfailed
          exact htree.ended hstub hfound
        · exact hrest.ended hstubs (map_eq_error_iff.mp hfailed)

end Items

/-- Where every name is known and every field is wanted, the members are. -/
theorem Members.wanted_readFields {ρ : Type} {strict : Bool} {slots : List (Slot ρ)} :
    ∀ {members : Members Fault} {seen : List String} {record result : ρ},
      members.readFields strict slots seen record = .ok result →
      (∀ name tree, (.ok name, tree) ∈ members.entries → ∃ slot,
        Slot.find? slots name = some slot ∧
          ∀ update, slot.read tree = .ok update → tree.Wanted slot.read) →
      ∀ start, members.Wanted fun members => members.readFields strict slots seen start
  | .close, seen, _, _, _, _, start => by
      refine ⟨rfl, fun {stub failure} hstub hfailed => ?_⟩
      cases hstub with
      | cut hended => cases hfailed; exact hended
  | .cut fault, _, _, _, hread, _, _ => by cases hread
  | .member (.error fault) _ _, _, _, _, hread, _, _ => by cases hread
  | .member (.ok name) tree rest, seen, record, _, hread, hwanted, start => by
      obtain ⟨slot, hslot, hfirst⟩ := hwanted name tree List.mem_cons_self
      have hothers := fun name tree hentry => hwanted name tree (List.mem_cons_of_mem _ hentry)
      simp only [Members.readFields, hslot] at hread
      split at hread
      · cases hread
      · rename_i hseen
        split at hread
        · cases hread
        · rename_i update hupdate
          have htree := hfirst update hupdate
          have hrest := wanted_readFields hread hothers
          refine ⟨Bool.and_eq_true_iff.mpr ⟨htree.isPlain, (hrest record).isPlain⟩, ?_⟩
          intro stub failure hstub hfailed
          cases hstub with
          | cut hended => cases hfailed; exact hended
          | member hvalue hstub =>
              simp only [Members.readFields, hslot, if_neg hseen] at hfailed
              split at hfailed
              · rename_i hfound
                cases hfailed
                exact htree.ended hvalue hfound
              · exact (hrest _).ended hstub hfailed

theorem Shape.read_fault : ∀ {α : Type} (shape : Shape α) (fault : Fault),
    shape.read (.fault fault) = .error fault.wanted
  | _, .optional present, fault => by
      simp only [Shape.read, Tree.readOptional, Shape.read_fault present fault]
      rfl
  | _, .text, _ | _, .flag, _ | _, .natural _, _ | _, .integer _ _, _ | _, .kind _ _, _
  | _, .real, _ | _, .list _, _ | _, .record _ _ _, _ => by
      simp only [Shape.read]
      rfl

mutual

/-- Where all names are known, every part of a value is wanted. -/
theorem Shape.wanted {α : Type} : ∀ {shape : Shape α}, shape.spansZero = true →
    ∀ {tree : Tree Fault} {value : α}, shape.read tree = .ok value →
      shape.hasUnknown tree = false → tree.Wanted shape.read
  | .text, _, tree, value, hread, _ => by
      simp only [Shape.read] at hread ⊢
      cases tree <;> first | exact Tree.wanted_text (fun _ => rfl) hread | cases hread
  | .flag, _, tree, value, hread, _ => by
      simp only [Shape.read] at hread ⊢
      cases tree <;> first | exact Tree.wanted_flag (fun _ => rfl) hread | cases hread
  | .natural greatest, _, tree, value, hread, _ => by
      simp only [Shape.read] at hread ⊢
      obtain ⟨held, hheld, -⟩ := map_eq_ok_iff.mp hread
      obtain ⟨rfl, hbounds⟩ := Tree.readInteger_eq_ok_iff.mp hheld
      exact (Tree.wanted_integer ⟨by omega, by omega⟩ hbounds).map _
  | .integer least greatest, hspans, tree, value, hread, _ => by
      simp only [Shape.read, Shape.spansZero, Bool.and_eq_true, decide_eq_true_eq] at hread hspans ⊢
      obtain ⟨rfl, hbounds⟩ := Tree.readInteger_eq_ok_iff.mp hread
      exact Tree.wanted_integer hspans hbounds
  | .kind code ofCode, _, tree, value, hread, _ => by
      simp only [Shape.read] at hread ⊢
      obtain ⟨held, hheld, -⟩ := map_eq_ok_iff.mp hread
      obtain ⟨rfl, hbounds⟩ := Tree.readInteger_eq_ok_iff.mp hheld
      exact (Tree.wanted_integer (by decide) hbounds).map _
  | .real, hspans, _, _, _, _ => by
      simp only [Shape.spansZero] at hspans
      cases hspans
  | .list item, hspans, tree, values, hread, hknown => by
      simp only [Shape.read] at hread ⊢
      simp only [Shape.spansZero] at hspans
      obtain ⟨items, rfl, hitems⟩ := Tree.readList_eq_ok_iff.mp hread
      simp only [Shape.hasUnknown, List.any_eq_false, Bool.not_eq_true] at hknown
      exact Tree.wanted_list (fun _ => rfl) hread (Items.wanted_read hitems
        fun tree htree value hvalue => Shape.wanted hspans hvalue (hknown tree htree))
  | .optional present, hspans, tree, value, hread, hknown => by
      simp only [Shape.read] at hread ⊢
      simp only [Shape.spansZero] at hspans
      simp only [Shape.hasUnknown] at hknown
      refine Tree.wanted_optional present.read_fault fun hnull => ?_
      rcases Tree.readOptional_eq_ok_iff.mp hread with ⟨hnone, -⟩ | ⟨-, held, hheld, -⟩
      · exact absurd hnone hnull
      · exact Shape.wanted hspans hheld hknown
  | .record strict blank fields, hspans, tree, record, hread, hknown => by
      simp only [Shape.read] at hread ⊢
      simp only [Shape.spansZero] at hspans
      cases tree with
      | null | flag _ | number _ | text _ | fault _ => cases hread
      | list items =>
          simp only [Shape.hasUnknown] at hknown
          exact Tree.wanted_list (fun _ => rfl) hread
            (Fields.wanted_items hspans hread hknown blank)
      | record members =>
          simp only [Shape.hasUnknown, List.any_eq_false, Bool.not_eq_true] at hknown
          exact Tree.wanted_record (fun _ => rfl) hread (Members.wanted_readFields hread
            (fun name tree hentry => Fields.wanted_member hspans (hknown _ hentry)) blank)

theorem Fields.wanted_items {ρ : Type} {strict : Bool} : ∀ {fields : Fields ρ},
    fields.spansZero = true → ∀ {items : Items Fault} {record result : ρ},
      items.readFields strict record fields.slots = .ok result →
      fields.hasUnknownIn items.values = false →
      ∀ start, items.Wanted fun items => items.readFields strict start fields.slots
  | .none, _, items, _, _, hread, _, start => by
      simp only [Fields.slots] at hread ⊢
      cases items with
      | close => exact Items.wanted_close fun _ => rfl
      | cut fault => cases hread
      | item tree rest => cases hread
  | .field name shape get set rest, hspans, items, record, _, hread, hknown, start => by
      simp only [Fields.slots] at hread ⊢
      simp only [Fields.spansZero, Bool.and_eq_true] at hspans
      cases items with
      | close => exact Items.wanted_close fun _ => rfl
      | cut fault => cases hread
      | item tree others =>
          simp only [Items.values, Fields.hasUnknownIn, Bool.or_eq_false_iff] at hknown
          simp only [Items.readFields] at hread
          split at hread
          · cases hread
          · rename_i update hupdate
            obtain ⟨value, hvalue, -⟩ := map_eq_ok_iff.mp hupdate
            have htree := Shape.wanted hspans.1 hvalue hknown.1
            have hrest := Fields.wanted_items hspans.2 hread hknown.2
            refine Items.wanted_item (fun _ => rfl) ⟨htree.isPlain, (hrest record).isPlain⟩ ?_
            intro first stub failure hstub hstubs hfailed
            simp only [Items.readFields] at hfailed
            split at hfailed
            · rename_i hfound
              cases hfailed
              exact htree.ended hstub (map_eq_error_iff.mp hfound)
            · exact (hrest _).ended hstubs hfailed

theorem Fields.wanted_member {ρ : Type} : ∀ {fields : Fields ρ}, fields.spansZero = true →
    ∀ {name : String} {tree : Tree Fault}, fields.hasUnknownAt name tree = false →
      ∃ slot, Slot.find? fields.slots name = some slot ∧
        ∀ update, slot.read tree = .ok update → tree.Wanted slot.read
  | .none, _, name, tree, hknown => by
      simp only [Fields.hasUnknownAt] at hknown
      cases hknown
  | .field own shape get set rest, hspans, name, tree, hknown => by
      simp only [Fields.spansZero, Bool.and_eq_true] at hspans
      simp only [Fields.hasUnknownAt] at hknown
      simp only [Fields.slots]
      split at hknown
      · rename_i hname
        refine ⟨_, List.find?_cons_of_pos (by simp [hname]), fun update hupdate => ?_⟩
        obtain ⟨value, hvalue, -⟩ := map_eq_ok_iff.mp hupdate
        exact (Shape.wanted hspans.1 hvalue hknown).map _
      · rename_i hname
        obtain ⟨slot, hslot, hwanted⟩ := Fields.wanted_member hspans.2 hknown
        refine ⟨slot, ?_, hwanted⟩
        rw [Slot.find?, List.find?_cons_of_neg (by simpa using hname)]
        exact hslot

end

end UsageReport.Json
