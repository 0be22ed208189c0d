import Mathlib.Data.List.Forall2
import UsageReport.Store.Load

/-!
Canonical values: those that a reader can yield, whatever the text. A number keeps within its
bounds, and a kind stands under its name if its code has one.

A shape is lawful if its fields are independent of each other, so that what is put into a record
is what is taken out of it.
-/

namespace UsageReport.Json

theorem map_eq_ok_iff {ε α β : Type} {f : α → β} {attempt : Except ε α} {value : β} :
    attempt.map f = .ok value ↔ ∃ held, attempt = .ok held ∧ f held = value := by
  cases attempt <;> simp [Except.map]

namespace Items

def values {φ : Type} : Items φ → List (Tree φ)
  | .close | .cut _ => []
  | .item value rest => value :: rest.values

theorem forall₂_of_read {α : Type} {read : Tree Fault → Except Failure α} :
    ∀ {items : Items Fault} {found : List α}, items.read read = .ok found →
      List.Forall₂ (fun tree value => read tree = .ok value) items.values found
  | .close, _, rfl => .nil
  | .item tree rest, found, hread => by
      simp only [Items.read] at hread
      split at hread
      · cases hread
      · rename_i value hvalue
        obtain ⟨others, hothers, rfl⟩ := map_eq_ok_iff.mp hread
        exact .cons hvalue (forall₂_of_read hothers)

end Items

namespace Members

def entries {φ : Type} : Members φ → List (Except φ String × Tree φ)
  | .close | .cut _ => []
  | .member name value rest => (name, value) :: rest.entries

end Members

/-- The change that a value makes to a record keeps a property of the record. -/
def Slot.Keeps {ρ : Type} (property : ρ → Prop) (slot : Slot ρ) (tree : Tree Fault) : Prop :=
  ∀ update, slot.read tree = .ok update → ∀ record, property record → property (update record)

section Invariant

variable {ρ : Type} {P : ρ → Prop} {strict : Bool} {result : ρ}

theorem Items.readFields_invariant :
    ∀ {items : Items Fault} {slots : List (Slot ρ)} {record : ρ},
      (∀ slot ∈ slots, ∀ tree ∈ items.values, slot.Keeps P tree) → P record →
      items.readFields strict record slots = .ok result → P result
  | .cut _, [], _, _, _, hread | .cut _, _ :: _, _, _, _, hread => by cases hread
  | .close, [], record, _, hrecord, hread => by
      cases hread
      exact hrecord
  | .close, _ :: _, record, _, hrecord, hread => by
      simp only [Items.readFields] at hread
      split at hread <;> cases hread
      exact hrecord
  | .item _ _, [], _, _, _, hread => by cases hread
  | .item tree rest, slot :: slots, record, hkeeps, hrecord, hread => by
      simp only [Items.readFields] at hread
      split at hread
      · cases hread
      · rename_i update hupdate
        refine readFields_invariant (fun slot hslot tree htree => ?_) ?_ hread
        · exact hkeeps slot (List.mem_cons_of_mem _ hslot) tree (List.mem_cons_of_mem _ htree)
        · exact hkeeps slot List.mem_cons_self tree List.mem_cons_self update hupdate record hrecord

/-- Only a member that has the name of a slot makes a change. -/
theorem Members.readFields_invariant {slots : List (Slot ρ)} :
    ∀ {members : Members Fault} {seen : List String} {record : ρ},
      (∀ slot ∈ slots, ∀ tree, (.ok slot.name, tree) ∈ members.entries →
        slot.Keeps P tree) → P record →
      members.readFields strict slots seen record = .ok result → P result
  | .cut _, _, _, _, _, hread => by cases hread
  | .close, _, record, _, hrecord, hread => by
      simp only [Members.readFields] at hread
      split at hread <;> cases hread
      exact hrecord
  | .member (.error _) _ _, _, _, _, _, hread => by cases hread
  | .member (.ok name) tree rest, seen, record, hkeeps, hrecord, hread => by
      have hrest : ∀ slot ∈ slots, ∀ tree, (.ok slot.name, tree) ∈ rest.entries →
          slot.Keeps P tree :=
        fun slot hslot tree htree => hkeeps slot hslot tree (List.mem_cons_of_mem _ htree)
      simp only [Members.readFields] at hread
      split at hread
      -- No slot has the name, so the value is only skipped.
      · split at hread
        · cases hread
        · exact readFields_invariant hrest hrecord hread
      · rename_i slot hslot
        split at hread
        · cases hread
        · split at hread
          · cases hread
          · rename_i update hupdate
            obtain rfl : slot.name = name := by simpa using List.find?_some hslot
            refine readFields_invariant hrest ?_ hread
            exact hkeeps slot (List.mem_of_find?_eq_some hslot) tree List.mem_cons_self update
              hupdate record hrecord

/-- The values right inside a list or a record. -/
def Tree.children {φ : Type} : Tree φ → List (Tree φ)
  | .list items => items.values
  | .record members => members.entries.map Prod.snd
  | .null | .flag _ | .number _ | .text _ | .fault _ => []

theorem Tree.readRecord_invariant {blank : ρ} {slots : List (Slot ρ)} {tree : Tree Fault}
    (hblank : P blank)
    (hkeeps : ∀ slot ∈ slots, ∀ child ∈ tree.children, slot.Keeps P child)
    (hread : tree.readRecord strict blank slots = .ok result) : P result := by
  cases tree with
  | list items => exact Items.readFields_invariant hkeeps hblank hread
  | record members =>
      refine Members.readFields_invariant (fun slot hslot tree htree => ?_) hblank hread
      exact hkeeps slot hslot tree (List.mem_map_of_mem htree)
  | null | flag _ | number _ | text _ | fault _ => cases hread

end Invariant

mutual

/-- Every number is within its bounds and every kind is the one that its code stands for. -/
def Shape.Canonical {α : Type} : Shape α → α → Prop
  | .text, _ | .flag, _ | .real, _ => True
  | .natural greatest, value => value ≤ greatest
  | .integer least greatest, value => least ≤ value ∧ value ≤ greatest
  | .kind code ofCode, value =>
    ofCode (code value) = value ∧ leastSigned ≤ code value ∧ code value ≤ greatestSigned
  | .list item, values => ∀ value ∈ values, item.Canonical value
  | .optional present, value => ∀ held, value = some held → present.Canonical held
  | .record _ _ fields, record => fields.Canonical record

def Fields.Canonical {ρ : Type} : Fields ρ → ρ → Prop
  | .none, _ => True
  | .field _ shape get _ rest, record => shape.Canonical (get record) ∧ rest.Canonical record

end

namespace Fields

variable {ρ : Type}

/-- The records hold the same in every field. -/
def Agree : Fields ρ → ρ → ρ → Prop
  | .none, _, _ => True
  | .field _ _ get _ rest, first, second => get first = get second ∧ rest.Agree first second

/-- No field changes what is observed of a record. -/
def Preserve {β : Type} (observe : ρ → β) : Fields ρ → Prop
  | .none => True
  | .field _ _ _ set rest =>
    (∀ record value, observe (set record value) = observe record) ∧ rest.Preserve observe

theorem canonical_of_agree : ∀ {fields : Fields ρ} {first second : ρ},
    fields.Agree first second → fields.Canonical second → fields.Canonical first
  | .none, _, _, _, _ => by simp only [Fields.Canonical]
  | .field _ shape get _ rest, first, second, hagree, hsecond => by
      simp only [Agree, Fields.Canonical] at hagree hsecond ⊢
      rw [hagree.1]
      exact ⟨hsecond.1, canonical_of_agree hagree.2 hsecond.2⟩

theorem slot_field {α : Type} {slot : Slot ρ} {name : String} {shape : Shape α} {get : ρ → α}
    {set : ρ → α → ρ} {rest : Fields ρ} (hslot : slot ∈ (field name shape get set rest).slots) :
    slot = ⟨name, fun tree => (shape.read tree).map fun value record => set record value⟩ ∨
      slot ∈ rest.slots := by
  simpa only [slots, List.mem_cons] using hslot

end Fields

theorem Fields.observe_of_slot {ρ β : Type} {observe : ρ → β} :
    ∀ {fields : Fields ρ}, fields.Preserve observe → ∀ {slot : Slot ρ}, slot ∈ fields.slots →
      ∀ {tree : Tree Fault} {update : ρ → ρ}, slot.read tree = .ok update →
      ∀ record, observe (update record) = observe record
  | .none, _, slot, hslot, _, _, _, _ => by
      simp only [slots, List.not_mem_nil] at hslot
  | .field _ shape _ set rest, hpreserve, slot, hslot, tree, update, hread, record => by
      simp only [Preserve] at hpreserve
      rcases slot_field hslot with rfl | hrest
      · obtain ⟨value, -, rfl⟩ := map_eq_ok_iff.mp hread
        exact hpreserve.1 record value
      · exact observe_of_slot hpreserve.2 hrest hread record

mutual

/-- The codes of kinds survive reading, fields are independent of each other, and a blank record
is canonical. -/
def Shape.Lawful {α : Type} : Shape α → Prop
  | .text | .flag | .natural _ | .integer _ _ | .real => True
  | .kind code ofCode => ∀ value, code (ofCode value) = value
  | .list item => item.Lawful
  | .optional present => present.Lawful
  | .record _ blank fields => fields.Lawful ∧ fields.Canonical blank

def Fields.Lawful {ρ : Type} : Fields ρ → Prop
  | .none => True
  | .field _ shape get set rest =>
    shape.Lawful ∧ (∀ record value, get (set record value) = value) ∧
      (∀ record value, rest.Agree (set record value) record) ∧ rest.Preserve get ∧ rest.Lawful

end

theorem Shape.canonical_blank {ρ : Type} {strict : Bool} {blank : ρ} {fields : Fields ρ}
    (hlawful : (Shape.record strict blank fields).Lawful) :
    (Shape.record strict blank fields).Canonical blank := by
  simp only [Lawful] at hlawful
  simpa only [Canonical] using hlawful.2

theorem Tree.readInteger_eq_ok_iff {least greatest value : Int} {tree : Tree Fault} :
    tree.readInteger least greatest = .ok value ↔
      tree = .number (.integer value) ∧ least ≤ value ∧ value ≤ greatest := by
  constructor
  · intro hread
    unfold readInteger at hread
    split at hread
    · split at hread
      · rename_i hbounds
        cases hread
        exact ⟨rfl, hbounds⟩
      · cases hread
    · unfold refuse at hread
      split at hread <;> cases hread
  · rintro ⟨rfl, hbounds⟩
    exact if_pos hbounds

theorem Tree.readList_eq_ok_iff {α : Type} {read : Tree Fault → Except Failure α}
    {tree : Tree Fault} {values : List α} :
    tree.readList read = .ok values ↔
      ∃ items, tree = .list items ∧ items.read read = .ok values := by
  cases tree <;> simp [readList, refuse]

theorem Tree.readOptional_eq_ok_iff {α : Type} {read : Tree Fault → Except Failure α}
    {tree : Tree Fault} {value : Option α} :
    tree.readOptional read = .ok value ↔
      (tree = .null ∧ none = value) ∨
        tree ≠ .null ∧ ∃ held, read tree = .ok held ∧ some held = value := by
  cases tree <;> simp [readOptional, map_eq_ok_iff]

mutual

/-- Reading yields canonical values only. -/
theorem Shape.canonical_of_read {α : Type} : ∀ {shape : Shape α}, shape.Lawful →
    ∀ {tree : Tree Fault} {value : α}, shape.read tree = .ok value → shape.Canonical value
  | .text, _, _, _, _ | .flag, _, _, _, _ | .real, _, _, _, _ => by
      simp only [Shape.Canonical]
  | .natural greatest, _, tree, value, hread => by
      simp only [Shape.read] at hread
      obtain ⟨held, hheld, rfl⟩ := map_eq_ok_iff.mp hread
      obtain ⟨-, -, hgreatest⟩ := Tree.readInteger_eq_ok_iff.mp hheld
      simp only [Shape.Canonical]
      omega
  | .integer least greatest, _, tree, value, hread => by
      simp only [Shape.read] at hread
      simp only [Shape.Canonical]
      exact (Tree.readInteger_eq_ok_iff.mp hread).2
  | .kind code ofCode, hlawful, tree, value, hread => by
      simp only [Shape.Lawful] at hlawful
      simp only [Shape.read] at hread
      obtain ⟨held, hheld, rfl⟩ := map_eq_ok_iff.mp hread
      simp only [Shape.Canonical, hlawful, true_and]
      exact (Tree.readInteger_eq_ok_iff.mp hheld).2
  | .list item, hlawful, tree, values, hread => by
      simp only [Shape.Lawful] at hlawful
      simp only [Shape.read] at hread
      obtain ⟨items, rfl, hitems⟩ := Tree.readList_eq_ok_iff.mp hread
      simp only [Shape.Canonical]
      intro value hvalue
      have hreads := Items.forall₂_of_read hitems
      obtain ⟨place, hplace, rfl⟩ := List.getElem_of_mem hvalue
      exact Shape.canonical_of_read hlawful (hreads.get (hreads.length_eq ▸ hplace) hplace)
  | .optional present, hlawful, tree, value, hread => by
      simp only [Shape.Lawful] at hlawful
      simp only [Shape.read] at hread
      simp only [Shape.Canonical]
      rcases Tree.readOptional_eq_ok_iff.mp hread with ⟨-, rfl⟩ | ⟨-, held, hheld, rfl⟩
      · rintro _ ⟨⟩
      · rintro _ ⟨⟩
        exact Shape.canonical_of_read hlawful hheld
  | .record strict blank fields, hlawful, tree, record, hread => by
      simp only [Shape.Lawful] at hlawful
      simp only [Shape.read] at hread
      simp only [Shape.Canonical]
      exact Tree.readRecord_invariant hlawful.2
        (fun slot hslot child _ => Fields.keeps_canonical hlawful.1 hslot child) hread

/-- Whatever is read into a canonical record leaves it canonical. -/
theorem Fields.keeps_canonical {ρ : Type} : ∀ {fields : Fields ρ}, fields.Lawful →
    ∀ {slot : Slot ρ}, slot ∈ fields.slots → ∀ tree, slot.Keeps fields.Canonical tree
  | .none, _, slot, hslot, _ => by
      simp only [Fields.slots, List.not_mem_nil] at hslot
  | .field name shape get set rest, hlawful, slot, hslot, tree => by
      simp only [Fields.Lawful] at hlawful
      obtain ⟨hshape, hget, hagree, hpreserve, hrest⟩ := hlawful
      intro update hupdate record hrecord
      simp only [Fields.Canonical] at hrecord ⊢
      rcases Fields.slot_field hslot with rfl | hslot
      · obtain ⟨value, hvalue, rfl⟩ := map_eq_ok_iff.mp hupdate
        simp only [hget]
        exact ⟨Shape.canonical_of_read hshape hvalue,
          Fields.canonical_of_agree (hagree record value) hrecord.2⟩
      · rw [Fields.observe_of_slot hpreserve hslot hupdate]
        exact ⟨hrecord.1, Fields.keeps_canonical hrest hslot tree update hupdate record hrecord.2⟩

end

theorem Shape.read_of_decode {α : Type} {shape : Shape α} {text : String} {value : α}
    (hdecode : shape.decode text = .ok value) :
    shape.read (Document.ofText text).root = .ok value := by
  simp only [decode] at hdecode
  split at hdecode
  · cases hdecode
  · cases hdecode
  · cases hdecode
    assumption

end UsageReport.Json
