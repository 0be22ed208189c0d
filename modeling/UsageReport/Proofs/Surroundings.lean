import UsageReport.Proofs.RoundTrip

/-!
Places inside a value. A reader who comes to one has read what stands before it and goes on with
what stands after it, in the same way whatever stands there, so that nothing more matters than what
is read at the place itself.
-/

namespace UsageReport.Json

/-- The text spells the tree, with blanks anywhere between its tokens. -/
def Tree.SpelledBy (tree : Tree Fault) (text : String) : Prop :=
  ∃ tokens, tree.Spelled tokens ∧ Token.Spelled tokens text.toList

theorem Tree.spelledBy_toText (layout : Layout) (value : Value) :
    value.printed.SpelledBy (value.toText layout) := by
  obtain ⟨tokens, htree, htext⟩ := spelled_write layout 0 value
  refine ⟨tokens, htree, ?_⟩
  rwa [toText, String.toList_ofList]

theorem Shape.decode_of_spelledBy {α : Type} (shape : Shape α) {tree : Tree Fault} {text : String}
    (htext : tree.SpelledBy text) : shape.decode text = shape.read tree := by
  obtain ⟨tokens, htree, hspelled⟩ := htext
  simp only [decode, Document.ofText_of_spelled htree hspelled]
  cases shape.read tree <;> rfl

/-- The field with a name is at some place among the fields, and has a shape. -/
inductive Fields.At {ρ α : Type} (name : String) (shape : Shape α) : Fields ρ → Nat → Prop
  | first {get : ρ → α} {set : ρ → α → ρ} {rest : Fields ρ} :
      Fields.At name shape (.field name shape get set rest) 0
  | later {β : Type} {other : String} {otherShape : Shape β} {get : ρ → β} {set : ρ → β → ρ}
      {rest : Fields ρ} {place : Nat} (hother : other ≠ name)
      (hrest : Fields.At name shape rest place) :
      Fields.At name shape (.field other otherShape get set rest) (place + 1)

/-- A place in a tree: `put` fills it. A reader by the outer shape reads by the inner one there. -/
inductive Shape.Inside {α : Type} (inner : Shape α) :
    {β : Type} → Shape β → (Tree Fault → Tree Fault) → Prop
  | here : Shape.Inside inner inner id
  | item {β : Type} {item : Shape β} {put : Tree Fault → Tree Fault}
      (before after : List (Tree Fault)) (hput : Shape.Inside inner item put) :
      Shape.Inside inner (.list item) fun tree => .list (Items.ofList (before ++ put tree :: after))
  | present {β : Type} {present : Shape β} {put : Tree Fault → Tree Fault}
      (hput : Shape.Inside inner present put) : Shape.Inside inner (.optional present) put
  | element {β ρ : Type} {strict : Bool} {blank : ρ} {fields : Fields ρ} {name : String}
      {shape : Shape β} {put : Tree Fault → Tree Fault} (before after : List (Tree Fault))
      (hfield : fields.At name shape before.length) (hput : Shape.Inside inner shape put) :
      Shape.Inside inner (.record strict blank fields) fun tree =>
        .list (Items.ofList (before ++ put tree :: after))
  | member {β ρ : Type} {strict : Bool} {blank : ρ} {fields : Fields ρ} {name : String}
      {place : Nat} {shape : Shape β} {put : Tree Fault → Tree Fault}
      (before after : List (String × Tree Fault))
      (hfield : fields.At name shape place) (hput : Shape.Inside inner shape put) :
      Shape.Inside inner (.record strict blank fields) fun tree =>
        .record (Members.ofList (before ++ (name, put tree) :: after))

theorem Shape.Inside.put_ne_null {α β : Type} {inner : Shape α} {outer : Shape β}
    {put : Tree Fault → Tree Fault} (hinside : inner.Inside outer put) {tree : Tree Fault}
    (htree : tree ≠ .null) : put tree ≠ .null := by
  induction hinside with
  | here => exact htree
  | item => exact nofun
  | present _ ih => exact ih
  | element => exact nofun
  | member => exact nofun

theorem Fields.At.exists_slot {ρ α : Type} {name : String} {shape : Shape α} {fields : Fields ρ}
    {place : Nat} (hfield : fields.At name shape place) :
    ∃ (slot : Slot ρ) (set : ρ → α → ρ), Slot.find? fields.slots name = some slot ∧
      fields.slots[place]? = some slot ∧
      ∀ tree, slot.read tree = (shape.read tree).map fun value record => set record value := by
  induction hfield with
  | @first get set rest =>
      simp only [slots]
      exact ⟨_, set, List.find?_cons_of_pos (beq_self_eq_true name), rfl, fun _ => rfl⟩
  | later hother _ ih =>
      obtain ⟨slot, set, hfind, hplace, hread⟩ := ih
      simp only [slots]
      refine ⟨slot, set, ?_, hplace, hread⟩
      rw [Slot.find?, List.find?_cons_of_neg (by simpa using hother)]
      exact hfind

section Around

variable {α β γ ρ : Type}

/-- What is made of the result at a place: either something else went wrong before it, or the value
there takes its place in the whole, unless something goes wrong after it. -/
inductive Around : (Except Failure α → Except Failure β) → Prop
  | before (failure : Failure) : Around fun _ => .error failure
  | after (wrap : Except Failure (α → β)) :
      Around fun result => result.bind fun value => wrap.map fun wrap => wrap value

theorem around_id : Around (α := α) id := by
  have hid : (id : Except Failure α → Except Failure α) =
      fun result => result.bind fun value => (Except.ok id).map fun wrap => wrap value := by
    funext result
    cases result <;> rfl
  rw [hid]
  exact .after _

theorem Around.comp {first : Except Failure α → Except Failure β}
    {second : Except Failure β → Except Failure γ} (hsecond : Around second)
    (hfirst : Around first) : Around fun result => second (first result) := by
  cases hsecond with
  | before failure => exact .before failure
  | after outer =>
      cases hfirst with
      | before failure => exact .before failure
      | after inner =>
          have hcomp : (fun result : Except Failure α =>
              (result.bind fun value => inner.map fun wrap => wrap value).bind fun value =>
                outer.map fun wrap => wrap value) =
              fun result => result.bind fun value =>
                (inner.bind fun inner => outer.map fun outer => outer ∘ inner).map fun wrap =>
                  wrap value := by
            funext result
            cases result <;> cases inner <;> cases outer <;> rfl
          rw [hcomp]
          exact .after _

theorem around_map (f : α → β) : Around fun result : Except Failure α => result.map f := by
  have hmap : (fun result : Except Failure α => result.map f) =
      fun result => result.bind fun value => (Except.ok f).map fun wrap => wrap value := by
    funext result
    cases result <;> rfl
  rw [hmap]
  exact .after _

/-- If the whole can be read with one value at the place, it can be read with each that can be read
there, and otherwise fails as the reader there does. -/
theorem Around.exists_wrap {around : Except Failure α → Except Failure β}
    (haround : Around around) {good : Except Failure α} {value : β}
    (hgood : around good = .ok value) : ∃ wrap, ∀ result, around result = result.map wrap := by
  cases haround with
  | before failure => cases hgood
  | after wrap =>
      cases good with
      | error failure => cases hgood
      | ok held =>
          cases wrap with
          | error failure => cases hgood
          | ok wrap =>
              refine ⟨wrap, fun result => ?_⟩
              cases result <;> rfl

end Around

section Reading

variable {α ρ : Type}

theorem Items.exists_around (read : Tree Fault → Except Failure α)
    (before after : List (Tree Fault)) :
    ∃ around, Around around ∧
      ∀ tree, (Items.ofList (before ++ tree :: after)).read read = around (read tree) := by
  induction before with
  | nil =>
      refine ⟨_, .after (((Items.ofList after).read read).map fun others value =>
        value :: others), fun tree => ?_⟩
      rw [List.nil_append, ofList, Items.read]
      cases read tree with
      | error failure => rfl
      | ok value => cases (Items.ofList after).read read <;> rfl
  | cons first before ih =>
      obtain ⟨around, haround, hread⟩ := ih
      cases hfirst : read first with
      | error failure =>
          refine ⟨_, .before failure, fun tree => ?_⟩
          rw [List.cons_append, ofList, Items.read, hfirst]
      | ok value =>
          refine ⟨_, (around_map (value :: ·)).comp haround, fun tree => ?_⟩
          rw [List.cons_append, ofList, Items.read, hfirst]
          exact congrArg (Except.map (value :: ·)) (hread tree)

/-- Whether items can be read does not depend on the record that they are read into. -/
theorem Items.readFields_exists_update (strict : Bool) (slots : List (Slot ρ))
    (items : Items Fault) :
    ∃ update : Except Failure (ρ → ρ), ∀ record,
      items.readFields strict record slots = update.map fun update => update record := by
  induction slots generalizing items with
  | nil =>
      cases items with
      | close => exact ⟨.ok id, fun _ => rfl⟩
      | cut fault => exact ⟨.error fault.wanted, fun _ => rfl⟩
      | item => exact ⟨.error .malformed, fun _ => rfl⟩
  | cons slot slots ih =>
      cases items with
      | close =>
          refine ⟨if strict then .error .mismatched else .ok id, fun _ => ?_⟩
          cases strict <;> rfl
      | cut fault => exact ⟨.error fault.wanted, fun _ => rfl⟩
      | item tree rest =>
          cases hread : slot.read tree with
          | error failure =>
              refine ⟨.error failure, fun _ => ?_⟩
              rw [readFields, hread]
              rfl
          | ok first =>
              obtain ⟨update, hupdate⟩ := ih rest
              refine ⟨update.map fun update => update ∘ first, fun record => ?_⟩
              rw [readFields, hread]
              refine (hupdate (first record)).trans ?_
              cases update <;> rfl

/-- The known names so far and the record after one more member. -/
def Members.take (slots : List (Slot ρ)) (seen : List String) (record : ρ)
    (entry : String × Tree Fault) : Except Failure (List String × ρ) :=
  match Slot.find? slots entry.1 with
  | none => entry.2.skip.map fun _ => (seen, record)
  | some slot =>
    if seen.contains entry.1 then .error .mismatched
    else (slot.read entry.2).map fun update => (entry.1 :: seen, update record)

/-- The known names and the record after some members. -/
def Members.takeAll (slots : List (Slot ρ)) (seen : List String) (record : ρ)
    (entries : List (String × Tree Fault)) : Except Failure (List String × ρ) :=
  entries.foldlM (fun state entry => take slots state.1 state.2 entry) (seen, record)

/-- Checks that no required name is missing. -/
def Members.complete (strict : Bool) (slots : List (Slot ρ)) (seen : List String) :
    Except Failure Unit :=
  if strict && !slots.all (fun slot => seen.contains slot.name) then .error .mismatched
  else .ok ()

namespace Members

variable {strict : Bool} {slots : List (Slot ρ)} {seen : List String} {record : ρ}

theorem takeAll_cons (entry : String × Tree Fault) (entries : List (String × Tree Fault)) :
    takeAll slots seen record (entry :: entries) =
      (take slots seen record entry).bind fun state => takeAll slots state.1 state.2 entries := rfl

theorem takeAll_append (before after : List (String × Tree Fault)) :
    takeAll slots seen record (before ++ after) =
      (takeAll slots seen record before).bind fun state => takeAll slots state.1 state.2 after :=
  List.foldlM_append

theorem readFields_eq_takeAll (strict : Bool) (slots : List (Slot ρ)) (seen : List String)
    (record : ρ) (entries : List (String × Tree Fault)) :
    (ofList entries).readFields strict slots seen record =
      (takeAll slots seen record entries).bind fun state =>
        (complete strict slots state.1).map fun _ => state.2 := by
  induction entries generalizing seen record with
  | nil =>
      rw [ofList, readFields]
      change _ = (complete strict slots seen).map fun _ => record
      unfold complete
      split <;> rfl
  | cons entry entries ih =>
      rw [ofList, readFields, takeAll_cons, take]
      cases Slot.find? slots entry.1 with
      | none =>
          simp only
          cases entry.2.skip with
          | error failure => rfl
          | ok => exact ih seen record
      | some slot =>
          simp only
          split
          · rfl
          · cases slot.read entry.2 with
            | error failure => rfl
            | ok update => exact ih (entry.1 :: seen) (update record)

/-- Whether a member can be taken depends on the known names so far, and not on the record. -/
theorem exists_take (slots : List (Slot ρ)) (seen : List String) (entry : String × Tree Fault) :
    ∃ result : Except Failure (List String × (ρ → ρ)), ∀ record,
      take slots seen record entry =
        result.map fun progress => (progress.1, progress.2 record) := by
  unfold take
  cases Slot.find? slots entry.1 with
  | none =>
      refine ⟨entry.2.skip.map fun _ => (seen, id), fun record => ?_⟩
      cases entry.2.skip <;> rfl
  | some slot =>
      by_cases hseen : seen.contains entry.1 = true
      · exact ⟨.error .mismatched, fun record => if_pos hseen⟩
      · refine ⟨(slot.read entry.2).map fun update => (entry.1 :: seen, update), ?_⟩
        intro record
        simp only [hseen]
        cases slot.read entry.2 <;> rfl

theorem exists_takeAll (slots : List (Slot ρ)) (seen : List String)
    (entries : List (String × Tree Fault)) :
    ∃ result : Except Failure (List String × (ρ → ρ)), ∀ record,
      takeAll slots seen record entries =
        result.map fun progress => (progress.1, progress.2 record) := by
  induction entries generalizing seen with
  | nil => exact ⟨.ok (seen, id), fun _ => rfl⟩
  | cons entry entries ih =>
      obtain ⟨first, hfirst⟩ := exists_take slots seen entry
      cases first with
      | error failure =>
          refine ⟨.error failure, fun record => ?_⟩
          rw [takeAll_cons, hfirst]
          rfl
      | ok progress =>
          obtain ⟨rest, hrest⟩ := ih progress.1
          refine ⟨rest.map fun later => (later.1, later.2 ∘ progress.2), fun record => ?_⟩
          rw [takeAll_cons, hfirst]
          refine (hrest (progress.2 record)).trans ?_
          cases rest <;> rfl

end Members

theorem Items.readFields_exists_around {slot : Slot ρ} {set : ρ → α → ρ}
    {read : Tree Fault → Except Failure α} (strict : Bool) (after : List (Tree Fault))
    (hslot : ∀ tree, slot.read tree = (read tree).map fun value record => set record value) :
    ∀ (before : List (Tree Fault)) (slots : List (Slot ρ)) (record : ρ),
      slots[before.length]? = some slot →
      ∃ around, Around around ∧ ∀ tree, (Items.ofList (before ++ tree :: after)).readFields
        strict record slots = around (read tree) := by
  intro before slots record hplace
  induction before generalizing slots record with
  | nil =>
      obtain ⟨slots, rfl⟩ : ∃ rest, slots = slot :: rest := by
        cases slots <;> cases hplace
        exact ⟨_, rfl⟩
      obtain ⟨update, hupdate⟩ := readFields_exists_update strict slots (Items.ofList after)
      refine ⟨_, .after (update.map fun update value => update (set record value)), ?_⟩
      intro tree
      rw [List.nil_append, ofList, readFields, hslot]
      cases read tree with
      | error failure => rfl
      | ok value =>
          refine (hupdate (set record value)).trans ?_
          cases update <;> rfl
  | cons first before ih =>
      cases slots with
      | nil => cases hplace
      | cons other slots =>
          cases hfirst : other.read first with
          | error failure =>
              refine ⟨_, .before failure, fun tree => ?_⟩
              rw [List.cons_append, ofList, readFields, hfirst]
          | ok update =>
              obtain ⟨around, haround, hread⟩ := ih slots (update record) hplace
              refine ⟨around, haround, fun tree => ?_⟩
              rw [List.cons_append, ofList, readFields, hfirst]
              exact hread tree

theorem Members.readFields_exists_around {name : String} {slot : Slot ρ} {set : ρ → α → ρ}
    {slots : List (Slot ρ)} {read : Tree Fault → Except Failure α} (strict : Bool) (record : ρ)
    (before after : List (String × Tree Fault)) (hfind : Slot.find? slots name = some slot)
    (hslot : ∀ tree, slot.read tree = (read tree).map fun value record => set record value) :
    ∃ around, Around around ∧ ∀ tree,
      (Members.ofList (before ++ (name, tree) :: after)).readFields strict slots [] record =
        around (read tree) := by
  simp only [readFields_eq_takeAll, takeAll_append, takeAll_cons, take, hfind]
  cases hbefore : takeAll slots [] record before with
  | error failure => exact ⟨_, .before failure, fun _ => rfl⟩
  | ok state =>
      obtain ⟨seen, start⟩ := state
      simp only [Except.bind]
      by_cases hseen : seen.contains name = true
      · refine ⟨_, .before .mismatched, fun _ => ?_⟩
        rw [if_pos hseen]
      · obtain ⟨rest, hrest⟩ := exists_takeAll slots (name :: seen) after
        refine ⟨_, .after (rest.bind fun progress =>
          (complete strict slots progress.1).map fun _ value => progress.2 (set start value)),
          fun tree => ?_⟩
        rw [if_neg hseen, hslot]
        cases read tree with
        | error failure => rfl
        | ok value =>
            simp only [Except.map, Except.bind, hrest]
            cases rest with
            | error failure => rfl
            | ok progress =>
                simp only
                cases complete strict slots progress.1 <;> rfl

theorem Shape.Inside.exists_around {α β : Type} {inner : Shape α} {outer : Shape β}
    {put : Tree Fault → Tree Fault} (hinside : inner.Inside outer put) :
    ∃ around, Around around ∧
      ∀ tree, tree ≠ .null → outer.read (put tree) = around (inner.read tree) := by
  induction hinside with
  | here => exact ⟨id, around_id, fun _ _ => rfl⟩
  | @item β item put before after hput ih =>
      obtain ⟨around, haround, hread⟩ := ih
      obtain ⟨outside, houtside, hitems⟩ := Items.exists_around item.read before after
      refine ⟨_, houtside.comp haround, fun tree htree => ?_⟩
      rw [← hread tree htree, ← hitems]
      simp only [read, Tree.readList]
  | @present β present put hput ih =>
      obtain ⟨around, haround, hread⟩ := ih
      refine ⟨_, (around_map some).comp haround, fun tree htree => ?_⟩
      have hnull := hput.put_ne_null htree
      rw [← hread tree htree]
      simp only [read]
      cases hshape : put tree <;> first | rfl | exact absurd hshape hnull
  | @element β ρ strict blank fields name shape put before after hfield hput ih =>
      obtain ⟨around, haround, hread⟩ := ih
      obtain ⟨slot, set, -, hplace, hslot⟩ := hfield.exists_slot
      obtain ⟨outside, houtside, hitems⟩ :=
        Items.readFields_exists_around strict after hslot before fields.slots blank hplace
      refine ⟨_, houtside.comp haround, fun tree htree => ?_⟩
      rw [← hread tree htree, ← hitems]
      simp only [read, Tree.readRecord]
  | @member β ρ strict blank fields name place shape put before after hfield hput ih =>
      obtain ⟨around, haround, hread⟩ := ih
      obtain ⟨slot, set, hfind, -, hslot⟩ := hfield.exists_slot
      obtain ⟨outside, houtside, hmembers⟩ :=
        Members.readFields_exists_around strict blank before after hfind hslot
      refine ⟨_, houtside.comp haround, fun tree htree => ?_⟩
      rw [← hread tree htree, ← hmembers]
      simp only [read, Tree.readRecord]

end Reading

/-- What holds of a shape together with its parts holds of the shape of every place inside it. -/
theorem Shape.Inside.inherits {P : ∀ {γ : Type}, Shape γ → Prop}
    (hitem : ∀ {γ : Type} {item : Shape γ}, P (.list item) → P item)
    (hpresent : ∀ {γ : Type} {present : Shape γ}, P (.optional present) → P present)
    (hfield : ∀ {γ ρ : Type} {strict : Bool} {blank : ρ} {fields : Fields ρ} {name : String}
      {shape : Shape γ} {place : Nat}, fields.At name shape place →
        P (.record strict blank fields) → P shape)
    {α β : Type} {inner : Shape α} {outer : Shape β} {put : Tree Fault → Tree Fault}
    (hinside : inner.Inside outer put) (houter : P outer) : P inner := by
  induction hinside with
  | here => exact houter
  | item before after hput ih => exact ih (hitem houter)
  | present hput ih => exact ih (hpresent houter)
  | element before after hat hput ih => exact ih (hfield hat houter)
  | member before after hat hput ih => exact ih (hfield hat houter)

mutual

/-- All records in the shape are strict, or all are lenient. -/
def Shape.uniform (strict : Bool) {α : Type} : Shape α → Bool
  | .text | .flag | .natural _ | .integer _ _ | .kind _ _ | .real => true
  | .list item => item.uniform strict
  | .optional present => present.uniform strict
  | .record own _ fields => own == strict && fields.uniform strict

def Fields.uniform (strict : Bool) {ρ : Type} : Fields ρ → Bool
  | .none => true
  | .field _ shape _ _ rest => shape.uniform strict && rest.uniform strict

end

section Inherited

variable {α ρ : Type} {name : String} {shape : Shape α} {fields : Fields ρ} {place : Nat}

theorem Fields.At.lawful (hat : fields.At name shape place) (hfields : fields.Lawful) :
    shape.Lawful := by
  induction hat with
  | first =>
      simp only [Lawful] at hfields
      exact hfields.1
  | later _ _ ih =>
      simp only [Lawful] at hfields
      exact ih hfields.2.2.2.2

theorem Fields.At.faithful (hat : fields.At name shape place) (hfields : fields.Faithful) :
    shape.Faithful := by
  induction hat with
  | first =>
      simp only [Faithful] at hfields
      exact hfields.1
  | later _ _ ih =>
      simp only [Faithful] at hfields
      exact ih hfields.2

theorem Fields.At.uniform {strict : Bool} (hat : fields.At name shape place)
    (hfields : fields.uniform strict = true) : shape.uniform strict = true := by
  induction hat with
  | first =>
      simp only [Fields.uniform, Bool.and_eq_true] at hfields
      exact hfields.1
  | later _ _ ih =>
      simp only [Fields.uniform, Bool.and_eq_true] at hfields
      exact ih hfields.2

end Inherited

namespace Shape.Inside

variable {α β : Type} {inner : Shape α} {outer : Shape β} {put : Tree Fault → Tree Fault}
  {first second good : Tree Fault} {value : β}

theorem read_congr (hinside : inner.Inside outer put) (hfirst : first ≠ .null)
    (hsecond : second ≠ .null) (hread : inner.read first = inner.read second) :
    outer.read (put first) = outer.read (put second) := by
  obtain ⟨around, -, haround⟩ := hinside.exists_around
  rw [haround first hfirst, haround second hsecond, hread]

/-- Where one value at the place can be read, every reading of the whole is a reading of the place.
-/
theorem exists_wrap (hinside : inner.Inside outer put) (hgood : good ≠ .null)
    (hread : outer.read (put good) = .ok value) :
    ∃ wrap, ∀ tree, tree ≠ .null → outer.read (put tree) = (inner.read tree).map wrap := by
  obtain ⟨around, haround, heq⟩ := hinside.exists_around
  rw [heq good hgood] at hread
  obtain ⟨wrap, hwrap⟩ := haround.exists_wrap hread
  exact ⟨wrap, fun tree htree => (heq tree htree).trans (hwrap _)⟩

theorem lawful (hinside : inner.Inside outer put) (houter : outer.Lawful) : inner.Lawful := by
  refine hinside.inherits (P := fun shape => shape.Lawful) ?_ ?_ ?_ houter
  · intro γ item hlist
    simpa only [Lawful] using hlist
  · intro γ present hoptional
    simpa only [Lawful] using hoptional
  · intro γ ρ strict blank fields name shape place hat hrecord
    simp only [Lawful] at hrecord
    exact hat.lawful hrecord.1

theorem faithful (hinside : inner.Inside outer put) (houter : outer.Faithful) :
    inner.Faithful := by
  refine hinside.inherits (P := fun shape => shape.Faithful) ?_ ?_ ?_ houter
  · intro γ item hlist
    simpa only [Faithful] using hlist
  · intro γ present hoptional
    simp only [Faithful] at hoptional
    exact hoptional.2
  · intro γ ρ strict blank fields name shape place hat hrecord
    simp only [Faithful] at hrecord
    exact hat.faithful hrecord.1

theorem uniform {strict : Bool} (hinside : inner.Inside outer put)
    (houter : outer.uniform strict = true) : inner.uniform strict = true := by
  refine hinside.inherits (P := fun shape => shape.uniform strict = true) ?_ ?_ ?_ houter
  · intro γ item hlist
    simpa only [Shape.uniform] using hlist
  · intro γ present hoptional
    simpa only [Shape.uniform] using hoptional
  · intro γ ρ own blank fields name shape place hat hrecord
    simp only [Shape.uniform, Bool.and_eq_true] at hrecord
    exact hat.uniform hrecord.2

theorem strict_eq {ρ : Type} {own strict : Bool} {blank : ρ} {fields : Fields ρ}
    (hinside : (Shape.record own blank fields).Inside outer put)
    (houter : outer.uniform strict = true) : own = strict := by
  have hinner := hinside.uniform houter
  simp only [Shape.uniform, Bool.and_eq_true, beq_iff_eq] at hinner
  exact hinner.1

end Shape.Inside

end UsageReport.Json
