import Mathlib.Data.List.Forall2
import Mathlib.Data.List.Perm.Basic
import UsageReport.Proofs.Canonical
import UsageReport.Proofs.Grammar

/-!
The ways to write a value. A record may have its fields in any order and unknown names among them,
and a lenient one may leave out the fields that are blank. However it is written, it is read as the
same value.

Members are read one at a time into a record that starts blank. What carries the proof is that at
every moment this record agrees with the one that was written, but for the fields that are still
to come.
-/

namespace UsageReport.Json

def Members.ofList {φ : Type} : List (String × Tree φ) → Members φ
  | [] => .close
  | entry :: rest => .member (.ok entry.1) entry.2 (ofList rest)

def Fields.names {ρ : Type} : Fields ρ → List String
  | .none => []
  | .field name _ _ _ rest => name :: rest.names

/-- The value of a field that has been left out. -/
def Shape.Blank {α : Type} : Shape α → α → Prop
  | .text, value => value = ""
  | .flag, value => value = false
  | .natural _, value => value = 0
  | .integer _ _, value => value = 0
  | .kind _ ofCode, value => value = ofCode 0
  | .real, value => value = .zero
  | .list _, values => values = []
  | .optional _, value => value = none
  | .record _ blank _, value => value = blank

def Fields.Blank {ρ : Type} : Fields ρ → ρ → Prop
  | .none, _ => True
  | .field _ shape get _ rest, record => shape.Blank (get record) ∧ rest.Blank record

mutual

/-- The trees that a value may be written as. -/
def Shape.Writes {α : Type} : Shape α → α → Tree Fault → Prop
  | .text, value, tree => tree = .text value
  | .flag, value, tree => tree = .flag value
  | .natural _, value, tree => tree = .number (.integer value)
  | .integer _ _, value, tree => tree = .number (.integer value)
  | .kind code _, value, tree => tree = .number (.integer (code value))
  | .real, value, tree => tree = .number (.real value)
  | .list item, values, tree =>
    ∃ trees, List.Forall₂ item.Writes values trees ∧ tree = .list (Items.ofList trees)
  | .optional _, none, tree => tree = .null
  | .optional present, some value, tree => present.Writes value tree
  | .record strict _ fields, value, tree =>
    ∃ kept others entries, fields.Writes strict value kept ∧
      (∀ entry ∈ others, entry.1 ∉ fields.names ∧ entry.2.WellFormed) ∧
      entries.Perm (kept ++ others) ∧ tree = .record (Members.ofList entries)

/-- The members of the fields that are not left out, in the order of the fields. -/
def Fields.Writes {ρ : Type} (strict : Bool) : Fields ρ → ρ → List (String × Tree Fault) → Prop
  | .none, _, entries => entries = []
  | .field name shape get _ rest, record, entries =>
    (∃ tree others, shape.Writes (get record) tree ∧ rest.Writes strict record others ∧
      entries = (name, tree) :: others) ∨
    (strict = false ∧ shape.Blank (get record) ∧ rest.Writes strict record entries)

end

theorem Shape.writes_record {ρ : Type} {strict : Bool} {blank record : ρ} {fields : Fields ρ}
    {kept others entries : List (String × Tree Fault)} (hkept : fields.Writes strict record kept)
    (hothers : ∀ entry ∈ others, entry.1 ∉ fields.names ∧ entry.2.WellFormed)
    (hperm : entries.Perm (kept ++ others)) :
    (Shape.record strict blank fields).Writes record (.record (Members.ofList entries)) := by
  simp only [Shape.Writes]
  exact ⟨kept, others, entries, hkept, hothers, hperm, rfl⟩

section Fields

variable {ρ α : Type} {strict : Bool} {name : String} {shape : Shape α} {get : ρ → α}
  {set : ρ → α → ρ} {rest : Fields ρ} {record : ρ}

theorem Fields.writes_none : (Fields.none : Fields ρ).Writes strict record [] := by
  simp only [Fields.Writes]

theorem Fields.writes_kept {tree : Tree Fault} {kept : List (String × Tree Fault)}
    (hfirst : shape.Writes (get record) tree) (hrest : rest.Writes strict record kept) :
    (Fields.field name shape get set rest).Writes strict record ((name, tree) :: kept) := by
  simp only [Fields.Writes]
  exact .inl ⟨tree, kept, hfirst, hrest, rfl⟩

theorem Fields.writes_omitted {kept : List (String × Tree Fault)}
    (hblank : shape.Blank (get record)) (hrest : rest.Writes false record kept) :
    (Fields.field name shape get set rest).Writes false record kept := by
  simp only [Fields.Writes]
  exact .inr ⟨trivial, hblank, hrest⟩

end Fields

/-- The record with every field as in another one. -/
def Fields.rebuild {ρ : Type} : Fields ρ → ρ → ρ → ρ
  | .none, start, _ => start
  | .field _ _ get set rest, start, record => rest.rebuild (set start (get record)) record

/-- Whether the shape has null for a value of its own. -/
def Shape.isOptional {α : Type} : Shape α → Bool
  | .optional _ => true
  | _ => false

mutual

/-- Numbers within the bounds can be told from their text, null stands for one value only, names
are distinct, a record is all in its fields, and what may be left out of a record is blank in a
blank one. -/
def Shape.Faithful {α : Type} : Shape α → Prop
  | .text | .flag | .kind _ _ | .real => True
  | .natural greatest => greatest ≤ Text.greatestWord
  | .integer least greatest => leastSigned ≤ least ∧ greatest ≤ greatestSigned
  | .list item => item.Faithful
  | .optional present => present.isOptional = false ∧ present.Faithful
  | .record strict blank fields =>
    fields.Faithful ∧ fields.names.Nodup ∧ (strict = false → fields.Blank blank) ∧
      ∀ record, fields.rebuild blank record = record

def Fields.Faithful {ρ : Type} : Fields ρ → Prop
  | .none => True
  | .field _ shape _ _ rest => shape.Faithful ∧ rest.Faithful

end

theorem Shape.eq_of_blank {α : Type} {shape : Shape α} {first second : α}
    (hfirst : shape.Blank first) (hsecond : shape.Blank second) : first = second := by
  cases shape <;> exact hfirst.trans hsecond.symm

theorem Shape.ne_null_of_writes {α : Type} {shape : Shape α} {value : α} {tree : Tree Fault}
    (hshape : shape.isOptional = false) (hwrites : shape.Writes value tree) : tree ≠ .null := by
  rintro rfl
  cases shape <;> simp [Shape.Writes, isOptional] at hwrites hshape

theorem Items.read_ofList {α : Type} {read : Tree Fault → Except Failure α} {values : List α}
    {trees : List (Tree Fault)}
    (hread : List.Forall₂ (fun value tree => read tree = .ok value) values trees) :
    (Items.ofList trees).read read = .ok values := by
  induction hread with
  | nil => rfl
  | cons hvalue _ ih => simp [Items.ofList, Items.read, hvalue, ih, Except.map]

namespace Fields

variable {ρ : Type} {strict : Bool}

theorem Agree.rebuild_eq : ∀ {fields : Fields ρ} {first second : ρ},
    fields.Agree first second → ∀ start, fields.rebuild start first = fields.rebuild start second
  | .none, _, _, _, _ => by simp only [rebuild]
  | .field .., _, _, hagree, _ => by
      simp only [Agree] at hagree
      simp only [rebuild, hagree.1]
      exact hagree.2.rebuild_eq _

/-- The records hold the same in every field, but for the fields of some names. -/
def AgreeBut (pending : List String) : Fields ρ → ρ → ρ → Prop
  | .none, _, _ => True
  | .field name _ get _ rest, first, second =>
    (name ∈ pending ∨ get first = get second) ∧ rest.AgreeBut pending first second

theorem agree_of_agreeBut_nil : ∀ {fields : Fields ρ} {first second : ρ},
    fields.AgreeBut [] first second → fields.Agree first second
  | .none, _, _, _ => by simp only [Agree]
  | .field .., _, _, hagree => by
      simp only [AgreeBut, List.not_mem_nil, false_or] at hagree
      simp only [Agree]
      exact ⟨hagree.1, agree_of_agreeBut_nil hagree.2⟩

/-- Only the names that the fields have matter. -/
theorem AgreeBut.mono : ∀ {fields : Fields ρ} {first second : ρ} {pending later : List String},
    fields.AgreeBut pending first second →
      (∀ name ∈ fields.names, name ∈ pending → name ∈ later) → fields.AgreeBut later first second
  | .none, _, _, _, _, _, _ => by simp only [AgreeBut]
  | .field .., _, _, _, _, hagree, hnames => by
      simp only [AgreeBut] at hagree ⊢
      simp only [names, List.forall_mem_cons] at hnames
      exact ⟨hagree.1.imp_left hnames.1, hagree.2.mono hnames.2⟩

theorem AgreeBut.of_agree : ∀ {fields : Fields ρ} {first second third : ρ} {pending : List String},
    fields.Agree first second → fields.AgreeBut pending second third →
      fields.AgreeBut pending first third
  | .none, _, _, _, _, _, _ => by simp only [AgreeBut]
  | .field .., _, _, _, _, hagree, hbut => by
      simp only [Agree, AgreeBut] at hagree hbut ⊢
      rw [hagree.1]
      exact ⟨hbut.1, of_agree hagree.2 hbut.2⟩

theorem map_name_slots : ∀ fields : Fields ρ, fields.slots.map Slot.name = fields.names
  | .none => by simp only [slots, names, List.map_nil]
  | .field _ _ _ _ rest => by simp only [slots, names, List.map_cons, map_name_slots rest]

/-- The names of the members are names of the fields, in their order. -/
theorem names_of_writes : ∀ {fields : Fields ρ} {record : ρ} {kept : List (String × Tree Fault)},
    fields.Writes strict record kept → (kept.map Prod.fst).Sublist fields.names
  | .none, _, _, hwrites => by
      simp only [Writes] at hwrites
      simp only [hwrites, List.map_nil, names, List.Sublist.refl]
  | .field .., _, _, hwrites => by
      simp only [Writes] at hwrites
      simp only [names]
      rcases hwrites with ⟨tree, others, -, hrest, rfl⟩ | ⟨-, -, hrest⟩
      · exact (names_of_writes hrest).cons_cons _
      · exact (names_of_writes hrest).cons _

theorem names_of_writes_strict :
    ∀ {fields : Fields ρ} {record : ρ} {kept : List (String × Tree Fault)},
      fields.Writes true record kept → kept.map Prod.fst = fields.names
  | .none, _, _, hwrites => by
      simp only [Writes] at hwrites
      simp only [hwrites, List.map_nil, names]
  | .field .., _, _, hwrites => by
      simp only [Writes, Bool.true_eq_false, false_and, or_false] at hwrites
      obtain ⟨tree, others, -, hrest, rfl⟩ := hwrites
      simp only [names, List.map_cons, names_of_writes_strict hrest]

/-- Whatever has been left out is there already in a blank record. -/
theorem agreeBut_blank : ∀ {fields : Fields ρ} {blank record : ρ}
    {kept : List (String × Tree Fault)}, (strict = false → fields.Blank blank) →
      fields.Writes strict record kept → fields.AgreeBut (kept.map Prod.fst) blank record
  | .none, _, _, _, _, _ => by simp only [AgreeBut]
  | .field .., _, _, _, hblank, hwrites => by
      simp only [Blank] at hblank
      simp only [Writes] at hwrites
      simp only [AgreeBut]
      rcases hwrites with ⟨tree, others, -, hrest, rfl⟩ | ⟨hstrict, hleft, hrest⟩
      · refine ⟨.inl List.mem_cons_self, ?_⟩
        refine (agreeBut_blank (fun hstrict => (hblank hstrict).2) hrest).mono ?_
        exact fun _ _ hname => List.mem_cons_of_mem _ hname
      · refine ⟨.inr (Shape.eq_of_blank (hblank hstrict).1 hleft), ?_⟩
        exact agreeBut_blank (fun hstrict => (hblank hstrict).2) hrest

/-- A member that, once read, settles what the record holds under its name. -/
def Supplies (fields : Fields ρ) (record : ρ) (entry : String × Tree Fault) : Prop :=
  ∃ slot update, Slot.find? fields.slots entry.1 = some slot ∧ slot.read entry.2 = .ok update ∧
    ∀ pending start, fields.AgreeBut (entry.1 :: pending) start record →
      fields.AgreeBut pending (update start) record

theorem supplies_first {α : Type} {name : String} {shape : Shape α} {get : ρ → α}
    {set : ρ → α → ρ} {rest : Fields ρ} {record : ρ} {tree : Tree Fault}
    (hlawful : (field name shape get set rest).Lawful) (hname : name ∉ rest.names)
    (hread : shape.read tree = .ok (get record)) :
    (field name shape get set rest).Supplies record (name, tree) := by
  simp only [Lawful] at hlawful
  obtain ⟨-, hget, hagree, -, -⟩ := hlawful
  refine ⟨⟨name, fun tree => (shape.read tree).map fun value start => set start value⟩,
    fun start => set start (get record), ?_, ?_, ?_⟩
  · simp only [slots, Slot.find?, List.find?_cons, beq_self_eq_true]
  · simp only [hread, Except.map]
  · intro pending start hbut
    simp only [AgreeBut] at hbut ⊢
    refine ⟨.inr (hget _ _), .of_agree (hagree _ _) (hbut.2.mono ?_)⟩
    intro other hother hpending
    refine (List.mem_cons.mp hpending).resolve_left ?_
    rintro rfl
    exact hname hother

theorem supplies_later {α : Type} {name : String} {shape : Shape α} {get : ρ → α}
    {set : ρ → α → ρ} {rest : Fields ρ} {record : ρ} {entry : String × Tree Fault}
    (hlawful : (field name shape get set rest).Lawful) (hname : name ≠ entry.1)
    (hsupplies : rest.Supplies record entry) :
    (field name shape get set rest).Supplies record entry := by
  simp only [Lawful] at hlawful
  obtain ⟨-, -, -, hpreserve, -⟩ := hlawful
  obtain ⟨slot, update, hslot, hread, hupdate⟩ := hsupplies
  refine ⟨slot, update, ?_, hread, ?_⟩
  · simp only [slots, Slot.find?, List.find?_cons, beq_eq_false_iff_ne.mpr hname]
    exact hslot
  · intro pending start hbut
    simp only [AgreeBut] at hbut ⊢
    refine ⟨?_, hupdate pending start hbut.2⟩
    rw [observe_of_slot hpreserve (List.mem_of_find?_eq_some hslot) hread]
    exact hbut.1.imp_left fun hpending => (List.mem_cons.mp hpending).resolve_left hname

end Fields

section Members

variable {ρ : Type} {fields : Fields ρ} {blank record : ρ} {strict : Bool}

theorem Slot.name_of_find? {slots : List (Slot ρ)} {slot : Slot ρ} {name : String}
    (hslot : find? slots name = some slot) : slot.name = name := by
  rw [find?] at hslot
  simpa using List.find?_some hslot

theorem Slot.find?_slots_eq_none {name : String} (hname : name ∉ fields.names) :
    find? fields.slots name = none := by
  rw [find?, List.find?_eq_none]
  intro slot hslot
  rw [beq_iff_eq]
  rintro rfl
  exact hname (Fields.map_name_slots fields ▸ List.mem_map_of_mem hslot)

/-- Only a name that is none of the given ones may stand twice. -/
def Members.Distinct (names : List String) (entries : List (String × Tree Fault)) : Prop :=
  entries.Pairwise fun first second => first.1 = second.1 → first.1 ∉ names

/-- Members that are still to be read when the names in `seen` have been read into `start`. -/
structure Members.Pending (strict : Bool) (fields : Fields ρ) (record : ρ) (seen : List String)
    (start : ρ) (entries : List (String × Tree Fault)) : Prop where
  settled : ∀ entry ∈ entries, fields.Supplies record entry ∨
    entry.1 ∉ fields.names ∧ entry.2.skip = .ok ()
  distinct : Members.Distinct fields.names entries
  unseen : ∀ entry ∈ entries, entry.1 ∈ fields.names → entry.1 ∉ seen
  complete : strict = true → ∀ name ∈ fields.names, name ∈ seen ∨ name ∈ entries.map Prod.fst
  agree : fields.AgreeBut (entries.map Prod.fst) start record

namespace Members.Pending

variable {seen : List String} {start : ρ} {entry : String × Tree Fault}
  {entries : List (String × Tree Fault)}

theorem read_known {update : ρ → ρ}
    (hpending : Pending strict fields record seen start (entry :: entries))
    (hupdate : ∀ pending start, fields.AgreeBut (entry.1 :: pending) start record →
      fields.AgreeBut pending (update start) record) :
    Pending strict fields record (entry.1 :: seen) (update start) entries := by
  obtain ⟨hfirst, hdistinct⟩ := List.pairwise_cons.mp hpending.distinct
  constructor
  · exact (List.forall_mem_cons.mp hpending.settled).2
  · exact hdistinct
  · intro other hother hname hmem
    rcases List.mem_cons.mp hmem with hsame | hmem
    · exact hfirst other hother hsame.symm (hsame ▸ hname)
    · exact hpending.unseen other (List.mem_cons_of_mem _ hother) hname hmem
  · intro hstrict name hname
    have hcomplete := hpending.complete hstrict name hname
    simpa only [List.map_cons, List.mem_cons, or_left_comm, or_assoc] using hcomplete
  · exact hupdate _ _ hpending.agree

theorem skip_unknown (hpending : Pending strict fields record seen start (entry :: entries))
    (hunknown : entry.1 ∉ fields.names) : Pending strict fields record seen start entries := by
  have hlater {name : String} (hname : name ∈ fields.names)
      (hmem : name ∈ (entry :: entries).map Prod.fst) : name ∈ entries.map Prod.fst := by
    refine (List.mem_cons.mp hmem).resolve_left ?_
    rintro rfl
    exact hunknown hname
  constructor
  · exact (List.forall_mem_cons.mp hpending.settled).2
  · exact (List.pairwise_cons.mp hpending.distinct).2
  · exact (List.forall_mem_cons.mp hpending.unseen).2
  · exact fun hstrict name hname =>
      (hpending.complete hstrict name hname).imp_right (hlater hname)
  · exact hpending.agree.mono fun name => hlater

end Members.Pending

/-- Members in any order settle the record one by one, each known name once. -/
theorem Members.readFields_ofList
    (hunique : ∀ start, fields.Agree start record → start = record) :
    ∀ {entries : List (String × Tree Fault)} {seen : List String} {start : ρ},
      Members.Pending strict fields record seen start entries →
      (Members.ofList entries).readFields strict fields.slots seen start = .ok record
  | [], seen, start, hpending => by
      obtain rfl := hunique start (Fields.agree_of_agreeBut_nil hpending.agree)
      rw [Members.ofList, Members.readFields, if_neg]
      rintro hmissing
      simp only [Bool.and_eq_true, Bool.not_eq_true', ← Bool.not_eq_true, List.all_eq_true,
        List.contains_iff_mem] at hmissing
      refine hmissing.2 fun slot hslot => ?_
      have hname := Fields.map_name_slots fields ▸ List.mem_map_of_mem hslot
      simpa using hpending.complete hmissing.1 _ hname
  | entry :: entries, seen, start, hpending => by
      rcases hpending.settled entry List.mem_cons_self with
        ⟨slot, update, hslot, hread, hupdate⟩ | ⟨hunknown, hskip⟩
      · have hknown : entry.1 ∈ fields.names := by
          have hmem := List.mem_map_of_mem (f := Slot.name) (List.mem_of_find?_eq_some hslot)
          rw [Fields.map_name_slots] at hmem
          rwa [← Slot.name_of_find? hslot]
        have hunseen : seen.contains entry.1 = false := by
          rw [← Bool.not_eq_true, List.contains_iff_mem]
          exact hpending.unseen entry List.mem_cons_self hknown
        simp only [Members.ofList, Members.readFields, hslot, hunseen, hread]
        exact Members.readFields_ofList hunique (hpending.read_known hupdate)
      · rw [Members.ofList, Members.readFields, Slot.find?_slots_eq_none hunknown, hskip]
        exact Members.readFields_ofList hunique (hpending.skip_unknown hunknown)

theorem Tree.readRecord_of_writes (hlawful : (Shape.record strict blank fields).Lawful)
    (hfaithful : (Shape.record strict blank fields).Faithful)
    (hsupplies : ∀ kept, fields.Writes strict record kept →
      ∀ entry ∈ kept, fields.Supplies record entry) {tree : Tree Fault}
    (hwrites : (Shape.record strict blank fields).Writes record tree) :
    tree.readRecord strict blank fields.slots = .ok record := by
  simp only [Shape.Faithful] at hfaithful
  simp only [Shape.Writes] at hwrites
  obtain ⟨-, hnodup, hblank, hrebuild⟩ := hfaithful
  obtain ⟨kept, others, entries, hkept, hothers, hperm, rfl⟩ := hwrites
  have hnames := Fields.names_of_writes hkept
  have hunique : ∀ start, fields.Agree start record → start = record := fun start hagree => by
    rw [← hrebuild start, hagree.rebuild_eq, hrebuild record]
  refine Members.readFields_ofList hunique ⟨?_, ?_, ?_, ?_, ?_⟩
  · intro entry hentry
    rcases List.mem_append.mp (hperm.subset hentry) with hentry | hentry
    · exact .inl (hsupplies kept hkept entry hentry)
    · obtain ⟨hunknown, tokens, hspelled⟩ := hothers entry hentry
      exact .inr ⟨hunknown, hspelled.skip⟩
  · refine (hperm.pairwise_iff ?_).mpr (List.pairwise_append.mpr ⟨?_, ?_, ?_⟩)
    · intro first second hfirst hsame
      rw [hsame]
      exact hfirst hsame.symm
    · refine (List.pairwise_map.mp (hnodup.sublist hnames)).imp ?_
      exact fun hne hsame => absurd hsame hne
    · exact List.pairwise_of_forall_mem_list fun first hfirst _ _ _ => (hothers first hfirst).1
    · intro first _ second hsecond hsame
      rw [hsame]
      exact (hothers second hsecond).1
  · exact fun _ _ _ => List.not_mem_nil
  · intro hstrict name hname
    subst hstrict
    rw [← Fields.names_of_writes_strict hkept] at hname
    refine .inr ((hperm.map Prod.fst).mem_iff.mpr ?_)
    rw [List.map_append]
    exact List.mem_append_left _ hname
  · refine (Fields.agreeBut_blank hblank hkept).mono fun name _ hname => ?_
    refine (hperm.map Prod.fst).mem_iff.mpr ?_
    rw [List.map_append]
    exact List.mem_append_left _ hname

end Members

theorem Tree.readInteger_of_bounds {least greatest value : Int} (hleast : least ≤ value)
    (hgreatest : value ≤ greatest) :
    (Tree.number (.integer value)).readInteger least greatest = .ok value :=
  Tree.readInteger_eq_ok_iff.mpr ⟨rfl, hleast, hgreatest⟩

mutual

/-- Whichever way a canonical value is written, it is what a reader gets. -/
theorem Shape.read_of_writes {α : Type} : ∀ {shape : Shape α}, shape.Lawful → shape.Faithful →
    ∀ {value : α} {tree : Tree Fault}, shape.Canonical value → shape.Writes value tree →
      shape.read tree = .ok value
  | .text, _, _, _, _, _, hwrites | .flag, _, _, _, _, _, hwrites
  | .real, _, _, _, _, _, hwrites => by
      simp only [Shape.Writes] at hwrites
      subst hwrites
      rfl
  | .natural greatest, _, _, value, _, hcanonical, hwrites => by
      simp only [Shape.Writes] at hwrites
      simp only [Shape.Canonical] at hcanonical
      subst hwrites
      simp only [Shape.read]
      rw [Tree.readInteger_of_bounds (by omega) (by omega)]
      rfl
  | .integer least greatest, _, _, value, _, hcanonical, hwrites => by
      simp only [Shape.Writes] at hwrites
      simp only [Shape.Canonical] at hcanonical
      subst hwrites
      exact Tree.readInteger_of_bounds hcanonical.1 hcanonical.2
  | .kind code ofCode, _, _, value, _, hcanonical, hwrites => by
      simp only [Shape.Writes] at hwrites
      simp only [Shape.Canonical] at hcanonical
      subst hwrites
      simp only [Shape.read]
      rw [Tree.readInteger_of_bounds hcanonical.2.1 hcanonical.2.2, Except.map, hcanonical.1]
  | .list item, hlawful, hfaithful, values, _, hcanonical, hwrites => by
      simp only [Shape.Lawful] at hlawful
      simp only [Shape.Faithful] at hfaithful
      simp only [Shape.Writes] at hwrites
      simp only [Shape.Canonical] at hcanonical
      obtain ⟨trees, htrees, rfl⟩ := hwrites
      refine Items.read_ofList (((List.forall₂_and_left _ _).mpr ⟨hcanonical, htrees⟩).imp ?_)
      rintro value tree ⟨hvalue, htree⟩
      exact Shape.read_of_writes hlawful hfaithful hvalue htree
  | .optional present, hlawful, hfaithful, value, tree, hcanonical, hwrites => by
      simp only [Shape.Lawful] at hlawful
      simp only [Shape.Faithful] at hfaithful
      simp only [Shape.Canonical] at hcanonical
      simp only [Shape.read]
      rw [Tree.readOptional_eq_ok_iff]
      cases value with
      | none =>
          simp only [Shape.Writes] at hwrites
          exact .inl ⟨hwrites, rfl⟩
      | some held =>
          simp only [Shape.Writes] at hwrites
          refine .inr ⟨Shape.ne_null_of_writes hfaithful.1 hwrites, held, ?_, rfl⟩
          exact Shape.read_of_writes hlawful hfaithful.2 (hcanonical held rfl) hwrites
  | .record strict blank fields, hlawful, hfaithful, value, tree, hcanonical, hwrites => by
      have hfields := hfaithful
      simp only [Shape.Faithful] at hfields
      have hlaws := hlawful
      simp only [Shape.Lawful] at hlaws
      simp only [Shape.Canonical] at hcanonical
      simp only [Shape.read]
      refine Tree.readRecord_of_writes hlawful hfaithful ?_ hwrites
      exact fun kept hkept =>
        Fields.supplies_of_writes hlaws.1 hfields.1 hfields.2.1 hcanonical hkept

theorem Fields.supplies_of_writes {ρ : Type} {strict : Bool} : ∀ {fields : Fields ρ},
    fields.Lawful → fields.Faithful → fields.names.Nodup →
    ∀ {record : ρ} {kept : List (String × Tree Fault)}, fields.Canonical record →
      fields.Writes strict record kept → ∀ entry ∈ kept, fields.Supplies record entry
  | .none, _, _, _, _, _, _, hwrites, entry, hentry => by
      simp only [Fields.Writes] at hwrites
      subst hwrites
      cases hentry
  | .field name shape get set rest, hlawful, hfaithful, hnodup, record, kept, hcanonical, hwrites,
      entry, hentry => by
      have hlaws := hlawful
      simp only [Fields.Lawful] at hlaws
      simp only [Fields.Faithful] at hfaithful
      simp only [Fields.names, List.nodup_cons] at hnodup
      simp only [Fields.Canonical] at hcanonical
      simp only [Fields.Writes] at hwrites
      have hlater : ∀ others, rest.Writes strict record others → entry ∈ others →
          (Fields.field name shape get set rest).Supplies record entry := by
        intro others hothers hmem
        refine Fields.supplies_later hlawful ?_ (Fields.supplies_of_writes hlaws.2.2.2.2
          hfaithful.2 hnodup.2 hcanonical.2 hothers entry hmem)
        rintro rfl
        exact hnodup.1 ((Fields.names_of_writes hothers).subset (List.mem_map_of_mem hmem))
      rcases hwrites with ⟨tree, others, hfirst, hrest, rfl⟩ | ⟨-, -, hrest⟩
      · rcases List.mem_cons.mp hentry with rfl | hmem
        · exact Fields.supplies_first hlawful hnodup.1
            (Shape.read_of_writes hlaws.1 hfaithful.1 hcanonical.1 hfirst)
        · exact hlater others hrest hmem
      · exact hlater kept hrest hentry

end

end UsageReport.Json
