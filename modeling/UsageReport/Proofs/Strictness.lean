import UsageReport.Proofs.ListForm

/-!
Members that are taken out of an object, written twice, or added to it. Which names have been read
decides all of this: a required name that is missing at the end, and a known name that comes again,
are refused whatever the values are, and unknown names leave no trace.
-/

namespace UsageReport.Json

namespace Members

variable {ρ : Type} {slots : List (Slot ρ)} {seen : List String} {record : ρ}
  {entries : List (String × Tree Fault)} {state : List String × ρ}

theorem take_eq_ok {entry : String × Tree Fault}
    (htake : take slots seen record entry = .ok state) :
    (Slot.find? slots entry.1 = none ∧ entry.2.skip = .ok () ∧ state = (seen, record)) ∨
      ∃ slot update, Slot.find? slots entry.1 = some slot ∧ entry.1 ∉ seen ∧
        slot.read entry.2 = .ok update ∧ state = (entry.1 :: seen, update record) := by
  unfold take at htake
  cases hfind : Slot.find? slots entry.1 with
  | none =>
      rw [hfind] at htake
      obtain ⟨held, hskip, rfl⟩ := map_eq_ok_iff.mp htake
      exact .inl ⟨rfl, hskip, rfl⟩
  | some slot =>
      simp only [hfind] at htake
      split at htake
      · cases htake
      · rename_i hunseen
        obtain ⟨update, hread, rfl⟩ := map_eq_ok_iff.mp htake
        exact .inr ⟨slot, update, rfl, by simpa using hunseen, hread, rfl⟩

theorem takeAll_cons_eq_ok {entry : String × Tree Fault}
    (htake : takeAll slots seen record (entry :: entries) = .ok state) :
    ∃ first, take slots seen record entry = .ok first ∧
      takeAll slots first.1 first.2 entries = .ok state := by
  rw [takeAll_cons] at htake
  cases hfirst : take slots seen record entry with
  | error failure => rw [hfirst] at htake; cases htake
  | ok first =>
      rw [hfirst] at htake
      exact ⟨first, rfl, htake⟩

theorem takeAll_append_eq_ok {more : List (String × Tree Fault)}
    (htake : takeAll slots seen record (entries ++ more) = .ok state) :
    ∃ middle, takeAll slots seen record entries = .ok middle ∧
      takeAll slots middle.1 middle.2 more = .ok state := by
  rw [takeAll_append] at htake
  cases hfirst : takeAll slots seen record entries with
  | error failure => rw [hfirst] at htake; cases htake
  | ok middle =>
      rw [hfirst] at htake
      exact ⟨middle, rfl, htake⟩

/-- A name that has been read is not read again. -/
theorem takeAll_spec (htake : takeAll slots seen record entries = .ok state) :
    (∀ name ∈ seen, name ∈ state.1) ∧
      ∀ entry ∈ entries, (Slot.find? slots entry.1).isSome → entry.1 ∉ seen := by
  induction entries generalizing seen record with
  | nil =>
      cases htake
      exact ⟨fun _ => id, fun _ hentry => nomatch hentry⟩
  | cons entry entries ih =>
      obtain ⟨first, hfirst, hrest⟩ := takeAll_cons_eq_ok htake
      obtain ⟨hkept, hunseen⟩ := ih hrest
      rcases take_eq_ok hfirst with ⟨hnone, -, rfl⟩ | ⟨slot, update, hslot, hentry, -, rfl⟩
      · refine ⟨hkept, List.forall_mem_cons.mpr ⟨fun hknown => ?_, hunseen⟩⟩
        rw [hnone] at hknown
        cases hknown
      · refine ⟨fun name hname => hkept name (List.mem_cons_of_mem _ hname), ?_⟩
        refine List.forall_mem_cons.mpr ⟨fun _ => hentry, fun other hother hknown hmem => ?_⟩
        exact hunseen other hother hknown (List.mem_cons_of_mem _ hmem)

/-- Members can be taken as well where fewer names have been read, into any record. -/
theorem takeAll_of_subset (htake : takeAll slots seen record entries = .ok state)
    {fewer : List String} (hfewer : ∀ name ∈ fewer, name ∈ seen) (start : ρ) :
    ∃ found, takeAll slots fewer start entries = .ok found ∧
      ∀ name ∈ found.1, name ∈ fewer ∨ ∃ entry ∈ entries, entry.1 = name ∧
        (Slot.find? slots entry.1).isSome := by
  induction entries generalizing seen record fewer start with
  | nil => exact ⟨(fewer, start), rfl, fun _ => .inl⟩
  | cons entry entries ih =>
      obtain ⟨first, hfirst, hrest⟩ := takeAll_cons_eq_ok htake
      rw [takeAll_cons]
      rcases take_eq_ok hfirst with
        ⟨hnone, hskip, rfl⟩ | ⟨slot, update, hslot, hentry, hread, rfl⟩
      · obtain ⟨found, hfound, hnames⟩ := ih hrest hfewer start
        refine ⟨found, ?_, fun name hname => (hnames name hname).imp_right ?_⟩
        · simp only [take, hnone, hskip]
          exact hfound
        · rintro ⟨other, hother, heq⟩
          exact ⟨other, List.mem_cons_of_mem _ hother, heq⟩
      · have hcons : ∀ name ∈ entry.1 :: fewer, name ∈ entry.1 :: seen :=
          List.forall_mem_cons.mpr ⟨List.mem_cons_self,
            fun name hname => List.mem_cons_of_mem _ (hfewer name hname)⟩
        obtain ⟨found, hfound, hnames⟩ := ih hrest hcons (update start)
        have hunseen : fewer.contains entry.1 = false := by
          rw [← Bool.not_eq_true, List.contains_iff_mem]
          exact fun hmem => hentry (hfewer _ hmem)
        refine ⟨found, ?_, fun name hname => ?_⟩
        · simp only [take, hslot, hunseen, hread]
          exact hfound
        · rcases hnames name hname with hname | ⟨other, hother, heq⟩
          · rcases List.mem_cons.mp hname with rfl | hname
            · exact .inr ⟨entry, List.mem_cons_self, rfl, by rw [hslot]; rfl⟩
            · exact .inl hname
          · exact .inr ⟨other, List.mem_cons_of_mem _ hother, heq⟩

/-- Members under unknown names could as well not be there. -/
theorem takeAll_filter (hskip : ∀ entry ∈ entries,
    (Slot.find? slots entry.1).isSome = false → entry.2.skip = .ok ()) :
    takeAll slots seen record entries =
      takeAll slots seen record
        (entries.filter fun entry => (Slot.find? slots entry.1).isSome) := by
  induction entries generalizing seen record with
  | nil => rfl
  | cons entry entries ih =>
      obtain ⟨hfirst, hrest⟩ := List.forall_mem_cons.mp hskip
      rw [takeAll_cons]
      cases hfind : Slot.find? slots entry.1 with
      | none =>
          rw [List.filter_cons_of_neg (by simp [hfind]), take, hfind, hfirst (by simp [hfind])]
          exact ih hrest
      | some slot =>
          rw [List.filter_cons_of_pos (by simp [hfind]), takeAll_cons]
          congr 1
          funext state
          exact ih hrest

theorem skip_of_takeAll (htake : takeAll slots seen record entries = .ok state) :
    ∀ entry ∈ entries, (Slot.find? slots entry.1).isSome = false → entry.2.skip = .ok () := by
  induction entries generalizing seen record with
  | nil => exact fun _ hentry => nomatch hentry
  | cons entry entries ih =>
      obtain ⟨first, hfirst, hrest⟩ := takeAll_cons_eq_ok htake
      refine List.forall_mem_cons.mpr ⟨fun hunknown => ?_, ih hrest⟩
      rcases take_eq_ok hfirst with ⟨-, hskip, -⟩ | ⟨slot, update, hslot, -, -, -⟩
      · exact hskip
      · rw [hslot] at hunknown
        cases hunknown

variable {strict : Bool} {result : ρ} {before middle after : List (String × Tree Fault)}

theorem readFields_eq_ok
    (hread : (ofList entries).readFields strict slots seen record = .ok result) :
    ∃ state, takeAll slots seen record entries = .ok state ∧
      complete strict slots state.1 = .ok () ∧ state.2 = result := by
  rw [readFields_eq_takeAll] at hread
  cases htake : takeAll slots seen record entries with
  | error failure => rw [htake] at hread; cases hread
  | ok state =>
      rw [htake] at hread
      obtain ⟨held, hcomplete, hresult⟩ := map_eq_ok_iff.mp hread
      exact ⟨state, rfl, hcomplete, hresult⟩

theorem complete_of_missing {names : List String} {slot : Slot ρ} (hslot : slot ∈ slots)
    (hmissing : slot.name ∉ names) : complete true slots names = .error .mismatched := by
  have hall : (slots.all fun slot => names.contains slot.name) = false := by
    rw [List.all_eq_false]
    refine ⟨slot, hslot, ?_⟩
    rwa [List.contains_iff_mem]
  rw [complete, hall]
  rfl

/-- What is read after a member did not have its name, so that without the member nothing has. -/
theorem readFields_without {entry : String × Tree Fault}
    (hknown : (Slot.find? slots entry.1).isSome)
    (hread : (ofList (before ++ entry :: after)).readFields true slots [] record = .ok result) :
    (ofList (before ++ after)).readFields true slots [] record = .error .mismatched := by
  obtain ⟨state, htake, -, -⟩ := readFields_eq_ok hread
  obtain ⟨early, hbefore, hrest⟩ := takeAll_append_eq_ok htake
  obtain ⟨first, hfirst, hafter⟩ := takeAll_cons_eq_ok hrest
  rcases take_eq_ok hfirst with ⟨hnone, -, -⟩ | ⟨slot, update, hslot, hunseen, -, rfl⟩
  · rw [hnone] at hknown
    cases hknown
  · obtain ⟨found, hfound, hnames⟩ :=
      takeAll_of_subset hafter (fun _ => List.mem_cons_of_mem entry.1) early.2
    have hmissing : slot.name ∉ found.1 := by
      rw [Slot.name_of_find? hslot]
      intro hmem
      rcases hnames _ hmem with hearly | ⟨other, hother, heq, hothers⟩
      · exact hunseen hearly
      · exact (takeAll_spec hafter).2 other hother hothers (heq ▸ List.mem_cons_self)
    rw [readFields_eq_takeAll, takeAll_append, hbefore]
    simp only [Except.bind, hfound]
    rw [complete_of_missing (List.mem_of_find?_eq_some hslot) hmissing]
    rfl

/-- A known name stays known, so that it is refused wherever it comes again. -/
theorem readFields_repeated {first : String × Tree Fault} (value : Tree Fault)
    (hknown : (Slot.find? slots first.1).isSome)
    (hread : (ofList (before ++ first :: (middle ++ after))).readFields strict slots [] record =
      .ok result) :
    (ofList (before ++ first :: (middle ++ (first.1, value) :: after))).readFields strict slots []
      record = .error .mismatched := by
  obtain ⟨state, htake, -, -⟩ := readFields_eq_ok hread
  obtain ⟨early, hbefore, hrest⟩ := takeAll_append_eq_ok htake
  obtain ⟨next, hfirst, hothers⟩ := takeAll_cons_eq_ok hrest
  obtain ⟨later, hmiddle, -⟩ := takeAll_append_eq_ok hothers
  rcases take_eq_ok hfirst with ⟨hnone, -, -⟩ | ⟨slot, update, hslot, -, -, rfl⟩
  · rw [hnone] at hknown
    cases hknown
  · have hseen : later.1.contains first.1 = true :=
      List.contains_iff_mem.mpr ((takeAll_spec hmiddle).1 _ List.mem_cons_self)
    have hagain : take slots later.1 later.2 (first.1, value) = .error .mismatched := by
      simp only [take, hslot, hseen, if_true]
    rw [readFields_eq_takeAll, takeAll_append, hbefore]
    simp only [Except.bind, takeAll_cons, hfirst, takeAll_append, hmiddle, hagain]

theorem readFields_of_filter_eq {more : List (String × Tree Fault)}
    (hread : (ofList entries).readFields strict slots [] record = .ok result)
    (hmore : (more.filter fun entry => (Slot.find? slots entry.1).isSome) =
      entries.filter fun entry => (Slot.find? slots entry.1).isSome)
    (hskip : ∀ entry ∈ more,
      (Slot.find? slots entry.1).isSome = false → entry.2.skip = .ok ()) :
    (ofList more).readFields strict slots [] record = .ok result := by
  obtain ⟨state, htake, -, -⟩ := readFields_eq_ok hread
  rw [← hread, readFields_eq_takeAll, readFields_eq_takeAll, takeAll_filter hskip, hmore,
    ← takeAll_filter (skip_of_takeAll htake)]

end Members

/-- A place in a tree, in whatever kind of value. -/
inductive Tree.Place : (Tree Fault → Tree Fault) → Prop
  | here : Tree.Place id
  | item {put : Tree Fault → Tree Fault} (before after : List (Tree Fault))
      (hput : Tree.Place put) :
      Tree.Place fun tree => .list (Items.ofList (before ++ put tree :: after))
  | member {put : Tree Fault → Tree Fault} (name : String)
      (before after : List (String × Tree Fault)) (hput : Tree.Place put) :
      Tree.Place fun tree => .record (Members.ofList (before ++ (name, put tree) :: after))

theorem Items.ofList_injective {φ : Type} :
    Function.Injective (ofList : List (Tree φ) → Items φ) := by
  intro first second heq
  induction first generalizing second with
  | nil => cases second <;> first | rfl | cases heq
  | cons value rest ih =>
      cases second with
      | nil => cases heq
      | cons other others =>
          injection heq with hvalue hrest
          rw [hvalue, ih hrest]

theorem Fields.At.mem_names {ρ α : Type} {name : String} {shape : Shape α} {fields : Fields ρ}
    {place : Nat} (hat : fields.At name shape place) : name ∈ fields.names := by
  induction hat with
  | first => simp only [names, List.mem_cons_self]
  | later _ _ ih =>
      simp only [names]
      exact List.mem_cons_of_mem _ ih

theorem Fields.exists_printed {ρ : Type} : ∀ (fields : Fields ρ) (record : ρ),
    ∃ entries, (fields.write record).printed = Members.ofList entries ∧
      entries.map Prod.fst = fields.names
  | .none, _ => by
      refine ⟨[], ?_, ?_⟩
      · simp only [write, Members.printed, Members.ofList]
      · simp only [names, List.map_nil]
  | .field name shape get _ rest, record => by
      obtain ⟨entries, hprinted, hnames⟩ := rest.exists_printed record
      refine ⟨(name, (shape.write (get record)).printed) :: entries, ?_, ?_⟩
      · simp only [write, Members.printed, Members.ofList, hprinted]
      · simp only [names, List.map_cons, hnames]

/-- A number is no object, and has none inside. -/
theorem Number.printed_ne_put (number : Number) {put : Tree Fault → Tree Fault}
    {members : Members Fault} (hplace : Tree.Place put) :
    number.printed ≠ put (.record members) := by
  obtain ⟨numeral, hspelling⟩ := number.exists_numeral
  cases hnumber : numeral.number? with
  | none =>
      rw [printed_eq hspelling (by rw [hnumber]; rfl)]
      cases hplace <;> exact nofun
  | some value =>
      rw [printed_eq hspelling (by rw [hnumber]; rfl)]
      cases hplace <;> exact nofun

/-- The members are those of a record of some shape, all of them, and a reader by that shape comes
to the place. -/
def Shape.HoldsRecord {α : Type} (outer : Shape α) (put : Tree Fault → Tree Fault)
    (members : Members Fault) : Prop :=
  ∃ (ρ : Type) (strict : Bool) (blank : ρ) (fields : Fields ρ)
    (entries : List (String × Tree Fault)), members = Members.ofList entries ∧
      entries.map Prod.fst = fields.names ∧ (Shape.record strict blank fields).Inside outer put

mutual

/-- Every object in a printed value is a record that a reader comes to. -/
theorem Shape.holdsRecord_of_printed {α : Type} : ∀ {shape : Shape α}, shape.Faithful →
    ∀ {value : α} {put : Tree Fault → Tree Fault} {members : Members Fault}, Tree.Place put →
      (shape.write value).printed = put (.record members) → shape.HoldsRecord put members
  | .text, _, _, _, _, hplace, hprinted | .flag, _, _, _, _, hplace, hprinted => by
      simp only [Shape.write, Tree.printed] at hprinted
      cases hplace <;> cases hprinted
  | .natural _, _, _, _, _, hplace, hprinted | .integer _ _, _, _, _, _, hplace, hprinted
  | .kind _ _, _, _, _, _, hplace, hprinted | .real, _, _, _, _, hplace, hprinted => by
      simp only [Shape.write, Tree.printed] at hprinted
      exact absurd hprinted (Number.printed_ne_put _ hplace)
  | .list item, hfaithful, values, put, members, hplace, hprinted => by
      simp only [Shape.Faithful] at hfaithful
      simp only [Shape.write, Tree.printed, Items.printed_ofList] at hprinted
      cases hplace with
      | here => cases hprinted
      | member name before after hput => cases hprinted
      | @item put before after hput =>
          injection hprinted with hitems
          have hmem : put (.record members) ∈ (values.map item.write).map Tree.printed := by
            rw [Items.ofList_injective hitems]
            exact List.mem_append_right _ List.mem_cons_self
          obtain ⟨_, hwritten, hvalue⟩ := List.mem_map.mp hmem
          obtain ⟨value, -, rfl⟩ := List.mem_map.mp hwritten
          obtain ⟨ρ, strict, blank, fields, entries, hentries, hnames, hinside⟩ :=
            Shape.holdsRecord_of_printed hfaithful hput hvalue
          exact ⟨ρ, strict, blank, fields, entries, hentries, hnames, .item before after hinside⟩
  | .optional present, hfaithful, none, put, members, hplace, hprinted => by
      simp only [Shape.write, Tree.printed] at hprinted
      cases hplace <;> cases hprinted
  | .optional present, hfaithful, some value, put, members, hplace, hprinted => by
      simp only [Shape.Faithful] at hfaithful
      simp only [Shape.write] at hprinted
      obtain ⟨ρ, strict, blank, fields, entries, hentries, hnames, hinside⟩ :=
        Shape.holdsRecord_of_printed hfaithful.2 hplace hprinted
      exact ⟨ρ, strict, blank, fields, entries, hentries, hnames, .present hinside⟩
  | .record strict blank fields, hfaithful, record, put, members, hplace, hprinted => by
      simp only [Shape.Faithful] at hfaithful
      simp only [Shape.write, Tree.printed] at hprinted
      cases hplace with
      | here =>
          injection hprinted with hmembers
          obtain ⟨entries, hentries, hnames⟩ := fields.exists_printed record
          exact ⟨_, strict, blank, fields, entries, hmembers.symm.trans hentries, hnames, .here⟩
      | item before after hput => cases hprinted
      | @member put name before after hput =>
          injection hprinted with hmembers
          obtain ⟨β, shape, place, hat, ρ, own, start, inner, entries, hentries, hnames, hinside⟩ :=
            Fields.holdsRecord_of_printed hfaithful.1 hfaithful.2.1 hput before after hmembers
          exact ⟨ρ, own, start, inner, entries, hentries, hnames, .member before after hat hinside⟩

theorem Fields.holdsRecord_of_printed {ρ : Type} : ∀ {fields : Fields ρ}, fields.Faithful →
    fields.names.Nodup → ∀ {record : ρ} {put : Tree Fault → Tree Fault}
      {members : Members Fault} {name : String}, Tree.Place put →
      ∀ before after : List (String × Tree Fault), (fields.write record).printed =
        Members.ofList (before ++ (name, put (.record members)) :: after) →
      ∃ (β : Type) (shape : Shape β) (place : Nat), fields.At name shape place ∧
        shape.HoldsRecord put members
  | .none, _, _, _, _, _, _, _, before, _, hprinted => by
      simp only [Fields.write, Members.printed] at hprinted
      cases before <;> cases hprinted
  | .field own shape get _ rest, hfaithful, hnodup, record, put, members, name, hplace, before,
      after, hprinted => by
      simp only [Fields.Faithful] at hfaithful
      simp only [Fields.names, List.nodup_cons] at hnodup
      simp only [Fields.write, Members.printed] at hprinted
      cases before with
      | nil =>
          injection hprinted with hname hvalue hrest
          injection hname with hname
          subst hname
          exact ⟨_, shape, 0, .first, Shape.holdsRecord_of_printed hfaithful.1 hplace hvalue⟩
      | cons entry before =>
          injection hprinted with hname hvalue hrest
          obtain ⟨β, found, place, hat, hholds⟩ :=
            Fields.holdsRecord_of_printed hfaithful.2 hnodup.2 hplace before after hrest
          refine ⟨β, found, place + 1, .later ?_ hat, hholds⟩
          rintro rfl
          exact hnodup.1 hat.mem_names

end

theorem Slot.isSome_find?_slots {ρ : Type} (fields : Fields ρ) (name : String) :
    (find? fields.slots name).isSome = decide (name ∈ fields.names) := by
  by_cases hname : name ∈ fields.names
  · rw [← Fields.map_name_slots] at hname
    obtain ⟨slot, hslot, rfl⟩ := List.mem_map.mp hname
    rw [decide_eq_true (Fields.map_name_slots fields ▸ List.mem_map_of_mem hslot), find?,
      List.find?_isSome]
    exact ⟨slot, hslot, beq_self_eq_true slot.name⟩
  · rw [find?_slots_eq_none hname, decide_eq_false hname]
    rfl

end UsageReport.Json

namespace UsageReport

open Json

/-- In whatever JSON a record is read from, an object at any place inside it has each known name
once. If a name that is required is taken out, or a known one is written again later on, with
whatever value and in whatever spelling, the text is refused, and members under unknown names make
no difference. Every object in the JSON of a report is at such a place, with the names that are
known there. -/
theorem decode_of_changed_members :
    (∀ report layout, Report.shape.Canonical report →
      (Report.shape.write report).printed.SpelledBy (Report.shape.encode layout report) ∧
      (∃ interval, Report.shape.read (Report.shape.write report).printed =
        .ok (report.withInterval interval)) ∧
      ∀ put members, Tree.Place put →
        (Report.shape.write report).printed = put (.record members) →
        Report.shape.HoldsRecord put members) ∧
    ∀ {β ρ : Type} {strict own : Bool} {outer : Shape β} {blank : ρ} {fields : Fields ρ}
      {put : Json.Tree Fault → Json.Tree Fault} {entries : List (String × Json.Tree Fault)}
      {value : β}, RecordForm strict outer → (Shape.record own blank fields).Inside outer put →
      outer.read (put (.record (Members.ofList entries))) = .ok value →
      (strict = true → ∀ before entry after text, entries = before ++ entry :: after →
        entry.1 ∈ fields.names →
        (put (.record (Members.ofList (before ++ after)))).SpelledBy text →
        outer.decode text = .error .mismatched) ∧
      (∀ before first middle after second text, entries = before ++ first :: (middle ++ after) →
        first.1 ∈ fields.names →
        (put (.record (Members.ofList
          (before ++ first :: (middle ++ (first.1, second) :: after))))).SpelledBy text →
        outer.decode text = .error .mismatched) ∧
      ∀ more text, (more.filter fun entry => entry.1 ∈ fields.names) =
          entries.filter (fun entry => entry.1 ∈ fields.names) →
        (∀ entry ∈ more, entry.1 ∉ fields.names → entry.2.WellFormed) →
        (put (.record (Members.ofList more))).SpelledBy text →
        outer.decode text = .ok value := by
  constructor
  · intro report layout hcanonical
    obtain ⟨interval, hinterval⟩ :=
      Number.exists_printed_real report.settings.snapshotInterval
    have hrereads := Report.rereads_withInterval hinterval
    refine ⟨Tree.spelledBy_toText layout _, ⟨interval, ?_⟩, ?_⟩
    · exact Shape.read_of_writes Report.lawful_shape Report.faithful_shape
        (Shape.canonical_of_rereads hcanonical hrereads)
        (Shape.writes_printed Report.faithful_shape hcanonical hrereads)
    · intro put members hplace hprinted
      exact Shape.holdsRecord_of_printed Report.faithful_shape hplace hprinted
  · intro β ρ strict own outer blank fields put entries value hshape hinside hread
    obtain rfl := hinside.strict_eq hshape.uniform
    have hobject : Json.Tree.record (Members.ofList entries) ≠ .null := nofun
    obtain ⟨wrap, hwrap⟩ := hinside.exists_wrap hobject hread
    have hwhole (members : List (String × Json.Tree Fault)) :
        outer.read (put (.record (Members.ofList members))) =
          ((Members.ofList members).readFields own fields.slots [] blank).map wrap := by
      rw [hwrap (.record (Members.ofList members)) nofun]
      simp only [Shape.read, Tree.readRecord]
    rw [hwhole] at hread
    obtain ⟨record, hrecord, rfl⟩ := map_eq_ok_iff.mp hread
    refine ⟨?_, ?_, ?_⟩
    · rintro rfl before entry after text rfl hknown htext
      rw [outer.decode_of_spelledBy htext, hwhole, Members.readFields_without ?_ hrecord]
      · rfl
      · rw [Slot.isSome_find?_slots, decide_eq_true hknown]
    · rintro before first middle after second text rfl hknown htext
      rw [outer.decode_of_spelledBy htext, hwhole, Members.readFields_repeated second ?_ hrecord]
      · rfl
      · rw [Slot.isSome_find?_slots, decide_eq_true hknown]
    · intro more text hmore hunknown htext
      rw [outer.decode_of_spelledBy htext, hwhole, Members.readFields_of_filter_eq hrecord]
      · rfl
      · simpa only [Slot.isSome_find?_slots] using hmore
      · intro entry hentry hother
        rw [Slot.isSome_find?_slots, decide_eq_false_iff_not] at hother
        obtain ⟨tokens, htree⟩ := hunknown entry hentry hother
        exact htree.skip

/-- All restrictions, as members of an object. -/
def restrictionEntries {φ : Type} : List (String × Json.Tree φ) :=
  [("RestrictBindMounts", .flag true), ("RestrictPrivilegedMode", .flag false),
    ("RestrictVolumeBrowser", .flag true)]

theorem spelledBy_record (value : Value) {members : Members Fault} {text : String}
    (hprinted : value.printed = .record members) (htext : value.toText .compact = text) :
    (Json.Tree.record members).SpelledBy text :=
  hprinted ▸ htext ▸ Tree.spelledBy_toText .compact value

theorem decode_of_changed_restrictions :
    (Report.shape.Canonical {} ∧ ∃ members,
      (Report.shape.write {}).printed = .record members ∧ Report.shape.HoldsRecord id members) ∧
    (RecordForm true RestrictionUsage.shape ∧
      RestrictionUsage.shape.read (.record (Members.ofList restrictionEntries)) =
        .ok ⟨true, false, true⟩ ∧
      RestrictionUsage.shape.decode
          "\x7b\"RestrictBindMounts\":true,\"RestrictVolumeBrowser\":true\x7d" =
        .error .mismatched ∧
      RestrictionUsage.shape.decode ("\x7b\"RestrictBindMounts\":true," ++
          "\"RestrictPrivilegedMode\":false,\"RestrictVolumeBrowser\":true," ++
          "\"RestrictBindMounts\":true\x7d") = .error .mismatched ∧
      RestrictionUsage.shape.decode ("\x7b\"More\":[null],\"RestrictBindMounts\":true," ++
          "\"RestrictPrivilegedMode\":false,\"RestrictVolumeBrowser\":true\x7d") =
        .ok ⟨true, false, true⟩) ∧
    RecordForm false Store.shape ∧
      Store.shape.decode "\x7b\"DockerHub\":[],\"DockerHub\":null\x7d" = .error .mismatched := by
  obtain ⟨hreports, hchanges⟩ := decode_of_changed_members
  have hcanonical : Report.shape.Canonical {} := Shape.canonical_blank Report.lawful_shape
  obtain ⟨-, -, hholds⟩ := hreports {} .compact hcanonical
  have hread : RestrictionUsage.shape.read (.record (Members.ofList restrictionEntries)) =
      .ok ⟨true, false, true⟩ := rfl
  have hstore : Store.shape.read (.record (Members.ofList [("DockerHub", .list .close)])) =
      .ok { dockerHub := some {} } := rfl
  obtain ⟨hwithout, hrepeated, hmore⟩ := hchanges (.report .restriction)
    (@Shape.Inside.here _ RestrictionUsage.shape) hread
  obtain ⟨-, hagain, -⟩ := hchanges (.store .store) (@Shape.Inside.here _ Store.shape) hstore
  refine ⟨⟨hcanonical, _, rfl, hholds id _ .here rfl⟩, ⟨.report .restriction, hread, ?_, ?_, ?_⟩,
    .store .store, ?_⟩
  · refine hwithout rfl [("RestrictBindMounts", .flag true)] _
      [("RestrictVolumeBrowser", .flag true)] _ rfl (by decide) (spelledBy_record
        (.record (Members.ofList
          [("RestrictBindMounts", .flag true), ("RestrictVolumeBrowser", .flag true)]))
        rfl (by decide +kernel))
  · refine hrepeated [] ("RestrictBindMounts", .flag true)
      [("RestrictPrivilegedMode", .flag false), ("RestrictVolumeBrowser", .flag true)] []
      (.flag true) _ rfl (by decide) (spelledBy_record
        (.record (Members.ofList (restrictionEntries ++ [("RestrictBindMounts", .flag true)])))
        rfl (by decide +kernel))
  · refine hmore (("More", .list (Items.ofList [.null])) :: restrictionEntries) _ rfl ?_
      (spelledBy_record
        (.record (Members.ofList (("More", .list (Items.ofList [.null])) :: restrictionEntries)))
        rfl (by decide +kernel))
    have hitem : Json.Tree.Spelled .null [.null] := .scalar rfl
    refine List.forall_mem_cons.mpr ⟨fun _ => ⟨_, .list (.item hitem .close)⟩, ?_⟩
    intro entry hentry hunknown
    have hname := List.mem_map_of_mem (f := Prod.fst) hentry
    exact absurd hname hunknown
  · refine hagain [] ("DockerHub", .list .close) [] [] .null _ rfl (by decide) (spelledBy_record
      (.record (Members.ofList [("DockerHub", .list .close), ("DockerHub", .null)]))
      rfl (by decide +kernel))

end UsageReport
