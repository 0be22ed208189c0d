import UsageReport.Proofs.ReportText
import UsageReport.Proofs.StoreText
import UsageReport.Proofs.Surroundings

/-!
Records that are written as the list of their fields. Field by field such a list is read as the
object that has the same values under the names of the fields, in order. It may be shorter than the
fields of a lenient record, and never longer.
-/

namespace UsageReport.Json

section Lists

variable {ρ : Type} {strict : Bool}

theorem Slot.find?_of_split {done rest : List (Slot ρ)} {slot : Slot ρ}
    (hslot : slot.name ∉ done.map name) :
    find? (done ++ slot :: rest) slot.name = some slot := by
  have hdone : (done.find? fun other => other.name == slot.name) = none := by
    rw [List.find?_eq_none]
    intro other hother hname
    exact hslot (List.mem_map.mpr ⟨other, hother, beq_iff_eq.mp hname⟩)
  rw [find?, List.find?_append, hdone, Option.none_or]
  exact List.find?_cons_of_pos (beq_self_eq_true slot.name)

/-- Members under the names of the slots in order are read as the list of their values. What carries
the induction is that the names that have been read are those of the slots that are done. -/
theorem Items.readFields_eq_takeAll (strict : Bool) (done rest : List (Slot ρ))
    {seen : List String} {trees : List (Tree Fault)} (record : ρ)
    (hnodup : ((done ++ rest).map Slot.name).Nodup)
    (hseen : ∀ name, name ∈ seen ↔ name ∈ done.map Slot.name)
    (hlength : trees.length ≤ rest.length) :
    (Items.ofList trees).readFields strict record rest =
      (Members.takeAll (done ++ rest) seen record ((rest.map Slot.name).zip trees)).bind
        fun state => (Members.complete strict (done ++ rest) state.1).map fun _ => state.2 := by
  induction rest generalizing done seen trees record with
  | nil =>
      obtain rfl := List.eq_nil_of_length_eq_zero (Nat.le_zero.mp hlength)
      have hall : ((done ++ []).all fun slot => seen.contains slot.name) = true := by
        rw [List.append_nil, List.all_eq_true]
        intro slot hslot
        rw [List.contains_iff_mem, hseen]
        exact List.mem_map_of_mem hslot
      change Except.ok record = (Members.complete strict (done ++ []) seen).map fun _ => record
      rw [Members.complete, hall, Bool.not_true, Bool.and_false]
      rfl
  | cons slot rest ih =>
      have hslot : slot.name ∉ done.map Slot.name := by
        rw [List.map_append, List.map_cons] at hnodup
        intro hmem
        exact (List.nodup_append.mp hnodup).2.2 _ hmem _ List.mem_cons_self rfl
      cases trees with
      | nil =>
          have hmissing : ((done ++ slot :: rest).all fun slot => seen.contains slot.name) =
              false := by
            rw [List.all_eq_false]
            refine ⟨slot, by simp, ?_⟩
            rw [List.contains_iff_mem, hseen]
            exact hslot
          change (if strict then .error .mismatched else .ok record) =
            (Members.complete strict (done ++ slot :: rest) seen).map fun _ => record
          rw [Members.complete, hmissing]
          cases strict <;> rfl
      | cons tree trees =>
          have hunseen : seen.contains slot.name = false := by
            rw [← Bool.not_eq_true, List.contains_iff_mem, hseen]
            exact hslot
          have hsplit : done ++ slot :: rest = (done ++ [slot]) ++ rest := by simp
          rw [ofList, readFields, List.map_cons, List.zip_cons_cons, Members.takeAll_cons,
            Members.take, Slot.find?_of_split hslot]
          simp only [hunseen]
          cases slot.read tree with
          | error failure => rfl
          | ok update =>
              rw [hsplit] at hnodup ⊢
              refine ih (done ++ [slot]) (update record) hnodup (fun name => ?_)
                (Nat.le_of_succ_le_succ hlength)
              rw [List.mem_cons, hseen, List.map_append, List.mem_append, or_comm]
              simp

end Lists

/-- A list of values and the object that has them under the names of the first fields are read
alike. -/
theorem Shape.read_list_eq_read_record {ρ : Type} (strict : Bool) (blank : ρ) {fields : Fields ρ}
    {trees : List (Tree Fault)} (hnodup : fields.names.Nodup)
    (hlength : trees.length ≤ fields.names.length) :
    (record strict blank fields).read (.list (Items.ofList trees)) =
      (record strict blank fields).read
        (.record (Members.ofList (fields.names.zip trees))) := by
  simp only [read, Tree.readRecord]
  rw [Members.readFields_eq_takeAll, ← Fields.map_name_slots]
  rw [← Fields.map_name_slots] at hnodup hlength
  rw [List.length_map] at hlength
  refine Items.readFields_eq_takeAll strict [] fields.slots blank hnodup (fun name => ?_) hlength
  rfl

namespace Fields

variable {ρ : Type}

/-- The trees can be read as the first fields. -/
def Readable : Fields ρ → List (Tree Fault) → Prop
  | _, [] => True
  | .none, _ :: _ => False
  | .field _ shape _ _ rest, tree :: trees =>
    (∃ value, shape.read tree = .ok value) ∧ rest.Readable trees

/-- The first fields hold what the trees are read as, and the others what they hold in a blank
record. -/
def Filled (blank : ρ) : Fields ρ → List (Tree Fault) → ρ → Prop
  | .none, _, _ => True
  | .field _ _ get _ rest, [], record => get record = get blank ∧ rest.Filled blank [] record
  | .field _ shape get _ rest, tree :: trees, record =>
    shape.read tree = .ok (get record) ∧ rest.Filled blank trees record

theorem filled_nil : ∀ (fields : Fields ρ) (blank : ρ), fields.Filled blank [] blank
  | .none, _ => by simp only [Filled]
  | .field _ _ _ _ rest, blank => by
      simp only [Filled]
      exact ⟨trivial, rest.filled_nil blank⟩

theorem Filled.of_agree : ∀ {fields : Fields ρ} {first second record : ρ}
    {trees : List (Tree Fault)}, fields.Agree first second → fields.Filled first trees record →
      fields.Filled second trees record
  | .none, _, _, _, _, _, _ => by simp only [Filled]
  | .field .., _, _, _, [], hagree, hfilled => by
      simp only [Agree] at hagree
      simp only [Filled] at hfilled ⊢
      exact ⟨hfilled.1.trans hagree.1, hfilled.2.of_agree hagree.2⟩
  | .field .., _, _, _, _ :: _, hagree, hfilled => by
      simp only [Agree] at hagree
      simp only [Filled] at hfilled ⊢
      exact ⟨hfilled.1, hfilled.2.of_agree hagree.2⟩

/-- What has been put into one field stays there while the others are read. -/
theorem filled_of_readFields : ∀ {fields : Fields ρ}, fields.Lawful → ∀ {start record : ρ}
    {trees : List (Tree Fault)},
    (Items.ofList trees).readFields false start fields.slots = .ok record →
      fields.Filled start trees record
  | .none, _, _, _, _, _ => by simp only [Filled]
  | .field .., _, start, record, [], hread => by
      simp only [slots] at hread
      cases hread
      exact filled_nil _ _
  | .field _ shape get set rest, hlawful, start, record, tree :: trees, hread => by
      simp only [Lawful] at hlawful
      obtain ⟨-, hget, hagree, hpreserve, hrest⟩ := hlawful
      simp only [slots, Items.ofList, Items.readFields] at hread
      cases hvalue : shape.read tree with
      | error failure =>
          rw [hvalue] at hread
          cases hread
      | ok value =>
          rw [hvalue] at hread
          have hholds : get record = value := by
            refine Items.readFields_invariant (P := fun record => get record = value) ?_
              (hget start value) hread
            intro slot hslot other _ update hupdate record hrecord
            rw [observe_of_slot hpreserve hslot hupdate, hrecord]
          simp only [Filled]
          refine ⟨hvalue.trans (congrArg _ hholds.symm), ?_⟩
          exact (filled_of_readFields hrest hread).of_agree (hagree start value)

/-- Values for the first fields can be read, unless fields are missing that are required. -/
theorem exists_readFields_of_readable : ∀ {fields : Fields ρ} (start : ρ)
    {trees : List (Tree Fault)}, fields.Readable trees → ∃ record, ∀ strict,
      (Items.ofList trees).readFields strict start fields.slots =
        if strict && decide (trees.length < fields.names.length) then .error .mismatched
        else .ok record
  | .none, start, [], _ => ⟨start, fun strict => by cases strict <;> simp [slots, names] <;> rfl⟩
  | .none, _, _ :: _, hreadable => by simp only [Readable] at hreadable
  | .field .., start, [], _ =>
      ⟨start, fun strict => by cases strict <;> simp [slots, names] <;> rfl⟩
  | .field name shape get set rest, start, tree :: trees, hreadable => by
      simp only [Readable] at hreadable
      obtain ⟨⟨value, hvalue⟩, hrest⟩ := hreadable
      obtain ⟨record, hrecord⟩ := exists_readFields_of_readable (set start value) hrest
      refine ⟨record, fun strict => ?_⟩
      simp only [slots, names, Items.ofList, Items.readFields, hvalue, Except.map, hrecord,
        List.length_cons, Nat.add_lt_add_iff_right]

/-- A value after the last field is malformed, whatever it is. -/
theorem readFields_of_longer (strict : Bool) : ∀ {fields : Fields ρ} (start : ρ)
    {trees more : List (Tree Fault)}, fields.Readable trees →
      trees.length = fields.names.length → more ≠ [] →
      (Items.ofList (trees ++ more)).readFields strict start fields.slots = .error .malformed
  | .none, _, [], more, _, _, hmore => by
      obtain ⟨tree, rest, rfl⟩ := List.exists_cons_of_ne_nil hmore
      simp only [slots]
      rfl
  | .none, _, _ :: _, _, hreadable, _, _ => by simp only [Readable] at hreadable
  | .field .., _, [], _, _, hlength, _ => by simp [names] at hlength
  | .field name shape get set rest, start, tree :: trees, more, hreadable, hlength, hmore => by
      simp only [Readable] at hreadable
      obtain ⟨⟨value, hvalue⟩, hrest⟩ := hreadable
      simp only [names, List.length_cons, Nat.add_right_cancel_iff] at hlength
      simp only [slots, List.cons_append, Items.ofList, Items.readFields, hvalue, Except.map]
      exact readFields_of_longer strict (set start value) hrest hlength hmore

end Fields

end UsageReport.Json

namespace UsageReport

open Json

/-- The shapes of a report and of its parts. -/
inductive Report.PartShape : {α : Type} → Shape α → Prop
  | dockerHub : PartShape DockerHubUsage.shape
  | schedule : PartShape ScheduleUsage.shape
  | edgeCompute : PartShape EdgeComputeUsage.shape
  | docker : PartShape DockerUsage.shape
  | kubernetes : PartShape KubernetesUsage.shape
  | environment : PartShape EnvironmentUsage.shape
  | endpoint : PartShape EndpointUsage.shape
  | endpointGroup : PartShape EndpointGroupUsage.shape
  | registryEntry : PartShape RegistryEntry.shape
  | registry : PartShape RegistryUsage.shape
  | resourceControl : PartShape ResourceControlUsage.shape
  | runtime : PartShape RuntimeUsage.shape
  | restriction : PartShape RestrictionUsage.shape
  | settings : PartShape SettingsUsage.shape
  | stack : PartShape StackUsage.shape
  | tag : PartShape TagUsage.shape
  | team : PartShape TeamUsage.shape
  | report : PartShape Report.shape

/-- The records that are read from a text: those of a store, which are lenient, and a report with
its parts, which are strict. -/
inductive RecordForm : Bool → {α : Type} → Shape α → Prop
  | store {α : Type} {shape : Shape α} (hshape : Store.RecordShape shape) : RecordForm false shape
  | report {α : Type} {shape : Shape α} (hshape : Report.PartShape shape) : RecordForm true shape

namespace RecordForm

variable {α : Type} {strict : Bool} {shape : Shape α}

theorem lawful (hshape : RecordForm strict shape) : shape.Lawful := by
  cases hshape with
  | store hshape => exact hshape.lawful
  | report hshape =>
      cases hshape with
      | dockerHub => exact DockerHubUsage.lawful_shape
      | schedule => exact ScheduleUsage.lawful_shape
      | edgeCompute => exact EdgeComputeUsage.lawful_shape
      | docker => exact DockerUsage.lawful_shape
      | kubernetes => exact KubernetesUsage.lawful_shape
      | environment => exact EnvironmentUsage.lawful_shape
      | endpoint => exact EndpointUsage.lawful_shape
      | endpointGroup => exact EndpointGroupUsage.lawful_shape
      | registryEntry => exact RegistryEntry.lawful_shape
      | registry => exact RegistryUsage.lawful_shape
      | resourceControl => exact ResourceControlUsage.lawful_shape
      | runtime => exact RuntimeUsage.lawful_shape
      | restriction => exact RestrictionUsage.lawful_shape
      | settings => exact SettingsUsage.lawful_shape
      | stack => exact StackUsage.lawful_shape
      | tag => exact TagUsage.lawful_shape
      | team => exact TeamUsage.lawful_shape
      | report => exact Report.lawful_shape

theorem faithful (hshape : RecordForm strict shape) : shape.Faithful := by
  cases hshape with
  | store hshape => exact hshape.faithful
  | report hshape =>
      cases hshape with
      | dockerHub => exact DockerHubUsage.faithful_shape
      | schedule => exact ScheduleUsage.faithful_shape
      | edgeCompute => exact EdgeComputeUsage.faithful_shape
      | docker => exact DockerUsage.faithful_shape
      | kubernetes => exact KubernetesUsage.faithful_shape
      | environment => exact EnvironmentUsage.faithful_shape
      | endpoint => exact EndpointUsage.faithful_shape
      | endpointGroup => exact EndpointGroupUsage.faithful_shape
      | registryEntry => exact RegistryEntry.faithful_shape
      | registry => exact RegistryUsage.faithful_shape
      | resourceControl => exact ResourceControlUsage.faithful_shape
      | runtime => exact RuntimeUsage.faithful_shape
      | restriction => exact RestrictionUsage.faithful_shape
      | settings => exact SettingsUsage.faithful_shape
      | stack => exact StackUsage.faithful_shape
      | tag => exact TagUsage.faithful_shape
      | team => exact TeamUsage.faithful_shape
      | report => exact Report.faithful_shape

theorem uniform (hshape : RecordForm strict shape) : shape.uniform strict = true := by
  cases hshape with
  | store hshape => cases hshape <;> rfl
  | report hshape => cases hshape <;> rfl

end RecordForm

/-- A record inside a text may be written as the list of its fields instead, whatever the form of
the records around it. A list is read as the object that has the same values under the names of the
first fields. If these are all that is required, the others are blank, and otherwise the text is
refused. A list with more values than fields is malformed. -/
theorem decode_of_list_form {β ρ : Type} {strict own : Bool} {outer : Shape β} {blank : ρ}
    {fields : Fields ρ} {put : Json.Tree Fault → Json.Tree Fault} (hshape : RecordForm strict outer)
    (hinside : (Shape.record own blank fields).Inside outer put) :
    own = strict ∧
    (∀ trees listText objectText, trees.length ≤ fields.names.length →
      (put (.list (Items.ofList trees))).SpelledBy listText →
      (put (.record (Members.ofList (fields.names.zip trees)))).SpelledBy objectText →
      outer.decode listText = outer.decode objectText) ∧
    ∀ trees good found, good ≠ .null → outer.read (put good) = .ok found → fields.Readable trees →
      (strict = false ∨ trees.length = fields.names.length → ∃ record whole,
        (Shape.record own blank fields).read (.list (Items.ofList trees)) = .ok record ∧
        fields.Filled blank trees record ∧
        ∀ text, (put (.list (Items.ofList trees))).SpelledBy text →
          outer.decode text = .ok whole) ∧
      (strict = true → trees.length < fields.names.length → ∀ text,
        (put (.list (Items.ofList trees))).SpelledBy text →
          outer.decode text = .error .mismatched) ∧
      (trees.length = fields.names.length → ∀ more text, more ≠ [] →
        (put (.list (Items.ofList (trees ++ more)))).SpelledBy text →
          outer.decode text = .error .malformed) := by
  obtain rfl := hinside.strict_eq hshape.uniform
  have hlawful := hinside.lawful hshape.lawful
  have hfaithful := hinside.faithful hshape.faithful
  simp only [Shape.Lawful] at hlawful
  simp only [Shape.Faithful] at hfaithful
  refine ⟨rfl, ?_, ?_⟩
  · intro trees listText objectText hlength hlist hobject
    rw [outer.decode_of_spelledBy hlist, outer.decode_of_spelledBy hobject]
    refine hinside.read_congr nofun nofun ?_
    exact Shape.read_list_eq_read_record own blank hfaithful.2.1 hlength
  · intro trees good found hgood hread hreadable
    obtain ⟨wrap, hwrap⟩ := hinside.exists_wrap hgood hread
    obtain ⟨record, hrecord⟩ := Fields.exists_readFields_of_readable blank hreadable
    have hlist (items : List (Json.Tree Fault)) : (Shape.record own blank fields).read
        (.list (Items.ofList items)) =
          (Items.ofList items).readFields own blank fields.slots := by
      simp only [Shape.read, Tree.readRecord]
    have hwhole (items : List (Json.Tree Fault)) : outer.read (put (.list (Items.ofList items))) =
        ((Items.ofList items).readFields own blank fields.slots).map wrap := by
      rw [hwrap (.list (Items.ofList items)) nofun, hlist]
    refine ⟨?_, ?_, ?_⟩
    · intro henough
      have hok : (Items.ofList trees).readFields own blank fields.slots = .ok record := by
        rw [hrecord, if_neg]
        rcases henough with rfl | hlength
        · simp
        · simp [hlength]
      refine ⟨record, wrap record, (hlist trees).trans hok, ?_, fun text htext => ?_⟩
      · refine Fields.filled_of_readFields hlawful.1 ?_
        rw [hrecord, Bool.false_and]
        rfl
      · rw [outer.decode_of_spelledBy htext, hwhole, hok]
        rfl
    · rintro rfl hlength text htext
      rw [outer.decode_of_spelledBy htext, hwhole, hrecord, Bool.true_and,
        decide_eq_true hlength]
      rfl
    · intro hlength more text hmore htext
      rw [outer.decode_of_spelledBy htext, hwhole,
        Fields.readFields_of_longer own blank hreadable hlength hmore]
      rfl

/-- The account, in a store that holds nothing else. -/
def withDockerHub {φ : Type} (account : Json.Tree φ) : Json.Tree φ :=
  .record (.member (.ok "DockerHub") account .close)

theorem inside_withDockerHub : Store.DockerHub.shape.Inside Store.shape withDockerHub :=
  .member [] [] (.later (by decide) .first) (.present .here)

theorem spelledBy_withDockerHub (account : Value) {text : String}
    (htext : (withDockerHub account).toText .compact = text) :
    (withDockerHub account.printed).SpelledBy text :=
  htext ▸ Tree.spelledBy_toText .compact (withDockerHub account)

theorem decode_of_dockerHubLists :
    (RecordForm false Store.shape ∧
      Store.DockerHub.shape.Inside Store.shape withDockerHub ∧
      Store.shape.decode "\x7b\"DockerHub\":[true]\x7d" =
        Store.shape.decode "\x7b\"DockerHub\":\x7b\"Authentication\":true\x7d\x7d" ∧
      (∃ store, Store.shape.decode "\x7b\"DockerHub\":[true]\x7d" = .ok store) ∧
      Store.shape.decode "\x7b\"DockerHub\":[true,\"a\",null]\x7d" = .error .malformed) ∧
    RecordForm true RestrictionUsage.shape ∧
    RestrictionUsage.shape.Inside RestrictionUsage.shape id ∧
    RestrictionUsage.shape.decode "[true,false]" = .error .mismatched := by
  obtain ⟨-, hsame, hlists⟩ := decode_of_list_form (.store .store) inside_withDockerHub
  obtain ⟨-, -, hparts⟩ :=
    decode_of_list_form (.report .restriction) (@Shape.Inside.here _ RestrictionUsage.shape)
  have hshort : (withDockerHub (.list (Items.ofList [.flag true]))).SpelledBy
      "\x7b\"DockerHub\":[true]\x7d" :=
    spelledBy_withDockerHub (.list (.item (.flag true) .close)) (by decide +kernel)
  have hobject :
      (withDockerHub (.record (Members.ofList [("Authentication", .flag true)]))).SpelledBy
      "\x7b\"DockerHub\":\x7b\"Authentication\":true\x7d\x7d" :=
    spelledBy_withDockerHub (.record (.member (.ok "Authentication") (.flag true) .close))
      (by decide +kernel)
  have hlong : (withDockerHub (.list (Items.ofList [.flag true, .text "a", .null]))).SpelledBy
      "\x7b\"DockerHub\":[true,\"a\",null]\x7d" :=
    spelledBy_withDockerHub
      (.list (.item (.flag true) (.item (.text "a") (.item .null .close)))) (by decide +kernel)
  have hpart : Tree.SpelledBy (.list (Items.ofList [.flag true, .flag false])) "[true,false]" :=
    Tree.spelledBy_toText .compact (.list (.item (.flag true) (.item (.flag false) .close)))
  have hgood : Store.shape.read (withDockerHub (.list .close)) = .ok { dockerHub := some {} } := rfl
  obtain ⟨hok, -, -⟩ := hlists [.flag true] (.list .close) _ nofun hgood ⟨⟨true, rfl⟩, trivial⟩
  obtain ⟨-, -, hlonger⟩ :=
    hlists [.flag true, .text "a"] (.list .close) _ nofun hgood
      ⟨⟨true, rfl⟩, ⟨"a", rfl⟩, trivial⟩
  obtain ⟨-, hshorter, -⟩ := hparts [.flag true, .flag false]
    (.list (Items.ofList [.flag true, .flag true, .flag true])) _ nofun rfl
    ⟨⟨true, rfl⟩, ⟨false, rfl⟩, trivial⟩
  obtain ⟨record, whole, -, -, hwhole⟩ := hok (.inl rfl)
  exact ⟨⟨.store .store, inside_withDockerHub, hsame _ _ _ (by decide) hshort hobject,
    ⟨whole, hwhole _ hshort⟩, hlonger rfl [.null] _ nofun hlong⟩, .report .restriction, .here,
    hshorter rfl (by decide) _ hpart⟩

end UsageReport
