import UsageReport.Proofs.Weight

/-!
What is known of a store that has been loaded from a text: it is canonical, and none of its
collections is larger than the text is long.
-/

namespace UsageReport.Store

open Json

namespace Kind

variable (κ : Type) [Kind κ]

theorem lawful_shape : (shape κ).Lawful := by
  simp only [shape, Shape.Lawful]
  exact code_ofCode

theorem canonical_absent : (shape κ).Canonical (absent κ) := by
  simp only [shape, Shape.Canonical, absent, code_ofCode]
  decide

variable {κ}

/-- The kind is the one that its code stands for. -/
def Proper (kind : κ) : Prop := ofCode (code kind) = kind

theorem proper_of_canonical {kind : κ} (hcanonical : (shape κ).Canonical kind) : Proper kind := by
  simp only [shape, Shape.Canonical] at hcanonical
  exact hcanonical.1

theorem code_eq_iff {first second : κ} (hfirst : Proper first) (hsecond : Proper second) :
    code first = code second ↔ first = second := by
  constructor
  · intro hcode
    rw [← hfirst, ← hsecond, hcode]
  · exact congrArg code

theorem countP_eq {α : Type} [DecidableEq κ] {kind : α → κ} {values : List α} {named : κ}
    (hvalues : ∀ value ∈ values, Proper (kind value)) (hnamed : Proper named) :
    (values.countP fun value => kind value == named) =
      values.countP fun value => code (kind value) == code named := by
  apply List.countP_congr
  intro value hvalue
  rw [beq_iff_eq, beq_iff_eq, code_eq_iff (hvalues value hvalue) hnamed]

end Kind

attribute [local simp] Shape.Lawful Fields.Lawful Fields.Agree Fields.Preserve Fields.Canonical
  Shape.Canonical Shape.word Shape.halfWord Shape.signedWord Kind.lawful_shape leastSigned
  greatestSigned

theorem Identity.lawful_shape : Identity.shape.Lawful := by
  simp [shape]

theorem DockerHub.lawful_shape : DockerHub.shape.Lawful := by
  simp [shape]

theorem Schedule.lawful_shape : Schedule.shape.Lawful := by
  simp [shape]
  exact Kind.canonical_absent _

theorem DockerSnapshot.lawful_shape : DockerSnapshot.shape.Lawful := by
  simp [shape]

theorem Endpoint.lawful_shape : Endpoint.shape.Lawful := by
  simp [shape, DockerSnapshot.lawful_shape]
  exact Kind.canonical_absent _

theorem EndpointGroup.lawful_shape : EndpointGroup.shape.Lawful := by
  simp [shape]

theorem Registry.lawful_shape : Registry.shape.Lawful := by
  simp [shape]
  exact Kind.canonical_absent _

theorem ResourceControl.lawful_shape : ResourceControl.shape.Lawful := by
  simp [shape]
  exact Kind.canonical_absent _

theorem Label.lawful_shape : Label.shape.Lawful := by
  simp [shape]

theorem Settings.lawful_shape : Settings.shape.Lawful := by
  simp [shape, Label.lawful_shape]
  exact Kind.canonical_absent _

theorem Stack.lawful_shape : Stack.shape.Lawful := by
  simp [shape]
  exact Kind.canonical_absent _

theorem Tag.lawful_shape : Tag.shape.Lawful := by
  simp [shape]

theorem Team.lawful_shape : Team.shape.Lawful := by
  simp [shape]

theorem TeamMembership.lawful_shape : TeamMembership.shape.Lawful := by
  simp [shape]
  exact Kind.canonical_absent _

theorem lawful_shape : shape.Lawful := by
  simp [shape, Identity.lawful_shape, DockerHub.lawful_shape, Schedule.lawful_shape,
    Endpoint.lawful_shape, EndpointGroup.lawful_shape, Registry.lawful_shape,
    ResourceControl.lawful_shape, Settings.lawful_shape, Stack.lawful_shape, Tag.lawful_shape,
    Team.lawful_shape, TeamMembership.lawful_shape]

theorem decode_of_ofText {text : String} {store : Store} (hload : ofText text = .ok store) :
    shape.decode text = .ok store := by
  unfold ofText at hload
  split at hload
  · rename_i loaded hdecode
    cases hload
    exact hdecode
  · cases hload

theorem canonical_of_ofText {text : String} {store : Store} (hload : ofText text = .ok store) :
    shape.Canonical store :=
  Shape.canonical_of_read lawful_shape (Shape.read_of_decode (decode_of_ofText hload))

/-- Every kind in the store is the one that its code stands for. -/
structure Proper (store : Store) : Prop where
  schedules : ∀ schedule ∈ store.schedules, Kind.Proper schedule.job
  endpoints : ∀ endpoint ∈ store.endpoints, Kind.Proper endpoint.kind
  registries : ∀ registry ∈ store.registries, Kind.Proper registry.kind
  resourceControls : ∀ control ∈ store.resourceControls, Kind.Proper control.kind
  containerStacks : ∀ stack ∈ store.containerStacks, Kind.Proper stack.kind
  teamMemberships : ∀ membership ∈ store.teamMemberships, Kind.Proper membership.role

theorem proper_of_ofText {text : String} {store : Store} (hload : ofText text = .ok store) :
    store.Proper := by
  have hcanonical := canonical_of_ofText hload
  simp only [shape, Schedule.shape, Endpoint.shape, Registry.shape, ResourceControl.shape,
    Stack.shape, TeamMembership.shape, Shape.Canonical, Fields.Canonical] at hcanonical
  obtain ⟨-, -, hschedules, hendpoints, -, hregistries, hcontrols, -, hstacks, -, -,
    hmemberships, -⟩ := hcanonical
  constructor
  · exact fun schedule hschedule =>
      Kind.proper_of_canonical (hschedules schedule hschedule).2.2.2.2.1
  · exact fun endpoint hendpoint => Kind.proper_of_canonical (hendpoints endpoint hendpoint).2.2.1
  · exact fun registry hregistry => Kind.proper_of_canonical (hregistries registry hregistry).2.2.1
  · exact fun control hcontrol => Kind.proper_of_canonical (hcontrols control hcontrol).2.2.1
  · exact fun stack hstack => Kind.proper_of_canonical (hstacks stack hstack).2.2.1
  · exact fun membership hmembership =>
      Kind.proper_of_canonical (hmemberships membership hmembership).2.2.2.1

/-- A rule that does not say what it governs has the code zero. -/
theorem ResourceControl.code_of_no_kind {members : Members Fault} {control : ResourceControl}
    (habsent : ∀ tree, (.ok "Type", tree) ∉ members.entries)
    (hread : ResourceControl.shape.read (.record members) = .ok control) :
    control.kind.code = 0 := by
  simp only [shape, Shape.read] at hread
  refine Members.readFields_invariant (P := fun control => control.kind.code = 0) ?_ rfl hread
  intro slot hslot tree htree update hupdate record hrecord
  simp only [Fields.slots, List.mem_cons, List.not_mem_nil, or_false] at hslot
  rcases hslot with rfl | rfl | rfl | rfl
  case inr.inr.inl => exact absurd htree (habsent tree)
  all_goals
    obtain ⟨value, -, rfl⟩ := map_eq_ok_iff.mp hupdate
    exact hrecord

/-- How large the collections are. -/
def sizes (store : Store) : List Nat :=
  [store.schedules.length, store.endpoints.length, store.endpointGroups.length,
    store.registries.length, store.resourceControls.length, store.containerStacks.length,
    store.tags.length, store.teams.length, store.teamMemberships.length]

theorem size_lt_of_read {tree : Json.Tree Fault} {store : Store}
    (hread : shape.read tree = .ok store) : ∀ size ∈ store.sizes, size < tree.weight := by
  simp only [shape, Shape.read] at hread
  refine Tree.readRecord_invariant (P := fun store => ∀ size ∈ store.sizes, size < tree.weight)
    ?_ ?_ hread
  · have hpos := tree.weight_pos
    simpa [sizes] using hpos
  · intro slot hslot child hchild update hupdate record hrecord
    have hweight := Tree.weight_lt_of_mem_children hchild
    simp only [sizes, List.forall_mem_cons] at hrecord ⊢
    simp only [Fields.slots, List.mem_cons, List.not_mem_nil, or_false] at hslot
    rcases hslot with rfl | rfl | rfl | rfl | rfl | rfl | rfl | rfl | rfl | rfl | rfl | rfl <;>
      obtain ⟨value, hvalue, rfl⟩ := map_eq_ok_iff.mp hupdate
    case inl | inr.inl | inr.inr.inr.inr.inr.inr.inr.inl => exact hrecord
    all_goals
      have hlength := Nat.lt_trans (Shape.length_lt_of_read hvalue) hweight
      simp [hlength, hrecord]

/-- Every record of a collection has cost a character of the text. -/
theorem size_le_of_ofText {text : String} {store : Store} (hload : ofText text = .ok store) :
    ∀ size ∈ store.sizes, size ≤ text.length := by
  intro size hsize
  have hroot := Document.weight_root_le text
  have hbelow := size_lt_of_read (Shape.read_of_decode (decode_of_ofText hload)) size hsize
  omega

end UsageReport.Store
