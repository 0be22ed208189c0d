import Mathlib.Data.List.Forall2
import UsageReport.Proofs.Parts
import UsageReport.Run.Basic

/-!
Anonymity: two stores that agree in what a report may disclose cannot be told apart by anything
that a run does. All that a store holds besides, names and numbers, addresses and labels, may be
wiped out without a trace.
-/

namespace UsageReport

namespace Store

structure DockerSnapshot.SameDisclosed (first second : DockerSnapshot) : Prop where
  dockerVersion : first.dockerVersion = second.dockerVersion
  swarm : first.swarm = second.swarm
  runningContainers : first.runningContainers = second.runningContainers
  stoppedContainers : first.stoppedContainers = second.stoppedContainers
  healthyContainers : first.healthyContainers = second.healthyContainers
  unhealthyContainers : first.unhealthyContainers = second.unhealthyContainers
  imageCount : first.imageCount = second.imageCount
  volumeCount : first.volumeCount = second.volumeCount
  serviceCount : first.serviceCount = second.serviceCount
  stackCount : first.stackCount = second.stackCount
  nodeCount : first.nodeCount = second.nodeCount

/-- The codes 1, 2 and 4. -/
def EndpointKind.isDocker : EndpointKind → Bool
  | .docker | .agentOnDocker | .edgeAgentOnDocker => true
  | .azure | .kubernetesLocal | .agentOnKubernetes | .edgeAgentOnKubernetes | .unknown _ => false

structure Endpoint.SameDisclosed (first second : Endpoint) : Prop where
  kind : first.kind = second.kind
  snapshot : first.kind.isDocker = true →
    Option.Rel DockerSnapshot.SameDisclosed first.snapshots.head? second.snapshots.head?

structure Settings.SameDisclosed (first second : Settings) : Prop where
  logoURL : first.logoURL = "" ↔ second.logoURL = ""
  blackListedLabels : first.blackListedLabels = [] ↔ second.blackListedLabels = []
  authenticationMethod : first.authenticationMethod = second.authenticationMethod
  allowBindMounts : first.allowBindMounts = second.allowBindMounts
  allowPrivilegedMode : first.allowPrivilegedMode = second.allowPrivilegedMode
  allowVolumeBrowser : first.allowVolumeBrowser = second.allowVolumeBrowser
  hostManagement : first.hostManagement = second.hostManagement
  snapshotInterval : first.snapshotInterval = second.snapshotInterval

/-- The stores agree in everything that a report may disclose. -/
structure SameDisclosed (first second : Store) : Prop where
  identity : first.identity.map Identity.identifier = second.identity.map Identity.identifier
  dockerHub : first.dockerHub.map DockerHub.authentication =
    second.dockerHub.map DockerHub.authentication
  schedules : (first.schedules.map fun schedule => (schedule.job, schedule.recurring)) =
    second.schedules.map fun schedule => (schedule.job, schedule.recurring)
  endpoints : List.Forall₂ Endpoint.SameDisclosed first.endpoints second.endpoints
  endpointGroups : first.endpointGroups.length = second.endpointGroups.length
  registries : first.registries.map Registry.kind = second.registries.map Registry.kind
  resourceControls : first.resourceControls.map ResourceControl.kind =
    second.resourceControls.map ResourceControl.kind
  settings : Option.Rel Settings.SameDisclosed first.settings second.settings
  containerStacks : first.containerStacks.map Stack.kind = second.containerStacks.map Stack.kind
  tags : first.tags.length = second.tags.length
  teams : first.teams.length = second.teams.length
  teamMemberships : first.teamMemberships.map TeamMembership.role =
    second.teamMemberships.map TeamMembership.role

end Store

namespace Survey

open Store

/-- After a read, only what the two stores yield there can make a difference. -/
theorem bind_trace_eq {first second : Store} {unreadable : Option Bucket} {bucket : Bucket}
    {β : Type} {next next' : bucket.Held → Trace ReadError β}
    (hread : (∃ error, first.read bucket = .error error ∧ second.read bucket = .error error) ∨
      ∃ held held', first.read bucket = .ok held ∧ second.read bucket = .ok held' ∧
        next held = next' held') :
    (Source.mk first unreadable).trace bucket >>= next =
      (Source.mk second unreadable).trace bucket >>= next' := by
  by_cases hunreadable : unreadable = some bucket
  · have hresult (store : Store) : ((Source.mk store unreadable).trace bucket).result =
        .error (.unreadable bucket) := by
      simp only [Source.trace, Source.read, hunreadable, if_true]
    rw [Trace.bind_of_error _ (hresult first), Trace.bind_of_error _ (hresult second)]
    rfl
  · have hresult (store : Store) :
        ((Source.mk store unreadable).trace bucket).result = store.read bucket := by
      simp only [Source.trace, Source.read, hunreadable, if_false]
    rcases hread with ⟨error, hfirst, hsecond⟩ | ⟨held, held', hfirst, hsecond, hnext⟩
    · rw [Trace.bind_of_error _ ((hresult first).trans hfirst),
        Trace.bind_of_error _ ((hresult second).trans hsecond)]
      rfl
    · rw [Trace.bind_of_ok _ ((hresult first).trans hfirst),
        Trace.bind_of_ok _ ((hresult second).trans hsecond), hnext]
      rfl

theorem map_eq_map_of_rel {α β : Type} {related : α → α → Prop} {f : α → β}
    (hf : ∀ first second, related first second → f first = f second) {first second : Option α}
    (hrelated : Option.Rel related first second) : first.map f = second.map f := by
  cases hrelated with
  | some hvalue => exact congrArg some (hf _ _ hvalue)
  | none => rfl

theorem dockerUsage_eq {first second : DockerSnapshot} (hsame : first.SameDisclosed second) :
    dockerUsage first = dockerUsage second := by
  simp only [dockerUsage, hsame.dockerVersion, hsame.swarm, hsame.runningContainers,
    hsame.stoppedContainers, hsame.healthyContainers, hsame.unhealthyContainers, hsame.imageCount,
    hsame.volumeCount, hsame.serviceCount, hsame.stackCount, hsame.nodeCount]

theorem environmentUsage_eq {first second : Endpoint} (hsame : first.SameDisclosed second) :
    environmentUsage first = environmentUsage second := by
  have hsnapshot (hdocker : first.kind.isDocker = true) :
      first.snapshots.head?.map dockerUsage = second.snapshots.head?.map dockerUsage :=
    map_eq_map_of_rel (fun _ _ hsame => dockerUsage_eq hsame) (hsame.snapshot hdocker)
  unfold environmentUsage
  rw [← hsame.kind]
  cases hkind : first.kind
  case docker | agentOnDocker | edgeAgentOnDocker =>
    simp only [dockerFamily?, hsnapshot (by rw [hkind]; rfl)]
  all_goals rfl

theorem map_environmentUsage_eq {first second : List Endpoint}
    (hsame : List.Forall₂ Endpoint.SameDisclosed first second) :
    first.map environmentUsage = second.map environmentUsage := by
  induction hsame with
  | nil => rfl
  | cons hhead _ ih => rw [List.map_cons, List.map_cons, environmentUsage_eq hhead, ih]

theorem length_eq_of_map_eq {α β : Type} {f : α → β} {first second : List α}
    (hmap : first.map f = second.map f) : first.length = second.length := by
  rw [← List.length_map f, hmap, List.length_map]

theorem countP_eq_of_map_eq {α β : Type} {f : α → β} (p : β → Bool) {first second : List α}
    (hmap : first.map f = second.map f) :
    (first.countP fun value => p (f value)) = second.countP fun value => p (f value) := by
  have hcount := congrArg (List.countP p) hmap
  rwa [List.countP_map, List.countP_map] at hcount

theorem map_eq_of_map_eq {α β γ : Type} {f : α → β} (g : β → γ) {first second : List α}
    (hmap : first.map f = second.map f) :
    (first.map fun value => g (f value)) = second.map fun value => g (f value) := by
  have hcomposed := congrArg (List.map g) hmap
  rwa [List.map_map, List.map_map] at hcomposed

theorem foldl_eq_of_map_eq {α β σ : Type} {f : α → β} (step : σ → β → σ) (start : σ)
    {first second : List α} (hmap : first.map f = second.map f) :
    first.foldl (fun state value => step state (f value)) start =
      second.foldl (fun state value => step state (f value)) start := by
  rw [← List.foldl_map, hmap, List.foldl_map]

theorem settings_eq {first second : Store} (unreadable : Option Bucket)
    (hsame : Option.Rel Settings.SameDisclosed first.settings second.settings) :
    settings ⟨first, unreadable⟩ = settings ⟨second, unreadable⟩ := by
  apply bind_trace_eq
  simp only [Store.read]
  generalize first.settings = held at hsame ⊢
  generalize second.settings = other at hsame ⊢
  cases hsame with
  | none => exact .inl ⟨_, rfl, rfl⟩
  | @some held other hsame =>
      refine .inr ⟨held, other, rfl, rfl, ?_⟩
      have hlogo : (held.logoURL != "") = (other.logoURL != "") := by
        rw [Bool.eq_iff_iff, bne_iff_ne, bne_iff_ne, ne_eq, hsame.logoURL]
      have hlabels : held.blackListedLabels.isEmpty = other.blackListedLabels.isEmpty := by
        rw [Bool.eq_iff_iff, List.isEmpty_iff, List.isEmpty_iff, hsame.blackListedLabels]
      simp only [hsame.snapshotInterval, hsame.authenticationMethod, hlogo, hlabels,
        hsame.allowBindMounts, hsame.allowPrivilegedMode, hsame.allowVolumeBrowser,
        hsame.hostManagement]

theorem dockerHub_eq {first second : Store} (unreadable : Option Bucket)
    (hsame : first.dockerHub.map DockerHub.authentication =
      second.dockerHub.map DockerHub.authentication) :
    dockerHub ⟨first, unreadable⟩ = dockerHub ⟨second, unreadable⟩ := by
  apply bind_trace_eq
  simp only [Store.read]
  cases hfirst : first.dockerHub <;> cases hsecond : second.dockerHub <;>
    rw [hfirst, hsecond] at hsame
  case none.none => exact .inl ⟨_, rfl, rfl⟩
  case some.some held other =>
    refine .inr ⟨held, other, rfl, rfl, ?_⟩
    rw [Option.some.inj hsame]
  all_goals cases hsame

theorem compute_eq {first second : Store} (hsame : first.SameDisclosed second) (host : Host)
    (unreadable : Option Bucket) (part : Section) :
    compute host ⟨first, unreadable⟩ part = compute host ⟨second, unreadable⟩ part := by
  cases part
  case runtime => rfl
  case dockerHub => exact dockerHub_eq unreadable hsame.dockerHub
  case settings => exact settings_eq unreadable hsame.settings
  case edgeCompute =>
    refine bind_trace_eq (.inr ⟨_, _, rfl, rfl, ?_⟩)
    rw [length_eq_of_map_eq hsame.schedules,
      countP_eq_of_map_eq (fun (job, recurring) => job == .scriptExecution && recurring)
        hsame.schedules]
  case endpoint =>
    refine bind_trace_eq (.inr ⟨_, _, rfl, rfl, ?_⟩)
    rw [hsame.endpoints.length_eq, map_environmentUsage_eq hsame.endpoints]
  case endpointGroup =>
    refine bind_trace_eq (.inr ⟨_, _, rfl, rfl, ?_⟩)
    rw [hsame.endpointGroups]
  case registry =>
    refine bind_trace_eq (.inr ⟨_, _, rfl, rfl, ?_⟩)
    rw [length_eq_of_map_eq hsame.registries,
      map_eq_of_map_eq (fun kind => RegistryEntry.mk (registryName kind)) hsame.registries]
  case resourceControl =>
    refine bind_trace_eq (.inr ⟨_, _, rfl, rfl, ?_⟩)
    rw [length_eq_of_map_eq hsame.resourceControls,
      foldl_eq_of_map_eq tallyResource _ hsame.resourceControls]
  case stack =>
    refine bind_trace_eq (.inr ⟨_, _, rfl, rfl, ?_⟩)
    rw [length_eq_of_map_eq hsame.containerStacks,
      countP_eq_of_map_eq (fun kind => kind == .dockerCompose) hsame.containerStacks]
  case tag =>
    refine bind_trace_eq (.inr ⟨_, _, rfl, rfl, ?_⟩)
    rw [hsame.tags]
  case team =>
    refine bind_trace_eq (.inr ⟨_, _, rfl, rfl, ?_⟩)
    refine bind_trace_eq (.inr ⟨_, _, rfl, rfl, ?_⟩)
    rw [hsame.teams, countP_eq_of_map_eq (fun role => role == .teamLeader) hsame.teamMemberships]

theorem extend_eq {first second : Store} (hsame : first.SameDisclosed second) (host : Host)
    (unreadable : Option Bucket) :
    extend host ⟨first, unreadable⟩ = extend host ⟨second, unreadable⟩ := by
  funext report part
  unfold extend
  rw [update_eq_put, update_eq_put, compute_eq hsame]

theorem run_eq {first second : Store} (hsame : first.SameDisclosed second) (host : Host)
    (unreadable : Option Bucket) :
    run host ⟨first, unreadable⟩ = run host ⟨second, unreadable⟩ := by
  have hread : first.read .identity = second.read .identity := by
    have hidentity := hsame.identity
    simp only [Store.read]
    cases hfirst : first.identity <;> cases hsecond : second.identity <;>
      rw [hfirst, hsecond] at hidentity
    case some.some held other =>
      obtain ⟨identifier⟩ := held
      obtain ⟨identifier'⟩ := other
      cases hidentity
      rfl
    all_goals cases hidentity
  have htrace : (Source.mk first unreadable).trace .identity =
      (Source.mk second unreadable).trace .identity := by
    simp only [Source.trace, Source.read, hread]
  unfold run
  rw [htrace, extend_eq hsame]

end Survey

namespace Store

/-- A snapshot without the time and the machine. -/
def DockerSnapshot.redacted (snapshot : DockerSnapshot) : DockerSnapshot :=
  { snapshot with time := 0, totalCPU := 0, totalMemory := 0 }

def Endpoint.redacted (endpoint : Endpoint) : Endpoint where
  kind := endpoint.kind
  snapshots :=
    if endpoint.kind.isDocker then (endpoint.snapshots.head?.map DockerSnapshot.redacted).toList
    else []

/-- Some logo stands for any logo, and one blank label for any labels. -/
def Settings.redacted (settings : Settings) : Settings :=
  { settings with
    logoURL := if settings.logoURL = "" then "" else "logo"
    blackListedLabels := if settings.blackListedLabels = [] then [] else [{}] }

/-- The store with all that a report may not disclose wiped out. -/
def redacted (store : Store) : Store where
  identity := store.identity
  dockerHub := store.dockerHub.map fun hub => { authentication := hub.authentication }
  schedules := store.schedules.map fun schedule =>
    { job := schedule.job, recurring := schedule.recurring }
  endpoints := store.endpoints.map Endpoint.redacted
  endpointGroups := store.endpointGroups.map fun _ => {}
  registries := store.registries.map fun registry => { kind := registry.kind }
  resourceControls := store.resourceControls.map fun control => { kind := control.kind }
  settings := store.settings.map Settings.redacted
  containerStacks := store.containerStacks.map fun stack => { kind := stack.kind }
  tags := store.tags.map fun _ => {}
  teams := store.teams.map fun _ => {}
  teamMemberships := store.teamMemberships.map fun membership => { role := membership.role }

theorem DockerSnapshot.sameDisclosed_redacted (snapshot : DockerSnapshot) :
    snapshot.SameDisclosed snapshot.redacted := by
  constructor <;> rfl

theorem Endpoint.sameDisclosed_redacted (endpoint : Endpoint) :
    endpoint.SameDisclosed endpoint.redacted := by
  refine ⟨rfl, fun hdocker => ?_⟩
  simp only [redacted, hdocker, if_true]
  cases endpoint.snapshots with
  | nil => exact .none
  | cons snapshot _ => exact .some snapshot.sameDisclosed_redacted

theorem Settings.sameDisclosed_redacted (settings : Settings) :
    settings.SameDisclosed settings.redacted := by
  refine ⟨?_, ?_, rfl, rfl, rfl, rfl, rfl, rfl⟩
  · simp only [redacted]
    split <;> simp_all
  · simp only [redacted]
    split <;> simp_all

theorem sameDisclosed_redacted (store : Store) : store.SameDisclosed store.redacted where
  identity := rfl
  dockerHub := by simp [redacted, Function.comp_def]
  schedules := by simp [redacted, Function.comp_def]
  endpoints := by
    rw [redacted, List.forall₂_map_right_iff, List.forall₂_same]
    exact fun endpoint _ => endpoint.sameDisclosed_redacted
  endpointGroups := by simp [redacted]
  registries := by simp [redacted, Function.comp_def]
  resourceControls := by simp [redacted, Function.comp_def]
  settings := by
    simp only [redacted]
    cases store.settings with
    | none => exact .none
    | some settings => exact .some settings.sameDisclosed_redacted
  containerStacks := by simp [redacted, Function.comp_def]
  tags := by simp [redacted]
  teams := by simp [redacted]
  teamMemberships := by simp [redacted, Function.comp_def]

end Store

namespace Runner

theorem actions_eq_of_run_eq {host : Survey.Host} {first second : Source}
    (hrun : Survey.run host first = Survey.run host second) (destinations : List Destination)
    (number : Nat) :
    actions ⟨host, first, destinations⟩ number = actions ⟨host, second, destinations⟩ number := by
  simp only [actions, delivery, outcome, hrun]

/-- Two stores that agree in what may be disclosed give the same survey, with the same reads and
logs and the same report or failure, the same printed report, and the same runs, whatever the
destinations. So a store may as well be redacted. -/
theorem runs_of_sameDisclosed {first second : Store} (hsame : first.SameDisclosed second)
    (host : Survey.Host) (unreadable : Option Bucket) :
    Survey.run host ⟨first, unreadable⟩ = Survey.run host ⟨second, unreadable⟩ ∧
    (∀ format : Format,
      (Survey.run host ⟨first, unreadable⟩).result.map (fun report => report.render format) =
        (Survey.run host ⟨second, unreadable⟩).result.map fun report => report.render format) ∧
    (∀ destinations number,
      actions ⟨host, ⟨first, unreadable⟩, destinations⟩ number =
          actions ⟨host, ⟨second, unreadable⟩, destinations⟩ number ∧
        events (actions ⟨host, ⟨first, unreadable⟩, destinations⟩ number) =
          events (actions ⟨host, ⟨second, unreadable⟩, destinations⟩ number)) ∧
    ∀ store : Store,
      Survey.run host ⟨store.redacted, unreadable⟩ = Survey.run host ⟨store, unreadable⟩ := by
  have hrun := Survey.run_eq hsame host unreadable
  refine ⟨hrun, fun format => by rw [hrun], ?_, ?_⟩
  · intro destinations number
    have hactions := actions_eq_of_run_eq hrun destinations number
    exact ⟨hactions, congrArg events hactions⟩
  · exact fun store => (Survey.run_eq store.sameDisclosed_redacted host unreadable).symm

/-- One account of a store. -/
def namedStore : Store where
  identity := some ⟨"6f1c2a9e"⟩
  dockerHub := some { authentication := true, username := "ann" }
  schedules := [{ id := 1, name := "backup", cronExpression := "0 3 * * *", recurring := true }]
  endpoints := [
    { id := 1, name := "lab", kind := .azure, snapshots := [{ dockerVersion := "19.03.4" }] },
    { id := 2, url := "tcp://10.0.0.7", kind := .docker, snapshots := [
      { time := 1573000000, dockerVersion := "19.03.4", imageCount := 3 }, { imageCount := 9 }] }]
  settings := some { logoURL := "ann.png", blackListedLabels := [{ name := "hidden" }] }
  teams := [{ id := 4, name := "night shift" }]

/-- Another account, which no report can tell from the first. -/
def unnamedStore : Store where
  identity := some ⟨"6f1c2a9e"⟩
  dockerHub := some { authentication := true }
  schedules := [{ recurring := true }]
  endpoints := [{ kind := .azure },
    { kind := .docker, snapshots := [{ dockerVersion := "19.03.4", imageCount := 3 }] }]
  settings := some { logoURL := "logo", blackListedLabels := [{}, {}] }
  teams := [{}]

theorem namedStore_runs :
    namedStore.SameDisclosed unnamedStore ∧
    (Survey.run { version := "2.0.0" } ⟨namedStore, none⟩).result =
      (Survey.run { version := "2.0.0" } ⟨unnamedStore, none⟩).result ∧
    (∃ report, (Survey.run { version := "2.0.0" } ⟨namedStore, none⟩).result = .ok report) ∧
    events (actions ⟨{ version := "2.0.0" }, ⟨namedStore, some .teams⟩, []⟩ 1) =
      events (actions ⟨{ version := "2.0.0" }, ⟨unnamedStore, some .teams⟩, []⟩ 1) := by
  have hsame : namedStore.SameDisclosed unnamedStore := by
    refine ⟨rfl, rfl, rfl, ?_, rfl, rfl, rfl, ?_, rfl, rfl, rfl, rfl⟩
    · refine .cons ⟨rfl, fun hdocker => nomatch hdocker⟩ (.cons ⟨rfl, fun _ => .some ?_⟩ .nil)
      constructor <;> rfl
    · exact .some ⟨by decide, by decide, rfl, rfl, rfl, rfl, rfl, rfl⟩
  obtain ⟨hrun, -, -, -⟩ := runs_of_sameDisclosed hsame { version := "2.0.0" } none
  obtain ⟨-, -, hactions, -⟩ :=
    runs_of_sameDisclosed hsame { version := "2.0.0" } (some .teams)
  exact ⟨hsame, congrArg Trace.result hrun, ⟨_, rfl⟩, (hactions [] 1).2⟩

end Runner

end UsageReport
