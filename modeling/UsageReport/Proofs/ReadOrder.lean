import UsageReport.Proofs.Parts

/-!
The order in which a survey reads the buckets of a store. A computation follows a list of buckets
if it reads them from the left as far as the first that cannot be read, and fails with what it says
about that one; computations that follow their lists follow the joined list when one comes after
the other, and so a whole survey follows the list of all buckets.
-/

namespace UsageReport

/-- The bucket that holds a single record. -/
def SingleRecord.bucket : SingleRecord → Bucket
  | .identity => .identity
  | .dockerHub => .dockerHub
  | .settings => .settings

/-- The store has no such record. -/
def Store.Lacks (store : Store) : SingleRecord → Prop
  | .identity => store.identity = none
  | .dockerHub => store.dockerHub = none
  | .settings => store.settings = none

/-- The stage of a survey that reads a bucket. -/
def Bucket.stage : Bucket → Stage
  | .identity => .identifier
  | .dockerHub => .inside .dockerHub
  | .schedules => .inside .edgeCompute
  | .endpoints => .inside .endpoint
  | .endpointGroups => .inside .endpointGroup
  | .registries => .inside .registry
  | .resourceControls => .inside .resourceControl
  | .settings => .inside .settings
  | .containerStacks => .inside .stack
  | .tags => .inside .tag
  | .teams | .teamMemberships => .inside .team

/-- The buckets that a section is computed from, in the order in which they are read. -/
def Section.buckets : Section → List Bucket
  | .dockerHub => [.dockerHub]
  | .edgeCompute => [.schedules]
  | .endpoint => [.endpoints]
  | .endpointGroup => [.endpointGroups]
  | .registry => [.registries]
  | .resourceControl => [.resourceControls]
  | .runtime => []
  | .settings => [.settings]
  | .stack => [.containerStacks]
  | .tag => [.tags]
  | .team => [.teams, .teamMemberships]

theorem Bucket.nodup_all : Bucket.all.Nodup := by decide

theorem Bucket.all_eq :
    Bucket.all = [.identity] ++ (Section.all.map Section.buckets).flatten := rfl

theorem Section.stage_of_mem_buckets {part : Section} {bucket : Bucket}
    (hmem : bucket ∈ part.buckets) : bucket.stage = .inside part := by
  cases part <;> simp only [buckets, List.mem_cons, List.not_mem_nil, or_false] at hmem
  all_goals first
    | exact hmem.elim
    | (subst hmem; rfl)
    | (rcases hmem with rfl | rfl <;> rfl)

theorem SingleRecord.require_eq_error_iff {α : Type} {record : SingleRecord} {held : Option α}
    {error : ReadError} :
    record.require held = .error error ↔ held = none ∧ error = .missing record := by
  cases held <;> simp [require, eq_comm]

theorem Store.read_eq_error_iff {store : Store} {bucket : Bucket} {error : ReadError} :
    store.read bucket = .error error ↔
      ∃ record : SingleRecord,
        record.bucket = bucket ∧ store.Lacks record ∧ error = .missing record := by
  constructor
  · intro hread
    cases bucket
    case identity => exact ⟨.identity, rfl, SingleRecord.require_eq_error_iff.mp hread⟩
    case dockerHub => exact ⟨.dockerHub, rfl, SingleRecord.require_eq_error_iff.mp hread⟩
    case settings => exact ⟨.settings, rfl, SingleRecord.require_eq_error_iff.mp hread⟩
    all_goals cases hread
  · rintro ⟨record, rfl, hlacks⟩
    cases record <;> exact SingleRecord.require_eq_error_iff.mpr hlacks

/-- A bucket cannot be read if it is the unreadable one, whatever it holds, or else if it should
hold a single record that the store lacks. -/
theorem Source.read_eq_error_iff {source : Source} {bucket : Bucket} {error : ReadError} :
    source.read bucket = .error error ↔
      (source.unreadable = some bucket ∧ error = .unreadable bucket) ∨
      (source.unreadable ≠ some bucket ∧ ∃ record : SingleRecord,
        record.bucket = bucket ∧ source.store.Lacks record ∧ error = .missing record) := by
  unfold Source.read
  split
  · rename_i hunreadable
    simp [hunreadable, eq_comm]
  · rename_i hreadable
    simp [hreadable, Store.read_eq_error_iff]

namespace Source

def Readable (source : Source) (bucket : Bucket) : Prop := ∃ held, source.read bucket = .ok held

/-- The buckets of a list as far as the first that cannot be read, that one included. -/
def reach (source : Source) : List Bucket → List Bucket
  | [] => []
  | bucket :: rest =>
    match source.read bucket with
    | .ok _ => bucket :: source.reach rest
    | .error _ => [bucket]

/-- The first bucket of a list that cannot be read, and why. -/
def firstFailure? (source : Source) : List Bucket → Option (Bucket × ReadError)
  | [] => none
  | bucket :: rest =>
    match source.read bucket with
    | .ok _ => source.firstFailure? rest
    | .error error => some (bucket, error)

theorem firstFailure?_append (source : Source) (first second : List Bucket) :
    source.firstFailure? (first ++ second) =
      (source.firstFailure? first).or (source.firstFailure? second) := by
  induction first with
  | nil => rfl
  | cons bucket first ih =>
      simp only [List.cons_append, firstFailure?]
      split
      · exact ih
      · rfl

theorem reach_append_of_none {source : Source} {first : List Bucket} (second : List Bucket)
    (hnone : source.firstFailure? first = none) :
    source.reach (first ++ second) = source.reach first ++ source.reach second := by
  induction first with
  | nil => rfl
  | cons bucket first ih =>
      simp only [List.cons_append, reach, firstFailure?] at hnone ⊢
      split at hnone
      · rw [ih hnone, List.cons_append]
      · cases hnone

theorem reach_append_of_some {source : Source} {first : List Bucket} {failure : Bucket × ReadError}
    (second : List Bucket) (hsome : source.firstFailure? first = some failure) :
    source.reach (first ++ second) = source.reach first := by
  induction first with
  | nil => cases hsome
  | cons bucket first ih =>
      simp only [List.cons_append, reach, firstFailure?] at hsome ⊢
      split at hsome
      · rw [ih hsome]
      · rfl

theorem firstFailure?_of_readable {source : Source} {buckets : List Bucket}
    (hreadable : ∀ bucket ∈ buckets, source.Readable bucket) :
    source.firstFailure? buckets = none := by
  induction buckets with
  | nil => rfl
  | cons bucket buckets ih =>
      obtain ⟨held, hread⟩ := hreadable bucket (by simp)
      simp only [firstFailure?, hread]
      exact ih fun other hother => hreadable other (by simp [hother])

theorem reach_of_readable {source : Source} {buckets : List Bucket}
    (hreadable : ∀ bucket ∈ buckets, source.Readable bucket) : source.reach buckets = buckets := by
  induction buckets with
  | nil => rfl
  | cons bucket buckets ih =>
      obtain ⟨held, hread⟩ := hreadable bucket (by simp)
      simp only [reach, hread]
      rw [ih fun other hother => hreadable other (by simp [hother])]

theorem mem_of_firstFailure? {source : Source} {buckets : List Bucket}
    {failure : Bucket × ReadError} (hsome : source.firstFailure? buckets = some failure) :
    failure.1 ∈ buckets := by
  induction buckets with
  | nil => cases hsome
  | cons bucket buckets ih =>
      simp only [firstFailure?] at hsome
      split at hsome
      · exact List.mem_cons_of_mem _ (ih hsome)
      · cases hsome
        exact List.mem_cons_self

theorem firstFailure?_of_split {source : Source} {before : List Bucket} {bucket : Bucket}
    {error : ReadError} (after : List Bucket)
    (hreadable : ∀ earlier ∈ before, source.Readable earlier)
    (hfails : source.read bucket = .error error) :
    source.firstFailure? (before ++ bucket :: after) = some (bucket, error) := by
  rw [firstFailure?_append, firstFailure?_of_readable hreadable]
  simp only [firstFailure?, hfails, Option.none_or]

theorem reach_of_split {source : Source} {before : List Bucket} {bucket : Bucket}
    {error : ReadError} (after : List Bucket)
    (hreadable : ∀ earlier ∈ before, source.Readable earlier)
    (hfails : source.read bucket = .error error) :
    source.reach (before ++ bucket :: after) = before ++ [bucket] := by
  rw [reach_append_of_none _ (firstFailure?_of_readable hreadable), reach_of_readable hreadable]
  simp only [reach, hfails]

end Source

namespace Trace

variable {ε δ α β : Type}

def error? (trace : Trace ε α) : Option ε :=
  match trace.result with
  | .ok _ => none
  | .error error => some error

theorem error?_mapError (trace : Trace ε α) (f : ε → δ) :
    (trace.mapError f).error? = trace.error?.map f := by
  unfold error? mapError
  cases trace.result <;> rfl

theorem result_eq_error_of_error? {trace : Trace ε α} {error : ε}
    (hsome : trace.error? = some error) : trace.result = .error error := by
  unfold error? at hsome
  split at hsome
  · cases hsome
  · cases hsome
    assumption

theorem exists_result_eq_ok_of_error? {trace : Trace ε α} (hnone : trace.error? = none) :
    ∃ value, trace.result = .ok value := by
  unfold error? at hnone
  split at hnone
  · exact ⟨_, ‹_›⟩
  · cases hnone

/-- The computation reads some buckets in order until one cannot be read. `label` is how it fails
then. -/
structure Follows (source : Source) (label : Bucket → ReadError → ε) (buckets : List Bucket)
    (trace : Trace ε α) : Prop where
  reads : bucketsRead trace.actions = source.reach buckets
  failure : trace.error? =
    (source.firstFailure? buckets).map fun failure => label failure.1 failure.2

theorem follows_pure (source : Source) (label : Bucket → ReadError → ε) (value : α) :
    Follows source label [] (pure value) := ⟨rfl, rfl⟩

theorem follows_log (source : Source) (label : Bucket → ReadError → ε) (event : Event) :
    Follows source label [] (take (.log event)) := ⟨rfl, rfl⟩

theorem follows_read (source : Source) (bucket : Bucket) :
    Follows source (fun _ error => error) [bucket] (source.trace bucket) := by
  constructor
  · cases hread : source.read bucket <;>
      simp [bucketsRead, Source.trace, Source.reach, hread, Action.bucket?]
  · cases hread : source.read bucket <;>
      simp [error?, Source.trace, Source.firstFailure?, hread]

theorem Follows.bind {source : Source} {label : Bucket → ReadError → ε}
    {first second : List Bucket} {trace : Trace ε α} {next : α → Trace ε β}
    (htrace : Follows source label first trace)
    (hnext : ∀ value, Follows source label second (next value)) :
    Follows source label (first ++ second) (trace >>= next) := by
  cases hresult : trace.result with
  | error error =>
      have hfailure := htrace.failure
      simp only [error?, hresult] at hfailure
      obtain ⟨failure, hsome, hlabel⟩ := Option.map_eq_some_iff.mp hfailure.symm
      rw [bind_of_error next hresult]
      refine ⟨?_, ?_⟩
      · rw [Source.reach_append_of_some _ hsome]
        exact htrace.reads
      · rw [Source.firstFailure?_append, hsome, ← hlabel]
        rfl
  | ok value =>
      have hfailure := htrace.failure
      simp only [error?, hresult] at hfailure
      have hnone := Option.map_eq_none_iff.mp hfailure.symm
      rw [bind_of_ok next hresult]
      refine ⟨?_, ?_⟩
      · rw [bucketsRead_append, htrace.reads, (hnext value).reads,
          Source.reach_append_of_none _ hnone]
      · rw [Source.firstFailure?_append, hnone, Option.none_or]
        exact (hnext value).failure

theorem Follows.mapError {source : Source} {label : Bucket → ReadError → ε}
    {relabel : Bucket → ReadError → δ} {buckets : List Bucket} {trace : Trace ε α} {f : ε → δ}
    (htrace : Follows source label buckets trace)
    (hlabel : ∀ bucket ∈ buckets, ∀ error, f (label bucket error) = relabel bucket error) :
    Follows source relabel buckets (trace.mapError f) := by
  refine ⟨htrace.reads, ?_⟩
  rw [error?_mapError, htrace.failure, Option.map_map]
  apply Option.map_congr
  intro failure hsome
  exact hlabel failure.1 (Source.mem_of_firstFailure? hsome) failure.2

theorem Follows.foldlM {source : Source} {label : Bucket → ReadError → ε} {γ : Type}
    {buckets : γ → List Bucket} {step : α → γ → Trace ε α}
    (hstep : ∀ value part, Follows source label (buckets part) (step value part))
    (parts : List γ) (start : α) :
    Follows source label (parts.map buckets).flatten (parts.foldlM step start) := by
  induction parts generalizing start with
  | nil => exact follows_pure source label start
  | cons part parts ih =>
      rw [List.foldlM_cons, List.map_cons, List.flatten_cons]
      exact (hstep start part).bind ih

end Trace

namespace Survey

theorem snapshotInterval_follows (source : Source) (label : Bucket → ReadError → ReadError)
    (text : String) : (snapshotInterval text).Follows source label [] := by
  unfold snapshotInterval
  split
  · exact Trace.follows_pure source label _
  · split
    · exact Trace.follows_pure source label _
    · exact (Trace.follows_log source label _).bind fun _ => Trace.follows_pure source label _

theorem compute_follows (host : Host) (source : Source) (part : Section) :
    (compute host source part).Follows source (fun _ error => error) part.buckets := by
  have hread := Trace.follows_read source
  have hpure {α : Type} (value : α) : Trace.Follows source (fun _ error => error) [] (pure value) :=
    Trace.follows_pure source _ value
  cases part
  case runtime => exact hpure _
  case settings =>
    refine (hread .settings).bind fun _ => ?_
    exact (snapshotInterval_follows source _ _).bind fun _ => hpure _
  case team => exact (hread .teams).bind fun _ => (hread .teamMemberships).bind fun _ => hpure _
  case dockerHub => exact (hread .dockerHub).bind fun _ => hpure _
  case edgeCompute => exact (hread .schedules).bind fun _ => hpure _
  case endpoint => exact (hread .endpoints).bind fun _ => hpure _
  case endpointGroup => exact (hread .endpointGroups).bind fun _ => hpure _
  case registry => exact (hread .registries).bind fun _ => hpure _
  case resourceControl => exact (hread .resourceControls).bind fun _ => hpure _
  case stack => exact (hread .containerStacks).bind fun _ => hpure _
  case tag => exact (hread .tags).bind fun _ => hpure _

theorem update_follows (host : Host) (source : Source) (report : Report) (part : Section) :
    (update host source report part).Follows source (fun _ error => error) part.buckets := by
  rw [update_eq_put, ← List.append_nil part.buckets]
  exact (compute_follows host source part).bind fun _ => Trace.follows_pure source _ _

theorem extend_follows (host : Host) (source : Source) (report : Report) (part : Section) :
    (extend host source report part).Follows source (fun bucket error => ⟨bucket.stage, error⟩)
      part.buckets := by
  unfold extend
  rw [← List.append_nil part.buckets]
  apply Trace.Follows.bind
  · apply (update_follows host source report part).mapError
    intro bucket hbucket error
    rw [Section.stage_of_mem_buckets hbucket]
  · intro updated
    split
    · exact (Trace.follows_log source _ _).bind fun _ => Trace.follows_pure source _ _
    · exact Trace.follows_pure source _ _

theorem run_follows (host : Host) (source : Source) :
    (run host source).Follows source (fun bucket error => ⟨bucket.stage, error⟩) Bucket.all := by
  unfold run
  rw [Bucket.all_eq]
  apply Trace.Follows.bind
  · apply (Trace.follows_read source .identity).mapError
    intro bucket hbucket error
    rw [List.mem_singleton.mp hbucket]
    rfl
  · intro identity
    exact Trace.Follows.foldlM (extend_follows host source) Section.all _

/-- A survey reads the buckets in their order. A read fails if the bucket is the unreadable one or
should hold a single record that is not there; the first read that fails ends the survey with that
very error, at the stage of its bucket, and no later bucket is read. -/
theorem run_stops_at_first_failing_read (host : Host) (source : Source) :
    (Bucket.all.map fun bucket => (bucket.name, bucket.stage.category)) = [
      ("telemetry", "identifier"), ("dockerhub", "dockerhub"), ("schedules", "edge compute"),
      ("endpoints", "endpoint"), ("endpoint_groups", "endpoint group"), ("registries", "registry"),
      ("resource_controls", "resource control"), ("settings", "settings"), ("stacks", "stack"),
      ("tags", "tag"), ("teams", "team"), ("team_memberships", "team")] ∧
    (∀ bucket error, source.read bucket = .error error ↔
      (source.unreadable = some bucket ∧ error = .unreadable bucket) ∨
      (source.unreadable ≠ some bucket ∧ ∃ record : SingleRecord,
        record.bucket = bucket ∧ source.store.Lacks record ∧ error = .missing record)) ∧
    ((∀ bucket, source.Readable bucket) →
      (∃ report, (run host source).result = .ok report) ∧
      bucketsRead (run host source).actions = Bucket.all ∧
      ∀ bucket, readCount (run host source).actions bucket = 1) ∧
    ∀ before bucket after error, Bucket.all = before ++ bucket :: after →
      (∀ earlier ∈ before, source.Readable earlier) → source.read bucket = .error error →
      (run host source).result = .error ⟨bucket.stage, error⟩ ∧
      bucketsRead (run host source).actions = before ++ [bucket] ∧
      (∀ other ∈ before ++ [bucket], readCount (run host source).actions other = 1) ∧
      ∀ other ∈ after, readCount (run host source).actions other = 0 := by
  have hfollows := run_follows host source
  refine ⟨rfl, fun _ _ => Source.read_eq_error_iff, ?_, ?_⟩
  · intro hreadable
    have hreads : bucketsRead (run host source).actions = Bucket.all :=
      hfollows.reads.trans (Source.reach_of_readable fun bucket _ => hreadable bucket)
    refine ⟨?_, hreads, ?_⟩
    · apply Trace.exists_result_eq_ok_of_error?
      rw [hfollows.failure, Source.firstFailure?_of_readable fun bucket _ => hreadable bucket]
      rfl
    · intro bucket
      rw [readCount_eq, hreads, Bucket.nodup_all.count, if_pos (Bucket.mem_all bucket)]
  · intro before bucket after error hall hreadable hfails
    have hreads : bucketsRead (run host source).actions = before ++ [bucket] := by
      rw [hfollows.reads, hall]
      exact Source.reach_of_split after hreadable hfails
    have hnodup : ((before ++ [bucket]) ++ after).Nodup := by
      rw [List.append_assoc, List.singleton_append, ← hall]
      exact Bucket.nodup_all
    obtain ⟨hreached, -, hdisjoint⟩ := List.nodup_append.mp hnodup
    refine ⟨?_, hreads, ?_, ?_⟩
    · apply Trace.result_eq_error_of_error?
      rw [hfollows.failure, hall, Source.firstFailure?_of_split after hreadable hfails]
      rfl
    · intro other hother
      rw [readCount_eq, hreads, hreached.count, if_pos hother]
    · intro other hother
      rw [readCount_eq, hreads]
      exact List.count_eq_zero.mpr fun hread => hdisjoint other hread other hother rfl

/-- The settings are missing, and their bucket is unreadable as well. -/
def unreadableSettings : Source where
  store := { identity := some ⟨"6f1c2a9e"⟩, dockerHub := some { username := "hub" } }
  unreadable := some .settings

/-- The same with nothing missing, and with every bucket readable. -/
def readableSource : Source where
  store := { unreadableSettings.store with settings := some {} }

theorem run_unreadableSettings :
    ((∀ bucket, readableSource.Readable bucket) ∧
      bucketsRead (run { version := "2.0.0" } readableSource).actions = Bucket.all) ∧
    (∀ earlier ∈ [Bucket.identity, .dockerHub, .schedules, .endpoints, .endpointGroups,
      .registries, .resourceControls], unreadableSettings.Readable earlier) ∧
    unreadableSettings.store.Lacks .settings ∧
    unreadableSettings.read .settings = .error (.unreadable .settings) ∧
    (run { version := "2.0.0" } unreadableSettings).result =
      .error ⟨.inside .settings, .unreadable .settings⟩ ∧
    readCount (run { version := "2.0.0" } unreadableSettings).actions .resourceControls = 1 ∧
    readCount (run { version := "2.0.0" } unreadableSettings).actions .containerStacks = 0 := by
  have hall : ∀ bucket, readableSource.Readable bucket := by
    intro bucket
    cases bucket <;> exact ⟨_, rfl⟩
  have hreadable : ∀ earlier ∈ [Bucket.identity, .dockerHub, .schedules, .endpoints,
      .endpointGroups, .registries, .resourceControls], unreadableSettings.Readable earlier := by
    intro earlier hearlier
    simp only [List.mem_cons, List.not_mem_nil, or_false] at hearlier
    rcases hearlier with rfl | rfl | rfl | rfl | rfl | rfl | rfl <;> exact ⟨_, rfl⟩
  obtain ⟨-, -, hsuccess, -⟩ := run_stops_at_first_failing_read { version := "2.0.0" } readableSource
  obtain ⟨-, -, -, hfirst⟩ :=
    run_stops_at_first_failing_read { version := "2.0.0" } unreadableSettings
  obtain ⟨hresult, -, hread, hunread⟩ :=
    hfirst _ .settings [.containerStacks, .tags, .teams, .teamMemberships] _ rfl hreadable rfl
  exact ⟨⟨hall, (hsuccess hall).2.1⟩, hreadable, rfl, rfl, hresult, hread _ (by decide),
    hunread _ (by decide)⟩

end Survey

end UsageReport
