import Mathlib.Data.List.Nodup
import UsageReport.Proofs.Delivery
import UsageReport.Proofs.ReadOrder

/-!
The log of a run. It opens with the start and tells of each section once that is computed, as far
as the first read that fails, with a warning in front of the settings if their snapshot interval is
no duration. Then it tells how the survey ended, and last what became of the outcome.
-/

namespace UsageReport

/-- What an event looks like in the log. -/
def Event.entry (event : Event) : Level × String × List (String × String) :=
  (event.level, event.message, event.fields)

/-- The event tells what became of an outcome that was handed over. -/
def Event.IsDelivery : Event → Prop
  | .receiverDropped | .reportWritten | .reportNotWritten _ => True
  | .runStarted | .sectionComputed _ | .intervalRejected _ | .reportReady _ _ | .runAborted _
  | .runPanicked => False

/-- The sections that a survey computes before some stage. -/
def Stage.earlierSections : Stage → List Section
  | .identifier => []
  | .inside part => Section.all.takeWhile (· ≠ part)

/-- The sections that a survey with some outcome has computed. -/
def Outcome.computedSections : Outcome → List Section
  | .ready _ => Section.all
  | .failed error => error.stage.earlierSections

/-- The warning about the text of a snapshot interval that is no duration. -/
def Survey.intervalWarning (text : String) : List Event :=
  if text = "" then []
  else
    match Duration.parse text with
    | .ok _ => []
    | .error error => [.intervalRejected error]

/-- The warning about the snapshot interval of the settings, if they can be read. -/
def Source.intervalWarning (source : Source) : List Event :=
  match source.read .settings with
  | .ok settings => Survey.intervalWarning settings.snapshotInterval
  | .error _ => []

/-- What is logged about sections that are computed one after another. The runtime section is not
logged. -/
def Source.sectionEvents (source : Source) (parts : List Section) : List Event :=
  (parts.filter (· ≠ .runtime)).flatMap fun part =>
    (if part = .settings then source.intervalWarning else []) ++ [.sectionComputed part]

theorem Outcome.computedSections_prefix (outcome : Outcome) :
    outcome.computedSections <+: Section.all := by
  rcases outcome with report | ⟨stage, cause⟩
  · exact List.prefix_rfl
  · cases stage with
    | identifier => exact List.nil_prefix
    | inside part => exact List.takeWhile_prefix _

theorem events_append (first second : List Action) :
    events (first ++ second) = events first ++ events second :=
  List.filterMap_append

theorem events_log (event : Event) : events [.log event] = [event] := rfl

namespace Trace

variable {ε α β : Type}

/-- The computation logs nothing. -/
def Silent (trace : Trace ε α) : Prop := events trace.actions = []

theorem silent_pure (value : α) : Silent (pure value : Trace ε α) := rfl

theorem silent_read (source : Source) (bucket : Bucket) : (source.trace bucket).Silent := rfl

theorem events_bind_of_silent {trace : Trace ε α} {next : α → Trace ε β}
    (hnext : ∀ value, (next value).Silent) :
    events (trace >>= next).actions = events trace.actions := by
  cases hresult : trace.result with
  | error error => rw [bind_of_error next hresult]
  | ok value => rw [bind_of_ok next hresult, events_append, hnext value, List.append_nil]

theorem Silent.bind {trace : Trace ε α} {next : α → Trace ε β} (htrace : trace.Silent)
    (hnext : ∀ value, (next value).Silent) : (trace >>= next).Silent :=
  (events_bind_of_silent hnext).trans htrace

end Trace

namespace Survey

theorem events_snapshotInterval (text : String) :
    events (snapshotInterval text).actions = intervalWarning text := by
  unfold snapshotInterval intervalWarning
  split
  · rfl
  · cases Duration.parse text <;> rfl

theorem events_settings (source : Source) :
    events (settings source).actions = source.intervalWarning := by
  unfold settings Source.intervalWarning
  cases hread : source.read .settings with
  | error error => rw [Trace.bind_of_error _ hread, Trace.silent_read source .settings]
  | ok settings =>
      rw [Trace.bind_of_ok _ hread, events_append, Trace.silent_read source .settings,
        List.nil_append, Trace.events_bind_of_silent fun _ => Trace.silent_pure _,
        events_snapshotInterval]

/-- Nothing but the settings is logged while it is computed. -/
theorem events_compute (host : Host) (source : Source) (part : Section) :
    events (compute host source part).actions =
      if part = .settings then source.intervalWarning else [] := by
  have hread := Trace.silent_read source
  have hpure {α : Type} (value : α) : Trace.Silent (pure value : Trace ReadError α) :=
    Trace.silent_pure value
  cases part with
  | settings => exact events_settings source
  | runtime => exact hpure _
  | team => exact (hread .teams).bind fun _ => (hread .teamMemberships).bind fun _ => hpure _
  | dockerHub => exact (hread .dockerHub).bind fun _ => hpure _
  | edgeCompute => exact (hread .schedules).bind fun _ => hpure _
  | endpoint => exact (hread .endpoints).bind fun _ => hpure _
  | endpointGroup => exact (hread .endpointGroups).bind fun _ => hpure _
  | registry => exact (hread .registries).bind fun _ => hpure _
  | resourceControl => exact (hread .resourceControls).bind fun _ => hpure _
  | stack => exact (hread .containerStacks).bind fun _ => hpure _
  | tag => exact (hread .tags).bind fun _ => hpure _

theorem intervalWarning_of_settings_error {host : Host} {source : Source} {cause : ReadError}
    (herror : (compute host source .settings).result = .error cause) :
    source.intervalWarning = [] := by
  have hfollows := (compute_follows host source .settings).failure
  simp only [Trace.error?, herror, Section.buckets, Source.firstFailure?] at hfollows
  unfold Source.intervalWarning
  cases hread : source.read .settings with
  | error error => rfl
  | ok settings => simp [hread] at hfollows

theorem events_extend_of_error {host : Host} {source : Source} {part : Section} {cause : ReadError}
    (report : Report) (herror : (compute host source part).result = .error cause) :
    (extend host source report part).result = .error ⟨.inside part, cause⟩ ∧
      events (extend host source report part).actions = [] := by
  have hupdate : update host source report part =
      ⟨(compute host source part).actions, .error cause⟩ := by
    rw [update_eq_put, Trace.bind_of_error _ herror]
  refine ⟨by rw [result_extend, hupdate]; rfl, ?_⟩
  unfold extend
  rw [hupdate, Trace.bind_of_error _ rfl]
  change events (compute host source part).actions = []
  rw [events_compute]
  split
  · rename_i hsettings
    subst hsettings
    exact intervalWarning_of_settings_error herror
  · rfl

theorem events_extend_of_ok {host : Host} {source : Source} {part : Section} {usage : part.Usage}
    (report : Report) (hok : (compute host source part).result = .ok usage) :
    (extend host source report part).result = .ok (report.put part usage) ∧
      events (extend host source report part).actions = source.sectionEvents [part] := by
  refine ⟨result_extend_eq_ok_iff.mpr ⟨usage, hok, rfl⟩, ?_⟩
  have hupdate : update host source report part =
      ⟨(compute host source part).actions ++ [], .ok (report.put part usage)⟩ := by
    rw [update_eq_put, Trace.bind_of_ok _ hok]
    rfl
  unfold extend
  rw [hupdate, List.append_nil, Trace.bind_of_ok _ rfl, events_append]
  change events (compute host source part).actions ++ _ = _
  rw [events_compute]
  by_cases hruntime : part = .runtime
  · subst hruntime
    rfl
  · simp [hruntime, Source.sectionEvents]
    rfl

/-- The sections of a list that come before the one that a survey of them failed in. -/
def computedOf {α : Type} (parts : List Section) : Except SurveyError α → List Section
  | .ok _ => parts
  | .error error => parts.takeWhile fun part => error.stage ≠ .inside part

theorem stage_of_foldlM_extend_error {host : Host} {source : Source} {parts : List Section}
    {start : Report} {error : SurveyError}
    (herror : (parts.foldlM (extend host source) start).result = .error error) :
    ∃ part ∈ parts, error.stage = .inside part := by
  induction parts generalizing start with
  | nil => cases herror
  | cons first parts ih =>
      rw [List.foldlM_cons] at herror
      cases hresult : (compute host source first).result with
      | error cause =>
          rw [Trace.bind_of_error _ (events_extend_of_error start hresult).1] at herror
          cases herror
          exact ⟨first, List.mem_cons_self, rfl⟩
      | ok usage =>
          rw [Trace.bind_of_ok _ (events_extend_of_ok start hresult).1] at herror
          obtain ⟨part, hpart, hstage⟩ := ih herror
          exact ⟨part, List.mem_cons_of_mem _ hpart, hstage⟩

theorem computedOf_cons {α : Type} {first : Section} {parts : List Section}
    {result : Except SurveyError α}
    (hresult : ∀ error, result = .error error → error.stage ≠ .inside first) :
    computedOf (first :: parts) result = first :: computedOf parts result := by
  cases result with
  | ok value => rfl
  | error error => simp [computedOf, hresult error rfl]

theorem sectionEvents_append (source : Source) (first second : List Section) :
    source.sectionEvents (first ++ second) =
      source.sectionEvents first ++ source.sectionEvents second := by
  rw [Source.sectionEvents, List.filter_append, List.flatMap_append]
  rfl

/-- Without the settings the log says nothing about what the source holds. -/
theorem sectionEvents_of_not_mem (first second : Source) {parts : List Section}
    (hsettings : .settings ∉ parts) : first.sectionEvents parts = second.sectionEvents parts := by
  refine List.flatMap_congr fun part hpart => ?_
  have hne : part ≠ .settings := fun heq => hsettings (heq ▸ (List.mem_filter.mp hpart).1)
  rw [if_neg hne, if_neg hne]

theorem sectionEvents_split (source : Source) (before after : List Section) :
    source.sectionEvents (before ++ .settings :: after) =
      source.sectionEvents before ++ source.intervalWarning ++
        .sectionComputed .settings :: source.sectionEvents after := by
  have hsettings : source.sectionEvents [.settings] =
      source.intervalWarning ++ [.sectionComputed .settings] := by
    simp [Source.sectionEvents]
  rw [← List.singleton_append, sectionEvents_append, sectionEvents_append, hsettings]
  simp only [List.append_assoc, List.singleton_append]

/-- Sections that are computed one after another are logged as far as the first that fails. -/
theorem events_foldlM_extend (host : Host) (source : Source) {parts : List Section}
    (hnodup : parts.Nodup) (start : Report) :
    events (parts.foldlM (extend host source) start).actions =
      source.sectionEvents (computedOf parts (parts.foldlM (extend host source) start).result) := by
  induction parts generalizing start with
  | nil => rfl
  | cons first parts ih =>
      obtain ⟨hfirst, hparts⟩ := List.nodup_cons.mp hnodup
      rw [List.foldlM_cons]
      cases hresult : (compute host source first).result with
      | error cause =>
          obtain ⟨hextend, hevents⟩ := events_extend_of_error start hresult
          rw [Trace.bind_of_error _ hextend, hevents]
          simp [computedOf, Source.sectionEvents]
      | ok usage =>
          obtain ⟨hextend, hevents⟩ := events_extend_of_ok start hresult
          rw [Trace.bind_of_ok _ hextend, events_append, hevents, ih hparts, computedOf_cons,
            ← sectionEvents_append, List.singleton_append]
          intro error herror hstage
          obtain ⟨part, hpart, hother⟩ := stage_of_foldlM_extend_error herror
          cases hstage.symm.trans hother
          exact hfirst hpart

theorem events_run (host : Host) (source : Source) :
    events (run host source).actions =
      source.sectionEvents (Outcome.ofResult (run host source).result).computedSections := by
  unfold run
  cases hidentity : ((source.trace .identity).mapError
      (fun cause => SurveyError.mk .identifier cause)).result with
  | error error =>
      rw [Trace.bind_of_error _ hidentity]
      have hstage : error.stage = .identifier := by
        change (source.read .identity).mapError _ = _ at hidentity
        cases hread : source.read .identity with
        | error cause => rw [hread] at hidentity; cases hidentity; rfl
        | ok held => rw [hread] at hidentity; cases hidentity
      simp only [Outcome.ofResult, Outcome.computedSections, hstage]
      rfl
  | ok identity =>
      rw [Trace.bind_of_ok _ hidentity, events_append, events_foldlM_extend _ _ Section.nodup_all]
      change [] ++ _ = _
      rw [List.nil_append]
      congr 1
      cases hresult : (Section.all.foldlM (extend host source)
          { identifier := identity.identifier }).result with
      | ok report => rfl
      | error error =>
          obtain ⟨part, -, hstage⟩ := stage_of_foldlM_extend_error hresult
          simp [computedOf, Outcome.ofResult, Outcome.computedSections, hstage,
            Stage.earlierSections, eq_comm]

end Survey

/-- Either all buckets of a list can be read, or there is a first that cannot. -/
theorem Source.readable_or_split (source : Source) (buckets : List Bucket) :
    (∀ bucket ∈ buckets, source.Readable bucket) ∨
      ∃ before bucket after error, buckets = before ++ bucket :: after ∧
        (∀ earlier ∈ before, source.Readable earlier) ∧ source.read bucket = .error error := by
  induction buckets with
  | nil => exact .inl fun bucket hbucket => nomatch hbucket
  | cons first buckets ih =>
      cases hread : source.read first with
      | error error => exact .inr ⟨[], first, buckets, error, rfl, by simp, hread⟩
      | ok held =>
          rcases ih with hall | ⟨before, bucket, after, error, rfl, hbefore, herror⟩
          · exact .inl (List.forall_mem_cons.mpr ⟨⟨held, hread⟩, hall⟩)
          · exact .inr ⟨first :: before, bucket, after, error, rfl,
              List.forall_mem_cons.mpr ⟨⟨held, hread⟩, hbefore⟩, herror⟩

theorem Bucket.takeWhile_ne {before after : List Bucket} {bucket : Bucket}
    (hall : Bucket.all = before ++ bucket :: after) :
    Bucket.all.takeWhile (· ≠ bucket) = before := by
  have hnodup := Bucket.nodup_all
  rw [hall] at hnodup ⊢
  have hnotin : ∀ earlier ∈ before, earlier ≠ bucket := fun earlier hearlier =>
    (List.nodup_append.mp hnodup).2.2 earlier hearlier bucket List.mem_cons_self
  rw [List.takeWhile_append_of_pos (by simpa using hnotin)]
  simp

/-- A section comes before the stage of a bucket if its own buckets are read before that one. -/
theorem Section.mem_earlierSections_iff : ∀ part ∈ Section.all, part ≠ .runtime →
    ∀ bucket ∈ Bucket.all, part ∈ bucket.stage.earlierSections ↔
      ∀ read ∈ part.buckets, read ∈ Bucket.all.takeWhile (· ≠ bucket) := by
  decide

namespace Survey

theorem run_of_readable (host : Host) {source : Source}
    (hreadable : ∀ bucket, source.Readable bucket) :
    (∃ report, (run host source).result = .ok report) ∧
      bucketsRead (run host source).actions = Bucket.all := by
  have hfollows := run_follows host source
  refine ⟨Trace.exists_result_eq_ok_of_error? ?_, ?_⟩
  · rw [hfollows.failure, Source.firstFailure?_of_readable fun bucket _ => hreadable bucket]
    rfl
  · exact hfollows.reads.trans (Source.reach_of_readable fun bucket _ => hreadable bucket)

theorem run_of_split (host : Host) {source : Source} {before after : List Bucket} {bucket : Bucket}
    {error : ReadError} (hall : Bucket.all = before ++ bucket :: after)
    (hreadable : ∀ earlier ∈ before, source.Readable earlier)
    (hfails : source.read bucket = .error error) :
    (run host source).result = .error ⟨bucket.stage, error⟩ ∧
      bucketsRead (run host source).actions = before ++ [bucket] := by
  have hfollows := run_follows host source
  refine ⟨Trace.result_eq_error_of_error? ?_, ?_⟩
  · rw [hfollows.failure, hall, Source.firstFailure?_of_split after hreadable hfails]
    rfl
  · rw [hfollows.reads, hall, Source.reach_of_split after hreadable hfails]

/-- A section is computed if all its buckets are read and can be read. -/
theorem mem_computedSections_iff (host : Host) (source : Source) {part : Section}
    (hpart : part ≠ .runtime) :
    part ∈ (Outcome.ofResult (run host source).result).computedSections ↔
      ∀ bucket ∈ part.buckets, bucket ∈ bucketsRead (run host source).actions ∧
        source.Readable bucket := by
  rcases source.readable_or_split Bucket.all with
    hall | ⟨before, bucket, after, error, hall, hbefore, herror⟩
  · obtain ⟨⟨report, hreport⟩, hreads⟩ :=
      run_of_readable host fun bucket => hall bucket (Bucket.mem_all bucket)
    rw [hreport, hreads]
    exact iff_of_true (Section.mem_all part) fun bucket _ =>
      ⟨Bucket.mem_all bucket, hall bucket (Bucket.mem_all bucket)⟩
  · obtain ⟨hresult, hreads⟩ := run_of_split host hall hbefore herror
    rw [hresult, hreads]
    refine (Section.mem_earlierSections_iff part (Section.mem_all part) hpart bucket
      (Bucket.mem_all bucket)).trans ?_
    rw [Bucket.takeWhile_ne hall]
    refine forall_congr' fun read => forall_congr' fun _ => ⟨fun hread => ?_, ?_⟩
    · exact ⟨List.mem_append_left _ hread, hbefore read hread⟩
    · rintro ⟨hread, held, hheld⟩
      refine (List.mem_append.mp hread).resolve_right fun hlast => ?_
      obtain rfl := List.mem_singleton.mp hlast
      cases herror.symm.trans hheld

end Survey

/-- The settings can be read, and their snapshot interval is no duration. -/
def Source.RejectsInterval (source : Source) (error : Duration.Error) : Prop :=
  ∃ settings, source.read .settings = .ok settings ∧ settings.snapshotInterval ≠ "" ∧
    Duration.parse settings.snapshotInterval = .error error

theorem Source.mem_intervalWarning_iff {source : Source} {event : Event} :
    event ∈ source.intervalWarning ↔
      ∃ error, source.RejectsInterval error ∧ event = .intervalRejected error := by
  unfold intervalWarning Survey.intervalWarning RejectsInterval
  cases hread : source.read .settings with
  | error error => simp
  | ok settings =>
      by_cases hempty : settings.snapshotInterval = ""
      · simp [hempty]
      · cases hparse : Duration.parse settings.snapshotInterval <;> simp [hempty, hparse]

theorem Source.mem_sectionEvents_iff {source : Source} {parts : List Section} {event : Event} :
    event ∈ source.sectionEvents parts ↔
      (∃ part ∈ parts, part ≠ .runtime ∧ event = .sectionComputed part) ∨
        .settings ∈ parts ∧ event ∈ source.intervalWarning := by
  unfold sectionEvents
  simp only [List.mem_flatMap, List.mem_filter, decide_eq_true_eq, List.mem_append,
    List.mem_singleton]
  constructor
  · rintro ⟨part, ⟨hpart, hruntime⟩, hwarning | hcomputed⟩
    · split at hwarning
      · rename_i hsettings
        exact .inr ⟨hsettings ▸ hpart, hwarning⟩
      · cases hwarning
    · exact .inl ⟨part, hpart, hruntime, hcomputed⟩
  · rintro (⟨part, hpart, hruntime, hcomputed⟩ | ⟨hsettings, hwarning⟩)
    · exact ⟨part, ⟨hpart, hruntime⟩, .inr hcomputed⟩
    · exact ⟨.settings, ⟨hsettings, by decide⟩, .inl (by simpa using hwarning)⟩

namespace Destination

theorem isDelivery_of_mem_deliver (number place : Nat) (outcome : Outcome)
    (destination : Destination) :
    ∀ event ∈ events (destination.deliver number place outcome).actions, event.IsDelivery := by
  cases destination <;> simp only [deliver] <;> repeat' split
  all_goals simp [events, Action.event?, Event.IsDelivery]

theorem isDelivery_of_mem_deliverAll (number place : Nat) (outcome : Outcome)
    (destinations : List Destination) :
    ∀ event ∈ events (deliverAll number place outcome destinations).actions, event.IsDelivery := by
  induction destinations generalizing place with
  | nil => intro event hevent; cases hevent
  | cons destination destinations ih =>
      intro event hevent
      have hhand : events [.hand place outcome] = [] := rfl
      rw [actions_deliverAll_cons, events_append, events_append, hhand, List.nil_append,
        List.mem_append] at hevent
      rcases hevent with hfirst | hrest
      · exact isDelivery_of_mem_deliver number place outcome destination event hfirst
      · split at hrest
        · cases hrest
        · exact ih (place + 1) event hrest

end Destination

namespace Runner

theorem events_actions (runner : Runner) (number : Nat) :
    events (runner.actions number) =
      [.runStarted] ++ runner.source.sectionEvents runner.outcome.computedSections ++
        [finalEvent runner.outcome] ++ events (runner.delivery number).actions := by
  rw [actions_eq, events_append, events_append, events_append, Survey.events_run, events_log,
    events_log]
  rfl

/-- A run logs its start once, and never that it panicked. -/
theorem exists_events_actions (runner : Runner) (number : Nat) :
    ∃ later, events (runner.actions number) = .runStarted :: later ∧
      .runStarted ∉ later ∧ .runPanicked ∉ later := by
  have hlater : ∀ event ∈ runner.source.sectionEvents runner.outcome.computedSections ++
      [finalEvent runner.outcome] ++ events (runner.delivery number).actions,
      event ≠ .runStarted ∧ event ≠ .runPanicked := by
    intro event hevent
    simp only [List.mem_append, List.mem_singleton] at hevent
    rcases hevent with (hsection | hfinal) | hdelivered
    · rcases Source.mem_sectionEvents_iff.mp hsection with ⟨part, -, -, rfl⟩ | ⟨-, hwarning⟩
      · simp
      · obtain ⟨error, -, rfl⟩ := Source.mem_intervalWarning_iff.mp hwarning
        simp
    · cases houtcome : runner.outcome <;> simp [hfinal, houtcome, finalEvent]
    · have hdelivery := Destination.isDelivery_of_mem_deliverAll _ _ _ _ event hdelivered
      constructor <;> (rintro rfl; exact hdelivery)
  exact ⟨_, runner.events_actions number, fun hmem => (hlater _ hmem).1 rfl,
    fun hmem => (hlater _ hmem).2 rfl⟩

end Runner

end UsageReport
