import UsageReport.Proofs.ReportText
import UsageReport.Proofs.RunLog

/-!
The snapshot interval is the one text of a store that is read as more than a text, and it can do no
harm: with any other text in its place the same buckets are read, the same failure or the same
report comes out but for that one number, and the log is the same but for one warning.
-/

namespace UsageReport

/-- The store with another snapshot interval, if it has settings. -/
def Store.withInterval (store : Store) (text : String) : Store :=
  { store with
    settings := store.settings.map fun settings => { settings with snapshotInterval := text } }

namespace Source

/-- Whatever cannot be read in one source cannot be read in the other, for the same reason. -/
def SameFailures (first second : Source) : Prop :=
  ∀ bucket error, first.read bucket = .error error ↔ second.read bucket = .error error

theorem SameFailures.read_cases {first second : Source} (hsame : first.SameFailures second)
    (bucket : Bucket) :
    (∃ error, first.read bucket = .error error ∧ second.read bucket = .error error) ∨
      ∃ held other, first.read bucket = .ok held ∧ second.read bucket = .ok other := by
  cases hfirst : first.read bucket with
  | error error => exact .inl ⟨error, rfl, (hsame bucket error).mp hfirst⟩
  | ok held =>
      cases hsecond : second.read bucket with
      | error error => cases ((hsame bucket error).mpr hsecond).symm.trans hfirst
      | ok other => exact .inr ⟨held, other, rfl, rfl⟩

theorem SameFailures.reach_eq {first second : Source} (hsame : first.SameFailures second)
    (buckets : List Bucket) : second.reach buckets = first.reach buckets := by
  induction buckets with
  | nil => rfl
  | cons bucket buckets ih =>
      rcases hsame.read_cases bucket with ⟨error, hfirst, hsecond⟩ | ⟨held, other, hfirst, hsecond⟩
      · simp only [reach, hfirst, hsecond]
      · simp only [reach, hfirst, hsecond, ih]

theorem SameFailures.firstFailure?_eq {first second : Source} (hsame : first.SameFailures second)
    (buckets : List Bucket) : second.firstFailure? buckets = first.firstFailure? buckets := by
  induction buckets with
  | nil => rfl
  | cons bucket buckets ih =>
      rcases hsame.read_cases bucket with ⟨error, hfirst, hsecond⟩ | ⟨held, other, hfirst, hsecond⟩
      · simp only [firstFailure?, hfirst, hsecond]
      · simp only [firstFailure?, hfirst, hsecond, ih]

def withInterval (source : Source) (text : String) : Source :=
  { source with store := source.store.withInterval text }

theorem read_withInterval_of_ne (source : Source) (text : String) {bucket : Bucket}
    (hne : bucket ≠ .settings) :
    (source.withInterval text).read bucket = source.read bucket := by
  cases bucket with
  | settings => exact absurd rfl hne
  | _ => rfl

theorem read_settings_withInterval (source : Source) (text : String) :
    (source.withInterval text).read .settings =
      (source.read .settings).map fun settings => { settings with snapshotInterval := text } := by
  by_cases hunreadable : source.unreadable = some .settings
  · simp only [read, withInterval, hunreadable, if_true]
    rfl
  · simp only [read, withInterval, Store.withInterval, Store.read, hunreadable, if_false]
    cases source.store.settings <;> rfl

theorem eq_of_read_settings {source : Source} {settings held : Store.Settings}
    (hsettings : source.store.settings = some settings)
    (hread : source.read .settings = .ok held) : held = settings := by
  simp only [read, Store.read, hsettings] at hread
  split at hread
  · cases hread
  · exact (Except.ok.inj hread).symm

theorem sameFailures_withInterval (source : Source) (text : String) :
    source.SameFailures (source.withInterval text) := by
  intro bucket error
  by_cases hsettings : bucket = .settings
  · subst hsettings
    rw [read_settings_withInterval]
    cases source.read .settings <;> simp [Except.map]
  · rw [read_withInterval_of_ne source text hsettings]

end Source

namespace Survey

/-- The seconds that a snapshot interval comes to, which are none if it is no duration. -/
def intervalSeconds (text : String) : Binary64 :=
  match Duration.parse text with
  | .ok nanoseconds => Duration.seconds nanoseconds
  | .error _ => .zero

theorem result_snapshotInterval (text : String) :
    (snapshotInterval text).result = .ok (intervalSeconds text) := by
  unfold snapshotInterval intervalSeconds
  split
  · rename_i hempty
    subst hempty
    rfl
  · cases Duration.parse text <;> rfl

theorem compute_withInterval_of_ne (host : Host) (source : Source) (text : String) {part : Section}
    (hne : part ≠ .settings) :
    compute host (source.withInterval text) part = compute host source part := by
  cases part with
  | settings => exact absurd rfl hne
  | _ => rfl

/-- What is told of the settings has the seconds of their interval, and would with another interval
be the same but for them. -/
theorem usage_of_settings {source : Source} {usage : SettingsUsage}
    (hresult : (settings source).result = .ok usage) :
    ∃ held, source.read .settings = .ok held ∧
      usage.snapshotInterval = intervalSeconds held.snapshotInterval ∧
      ∀ text, (settings (source.withInterval text)).result =
        .ok { usage with snapshotInterval := intervalSeconds text } := by
  obtain ⟨held, hread, hrest⟩ := Trace.result_bind_eq_ok_iff.mp hresult
  obtain ⟨interval, hinterval, husage⟩ := Trace.result_bind_eq_ok_iff.mp hrest
  cases (result_snapshotInterval _).symm.trans hinterval
  cases husage
  refine ⟨held, hread, rfl, fun text => ?_⟩
  have hread' : (source.withInterval text).read .settings =
      .ok { held with snapshotInterval := text } := by
    rw [Source.read_settings_withInterval, show source.read .settings = .ok held from hread]
    rfl
  unfold settings
  rw [Trace.bind_of_ok _ hread', Trace.bind_of_ok _ (result_snapshotInterval _)]
  rfl

theorem result_run_of_ok {host : Host} {source : Source} {report : Report}
    (hrun : (run host source).result = .ok report) (text : String) :
    (run host (source.withInterval text)).result =
      .ok (report.withInterval (intervalSeconds text)) := by
  obtain ⟨hidentity, hcompute⟩ := result_run_eq_ok_iff.mp hrun
  refine result_run_eq_ok_iff.mpr ⟨hidentity, fun part => ?_⟩
  by_cases hsettings : part = .settings
  · subst hsettings
    obtain ⟨held, -, -, hother⟩ := usage_of_settings (hcompute .settings)
    exact hother text
  · rw [compute_withInterval_of_ne host source text hsettings, hcompute part]
    cases part <;> first | rfl | exact absurd rfl hsettings

/-- Two sources with the same failures are read alike, and a survey fails on both alike. -/
theorem run_of_sameFailures (host : Host) {first second : Source}
    (hsame : first.SameFailures second) :
    bucketsRead (run host second).actions = bucketsRead (run host first).actions ∧
      (run host second).error? = (run host first).error? := by
  have hfirst := run_follows host first
  have hsecond := run_follows host second
  refine ⟨?_, ?_⟩
  · rw [hsecond.reads, hsame.reach_eq, hfirst.reads]
  · rw [hsecond.failure, hsame.firstFailure?_eq, hfirst.failure]

theorem result_run_withInterval (host : Host) (source : Source) (text : String) :
    (run host (source.withInterval text)).result =
      (run host source).result.map fun report => report.withInterval (intervalSeconds text) := by
  cases hrun : (run host source).result with
  | ok report => exact result_run_of_ok hrun text
  | error error =>
      apply Trace.result_eq_error_of_error?
      rw [(run_of_sameFailures host (source.sameFailures_withInterval text)).2]
      simp only [Trace.error?, hrun]

end Survey

namespace Destination

/-- Nothing in the log tells one report that is handed over from another. -/
theorem events_deliverAll_ready (first second : Report) (number place : Nat)
    (destinations : List Destination) :
    events (deliverAll number place (.ready first) destinations).actions =
      events (deliverAll number place (.ready second) destinations).actions := by
  have hdeliver (place : Nat) (destination : Destination) :
      events (destination.deliver number place (.ready first)).actions =
        events (destination.deliver number place (.ready second)).actions := by
    cases destination with
    | directory obstacle => cases obstacle <;> rfl
    | printer format => simp only [deliver, events, List.filterMap_cons, Action.event?]
    | channel | abandoned | faulty _ => rfl
  induction destinations generalizing place with
  | nil => rfl
  | cons destination destinations ih =>
      simp only [actions_deliverAll_cons, events_append, hdeliver]
      congr 1
      split
      · rfl
      · exact ih (place + 1)

end Destination

namespace Runner

def withInterval (runner : Runner) (text : String) : Runner :=
  { runner with source := runner.source.withInterval text }

theorem computedSections_withInterval (runner : Runner) (text : String) :
    (runner.withInterval text).outcome.computedSections = runner.outcome.computedSections := by
  simp only [outcome, withInterval, Survey.result_run_withInterval]
  cases (Survey.run runner.host runner.source).result <;> rfl

theorem events_end_withInterval (runner : Runner) (text : String) (number : Nat) :
    finalEvent (runner.withInterval text).outcome = finalEvent runner.outcome ∧
      events ((runner.withInterval text).delivery number).actions =
        events (runner.delivery number).actions := by
  simp only [delivery, outcome, withInterval, Survey.result_run_withInterval]
  cases (Survey.run runner.host runner.source).result with
  | ok report => exact ⟨rfl, Destination.events_deliverAll_ready _ _ number 0 _⟩
  | error error => exact ⟨rfl, rfl⟩

/-- If the settings have been computed, they are the ones of the store. -/
theorem intervalWarning_of_computed {runner : Runner} {settings : Store.Settings}
    (hsettings : runner.source.store.settings = some settings)
    (hcomputed : .settings ∈ runner.outcome.computedSections) (text : String) :
    runner.source.intervalWarning = Survey.intervalWarning settings.snapshotInterval ∧
      (runner.withInterval text).source.intervalWarning = Survey.intervalWarning text := by
  obtain ⟨-, held, hread⟩ := (Survey.mem_computedSections_iff runner.host runner.source
    (by decide)).mp hcomputed .settings List.mem_cons_self
  obtain rfl := Source.eq_of_read_settings hsettings hread
  have hread' := runner.source.read_settings_withInterval text
  rw [hread] at hread'
  refine ⟨?_, ?_⟩
  · simp only [Source.intervalWarning, hread]
  · simp only [Source.intervalWarning, withInterval, hread', Except.map]

/-- The logs of both runs differ in what warns of the interval, right in front of the settings. -/
theorem events_withInterval (runner : Runner) {settings : Store.Settings}
    (hsettings : runner.source.store.settings = some settings) (text : String) (number : Nat) :
    ∃ before own other after,
      events (runner.actions number) = before ++ own ++ after ∧
      events ((runner.withInterval text).actions number) = before ++ other ++ after ∧
      (own = [] ∧ other = [] ∨
        after.head? = some (.sectionComputed .settings) ∧
          own = Survey.intervalWarning settings.snapshotInterval ∧
          other = Survey.intervalWarning text) := by
  obtain ⟨hfinal, hdelivered⟩ := runner.events_end_withInterval text number
  rw [events_actions, events_actions, hfinal, hdelivered, computedSections_withInterval]
  by_cases hcomputed : .settings ∈ runner.outcome.computedSections
  case neg =>
    rw [Survey.sectionEvents_of_not_mem (runner.withInterval text).source runner.source hcomputed]
    exact ⟨[], [], [], _, rfl, rfl, .inl ⟨rfl, rfl⟩⟩
  obtain ⟨before, after, hparts⟩ := List.append_of_mem hcomputed
  have hnodup := Section.nodup_all.sublist runner.outcome.computedSections_prefix.sublist
  rw [hparts] at hnodup ⊢
  obtain ⟨hbefore, hafter⟩ : .settings ∉ before ∧ .settings ∉ after := by
    rw [← not_or, ← List.mem_append]
    exact (List.nodup_cons.mp (List.nodup_middle.mp hnodup)).1
  rw [Survey.sectionEvents_split, Survey.sectionEvents_split,
    Survey.sectionEvents_of_not_mem (runner.withInterval text).source runner.source hbefore,
    Survey.sectionEvents_of_not_mem (runner.withInterval text).source runner.source hafter]
  obtain ⟨own, other⟩ := intervalWarning_of_computed hsettings hcomputed text
  refine ⟨[.runStarted] ++ runner.source.sectionEvents before, _, _,
    .sectionComputed .settings :: runner.source.sectionEvents after ++
      [finalEvent runner.outcome] ++ events (runner.delivery number).actions, ?_, ?_,
    .inr ⟨rfl, rfl, rfl⟩⟩
  · rw [own]
    simp only [List.append_assoc, List.cons_append]
  · rw [other]
    simp only [List.append_assoc, List.cons_append]

/-- With any other text as the snapshot interval of the settings, a survey reads the same buckets
and fails in the same way, or succeeds with the same report but for the seconds of the interval.
They are the ones that the text comes to, or none if it is no duration. A run logs the same, but for
the warning about such a text in front of the settings. -/
theorem runs_of_other_interval (host : Survey.Host) {source : Source} {settings : Store.Settings}
    (hsettings : source.store.settings = some settings) (text : String) :
    (∀ bucket, readCount (Survey.run host (source.withInterval text)).actions bucket =
      readCount (Survey.run host source).actions bucket) ∧
    (∀ error, (Survey.run host (source.withInterval text)).result = .error error ↔
      (Survey.run host source).result = .error error) ∧
    (∀ report, (Survey.run host source).result = .ok report →
      (Survey.run host (source.withInterval text)).result =
          .ok (report.withInterval (Survey.intervalSeconds text)) ∧
        report.settings.snapshotInterval = Survey.intervalSeconds settings.snapshotInterval) ∧
    (∀ interval, (interval = "" ∨ ∃ error, Duration.parse interval = .error error) →
      Survey.intervalSeconds interval = .zero) ∧
    (∀ interval nanoseconds, Duration.parse interval = .ok nanoseconds →
      Survey.intervalSeconds interval = Duration.seconds nanoseconds) ∧
    (∀ destinations number, ∃ before own other after,
      events (actions ⟨host, source, destinations⟩ number) = before ++ own ++ after ∧
      events (actions ⟨host, source.withInterval text, destinations⟩ number) =
        before ++ other ++ after ∧
      (own = [] ∧ other = [] ∨
        after.head? = some (.sectionComputed .settings) ∧
          own = Survey.intervalWarning settings.snapshotInterval ∧
          other = Survey.intervalWarning text)) ∧
    ∀ interval, Survey.intervalWarning interval = [] ∨
      ∃ error, interval ≠ "" ∧ Duration.parse interval = .error error ∧
        Survey.intervalWarning interval = [.intervalRejected error] ∧
        (Event.intervalRejected error).level = .warn := by
  refine ⟨?_, ?_, ?_, ?_, ?_, ?_, ?_⟩
  · intro bucket
    rw [readCount_eq, readCount_eq,
      (Survey.run_of_sameFailures host (source.sameFailures_withInterval text)).1]
  · intro error
    rw [Survey.result_run_withInterval]
    cases (Survey.run host source).result <;> simp [Except.map]
  · intro report hrun
    refine ⟨Survey.result_run_of_ok hrun text, ?_⟩
    obtain ⟨held, hread, hinterval, -⟩ :=
      Survey.usage_of_settings ((Survey.result_run_eq_ok_iff.mp hrun).2 .settings)
    rw [← Source.eq_of_read_settings hsettings hread]
    exact hinterval
  · rintro interval (rfl | ⟨error, herror⟩)
    · rfl
    · simp only [Survey.intervalSeconds, herror]
  · intro interval nanoseconds hparse
    simp only [Survey.intervalSeconds, hparse]
  · intro destinations number
    exact events_withInterval ⟨host, source, destinations⟩ hsettings text number
  · intro interval
    unfold Survey.intervalWarning
    by_cases hempty : interval = ""
    · exact .inl (if_pos hempty)
    · rw [if_neg hempty]
      cases hparse : Duration.parse interval with
      | ok nanoseconds => exact .inl rfl
      | error error => exact .inr ⟨error, hempty, rfl, rfl, rfl⟩

/-- The interval is as long as it can be. -/
def longIntervalSettings : Store.Settings where
  logoURL := "logo.png"
  snapshotInterval := "9223372036854775807ns"

def longIntervalSource : Source where
  store := {
    identity := some ⟨"6f1c2a9e"⟩, dockerHub := some {}, settings := some longIntervalSettings }

/-- The tags come after the settings. -/
def taglessSource : Source where
  store := { identity := some ⟨"6f1c2a9e"⟩, dockerHub := some {}, settings := some {} }
  unreadable := some .tags

/-- A nanosecond more is beyond all durations. -/
theorem runs_of_longInterval :
    longIntervalSource.store.settings = some longIntervalSettings ∧
    (∃ error, Duration.parse "9223372036854775808ns" = .error error) ∧
    Survey.intervalSeconds "9223372036854775808ns" = .zero ∧
    (∃ report, (Survey.run { version := "2.0.0" } longIntervalSource).result = .ok report ∧
      (Survey.run { version := "2.0.0" }
          (longIntervalSource.withInterval "9223372036854775808ns")).result =
        .ok (report.withInterval .zero) ∧
      report.settings.snapshotInterval = Duration.seconds 9223372036854775807) ∧
    (Survey.run { version := "2.0.0" }
        (taglessSource.withInterval ".")).result =
      .error ⟨.inside .tag, .unreadable .tags⟩ := by
  obtain ⟨-, -, hreport, hzero, hseconds, -⟩ :=
    @runs_of_other_interval { version := "2.0.0" } longIntervalSource _ rfl "9223372036854775808ns"
  obtain ⟨-, hfails, -⟩ := @runs_of_other_interval { version := "2.0.0" } taglessSource _ rfl "."
  have hrejected : ∃ error, Duration.parse "9223372036854775808ns" = .error error :=
    ⟨⟨.outOfRange, "9223372036854775808ns"⟩, by decide +kernel⟩
  have haccepted : Duration.parse "9223372036854775807ns" = .ok 9223372036854775807 := by
    decide +kernel
  obtain ⟨report, hrun⟩ : ∃ report,
      (Survey.run { version := "2.0.0" } longIntervalSource).result = .ok report :=
    (Survey.run_of_readable _ fun bucket => by cases bucket <;> exact ⟨_, rfl⟩).1
  obtain ⟨hother, hinterval⟩ := hreport report hrun
  have hnone := hzero _ (.inr hrejected)
  refine ⟨rfl, hrejected, hnone, ⟨report, hrun, ?_, ?_⟩, (hfails _).mpr rfl⟩
  · rw [hother, hnone]
  · rw [hinterval]
    exact hseconds _ _ haccepted

end Runner

end UsageReport
