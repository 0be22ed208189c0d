import UsageReport.Proofs.DeliveryPaths
import UsageReport.Proofs.Fanout
import UsageReport.Proofs.Variables

/-!
How the commands end. Their stages have a fixed order, and the first one that fails ends the
command, so what the later ones would have met plays no part.
-/

namespace UsageReport

namespace Format

inductive Named : String → Format → Prop where
  | text : Named "text" .text
  | json : Named "json" .json

theorem named_iff {name : String} {format : Format} :
    Named name format ↔ ofName? name = some format := by
  constructor
  · rintro (_ | _)
    · rfl
    · rfl
  · intro hname
    rw [ofName?] at hname
    split at hname
    · subst name
      cases hname
      exact .text
    · split at hname
      · subst name
        cases hname
        exact .json
      · cases hname

end Format

def Action.printed? : Action → Option String
  | .print text => some text
  | _ => none

theorem printedText_eq (actions : List Action) :
    printedText actions = String.join (actions.filterMap Action.printed?) := rfl

/-- What is printed there of an outcome. -/
def Destination.printed (outcome : Outcome) : Destination → List String
  | .printer format => outcome.report?.toList.map fun report => report.render format ++ "\n"
  | _ => []

theorem Destination.printed_deliver (number place : Nat) (outcome : Outcome)
    (destination : Destination) :
    (destination.deliver number place outcome).actions.filterMap Action.printed? =
      destination.printed outcome := by
  cases destination with
  | directory obstacle => cases obstacle <;> cases outcome <;> rfl
  | printer format => cases outcome <;> rfl
  | _ => rfl

theorem Runner.printedText_actions {runner : Runner} {number : Nat}
    (hquiet : ∀ destination ∈ runner.destinations, destination.panics number = false) :
    printedText (runner.actions number) =
      String.join (runner.destinations.flatMap (Destination.printed runner.outcome)) := by
  have hdelivery : (runner.delivery number).actions.filterMap Action.printed? = _ :=
    Destination.filterMap_deliverAll number 0 runner.outcome (fun _ => rfl)
      (fun place destination => Destination.printed_deliver number place _ destination) hquiet
  rw [printedText_eq, actions_eq]
  simp only [List.filterMap_append]
  rw [hdelivery, filterMap_of_observes (fun _ => rfl) (fun _ => rfl)
    (Survey.observes_run runner.host runner.source)]
  rfl

theorem Survey.version_of_run {version : String} {source : Source} {report : Report}
    (hrun : (run { version } source).result = .ok report) :
    report.runtime.version = version := by
  have hruntime := (result_run_eq_ok_iff.mp hrun).2 .runtime
  exact congrArg RuntimeUsage.version (Except.ok.inj hruntime).symm

namespace CommandLine

variable {files : Files} {environment other : Variables} {options : Options}

theorem format_of_named {usual : String} {format : Format}
    (hformat : Format.Named (options.format.getD usual) format) :
    CommandLine.format options usual = .ok format := by
  simp only [CommandLine.format, Format.named_iff.mp hformat]

theorem format_of_unknown {usual : String}
    (hunknown : ∀ format, ¬ Format.Named (options.format.getD usual) format) :
    CommandLine.format options usual = .error (.format (options.format.getD usual)) := by
  have hname : Format.ofName? (options.format.getD usual) = none := by
    rw [Option.eq_none_iff_forall_ne_some]
    exact fun format hformat => hunknown format (Format.named_iff.mpr hformat)
  simp only [CommandLine.format, hname]

theorem loadStore_eq_ok_iff {path : String} {store : Store} :
    loadStore files path = .ok store ↔ Store.ofContent (files path) = .ok store := by
  rw [loadStore]
  cases Store.ofContent (files path) <;> simp [Except.mapError]

theorem loadStore_of_error {path : String} {error : Store.LoadError}
    (hload : Store.ofContent (files path) = .error error) :
    loadStore files path = .error (.load path error) := by
  rw [loadStore, hload]
  rfl

/-- The path that the store is read at. -/
def StoreAt (environment : Variables) (options : Options) (path : String) : Prop :=
  Variables.Settles options.store environment "TELEMETRY_STORE_PATH" "./data/store.json" path

/-- The version that is reported. -/
def Versioned (environment : Variables) (version : String) : Prop :=
  Variables.Settles none environment "TELEMETRY_APP_VERSION" "0.1.0" version

theorem storeAt_iff {path : String} :
    StoreAt environment options path ↔ (configuration environment options).storePath = path :=
  Variables.settles_iff

theorem versioned_iff (options : Options) {version : String} :
    Versioned environment version ↔ (configuration environment options).version = version :=
  Variables.settles_iff

namespace Collect

/-- The messages of a collection that comes to its survey. -/
def messages (path version : String) (store : Store) : List Message :=
  loading path :: computing :: (events ((runner version store).actions 1)).map .event

/-- How a collection ends: with the first of its stages that fails, or with the report. -/
inductive Ends (files : Files) (environment : Variables) (options : Options) : Finish → Prop where
  | format (hunknown : ∀ format, ¬ Format.Named (options.format.getD "text") format) :
      Ends files environment options (.ofFailure [] (.format (options.format.getD "text")))
  | load {format : Format} {path : String} {error : Store.LoadError}
      (hformat : Format.Named (options.format.getD "text") format)
      (hpath : StoreAt environment options path)
      (hload : Store.ofContent (files path) = .error error) :
      Ends files environment options (.ofFailure [loading path] (.load path error))
  | survey {format : Format} {path version : String} {store : Store} {error : SurveyError}
      (hformat : Format.Named (options.format.getD "text") format)
      (hpath : StoreAt environment options path)
      (hload : Store.ofContent (files path) = .ok store)
      (hversion : Versioned environment version)
      (hsurvey : (Survey.run { version } ⟨store, none⟩).result = .error error) :
      Ends files environment options (.ofFailure (messages path version store) (.survey error))
  | report {format : Format} {path version : String} {store : Store} {report : Report}
      (hformat : Format.Named (options.format.getD "text") format)
      (hpath : StoreAt environment options path)
      (hload : Store.ofContent (files path) = .ok store)
      (hversion : Versioned environment version)
      (hsurvey : (Survey.run { version } ⟨store, none⟩).result = .ok report) :
      Ends files environment options
        ⟨0, report.render format ++ "\n", messages path version store⟩

theorem finish_of_loaded {format : Format} {path version : String} {store : Store}
    (hformat : Format.Named (options.format.getD "text") format)
    (hpath : StoreAt environment options path)
    (hload : Store.ofContent (files path) = .ok store) (hversion : Versioned environment version) :
    finish files environment options =
      match (Survey.run { version } ⟨store, none⟩).result with
      | .ok report => ⟨0, report.render format ++ "\n", messages path version store⟩
      | .error error => .ofFailure (messages path version store) (.survey error) := by
  obtain rfl := storeAt_iff.mp hpath
  obtain rfl := (versioned_iff options).mp hversion
  simp only [finish, format_of_named hformat, loadStore_eq_ok_iff.mpr hload, sentTo_runner,
    List.head?_cons]
  cases (Survey.run { version := (configuration environment options).version }
      ⟨store, none⟩).result with
  | ok report => rfl
  | error error => rfl

theorem Ends.eq {finish : Finish} (hends : Ends files environment options finish) :
    Collect.finish files environment options = finish := by
  cases hends with
  | format hunknown => simp only [Collect.finish, format_of_unknown hunknown]
  | load hformat hpath hload =>
      obtain rfl := storeAt_iff.mp hpath
      simp only [Collect.finish, format_of_named hformat, loadStore_of_error hload]
  | survey hformat hpath hload hversion hsurvey =>
      rw [finish_of_loaded hformat hpath hload hversion, hsurvey]
  | report hformat hpath hload hversion hsurvey =>
      rw [finish_of_loaded hformat hpath hload hversion, hsurvey]

theorem exists_ends (files : Files) (environment : Variables) (options : Options) :
    ∃ finish, Ends files environment options finish := by
  obtain ⟨path, hpath⟩ : ∃ path, StoreAt environment options path := ⟨_, storeAt_iff.mpr rfl⟩
  obtain ⟨version, hversion⟩ : ∃ version, Versioned environment version :=
    ⟨_, (versioned_iff options).mpr rfl⟩
  by_cases hnamed : ∃ format, Format.Named (options.format.getD "text") format
  · obtain ⟨format, hformat⟩ := hnamed
    cases hload : Store.ofContent (files path) with
    | error error => exact ⟨_, .load hformat hpath hload⟩
    | ok store =>
        cases hsurvey : (Survey.run { version } ⟨store, none⟩).result with
        | error error => exact ⟨_, .survey hformat hpath hload hversion hsurvey⟩
        | ok report => exact ⟨_, .report hformat hpath hload hversion hsurvey⟩
  · exact ⟨_, .format (not_exists.mp hnamed)⟩

theorem finish_eq_iff {finish : Finish} :
    Collect.finish files environment options = finish ↔ Ends files environment options finish := by
  constructor
  · rintro rfl
    obtain ⟨finish, hends⟩ := exists_ends files environment options
    rwa [hends.eq]
  · exact Ends.eq

/-- Of the environment only the path of the store and the version play a part. -/
theorem Ends.congr {finish : Finish} (hends : Ends files environment options finish)
    (hpath : ∀ path, StoreAt environment options path → StoreAt other options path)
    (hversion : ∀ version, Versioned environment version → Versioned other version) :
    Ends files other options finish := by
  cases hends with
  | format hunknown => exact .format hunknown
  | load hformat hstore hload => exact .load hformat (hpath _ hstore) hload
  | survey hformat hstore hload hreported hsurvey =>
      exact .survey hformat (hpath _ hstore) hload (hversion _ hreported) hsurvey
  | report hformat hstore hload hreported hsurvey =>
      exact .report hformat (hpath _ hstore) hload (hversion _ hreported) hsurvey

end Collect

namespace Schedule

/-- The first stage of a schedule that fails before any run. -/
inductive Fails (files : Files) (environment : Variables) (options : Options) : Failure → Prop where
  | format (hunknown : ∀ format, ¬ Format.Named (options.format.getD "json") format) :
      Fails files environment options (.format (options.format.getD "json"))
  | interval {format : Format} {error : Configuration.IntervalError}
      (hformat : Format.Named (options.format.getD "json") format)
      (hinterval : Configuration.interval options.interval environment = .error error) :
      Fails files environment options (.interval error)
  | load {format : Format} {seconds : Nat} {path : String} {error : Store.LoadError}
      (hformat : Format.Named (options.format.getD "json") format)
      (hinterval : Configuration.interval options.interval environment = .ok seconds)
      (hpath : StoreAt environment options path)
      (hload : Store.ofContent (files path) = .error error) :
      Fails files environment options (.load path error)

/-- All stages before the first run have settled what a plan says. -/
structure Settled (files : Files) (environment : Variables) (options : Options) (plan : Plan) :
    Prop where
  format : Format.Named (options.format.getD "json") plan.format
  interval : Configuration.interval options.interval environment = .ok plan.interval
  path : StoreAt environment options plan.configuration.storePath
  load : Store.ofContent (files plan.configuration.storePath) = .ok plan.store
  version : Versioned environment plan.configuration.version

theorem plan_of_interval {format : Format} {seconds : Nat}
    (hformat : Format.Named (options.format.getD "json") format)
    (hinterval : Configuration.interval options.interval environment = .ok seconds) :
    plan files environment options =
      (loadStore files (configuration environment options).storePath).map fun store =>
        ⟨format, seconds, Configuration.interval_pos hinterval,
          configuration environment options, store⟩ := by
  simp only [plan, format_of_named hformat]
  split
  · cases hinterval.symm.trans ‹_›
  · cases hinterval.symm.trans ‹_›
    rfl

theorem Fails.eq {failure : Failure} (hfails : Fails files environment options failure) :
    plan files environment options = .error failure := by
  cases hfails with
  | format hunknown => simp only [plan, format_of_unknown hunknown]
  | interval hformat hinterval =>
      simp only [plan, format_of_named hformat]
      split
      · cases hinterval.symm.trans ‹_›
        rfl
      · cases hinterval.symm.trans ‹_›
  | load hformat hinterval hpath hload =>
      obtain rfl := storeAt_iff.mp hpath
      rw [plan_of_interval hformat hinterval, loadStore_of_error hload]
      rfl

theorem fails_or_settled (files : Files) (environment : Variables) (options : Options) :
    (∃ failure, Fails files environment options failure) ∨
      ∃ settled, plan files environment options = .ok settled ∧
        Settled files environment options settled := by
  by_cases hnamed : ∃ format, Format.Named (options.format.getD "json") format
  · obtain ⟨format, hformat⟩ := hnamed
    cases hinterval : Configuration.interval options.interval environment with
    | error error => exact .inl ⟨_, .interval hformat hinterval⟩
    | ok seconds =>
        have hpath : StoreAt environment options (configuration environment options).storePath :=
          storeAt_iff.mpr rfl
        cases hload : Store.ofContent (files (configuration environment options).storePath) with
        | error error => exact .inl ⟨_, .load hformat hinterval hpath hload⟩
        | ok store =>
            refine .inr ⟨⟨format, seconds, Configuration.interval_pos hinterval,
              configuration environment options, store⟩, ?_, hformat, hinterval, hpath, hload,
              (versioned_iff options).mpr rfl⟩
            rw [plan_of_interval hformat hinterval, loadStore_eq_ok_iff.mpr hload]
            rfl
  · exact .inl ⟨_, .format (not_exists.mp hnamed)⟩

theorem settled_of_plan {settled : Plan}
    (hplan : plan files environment options = .ok settled) :
    Settled files environment options settled := by
  rcases fails_or_settled files environment options with ⟨failure, hfails⟩ | ⟨planned, hok, hsettled⟩
  · cases hfails.eq.symm.trans hplan
  · cases hok.symm.trans hplan
    exact hsettled

theorem Plan.quiet (planned : Plan) (obstacle : Option FileError) :
    ∀ destination ∈ (planned.runner obstacle).destinations, destination.panics 1 = false := by
  unfold Plan.runner
  split <;> simp [Destination.panics]

theorem Plan.printedText_runActions (planned : Plan) (obstacle : Option FileError) :
    printedText (Timetable.runActions (planned.runner obstacle) 1) =
      match (Survey.run { version := planned.configuration.version }
        ⟨planned.store, none⟩).result with
      | .ok report => report.render planned.format ++ "\n"
      | .error _ => "" := by
  have hpanicked : ((planned.runner obstacle).delivery 1).panicked = false := by
    rw [Runner.delivery, Destination.panicked_deliverAll, List.any_eq_false]
    exact fun destination hmem => Bool.eq_false_iff.mp (planned.quiet obstacle destination hmem)
  have hprinted : (planned.runner obstacle).destinations.flatMap
        (Destination.printed (planned.runner obstacle).outcome) =
      (Destination.printer planned.format).printed (planned.runner obstacle).outcome := by
    unfold Plan.runner
    split <;> exact List.append_nil _
  rw [Timetable.runActions, hpanicked]
  simp only [Bool.false_eq_true, if_false, List.append_nil]
  rw [Runner.printedText_actions (planned.quiet obstacle), hprinted]
  change String.join ((Destination.printer planned.format).printed (.ofResult
    (Survey.run { version := planned.configuration.version } ⟨planned.store, none⟩).result)) = _
  cases (Survey.run { version := planned.configuration.version } ⟨planned.store, none⟩).result with
  | ok report => simp [Destination.printed, Outcome.ofResult, Outcome.report?, String.join]
  | error error => rfl

end Schedule

theorem Schedule.run_of_plan {tree : FileTree} {stamp : String} {arguments : List String}
    {planned : Plan} (harguments : readArguments arguments = some (.schedule, options))
    (hplan : plan tree.read environment options = .ok planned) :
    ∃ obstacle after, run tree environment stamp arguments =
      some (⟨0, printedText (Timetable.runActions (planned.runner obstacle) 1),
        (events (Timetable.runActions (planned.runner obstacle) 1)).map .event ++ [interruption]⟩,
        after) := by
  refine ⟨((planned.save stamp).run tree).1, ((planned.save stamp).run tree).2, ?_⟩
  simp only [run, harguments, hplan]
  rfl

/-- A command goes through its stages in order and ends with the first that fails: a collection asks
for the format, then loads the store, then surveys it; a schedule asks for the interval after the
format. A collection takes no more from the environment than the path of the store and the version,
so what is set for schedules plays no part. -/
theorem run_of_stages (tree : FileTree) (environment : Variables) (stamp : String)
    {arguments : List String} {command : Command} {options : Options}
    (harguments : readArguments arguments = some (command, options)) :
    (command = .collect →
      (∀ finish after, run tree environment stamp arguments = some (finish, after) ↔
        after = tree ∧ Collect.Ends tree.read environment options finish) ∧
      (∀ other later,
        (∀ path, StoreAt environment options path ↔ StoreAt other options path) →
        (∀ version, Versioned environment version ↔ Versioned other version) →
        run tree other later arguments = run tree environment stamp arguments) ∧
      ∀ (other : Variables) later,
        (∀ name, name ≠ "TELEMETRY_INTERVAL_SECONDS" → name ≠ "TELEMETRY_OUTPUT_DIR" →
          other name = environment name) →
        run tree other later arguments = run tree environment stamp arguments) ∧
    (command = .schedule →
      (∀ failure, Schedule.Fails tree.read environment options failure →
        run tree environment stamp arguments = some (.ofFailure [] failure, tree)) ∧
      ((∀ failure, ¬ Schedule.Fails tree.read environment options failure) →
        ∃ planned finish after, Schedule.Settled tree.read environment options planned ∧
          run tree environment stamp arguments = some (finish, after) ∧ finish.status = 0 ∧
          ∀ report, (Survey.run { version := planned.configuration.version }
            ⟨planned.store, none⟩).result = .ok report →
              finish.output = report.render planned.format ++ "\n")) ∧
    ∀ version source report, (Survey.run { version } source).result = .ok report →
      report.runtime.version = version := by
  refine ⟨?_, ?_, fun version source report => Survey.version_of_run⟩
  · rintro rfl
    have hrun (environment : Variables) (stamp : String) :
        run tree environment stamp arguments =
          some (Collect.finish tree.read environment options, tree) := by
      simp only [run, harguments]
    have hagree (other : Variables) (later : String)
        (hpath : ∀ path, StoreAt environment options path ↔ StoreAt other options path)
        (hversion : ∀ version, Versioned environment version ↔ Versioned other version) :
        run tree other later arguments = run tree environment stamp arguments := by
      have hends : Collect.Ends tree.read environment options
        (Collect.finish tree.read environment options) := Collect.finish_eq_iff.mp rfl
      rw [hrun, hrun, (hends.congr (fun path => (hpath path).mp) fun version =>
        (hversion version).mp).eq]
    refine ⟨?_, hagree, ?_⟩
    · intro finish after
      rw [hrun, ← Collect.finish_eq_iff, Option.some.injEq, Prod.mk.injEq, and_comm, eq_comm]
    · intro other later hsame
      refine hagree other later (fun path => ?_) fun version => ?_
      · exact Variables.settles_congr (hsame _ (by decide) (by decide))
      · exact Variables.settles_congr (hsame _ (by decide) (by decide))
  · rintro rfl
    constructor
    · intro failure hfails
      simp only [run, harguments, hfails.eq]
    · intro hnone
      rcases Schedule.fails_or_settled tree.read environment options with
        ⟨failure, hfails⟩ | ⟨planned, hplan, hsettled⟩
      · exact absurd hfails (hnone failure)
      · obtain ⟨obstacle, after, hrun⟩ := @Schedule.run_of_plan _ _ _ stamp _ _ harguments hplan
        refine ⟨planned, _, after, hsettled, hrun, rfl, ?_⟩
        intro report hreport
        rw [Schedule.Plan.printedText_runActions, hreport]

/-- Only the path of the store is set. -/
def plainEnvironment : Variables := fun name =>
  if name = "TELEMETRY_STORE_PATH" then some (.text "t") else none

/-- Also set is what only schedules use, to no use. -/
def strayEnvironment : Variables := fun name =>
  if name = "TELEMETRY_INTERVAL_SECONDS" then some (.text " soon ")
  else if name = "TELEMETRY_OUTPUT_DIR" then some (.binary [0xff])
  else plainEnvironment name

/-- The collection fails with its survey, in both environments. The first schedule fails with the
interval before it looks for the store, which is not there; the second is given an interval. -/
theorem run_of_strayEnvironment :
    run storeTree strayEnvironment "" ["collect", "--output=json"] =
      some (.ofFailure (Collect.messages "t" "0.1.0" bareStore)
        (.survey ⟨.inside .settings, .missing .settings⟩), storeTree) ∧
    run storeTree plainEnvironment "" ["collect", "--output=json"] =
      run storeTree strayEnvironment "" ["collect", "--output=json"] ∧
    run storeTree strayEnvironment "" ["schedule", "-s", "nowhere"] =
      some (.ofFailure [] (.interval (.notSeconds " soon ")), storeTree) ∧
    ∃ finish after, run storeTree strayEnvironment "" ["schedule", "-s", "s", "-i", "60"] =
      some (finish, after) ∧ finish.status = 0 := by
  have hcollect : readArguments ["collect", "--output=json"] =
      some (.collect, { format := some "json" }) := by decide +kernel
  have hschedule : readArguments ["schedule", "-s", "nowhere"] =
      some (.schedule, { store := some "nowhere" }) := by decide +kernel
  have hminute : readArguments ["schedule", "-s", "s", "-i", "60"] =
      some (.schedule, { store := some "s", interval := some 60 }) := by decide +kernel
  obtain ⟨hcollected, -⟩ := run_of_stages storeTree strayEnvironment "" hcollect
  obtain ⟨hends, -, hstray⟩ := hcollected rfl
  obtain ⟨-, hscheduled, -⟩ := run_of_stages storeTree strayEnvironment "" hschedule
  obtain ⟨-, hsettled, -⟩ := run_of_stages storeTree strayEnvironment "" hminute
  refine ⟨(hends _ _).mpr ⟨rfl, ?_⟩, ?_, ?_, ?_⟩
  · have hpath : StoreAt strayEnvironment { format := some "json" } "t" :=
      .held rfl ⟨rfl, 't', by decide, by decide⟩
    have hversion : Versioned strayEnvironment "0.1.0" := .usual rfl (.absent rfl)
    exact .survey .json hpath (loadStore_eq_ok_iff.mp loadStore_bareText) hversion rfl
  · apply hstray
    intro name hinterval hdirectory
    rw [strayEnvironment, if_neg hinterval, if_neg hdirectory]
  · exact (hscheduled rfl).1 _ (.interval .json (by decide +kernel))
  · have hnone : ∀ failure, ¬ Schedule.Fails storeTree.read strayEnvironment
        { store := some "s", interval := some 60 } failure := by
      intro failure hfails
      cases hfails with
      | format hunknown => exact hunknown .json .json
      | interval _ hinterval =>
          have hgiven : Configuration.interval (some 60) strayEnvironment = .ok 60 := rfl
          cases hgiven.symm.trans hinterval
      | load _ _ hpath hload =>
          obtain rfl := storeAt_iff.mp hpath
          cases (loadStore_eq_ok_iff.mp loadStore_fullText).symm.trans hload
    obtain ⟨-, finish, after, -, hrun, hstatus, -⟩ := (hsettled rfl).2 hnone
    exact ⟨finish, after, hrun, hstatus⟩

end CommandLine

end UsageReport
