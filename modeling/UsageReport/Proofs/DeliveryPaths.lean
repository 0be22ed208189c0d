import UsageReport.CommandLine.Program
import UsageReport.Proofs.PanicIsolation

/-!
The ways from a survey to whoever wants its report. A run tells a channel of the survey once, a
schedule in which nothing panics does what as many runs in a row do, and a collection prints the
report or fails with the error.
-/

namespace UsageReport

/-- What a channel is told of a failed survey. -/
def Outcome.failure? : Outcome → Option String
  | .ready _ => none
  | .failed error => some error.message

/-- A channel was told of a survey that ended in some way, once. -/
def TellOf (result : Except SurveyError Report) (sent : List Outcome) : Prop :=
  ∃ outcome, sent = [outcome] ∧
    (∀ report, outcome = .ready report ↔ result = .ok report) ∧
    ∀ text, outcome.failure? = some text ↔ ∃ stage cause, result = .error ⟨stage, cause⟩ ∧
      text = "unable to compute " ++ stage.category ++ " telemetry: " ++ cause.message

theorem tellOf_ofResult (result : Except SurveyError Report) :
    TellOf result [.ofResult result] := by
  refine ⟨_, rfl, ?_, ?_⟩
  · intro report
    cases result <;> simp [Outcome.ofResult]
  · intro text
    cases result with
    | ok report => simp [Outcome.ofResult, Outcome.failure?]
    | error error =>
        constructor
        · intro htext
          exact ⟨error.stage, error.cause, rfl, (Option.some.inj htext).symm⟩
        · rintro ⟨stage, cause, ⟨⟩, rfl⟩
          rfl

theorem Destination.panicked_deliverAll (number place : Nat) (outcome : Outcome)
    (destinations : List Destination) :
    (deliverAll number place outcome destinations).panicked =
      destinations.any fun destination => destination.panics number := by
  induction destinations generalizing place with
  | nil => rfl
  | cons destination destinations ih =>
      rw [deliverAll, panicked_deliver, List.any_cons]
      cases destination.panics number with
      | true => rfl
      | false => exact ih (place + 1)

namespace Runner

variable {runner : Runner} {number place count : Nat}

theorem sentTo_actions_of_reaches (hchannel : runner.destinations[place]? = some .channel)
    (hreaches : runner.Reaches number place) :
    sentTo place (runner.actions number) = [runner.outcome] := by
  rw [runner.sentTo_actions number hchannel, handedTo_actions, if_pos hreaches]

theorem runPanicked_mem_events_iff (runner : Runner) (number : Nat) :
    .runPanicked ∈ events (Timetable.runActions runner number) ↔
      (runner.delivery number).panicked = true := by
  obtain ⟨later, hevents, -, hpanic⟩ := runner.exists_events_actions number
  rw [Timetable.runActions, events_append, hevents]
  split <;> simp_all [events, Action.event?]

/-- None of the first runs panics. -/
def Quiet (runner : Runner) (count : Nat) : Prop :=
  ∀ number < count, (runner.delivery (number + 1)).panicked = false

theorem quiet_of_not_mem_events
    (hnone : .runPanicked ∉ events (Timetable.actionsAfter runner 0 count)) :
    runner.Quiet count := by
  intro number hlt
  refine Bool.eq_false_iff.mpr fun hpanicked => hnone ?_
  have hevent := (runner.runPanicked_mem_events_iff (number + 1)).mpr hpanicked
  rw [events, Timetable.actionsAfter, List.filterMap_flatMap, List.mem_flatMap]
  refine ⟨number, List.mem_range.mpr hlt, ?_⟩
  rwa [Nat.zero_add]

theorem Quiet.actionsAfter (hquiet : runner.Quiet count) :
    Timetable.actionsAfter runner 0 count = runner.actionsOfRuns count := by
  refine List.flatMap_congr fun earlier hearlier => ?_
  have hrun := hquiet earlier (List.mem_range.mp hearlier)
  rw [Timetable.runActions, Nat.zero_add, hrun]
  exact List.append_nil _

theorem Quiet.reaches (hquiet : runner.Quiet count) (hnumber : number < count)
    (hplace : place < runner.destinations.length) : runner.Reaches (number + 1) place := by
  have hrun := hquiet number hnumber
  rw [delivery, Destination.panicked_deliverAll, List.any_eq_false] at hrun
  refine ⟨hplace, fun destination hmem => ?_⟩
  exact Bool.eq_false_iff.mpr (hrun destination (List.mem_of_mem_take hmem))

theorem Quiet.sentTo_actionsOfRuns (hquiet : runner.Quiet count)
    (hchannel : runner.destinations[place]? = some .channel) :
    sentTo place (runner.actionsOfRuns count) = List.replicate count runner.outcome := by
  obtain ⟨hplace, -⟩ := List.getElem?_eq_some_iff.mp hchannel
  rw [Runner.sentTo_actionsOfRuns runner count hchannel,
    handedTo_actionsOfRuns_eq_replicate_iff]
  exact fun earlier hearlier => hquiet.reaches hearlier hplace

end Runner

theorem Loop.map_snd_flatten_play (timetable : Timetable) (runner : Runner)
    (steps : List Timetable.Step) :
    (play timetable runner steps).flatten.map Prod.snd =
      Timetable.actionsAfter runner 0 (timetable.runTimes steps).length := by
  rw [flatten_play, map_snd_timedRuns]

namespace CommandLine

theorem loadStore_of_toOption {files : Files} {path text : String} {store : Store}
    (hread : files path = .ok (.text text)) (hload : (Store.ofText text).toOption = some store) :
    loadStore files path = .ok store := by
  rw [loadStore, hread, Store.ofContent]
  cases hresult : Store.ofText text <;> rw [hresult] at hload <;> cases hload
  rfl

/-- A command printed the report of a survey that ended in some way, or failed with its error. -/
structure Finish.TellsOf (finish : Finish) (format : Format)
    (result : Except SurveyError Report) : Prop where
  succeeds : finish.status = 0 ↔ ∃ report, result = .ok report
  prints : ∀ report, result = .ok report → finish.output = report.render format ++ "\n"
  fails : ∀ stage cause, result = .error ⟨stage, cause⟩ →
    finish.status = 1 ∧ finish.output = "" ∧
      finish.messages.getLast? = some (.text ("Error: " ++
        ("unable to compute " ++ stage.category ++ " telemetry: " ++ cause.message)))

theorem Collect.sentTo_runner (version : String) (store : Store) :
    sentTo 0 ((runner version store).actions 1) =
      [.ofResult (Survey.run { version } ⟨store, none⟩).result] :=
  Runner.sentTo_actions_of_reaches rfl ⟨Nat.one_pos, fun _ hmem => nomatch hmem⟩

theorem Collect.finish_tellsOf {files : Files} {environment : Variables} {options : Options}
    {format : Format} {store : Store} (hformat : CommandLine.format options "text" = .ok format)
    (hload : loadStore files (configuration environment options).storePath = .ok store) :
    (finish files environment options).TellsOf format
      (Survey.run { version := (configuration environment options).version }
        ⟨store, none⟩).result := by
  unfold finish
  simp only [hformat, hload, sentTo_runner, List.head?_cons]
  cases (Survey.run { version := (configuration environment options).version }
      ⟨store, none⟩).result with
  | ok report =>
      refine ⟨⟨fun _ => ⟨report, rfl⟩, fun _ => rfl⟩, ?_, ?_⟩
      · rintro _ ⟨⟩
        rfl
      · rintro _ _ ⟨⟩
  | error error =>
      refine ⟨⟨?_, ?_⟩, ?_, ?_⟩
      · rintro ⟨⟩
      · rintro ⟨_, ⟨⟩⟩
      · rintro _ ⟨⟩
      · rintro stage cause ⟨⟩
        exact ⟨rfl, rfl, List.getLast?_concat⟩

end CommandLine

/-- A run that comes as far as a channel tells it of the survey, once: with its report, or with the
text of its error. A schedule in which nothing panics does exactly what the same number of runs do
that are triggered at once, in whichever order they move. A collection of a store that can be loaded
prints the report of its survey, or fails with its error. -/
theorem delivery_paths_agree (runner : Runner) (tree : FileTree) (environment : Variables)
    (stamp : String) :
    (∀ number place, runner.destinations[place]? = some .channel → runner.Reaches number place →
      TellOf (Survey.run runner.host runner.source).result
        (sentTo place (runner.actions number))) ∧
    (∀ timetable steps,
      .runPanicked ∉ events ((Loop.play timetable runner steps).flatten.map Prod.snd) →
      ∃ count, ((Loop.play timetable runner steps).map Loop.startTimes).flatten.length = count ∧
        (∀ place, runner.destinations[place]? = some .channel →
          sentTo place ((Loop.play timetable runner steps).flatten.map Prod.snd) =
            List.replicate count (.ofResult (Survey.run runner.host runner.source).result)) ∧
        (Overlap.finish runner count).isFinished = true ∧
        ∀ places, (Overlap.play runner (.start count) places).isFinished = true →
          (Loop.play timetable runner steps).flatten.map Prod.snd =
            (Overlap.play runner (.start count) places).history) ∧
    ∀ arguments options format store,
      CommandLine.readArguments arguments = some (.collect, options) →
      CommandLine.format options "text" = .ok format →
      CommandLine.loadStore tree.read
        (CommandLine.configuration environment options).storePath = .ok store →
      ∃ finish, CommandLine.run tree environment stamp arguments = some (finish, tree) ∧
        finish.TellsOf format
          (Survey.run { version := (CommandLine.configuration environment options).version }
            ⟨store, none⟩).result := by
  refine ⟨?_, ?_, ?_⟩
  · intro number place hchannel hreaches
    rw [Runner.sentTo_actions_of_reaches hchannel hreaches]
    exact tellOf_ofResult _
  · intro timetable steps hnone
    rw [Loop.map_snd_flatten_play] at hnone
    have hquiet := Runner.quiet_of_not_mem_events hnone
    have hactions : (Loop.play timetable runner steps).flatten.map Prod.snd =
        runner.actionsOfRuns (timetable.runTimes steps).length :=
      (Loop.map_snd_flatten_play timetable runner steps).trans hquiet.actionsAfter
    refine ⟨(timetable.runTimes steps).length, ?_, ?_, ?_, ?_⟩
    · rw [Loop.startTimes_play]
      rfl
    · intro place hchannel
      rw [hactions]
      exact hquiet.sentTo_actionsOfRuns hchannel
    · exact Overlap.isFinished_finish runner _
    · intro places hfinished
      rw [hactions, Overlap.history_of_isFinished hfinished]
  · intro arguments options format store harguments hformat hload
    refine ⟨CommandLine.Collect.finish tree.read environment options, ?_, ?_⟩
    · simp only [CommandLine.run, harguments]
    · exact CommandLine.Collect.finish_tellsOf hformat hload

def taglessRunner : Runner where
  host := { version := "2.0.0" }
  source := {
    store := { identity := some ⟨"6f1c2a9e"⟩, dockerHub := some {}, settings := some {} }
    unreadable := some .tags }
  destinations := [.printer .json, .channel]

def twoSeconds : Timetable := ⟨2, Nat.two_pos⟩

def fullText : String := "\x7b\"Telemetry\":[\"6f1c\"],\"DockerHub\":[],\"Settings\":[]\x7d"

def fullStore : Store := { identity := some ⟨"6f1c"⟩, dockerHub := some {}, settings := some {} }

def bareText : String := "\x7b\"Telemetry\":[\"6f1c\"],\"DockerHub\":[]\x7d"

def bareStore : Store := { identity := some ⟨"6f1c"⟩, dockerHub := some {} }

def storeTree : FileTree where
  entries := [(["s"], .file (.text fullText)), (["t"], .file (.text bareText))]
  here := []

theorem loadStore_fullText : CommandLine.loadStore storeTree.read "s" = .ok fullStore := by
  have hpath : Path.ofText "s" = .ok ⟨false, ["s"], false⟩ := by cbv
  have hread : storeTree.read "s" = .ok (.text fullText) := by
    rw [FileTree.read, hpath]
    rfl
  exact CommandLine.loadStore_of_toOption hread (by decide +kernel)

theorem loadStore_bareText : CommandLine.loadStore storeTree.read "t" = .ok bareStore := by
  have hpath : Path.ofText "t" = .ok ⟨false, ["t"], false⟩ := by cbv
  have hread : storeTree.read "t" = .ok (.text bareText) := by
    rw [FileTree.read, hpath]
    rfl
  exact CommandLine.loadStore_of_toOption hread (by decide +kernel)

theorem delivery_paths_of_taglessRunner :
    (taglessRunner.destinations[1]? = some .channel ∧ taglessRunner.Reaches 3 1 ∧
      ∃ outcome, sentTo 1 (taglessRunner.actions 3) = [outcome] ∧ outcome.failure? =
        some "unable to compute tag telemetry: IO error: tags bucket unreadable") ∧
    (.runPanicked ∉ events
        ((Loop.play twoSeconds taglessRunner [.sleep 5, .jump 7]).flatten.map Prod.snd) ∧
      (Overlap.finish taglessRunner 4).isFinished = true ∧
      (Loop.play twoSeconds taglessRunner [.sleep 5, .jump 7]).flatten.map Prod.snd =
        (Overlap.finish taglessRunner 4).history) ∧
    (CommandLine.readArguments ["collect", "-s", "s", "--output=json"] =
        some (.collect, { store := some "s", format := some "json" }) ∧
      CommandLine.format { store := some "s", format := some "json" } "text" = .ok .json ∧
      CommandLine.loadStore storeTree.read "s" = .ok fullStore ∧
      ∃ finish report, CommandLine.run storeTree (fun _ => none) ""
          ["collect", "-s", "s", "--output=json"] = some (finish, storeTree) ∧
        (Survey.run { version := "0.1.0" } ⟨fullStore, none⟩).result = .ok report ∧
        finish.status = 0 ∧ finish.output = report.render .json ++ "\n") ∧
    CommandLine.loadStore storeTree.read "t" = .ok bareStore ∧
    ∃ finish, CommandLine.run storeTree (fun _ => none) "" ["collect", "--store=t"] =
        some (finish, storeTree) ∧
      finish.status = 1 ∧ finish.output = "" ∧ finish.messages.getLast? =
        some (.text "Error: unable to compute settings telemetry: settings not found") := by
  obtain ⟨htold, hruns, hcollect⟩ :=
    delivery_paths_agree taglessRunner storeTree (fun _ => none) ""
  refine ⟨?_, ?_, ?_, loadStore_bareText, ?_⟩
  · have hreaches : taglessRunner.Reaches 3 1 := by decide
    obtain ⟨outcome, hsent, -, hfailure⟩ := htold 3 1 rfl hreaches
    exact ⟨rfl, hreaches, outcome, hsent,
      (hfailure _).mpr ⟨.inside .tag, .unreadable .tags, rfl, rfl⟩⟩
  · have hnone : .runPanicked ∉ events
        ((Loop.play twoSeconds taglessRunner [.sleep 5, .jump 7]).flatten.map Prod.snd) := by
      decide +kernel
    obtain ⟨count, hcount, -, hfinished, hhistory⟩ := hruns _ _ hnone
    obtain rfl : 4 = count := hcount ▸ by decide +kernel
    exact ⟨hnone, hfinished, hhistory _ hfinished⟩
  · have harguments : CommandLine.readArguments ["collect", "-s", "s", "--output=json"] =
        some (.collect, { store := some "s", format := some "json" }) := by decide +kernel
    obtain ⟨finish, hrun, htells⟩ := hcollect _ _ .json _ harguments rfl loadStore_fullText
    obtain ⟨report, hreport⟩ : ∃ report,
        (Survey.run { version := "0.1.0" } ⟨fullStore, none⟩).result = .ok report := ⟨_, rfl⟩
    exact ⟨harguments, rfl, loadStore_fullText, finish, report, hrun, hreport,
      htells.succeeds.mpr ⟨report, hreport⟩, htells.prints report hreport⟩
  · have harguments : CommandLine.readArguments ["collect", "--store=t"] =
        some (.collect, { store := some "t" }) := by decide +kernel
    obtain ⟨finish, hrun, htells⟩ := hcollect _ _ .text _ harguments rfl loadStore_bareText
    obtain ⟨hstatus, houtput, hmessage⟩ :=
      htells.fails (.inside .settings) (.missing .settings) rfl
    exact ⟨finish, hrun, hstatus, houtput, hmessage⟩

end UsageReport
