import UsageReport.Proofs.DeliveryPaths
import UsageReport.Proofs.RunLog
import UsageReport.Proofs.SavedFiles

/-!
Outcomes among many destinations. What a destination does with an outcome depends on nothing but the
destination and the outcome, so each gets what it would get alone, whatever stands before it.
-/

namespace UsageReport

def Outcome.report? : Outcome → Option Report
  | .ready report => some report
  | .failed _ => none

namespace Path

theorem isName_reportFileName {stamp : String} (hstamp : '/' ∉ stamp.toList) :
    IsName (reportFileName stamp) := by
  have htext : (reportFileName stamp).toList =
      "telemetry-".toList ++ stamp.toList ++ ".json".toList := by
    rw [reportFileName, String.toList_append, String.toList_append]
  have hlong : 15 ≤ (reportFileName stamp).toList.length := by
    rw [htext, List.length_append, List.length_append]
    simp
  refine ⟨?_, ?_, ?_⟩
  · intro hempty
    rw [hempty] at hlong
    simp at hlong
  · rw [htext]
    simp [hstamp]
  · unfold isMove
    have hne (short : String) (hshort : short.toList.length < 15) :
        reportFileName stamp ≠ short := by
      rintro rfl
      omega
    simp [hne "." (by decide), hne ".." (by decide)]

theorem reportFileName_injective : Function.Injective reportFileName := by
  intro first second heq
  have hchars := congrArg String.toList heq
  simp only [reportFileName, String.toList_append, List.append_assoc, List.append_cancel_left_eq,
    List.append_cancel_right_eq] at hchars
  exact String.toList_inj.mp hchars

end Path

/-- The file that a report is saved in at some time. -/
def reportFile (stamp : String) (report : Report) : String × Content :=
  (reportFileName stamp, .text (report.render .json))

theorem savedReports_append (first second : List Action) :
    savedReports (first ++ second) = savedReports first ++ savedReports second :=
  List.filterMap_append

theorem savedReports_of_observes {actions : List Action}
    (hactions : ∀ action ∈ actions, action.observes = true) : savedReports actions = [] :=
  filterMap_of_observes (fun _ => rfl) (fun _ => rfl) hactions

namespace Destination

/-- Outcomes are forwarded there, or their reports written to files. -/
def isSink : Destination → Bool
  | .channel | .abandoned | .directory _ => true
  | .printer _ | .faulty _ => false

/-- Nobody listens there any more, or nothing can be written there. -/
def isIdle : Destination → Bool
  | .abandoned | .directory (some _) => true
  | .channel | .directory none | .printer _ | .faulty _ => false

/-- What is logged about an outcome that was handed over. -/
def event? (outcome : Outcome) : Destination → Option Event
  | .abandoned => some .receiverDropped
  | .directory obstacle =>
    outcome.report?.map fun _ => obstacle.elim .reportWritten .reportNotWritten
  | .channel | .printer _ | .faulty _ => none

theorem panics_of_isSink {destination : Destination} (hsink : destination.isSink = true)
    (number : Nat) : destination.panics number = false := by
  cases destination <;> first | rfl | cases hsink

variable (number place : Nat) (outcome : Outcome)

/-- Where nothing panics, each destination adds its own to what is done. -/
theorem filterMap_deliverAll {α : Type} {see : Action → Option α}
    {seen : Destination → List α} {destinations : List Destination}
    (hhand : ∀ place, see (.hand place outcome) = none)
    (hseen : ∀ place destination,
      (destination.deliver number place outcome).actions.filterMap see = seen destination)
    (hquiet : ∀ destination ∈ destinations, destination.panics number = false) :
    (deliverAll number place outcome destinations).actions.filterMap see =
      destinations.flatMap seen := by
  induction destinations generalizing place with
  | nil => rfl
  | cons destination destinations ih =>
      obtain ⟨hfirst, hrest⟩ := List.forall_mem_cons.mp hquiet
      rw [actions_deliverAll_cons, hfirst, List.filterMap_append, List.filterMap_append, hseen,
        List.filterMap_cons_none (hhand place), List.flatMap_cons]
      exact congrArg _ (ih (place + 1) hrest)

theorem savedReports_deliver (destination : Destination) :
    savedReports (destination.deliver number place outcome).actions =
      if destination = .directory none then outcome.report?.toList else [] := by
  cases destination with
  | directory obstacle =>
      cases obstacle <;> cases outcome <;> simp [deliver, savedReports, Outcome.report?]
  | printer format => cases outcome <;> simp [deliver, savedReports]
  | _ => simp [deliver, savedReports]

theorem events_deliver (destination : Destination) :
    events (destination.deliver number place outcome).actions =
      (destination.event? outcome).toList := by
  cases destination with
  | directory obstacle => cases obstacle <;> cases outcome <;> rfl
  | printer format => cases outcome <;> rfl
  | _ => rfl

end Destination

theorem flatMap_ite_eq {α β : Type} [DecidableEq α] (items : List α) (item : α)
    (values : List β) :
    (items.flatMap fun other => if other = item then values else []) =
      (List.replicate (items.count item) values).flatten := by
  induction items with
  | nil => rfl
  | cons first items ih =>
      rw [List.flatMap_cons, ih, List.count_cons]
      by_cases heq : first = item <;> simp [heq, List.replicate_succ]

/-- Each place in a list that holds an item counts once. -/
theorem length_places {α : Type} [DecidableEq α] (items : List α) (item : α) :
    ((List.range items.length).filter fun place => items[place]? = some item).length =
      items.count item := by
  induction items with
  | nil => rfl
  | cons first items ih =>
      rw [List.length_cons, List.range_succ_eq_map, List.filter_cons, List.filter_map,
        List.count_cons, ← ih]
      by_cases heq : first = item <;> simp [heq, Function.comp_def]

namespace Runner

variable {runner : Runner}

def OnlySinks (runner : Runner) : Prop :=
  ∀ destination ∈ runner.destinations, destination.isSink = true

/-- The same runs with a channel as their only destination. -/
def withLoneChannel (runner : Runner) : Runner := { runner with destinations := [.channel] }

/-- What the channels receive from some runs, in the order of the channels. -/
def received (runner : Runner) (count : Nat) : List (List Outcome) :=
  ((List.range runner.destinations.length).filter fun place =>
    runner.destinations[place]? = some .channel).map fun place =>
      sentTo place (runner.actionsOfRuns count)

theorem OnlySinks.panics (hsinks : runner.OnlySinks)
    (number : Nat) : ∀ destination ∈ runner.destinations, destination.panics number = false :=
  fun destination hmem => Destination.panics_of_isSink (hsinks destination hmem) number

theorem OnlySinks.reaches (hsinks : runner.OnlySinks)
    {place : Nat} (hplace : place < runner.destinations.length) (number : Nat) :
    runner.Reaches number place :=
  ⟨hplace, fun destination hmem =>
    hsinks.panics number destination (List.mem_of_mem_take hmem)⟩

theorem OnlySinks.quiet (hsinks : runner.OnlySinks)
    (count : Nat) : runner.Quiet count := by
  intro number _
  rw [delivery, Destination.panicked_deliverAll, List.any_eq_false]
  intro destination hmem
  exact Bool.eq_false_iff.mp (hsinks.panics (number + 1) destination hmem)

theorem onlySinks_withLoneChannel (runner : Runner) : runner.withLoneChannel.OnlySinks := by
  intro destination hmem
  rw [List.mem_singleton.mp hmem]
  rfl

theorem sentTo_withLoneChannel (runner : Runner) (count : Nat) :
    sentTo 0 (runner.withLoneChannel.actionsOfRuns count) =
      List.replicate count runner.outcome :=
  (runner.onlySinks_withLoneChannel.quiet count).sentTo_actionsOfRuns rfl

theorem savedReports_actions (hsinks : runner.OnlySinks)
    (number : Nat) :
    savedReports (runner.actions number) =
      (List.replicate (runner.destinations.count (.directory none))
        runner.outcome.report?.toList).flatten := by
  have hlog (event : Event) : savedReports [.log event] = [] := rfl
  have hdelivery : savedReports (runner.delivery number).actions = _ :=
    Destination.filterMap_deliverAll number 0 runner.outcome (fun _ => rfl)
      (fun place destination => Destination.savedReports_deliver number place _ destination)
      (hsinks.panics number)
  rw [actions_eq, savedReports_append, savedReports_append, savedReports_append, hlog, hlog,
    savedReports_of_observes (Survey.observes_run runner.host runner.source), hdelivery,
    flatMap_ite_eq]
  rfl

theorem savedReports_actionsOfRuns
    (hsinks : runner.OnlySinks) (count : Nat) :
    savedReports (runner.actionsOfRuns count) =
      (List.replicate count (List.replicate (runner.destinations.count (.directory none))
        runner.outcome.report?.toList).flatten).flatten := by
  induction count with
  | zero => rfl
  | succ count ih =>
      rw [actionsOfRuns_succ, savedReports_append, ih, savedReports_actions hsinks,
        List.replicate_succ', List.flatten_concat]

theorem events_delivery (hsinks : runner.OnlySinks)
    (number : Nat) :
    events (runner.delivery number).actions =
      runner.destinations.filterMap (Destination.event? runner.outcome) := by
  have hdelivery : events (runner.delivery number).actions = _ :=
    Destination.filterMap_deliverAll number 0 runner.outcome (fun _ => rfl)
      (fun place destination => Destination.events_deliver number place _ destination)
      (hsinks.panics number)
  rw [hdelivery, List.filterMap_eq_flatMap_toList]

theorem received_eq (hsinks : runner.OnlySinks)
    (count : Nat) :
    runner.received count =
      List.replicate (runner.destinations.count .channel)
        (List.replicate count runner.outcome) := by
  rw [received, List.eq_replicate_iff]
  constructor
  · rw [List.length_map, length_places]
  · intro sequence hsequence
    obtain ⟨place, hplace, rfl⟩ := List.mem_map.mp hsequence
    have hchannel := of_decide_eq_true (List.mem_filter.mp hplace).2
    exact (hsinks.quiet count).sentTo_actionsOfRuns hchannel

/-- Saves the reports of some runs in a directory, each at its time. -/
def saveReports (runner : Runner) (count : Nat) (directory : String) (stamps : List String) :
    StateM FileTree (List (Option FileError)) :=
  FileTree.saveAll directory
    (List.zipWith reportFile stamps (savedReports (runner.actionsOfRuns count)))

theorem savedReports_of_mem (hsinks : runner.OnlySinks)
    (hone : runner.destinations.count (.directory none) ≤ 1) (count : Nat) :
    savedReports (runner.actionsOfRuns count) =
      if .directory none ∈ runner.destinations then
        (List.replicate count runner.outcome).filterMap Outcome.report?
      else [] := by
  rw [savedReports_actionsOfRuns hsinks]
  split
  · rename_i hmem
    have hcount : runner.destinations.count (.directory none) = 1 :=
      Nat.le_antisymm hone (List.count_pos_iff.mpr hmem)
    rw [hcount, List.replicate_one, List.flatten_singleton, List.filterMap_eq_flatMap_toList,
      List.flatMap_def, List.map_replicate]
  · rename_i hnone
    rw [List.count_eq_zero.mpr hnone]
    simp

theorem zipWith_reportFile_replicate (stamps : List String) (report : Report) :
    List.zipWith reportFile stamps (List.replicate stamps.length report) =
      stamps.map (reportFile · report) := by
  induction stamps with
  | nil => rfl
  | cons stamp stamps ih =>
      rw [List.length_cons, List.replicate_succ, List.zipWith_cons_cons, List.map_cons, ih]

theorem filesIn_of_saveReports {report : Report} {count : Nat} {directory : String}
    {stamps : List String} {tree : FileTree}
    (hreports : savedReports (runner.actionsOfRuns count) = List.replicate count report)
    (hlength : stamps.length = count) (hnodup : stamps.Nodup)
    (hstamps : ∀ stamp ∈ stamps, '/' ∉ stamp.toList)
    (hadmits : ∀ stamp ∈ stamps, tree.Admits directory (reportFile stamp report)) :
    ∃ later,
      (runner.saveReports count directory stamps).run tree = (List.replicate count none, later) ∧
      (0 < count → ∃ path, Path.ofText directory = .ok path ∧ (later.directory? path).isSome) ∧
      ∀ path names, Path.ofText directory = .ok path → later.directory? path = some names →
        later.filesIn path =
          ((tree.filesAt names).filter fun file => file.1 ∉ stamps.map reportFileName) ++
            stamps.map (reportFile · report) := by
  have hmap : (stamps.map (reportFile · report)).map Prod.fst = stamps.map reportFileName := by
    rw [List.map_map]
    rfl
  have hnames : ∀ file ∈ stamps.map (reportFile · report), Path.IsName file.1 :=
    List.forall_mem_map.mpr fun stamp hstamp => Path.isName_reportFileName (hstamps stamp hstamp)
  have hdistinct : ((stamps.map (reportFile · report)).map Prod.fst).Nodup := by
    rw [hmap]
    exact hnodup.map Path.reportFileName_injective
  obtain ⟨later, hrun, -, hdirectory, hfiles⟩ :=
    FileTree.saveAll_spec hnames hdistinct (List.forall_mem_map.mpr hadmits)
  refine ⟨later, ?_, ?_, ?_⟩
  · rw [saveReports, hreports, ← hlength, zipWith_reportFile_replicate, hrun, List.length_map]
  · intro hpos
    have hnonempty : stamps.map (reportFile · report) ≠ [] := by
      rw [Ne, List.map_eq_nil_iff, ← List.length_eq_zero_iff]
      omega
    obtain ⟨path, names, hpath, hnames⟩ := hdirectory hnonempty
    exact ⟨path, hpath, Option.isSome_iff_exists.mpr ⟨names, hnames⟩⟩
  · intro path names hpath hnames
    rw [FileTree.filesIn_eq_filesAt hnames, hfiles path names hpath hnames, hmap]

theorem OnlySinks.of_filter_eq {others : List Destination} (hsinks : runner.OnlySinks)
    (hothers : (others.filter fun destination => !destination.isIdle) =
      runner.destinations.filter fun destination => !destination.isIdle) :
    { runner with destinations := others }.OnlySinks := by
  intro destination (hmem : destination ∈ others)
  cases hidle : destination.isIdle with
  | true => cases destination <;> first | rfl | cases hidle
  | false =>
      have hkept : destination ∈ others.filter fun destination => !destination.isIdle :=
        List.mem_filter.mpr ⟨hmem, by simp [hidle]⟩
      rw [hothers] at hkept
      exact hsinks destination (List.mem_filter.mp hkept).1

theorem count_of_filter_eq {others destinations : List Destination} {destination : Destination}
    (hbusy : destination.isIdle = false)
    (hothers : (others.filter fun destination => !destination.isIdle) =
      destinations.filter fun destination => !destination.isIdle) :
    others.count destination = destinations.count destination := by
  have hcount (items : List Destination) := List.count_filter (p := fun d => !d.isIdle) (l := items)
    (a := destination) (by simp [hbusy])
  rw [← hcount, hothers, hcount]

/-- Among channels, channels that nobody listens to, directories that cannot be written to and at
most one that can, every channel receives the outcome of each run, as if it were alone. The
directory holds a file for each report that the channels received, and nothing from a run that
failed. The destinations where nothing arrives make no difference, except that the log tells of
each, in order, after the event that tells how a run ended. The entries about a directory stand
without its place. -/
theorem outcomes_of_fanout (runner : Runner) (count : Nat)
    (hsinks : runner.OnlySinks)
    (hone : runner.destinations.count (.directory none) ≤ 1) :
    (∀ place, runner.destinations[place]? = some .channel →
      (∀ number, sentTo place (runner.actions number) = [runner.outcome]) ∧
      sentTo place (runner.actionsOfRuns count) =
        sentTo 0 (runner.withLoneChannel.actionsOfRuns count) ∧
      (sentTo place (runner.actionsOfRuns count)).length = count) ∧
    (savedReports (runner.actionsOfRuns count) =
      if .directory none ∈ runner.destinations then
        (sentTo 0 (runner.withLoneChannel.actionsOfRuns count)).filterMap Outcome.report?
      else []) ∧
    (∀ report directory stamps tree, .directory none ∈ runner.destinations →
      runner.outcome = .ready report → stamps.length = count → stamps.Nodup →
      (∀ stamp ∈ stamps, '/' ∉ stamp.toList) →
      (∀ stamp ∈ stamps, tree.Admits directory (reportFile stamp report)) →
      ∃ later,
        (runner.saveReports count directory stamps).run tree =
          (List.replicate count none, later) ∧
        (0 < count → ∃ path, Path.ofText directory = .ok path ∧ (later.directory? path).isSome) ∧
        ∀ path names, Path.ofText directory = .ok path → later.directory? path = some names →
          later.filesIn path =
            ((tree.filesAt names).filter fun file => file.1 ∉ stamps.map reportFileName) ++
              stamps.map (reportFile · report)) ∧
    (∀ error directory stamps tree, runner.outcome = .failed error →
      (runner.saveReports count directory stamps).run tree = ([], tree)) ∧
    (∀ others, (others.filter fun destination => !destination.isIdle) =
        (runner.destinations.filter fun destination => !destination.isIdle) →
      { runner with destinations := others }.received count = runner.received count ∧
      savedReports ({ runner with destinations := others }.actionsOfRuns count) =
        savedReports (runner.actionsOfRuns count) ∧
      ∀ bucket, readCount ({ runner with destinations := others }.actionsOfRuns count) bucket =
        readCount (runner.actionsOfRuns count) bucket) ∧
    (∀ number, events (runner.actions number) =
      [.runStarted] ++ runner.source.sectionEvents runner.outcome.computedSections ++
        [finalEvent runner.outcome] ++
        runner.destinations.filterMap (Destination.event? runner.outcome)) ∧
    (∀ report, (finalEvent (.ready report)).level = .info) ∧
    (∀ error, (finalEvent (.failed error)).level = .error) ∧
    Event.receiverDropped.entry = (.debug, "telemetry outcome receiver dropped", []) ∧
    Event.reportWritten.entry = (.info, "telemetry report written", []) ∧
    ∀ error, (Event.reportNotWritten error).entry =
      (.warn, "unable to write telemetry report", [("error", error.message)]) := by
  have hsaved := savedReports_of_mem hsinks hone count
  refine ⟨?_, ?_, ?_, ?_, ?_, ?_, fun _ => rfl, fun _ => rfl, rfl, rfl, fun _ => rfl⟩
  · intro place hchannel
    have hsent := (hsinks.quiet count).sentTo_actionsOfRuns hchannel
    obtain ⟨hplace, -⟩ := List.getElem?_eq_some_iff.mp hchannel
    refine ⟨fun number => ?_, ?_, ?_⟩
    · exact sentTo_actions_of_reaches hchannel (hsinks.reaches hplace number)
    · rw [hsent, sentTo_withLoneChannel]
    · rw [hsent, List.length_replicate]
  · rw [hsaved, sentTo_withLoneChannel]
  · intro report directory stamps tree hmem hready hlength hnodup hstamps hadmits
    refine filesIn_of_saveReports ?_ hlength hnodup hstamps hadmits
    rw [hsaved, if_pos hmem, hready]
    exact (List.filterMap_replicate_of_some rfl)
  · intro error directory stamps tree hfailed
    have hnone : savedReports (runner.actionsOfRuns count) = [] := by
      rw [hsaved, hfailed]
      split
      · exact List.filterMap_replicate_of_none rfl
      · rfl
    rw [saveReports, hnone, List.zipWith_nil_right]
    rfl
  · intro others hothers
    have hothersSinks := hsinks.of_filter_eq hothers
    refine ⟨?_, ?_, fun bucket => ?_⟩
    · rw [received_eq hsinks, received_eq hothersSinks, count_of_filter_eq rfl hothers]
      rfl
    · rw [savedReports_actionsOfRuns hsinks, savedReports_actionsOfRuns hothersSinks,
        count_of_filter_eq rfl hothers]
      rfl
    · rw [readCount_actionsOfRuns, readCount_actionsOfRuns, readCount_eq, readCount_eq,
        bucketsRead_actions, bucketsRead_actions]
  · intro number
    rw [events_actions, events_delivery hsinks]

def crowdedRunner : Runner where
  host := { version := "2.0.0" }
  source := {
    store := { identity := some ⟨"6f1c2a9e"⟩, dockerHub := some {}, settings := some {} } }
  destinations :=
    [.abandoned, .channel, .directory (some .throughFile), .directory none, .channel]

/-- The same with the tags unreadable. -/
def failingRunner : Runner :=
  { crowdedRunner with source := { crowdedRunner.source with unreadable := some .tags } }

/-- The only directory besides the root is the one where paths start. -/
def bareTree : FileTree := ⟨[(["w"], .directory)], ["w"]⟩

/-- The destinations of both without the idle ones. -/
def busyDestinations : List Destination := [.channel, .directory none, .channel]

theorem outcomes_of_crowdedRunner :
    crowdedRunner.OnlySinks ∧
    crowdedRunner.destinations.count (.directory none) ≤ 1 ∧
    crowdedRunner.destinations[4]? = some .channel ∧
    sentTo 4 (crowdedRunner.actionsOfRuns 2) =
      sentTo 0 (crowdedRunner.withLoneChannel.actionsOfRuns 2) ∧
    (∃ report later path, crowdedRunner.outcome = .ready report ∧
      (crowdedRunner.saveReports 2 "reports/new" ["a", "b"]).run bareTree =
        (List.replicate 2 none, later) ∧
      Path.ofText "reports/new" = .ok path ∧
      later.filesIn path = [
        ("telemetry-a.json", .text (report.render .json)),
        ("telemetry-b.json", .text (report.render .json))]) ∧
    (busyDestinations.filter fun destination => !destination.isIdle) =
      (crowdedRunner.destinations.filter fun destination => !destination.isIdle) ∧
    { crowdedRunner with destinations := busyDestinations }.received 2 =
      crowdedRunner.received 2 ∧
    failingRunner.outcome = .failed ⟨.inside .tag, .unreadable .tags⟩ ∧
    (failingRunner.saveReports 2 "reports/new" ["a", "b"]).run bareTree = ([], bareTree) ∧
    events (failingRunner.actions 2) =
      [.runStarted] ++ failingRunner.source.sectionEvents failingRunner.outcome.computedSections ++
        [.runAborted ⟨.inside .tag, .unreadable .tags⟩] ++ [.receiverDropped] := by
  have hsinks : crowdedRunner.OnlySinks := by
    unfold OnlySinks
    decide
  have hone : crowdedRunner.destinations.count (.directory none) ≤ 1 := by decide
  obtain ⟨hsent, -, hfiles, -, hidle, -⟩ := outcomes_of_fanout crowdedRunner 2 hsinks hone
  obtain ⟨-, -, -, hnothing, -, hlog, -⟩ := outcomes_of_fanout failingRunner 2 hsinks hone
  have hbusy : (busyDestinations.filter fun destination => !destination.isIdle) =
      crowdedRunner.destinations.filter fun destination => !destination.isIdle := by decide
  obtain ⟨report, hready, hadmits⟩ : ∃ report, crowdedRunner.outcome = .ready report ∧
      ∀ stamp ∈ ["a", "b"], bareTree.Admits "reports/new" (reportFile stamp report) := by
    refine ⟨crowdedRunner.outcome.report?.getD {}, rfl, ?_⟩
    unfold FileTree.Admits
    decide +kernel
  have hnofile (names : List String) : bareTree.filesAt names = [] := rfl
  obtain ⟨later, hrun, hdirectory, hfound⟩ :=
    hfiles report "reports/new" ["a", "b"] bareTree (by decide) hready rfl
      (by decide) (by decide) hadmits
  obtain ⟨path, hpath, hsome⟩ := hdirectory (by decide)
  obtain ⟨names, hnames⟩ := Option.isSome_iff_exists.mp hsome
  have hfound := hfound path names hpath hnames
  rw [hnofile, List.filter_nil, List.nil_append] at hfound
  exact ⟨hsinks, hone, rfl, (hsent 4 rfl).2.1,
    ⟨report, later, path, hready, hrun, hpath, hfound⟩, hbusy, (hidle _ hbusy).1, rfl,
    hnothing _ _ _ _ rfl, hlog 2⟩

end Runner

end UsageReport
