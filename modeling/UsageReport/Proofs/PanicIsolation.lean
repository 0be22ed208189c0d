import UsageReport.Proofs.LoopSimulation

/-!
Destinations that panic. Behind a channel, one that panics changes nothing but the log, which has a
warning after each run that panicked: what a run does is the same up to there, and the loop goes on
with the lock free.
-/

namespace UsageReport

namespace Timetable

/-- The numbers of the runs of each step, given how many runs each step causes. -/
def numbersOf : Nat → List Nat → List (List Nat)
  | _, [] => []
  | earlier, count :: counts =>
    List.range' (earlier + 1) count :: numbersOf (earlier + count) counts

/-- The number of the run at time zero, and then those of the runs of each step. -/
def runNumbers (timetable : Timetable) (steps : List Step) : List (List Nat) :=
  numbersOf 0 (([0] :: timetable.times {} steps).map List.length)

theorem map_length_numbersOf (earlier : Nat) (counts : List Nat) :
    (numbersOf earlier counts).map List.length = counts := by
  induction counts generalizing earlier with
  | nil => rfl
  | cons count counts ih => rw [numbersOf, List.map_cons, ih, List.length_range']

theorem flatten_numbersOf (earlier : Nat) (turns : List (List Nat)) :
    (numbersOf earlier (turns.map List.length)).flatten =
      List.range' (earlier + 1) turns.flatten.length := by
  induction turns generalizing earlier with
  | nil => rfl
  | cons times turns ih =>
      rw [List.map_cons, numbersOf, List.flatten_cons, ih, List.flatten_cons, List.length_append,
        ← List.range'_append_1, Nat.add_right_comm]

theorem actionsAfter_eq (runner : Runner) (earlier count : Nat) :
    actionsAfter runner earlier count =
      (List.range' (earlier + 1) count).flatMap (runActions runner) := by
  rw [actionsAfter, List.range'_eq_map_range, List.flatMap_map]
  congr 1
  funext place
  rw [Nat.add_right_comm]

theorem play_eq (timetable : Timetable) (runner : Runner) (steps : List Step) :
    timetable.play runner steps =
      (timetable.runNumbers steps).map fun numbers => numbers.flatMap (runActions runner) := by
  have hcounts (earlier : Nat) (counts : List Nat) : actionsOfSteps runner earlier counts =
      (numbersOf earlier counts).map fun numbers => numbers.flatMap (runActions runner) := by
    induction counts generalizing earlier with
    | nil => rfl
    | cons count counts ih =>
        rw [actionsOfSteps, numbersOf, List.map_cons, actionsAfter_eq, ih]
  exact hcounts 0 _

theorem map_filterMap_play {α : Type} (see : Action → Option α) (timetable : Timetable)
    (runner : Runner) (steps : List Step) :
    (timetable.play runner steps).map (List.filterMap see) =
      (timetable.runNumbers steps).map fun numbers =>
        numbers.flatMap fun number => (runActions runner number).filterMap see := by
  rw [play_eq, List.map_map]
  refine List.map_congr_left fun numbers _ => ?_
  rw [Function.comp_apply, List.filterMap_flatMap]

end Timetable

namespace Runner

/-- Outcomes go to a channel, and then to a destination that panics on some of them. -/
def withFaults (host : Survey.Host) (source : Source) (faults : List Nat) : Runner where
  host := host
  source := source
  destinations := [.channel, .faulty faults]

variable (host : Survey.Host) (source : Source) (faults : List Nat) (number : Nat)

theorem delivery_withFaults :
    (withFaults host source faults).delivery number =
      ⟨[.hand 0 (withFaults host source []).outcome, .send 0 (withFaults host source []).outcome,
        .hand 1 (withFaults host source []).outcome], faults.contains number⟩ := by
  by_cases hpanics : number ∈ faults <;>
    simp [delivery, outcome, withFaults, Destination.deliverAll, Destination.deliver, hpanics]

/-- The panic comes last, so it changes nothing that a run does. -/
theorem actions_withFaults :
    (withFaults host source faults).actions number =
      (withFaults host source []).actions number := by
  rw [actions, actions, delivery_withFaults, delivery_withFaults]
  rfl

theorem actionsOfRuns_withFaults (count : Nat) :
    (withFaults host source faults).actionsOfRuns count =
      (withFaults host source []).actionsOfRuns count := by
  unfold actionsOfRuns
  simp only [actions_withFaults host source faults]

theorem runActions_withFaults :
    Timetable.runActions (withFaults host source faults) number =
      (withFaults host source []).actions number ++
        if number ∈ faults then [.log .runPanicked] else [] := by
  rw [Timetable.runActions, actions_withFaults, delivery_withFaults]
  simp only [List.contains_iff_mem]

theorem reaches_withFaults : (withFaults host source faults).Reaches number 1 := by
  refine ⟨Nat.lt_succ_self 1, fun destination hmem => ?_⟩
  rw [List.mem_singleton.mp hmem]
  rfl

end Runner

namespace Timetable

/-- Whoever does not see the warning sees nothing of the panics. -/
theorem map_filterMap_play_withFaults {α : Type} {see : Action → Option α}
    (hwarning : see (.log .runPanicked) = none) (timetable : Timetable) (host : Survey.Host)
    (source : Source) (faults : List Nat) (steps : List Step) :
    (timetable.play (.withFaults host source faults) steps).map (List.filterMap see) =
      (timetable.play (.withFaults host source []) steps).map (List.filterMap see) := by
  have hrun (faults : List Nat) (number : Nat) :
      (runActions (.withFaults host source faults) number).filterMap see =
        ((Runner.withFaults host source []).actions number).filterMap see := by
    rw [Runner.runActions_withFaults, List.filterMap_append]
    split <;> simp [hwarning]
  simp only [map_filterMap_play, hrun]

end Timetable

namespace Loop

/-- If a destination behind a channel panics on the outcomes of some runs, then each step starts the
same runs at the same times, with the same outcomes put into the channel and the same reads, as if
it never did. The log has one warning more after each of these runs. The loop comes to the same
state, with the lock free, and only a stop ends it. -/
theorem panics_only_add_warnings (timetable : Timetable) (host : Survey.Host) (source : Source)
    (faults : List Nat) (steps : List Timetable.Step) :
    (∀ runner, ((play timetable runner steps).map fun turn => turn.map Prod.snd) =
      timetable.play runner steps) ∧
    (∀ number, handedTo 1 ((Runner.withFaults host source faults).actions number) =
      [.ofResult (Survey.run host source).result]) ∧
    (play timetable (.withFaults host source faults) steps).map startTimes =
      (play timetable (.withFaults host source []) steps).map startTimes ∧
    (timetable.play (.withFaults host source faults) steps).map (sentTo 0) =
      (timetable.play (.withFaults host source []) steps).map (sentTo 0) ∧
    (∀ bucket, ((timetable.play (.withFaults host source faults) steps).map fun actions =>
        readCount actions bucket) =
      (timetable.play (.withFaults host source []) steps).map fun actions =>
        readCount actions bucket) ∧
    (timetable.runNumbers steps).map List.length =
      ((play timetable (.withFaults host source []) steps).map startTimes).map List.length ∧
    (timetable.runNumbers steps).flatten = List.range' 1 (timetable.runTimes steps).length ∧
    (timetable.play (.withFaults host source []) steps).map events =
      ((timetable.runNumbers steps).map fun numbers => numbers.flatMap fun number =>
        events ((Runner.withFaults host source []).actions number)) ∧
    (timetable.play (.withFaults host source faults) steps).map events =
      ((timetable.runNumbers steps).map fun numbers => numbers.flatMap fun number =>
        events ((Runner.withFaults host source []).actions number) ++
          if number ∈ faults then [.runPanicked] else []) ∧
    (∀ number, .runPanicked ∉ events ((Runner.withFaults host source []).actions number)) ∧
    Event.runPanicked.level = .warn ∧ Event.runPanicked.message = "telemetry run task failed" ∧
    { after timetable (.withFaults host source faults) steps with done := [] } =
      { after timetable (.withFaults host source []) steps with done := [] } ∧
    (after timetable (.withFaults host source faults) steps).awaited = none ∧
    (after timetable (.withFaults host source faults) steps).overlap.holder = none ∧
    ((after timetable (.withFaults host source faults) steps).stopped = true ↔ .stop ∈ steps) := by
  have hawaits (faults : List Nat) :=
    awaitsTick_after timetable (.withFaults host source faults) steps
  refine ⟨fun runner => map_snd_play timetable runner steps, ?_, ?_, ?_, ?_, ?_, ?_, ?_, ?_, ?_,
    rfl, rfl, ?_, (hawaits faults).awaited, (hawaits faults).free.holder, ?_⟩
  · intro number
    rw [Runner.handedTo_actions, if_pos (Runner.reaches_withFaults host source faults number)]
    rfl
  · rw [startTimes_play, startTimes_play]
  · exact Timetable.map_filterMap_play_withFaults rfl timetable host source faults steps
  · intro bucket
    have hreads : (timetable.play (.withFaults host source faults) steps).map bucketsRead =
        (timetable.play (.withFaults host source []) steps).map bucketsRead :=
      Timetable.map_filterMap_play_withFaults rfl timetable host source faults steps
    have hcounts := congrArg (List.map (List.count bucket)) hreads
    rwa [List.map_map, List.map_map] at hcounts
  · rw [startTimes_play, Timetable.runNumbers, Timetable.map_length_numbersOf]
  · rw [Timetable.runNumbers, Timetable.flatten_numbersOf]
    rfl
  · have hrun (number : Nat) : Timetable.runActions (.withFaults host source []) number =
        (Runner.withFaults host source []).actions number := by
      rw [Runner.runActions_withFaults, if_neg List.not_mem_nil, List.append_nil]
    refine (Timetable.map_filterMap_play Action.event? timetable _ steps).trans ?_
    simp only [hrun]
    rfl
  · have hrun (number : Nat) :
        (Timetable.runActions (.withFaults host source faults) number).filterMap Action.event? =
          events ((Runner.withFaults host source []).actions number) ++
            if number ∈ faults then [.runPanicked] else [] := by
      rw [Runner.runActions_withFaults, List.filterMap_append]
      split <;> rfl
    refine (Timetable.map_filterMap_play Action.event? timetable _ steps).trans ?_
    simp only [hrun]
  · intro number
    obtain ⟨later, hevents, -, hpanic⟩ :=
      (Runner.withFaults host source []).exists_events_actions number
    rw [hevents, List.mem_cons, not_or]
    exact ⟨by simp, hpanic⟩
  · rw [(hawaits faults).eq, (hawaits []).eq, Runner.actionsOfRuns_withFaults]
  · rw [(hawaits faults).stopped, Timetable.stopped_clockAfter_iff]
    simp

end Loop

end UsageReport
