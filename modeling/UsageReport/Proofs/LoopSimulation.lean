import UsageReport.Proofs.RunLog
import UsageReport.Proofs.Serialization
import UsageReport.Proofs.Ticks
import UsageReport.Run.Loop

/-!
The loop behind a timetable does what the timetable says. Whenever it waits for a tick, its clock is
that of the timetable, the tick is due a period after the last run, and nobody holds the lock; from
there every step leads back to such a place, with the runs of that step made at their times.
-/

namespace UsageReport

namespace Overlap

variable {runner : Runner} {count done : Nat} {overlap : Overlap}

theorem Free.trigger (hfree : Free runner count done overlap) :
    Free runner (count + 1) done overlap.trigger where
  length := by rw [Overlap.trigger, List.length_append, hfree.length]; rfl
  holder := hfree.holder
  outside := by
    rintro place ⟨remaining, hinside⟩
    rw [Overlap.trigger, List.getElem?_append] at hinside
    split at hinside
    · exact hfree.outside place ⟨remaining, hinside⟩
    · have hmem := List.mem_of_getElem? hinside
      simp at hmem
  entered := hfree.entered
  finished := by rw [Overlap.trigger, List.count_append, hfree.finished]; rfl
  history := hfree.history

theorem getElem?_trigger (overlap : Overlap) :
    overlap.trigger.runs[overlap.runs.length]? = some .waiting := by
  simp [Overlap.trigger]

theorem Taken.getElem?_move_release {place : Nat} {performed : List Action}
    (htaken : Taken runner count done place performed [] overlap) :
    (move runner overlap place).runs[place]? = some .finished := by
  obtain ⟨hlt, -⟩ := List.getElem?_eq_some_iff.mp htaken.inside
  simp only [move, htaken.inside, List.getElem?_set_self hlt]

end Overlap

/-- Whether a tick is taken on time or late, the next is due a period after it is taken. -/
theorem Timetable.nextDue_eq (timetable : Timetable) (due taken : Nat) :
    timetable.nextDue due taken = taken + timetable.period := by
  unfold nextDue
  split
  · rename_i hontime
    rw [hontime]
  · rfl

namespace Loop

open Timetable (runActions)

variable (timetable : Timetable) (runner : Runner) {loop : Loop}

theorem moves_add (first second : Nat) :
    moves timetable runner (first + second) loop =
      moves timetable runner second (moves timetable runner first loop) := by
  induction first generalizing loop with
  | zero => rw [Nat.zero_add]; rfl
  | succ first ih =>
      rw [Nat.add_right_comm]
      exact ih

theorem move_tick (hawaited : loop.awaited = none) (hdue : loop.due ≤ loop.now) :
    move timetable runner loop = { loop with
      due := timetable.nextDue loop.due loop.now
      overlap := loop.overlap.trigger
      awaited := some loop.overlap.runs.length } := by
  simp only [move, hawaited, Nat.not_lt.mpr hdue, if_false]

theorem moves_early (hawaited : loop.awaited = none) (hearly : loop.now < loop.due) (count : Nat) :
    moves timetable runner count loop = loop := by
  induction count with
  | zero => rfl
  | succ count ih => rw [moves, move, hawaited, if_pos hearly, ih]

/-- While the run that the loop waits for has not finished, the loop lets it move. -/
theorem move_run {place : Nat} (new : List Action) (hawaited : loop.awaited = some place)
    (hrunning : loop.overlap.runs[place]? ≠ some .finished)
    (hhistory : (Overlap.move runner loop.overlap place).history = loop.overlap.history ++ new) :
    move timetable runner loop = { loop with
      overlap := Overlap.move runner loop.overlap place
      done := loop.done ++ timed loop.now new } := by
  simp only [move, hawaited, hrunning, if_false, hhistory, List.drop_left]

theorem move_end {place : Nat} (hawaited : loop.awaited = some place)
    (hfinished : loop.overlap.runs[place]? = some .finished) :
    move timetable runner loop = { loop with
      awaited := none
      done := loop.done ++ timed loop.now
        (if (runner.delivery loop.overlap.entered).panicked then [.log .runPanicked]
        else []) } := by
  simp only [move, hawaited, hfinished, if_true]

theorem moves_actions {count done place : Nat} {performed remaining : List Action}
    (hawaited : loop.awaited = some place)
    (htaken : Overlap.Taken runner count done place performed remaining loop.overlap) :
    ∃ overlap, moves timetable runner remaining.length loop =
        { loop with overlap, done := loop.done ++ timed loop.now remaining } ∧
      Overlap.Taken runner count done place (performed ++ remaining) [] overlap := by
  induction remaining generalizing loop performed with
  | nil =>
      refine ⟨loop.overlap, ?_, by rwa [List.append_nil]⟩
      simp [moves, timed]
  | cons action remaining ih =>
      have hmoved := htaken.move_action
      have hmove := move_run timetable runner [action] hawaited (by rw [htaken.inside]; simp)
        (by rw [hmoved.history, htaken.history, List.append_assoc])
      have hawaited' : (move timetable runner loop).awaited = some place := by rwa [hmove]
      obtain ⟨overlap, hmoves, hend⟩ := ih hawaited' (by rw [hmove]; exact hmoved)
      refine ⟨overlap, ?_, by rwa [List.append_assoc] at hend⟩
      rw [List.length_cons, moves, hmoves, hmove]
      simp [timed]

/-- A run that is triggered while nobody holds the lock is made, and the loop learns of its end. -/
theorem moves_triggered {count place : Nat} (hawaited : loop.awaited = some place)
    (hwaiting : loop.overlap.runs[place]? = some .waiting)
    (hfree : Overlap.Free runner (count + 1) count loop.overlap) :
    ∃ overlap, moves timetable runner (Overlap.moves runner (count + 1) + 1) loop =
        { loop with
          overlap
          awaited := none
          done := loop.done ++ timed loop.now (runActions runner (count + 1)) } ∧
      Overlap.Free runner (count + 1) (count + 1) overlap := by
  -- The run takes the lock, does its actions and gives the lock back.
  have htaken := hfree.move_waiting hwaiting
  have henter := move_run timetable runner [] hawaited (by rw [hwaiting]; simp)
    (by rw [htaken.history, hfree.history])
  obtain ⟨overlap, hact, hacted⟩ := moves_actions timetable runner
    (show Loop.awaited { loop with
      overlap := Overlap.move runner loop.overlap place
      done := loop.done ++ timed loop.now [] } = some place from hawaited) htaken
  have hreleased := hacted.move_release
  have hrelease := move_run timetable runner []
    (show Loop.awaited { loop with
      overlap
      done := loop.done ++ timed loop.now [] ++ timed loop.now (runner.actions (count + 1)) } =
        some place from hawaited) (by rw [hacted.inside]; simp)
    (by rw [hreleased.history, hacted.history, Runner.actionsOfRuns_succ, List.append_nil]; rfl)
  -- The loop learns of its end.
  have hend := move_end timetable runner
    (show Loop.awaited { loop with
      overlap := Overlap.move runner overlap place
      done := loop.done ++ timed loop.now [] ++ timed loop.now (runner.actions (count + 1)) ++
        timed loop.now [] } = some place from hawaited) hacted.getElem?_move_release
  refine ⟨Overlap.move runner overlap place, ?_, hreleased⟩
  have hcount : Overlap.moves runner (count + 1) + 1 =
      1 + (runner.actions (count + 1)).length + 1 + 1 := by
    rw [Overlap.moves]
    omega
  rw [hcount, moves_add, moves_add, moves_add]
  change move _ _ (move _ _ (moves _ _ _ (move _ _ loop))) = _
  rw [henter, hact, hrelease, hend, hreleased.entered]
  simp [timed, runActions]

/-- A tick that is due leads to one run, and back to where the loop waits for the next tick. -/
theorem moves_due {count : Nat} (hawaited : loop.awaited = none) (hdue : loop.due ≤ loop.now)
    (hfree : Overlap.Free runner count count loop.overlap) :
    ∃ overlap, moves timetable runner (Overlap.moves runner (loop.overlap.entered + 1) + 2) loop =
        { loop with
          due := timetable.nextDue loop.due loop.now
          overlap
          done := loop.done ++ timed loop.now (runActions runner (count + 1)) } ∧
      Overlap.Free runner (count + 1) (count + 1) overlap := by
  have hwaiting := loop.overlap.getElem?_trigger
  obtain ⟨overlap, hmoves, hfree'⟩ := moves_triggered timetable runner
    (show Loop.awaited { loop with
      due := timetable.nextDue loop.due loop.now
      overlap := loop.overlap.trigger
      awaited := some loop.overlap.runs.length } = some loop.overlap.runs.length from rfl)
    hwaiting hfree.trigger
  refine ⟨overlap, ?_, hfree'⟩
  rw [hfree.entered]
  change moves _ _ _ (move _ _ loop) = _
  rw [move_tick timetable runner hawaited hdue, hmoves, hawaited]

/-- The loop waits for the tick that is due a period after the last run, and `count` runs have been
made. -/
structure AwaitsTick (timetable : Timetable) (runner : Runner) (clock : Timetable.Clock)
    (count : Nat) (loop : Loop) : Prop where
  now : loop.now = clock.now
  due : loop.due = clock.lastRun + timetable.period
  awaited : loop.awaited = none
  stopped : loop.stopped = clock.stopped
  free : Overlap.Free runner count count loop.overlap

/-- The actions of runs at some times, when some runs came before. -/
def timedRuns (runner : Runner) : Nat → List Nat → List (Nat × Action)
  | _, [] => []
  | earlier, time :: times =>
    timed time (runActions runner (earlier + 1)) ++ timedRuns runner (earlier + 1) times

theorem timedRuns_append (earlier : Nat) (first second : List Nat) :
    timedRuns runner earlier (first ++ second) =
      timedRuns runner earlier first ++ timedRuns runner (earlier + first.length) second := by
  induction first generalizing earlier with
  | nil => rfl
  | cons time first ih =>
      have hcount : earlier + (time :: first).length = earlier + 1 + first.length := by
        rw [List.length_cons]
        omega
      rw [List.cons_append, timedRuns, timedRuns, ih, List.append_assoc, hcount]

variable {timetable runner} {clock : Timetable.Clock} {count : Nat}

/-- Time that passes at once makes the run that the timetable makes then. -/
theorem AwaitsTick.pass (hawaits : AwaitsTick timetable runner clock count loop)
    (hrunning : clock.stopped = false) (seconds : Nat) :
    AwaitsTick timetable runner (timetable.step clock (.jump seconds)).2
        (count + (timetable.step clock (.jump seconds)).1.length)
        (loop.pass timetable runner seconds) ∧
      (loop.pass timetable runner seconds).done =
        loop.done ++ timedRuns runner count (timetable.step clock (.jump seconds)).1 := by
  have hawaited : Loop.awaited { loop with now := loop.now + seconds } = none := hawaits.awaited
  have hcompare : loop.due ≤ loop.now + seconds ↔
      clock.lastRun + timetable.period ≤ clock.now + seconds := by
    rw [hawaits.due, hawaits.now]
  rw [Timetable.step_jump hrunning, Loop.pass]
  split
  · rename_i hdue
    obtain ⟨overlap, hmoves, hfree⟩ :=
      moves_due timetable runner hawaited (hcompare.mpr hdue) hawaits.free
    rw [hmoves]
    refine ⟨⟨?_, ?_, hawaits.awaited, hawaits.stopped, hfree⟩, ?_⟩
    · rw [hawaits.now]
    · rw [Timetable.nextDue_eq, hawaits.now]
    · rw [hawaits.now, timedRuns, timedRuns, List.append_nil]
  · rename_i hearly
    have hlt : loop.now + seconds < loop.due := Nat.not_le.mp (hearly ∘ hcompare.mp)
    rw [moves_early timetable runner hawaited hlt]
    refine ⟨⟨?_, hawaits.due, hawaits.awaited, hawaits.stopped, hawaits.free⟩, ?_⟩
    · rw [hawaits.now]
    · rw [timedRuns, List.append_nil]

/-- Time that passes by the second makes the runs that the timetable makes meanwhile. -/
theorem AwaitsTick.wait (hawaits : AwaitsTick timetable runner clock count loop)
    (hsteady : timetable.Steady clock) (hrunning : clock.stopped = false) (seconds : Nat) :
    AwaitsTick timetable runner (timetable.step clock (.sleep seconds)).2
        (count + (timetable.step clock (.sleep seconds)).1.length)
        (loop.wait timetable runner seconds) ∧
      (loop.wait timetable runner seconds).done =
        loop.done ++ timedRuns runner count (timetable.step clock (.sleep seconds)).1 := by
  induction seconds with
  | zero =>
      rw [hsteady.step_sleep_zero]
      exact ⟨hawaits, (List.append_nil _).symm⟩
  | succ seconds ih =>
      -- One second more brings at most one tick, on time, so it does what a jump of a second does.
      obtain ⟨hwaited, hdone⟩ := ih
      have hrunning' : (timetable.step clock (.sleep seconds)).2.stopped = false := by
        rw [Timetable.step_sleep hrunning]
        exact hrunning
      obtain ⟨hpassed, hmore⟩ := hwaited.pass hrunning' 1
      rw [Timetable.step_sleep_add, (hsteady.step _).step_sleep_one]
      refine ⟨?_, ?_⟩
      · rw [List.length_append, ← Nat.add_assoc]
        exact hpassed
      · rw [timedRuns_append, ← List.append_assoc, ← hdone]
        exact hmore

theorem AwaitsTick.step (hawaits : AwaitsTick timetable runner clock count loop)
    (hsteady : timetable.Steady clock) (next : Timetable.Step) :
    AwaitsTick timetable runner (timetable.step clock next).2
        (count + (timetable.step clock next).1.length) (loop.step timetable runner next) ∧
      (loop.step timetable runner next).done =
        timedRuns runner count (timetable.step clock next).1 := by
  have hcleared : AwaitsTick timetable runner clock count { loop with done := [] } :=
    ⟨hawaits.now, hawaits.due, hawaits.awaited, hawaits.stopped, hawaits.free⟩
  unfold Loop.step
  cases hstopped : clock.stopped with
  | true =>
      rw [if_pos (hawaits.stopped.trans hstopped), Timetable.step_of_stopped hstopped]
      exact ⟨hcleared, rfl⟩
  | false =>
      rw [if_neg (Bool.eq_false_iff.mp (hawaits.stopped.trans hstopped))]
      cases next with
      | stop =>
          rw [Timetable.step_stop hstopped]
          exact ⟨⟨hawaits.now, hawaits.due, hawaits.awaited, rfl, hawaits.free⟩, rfl⟩
      | sleep seconds => exact hcleared.wait hsteady hstopped seconds
      | jump seconds => exact hcleared.pass hstopped seconds

/-- The loop has made the run at time zero and waits for the first tick after it. -/
theorem awaitsTick_start (timetable : Timetable) (runner : Runner) :
    AwaitsTick timetable runner {} 1 (start timetable runner) ∧
      (start timetable runner).done = timedRuns runner 0 [0] := by
  obtain ⟨overlap, hmoves, hfree⟩ := moves_due timetable runner
    (show Loop.awaited { ({} : Loop) with now := 0 } = none from rfl) (Nat.le_refl 0)
    (Overlap.free_start runner 0)
  have hstart : start timetable runner = _ := hmoves
  rw [hstart]
  exact ⟨⟨rfl, Timetable.nextDue_eq timetable 0 0, rfl, rfl, hfree⟩, (List.append_nil _).symm⟩

/-- The actions of the runs of each step, given the times of the runs. -/
def timedTurns (runner : Runner) : Nat → List (List Nat) → List (List (Nat × Action))
  | _, [] => []
  | earlier, times :: rest =>
    timedRuns runner earlier times :: timedTurns runner (earlier + times.length) rest

theorem AwaitsTick.turns (hawaits : AwaitsTick timetable runner clock count loop)
    (hsteady : timetable.Steady clock) (steps : List Timetable.Step) :
    loop.turns timetable runner steps =
      loop.done :: timedTurns runner count (timetable.times clock steps) := by
  induction steps generalizing clock count loop with
  | nil => rfl
  | cons next steps ih =>
      obtain ⟨hstepped, hdone⟩ := hawaits.step hsteady next
      rw [Loop.turns, ih hstepped (hsteady.step next), hdone]
      rfl

theorem AwaitsTick.foldl_step (hawaits : AwaitsTick timetable runner clock count loop)
    (hsteady : timetable.Steady clock) (steps : List Timetable.Step) :
    AwaitsTick timetable runner (timetable.clockAfter clock steps)
      (count + (timetable.times clock steps).flatten.length)
      (steps.foldl (Loop.step timetable runner) loop) := by
  induction steps generalizing clock count loop with
  | nil => exact hawaits
  | cons next steps ih =>
      have hrest := ih (hawaits.step hsteady next).1 (hsteady.step next)
      rw [Timetable.times, List.flatten_cons, List.length_append, ← Nat.add_assoc]
      exact hrest

theorem awaitsTick_after (timetable : Timetable) (runner : Runner) (steps : List Timetable.Step) :
    AwaitsTick timetable runner (timetable.clockAfter {} steps)
      (timetable.runTimes steps).length (after timetable runner steps) := by
  have hafter := (awaitsTick_start timetable runner).1.foldl_step timetable.steady_start steps
  rw [Nat.add_comm] at hafter
  exact hafter

theorem play_eq (timetable : Timetable) (runner : Runner) (steps : List Timetable.Step) :
    play timetable runner steps = timedTurns runner 0 ([0] :: timetable.times {} steps) := by
  obtain ⟨hstart, hdone⟩ := awaitsTick_start timetable runner
  rw [play, hstart.turns timetable.steady_start, hdone]
  rfl

theorem startTimes_append (first second : List (Nat × Action)) :
    startTimes (first ++ second) = startTimes first ++ startTimes second :=
  List.filterMap_append

theorem startTimes_timed (time : Nat) (actions : List Action) :
    startTimes (timed time actions) =
      List.replicate ((events actions).count .runStarted) time := by
  induction actions with
  | nil => rfl
  | cons action actions ih =>
      have htail : startTimes (timed time (action :: actions)) =
          (if action = .log .runStarted then [time] else []) ++
            startTimes (timed time actions) := by
        rw [timed, List.map_cons, ← List.singleton_append, startTimes_append]
        congr 1
        simp only [startTimes, List.filterMap_cons, List.filterMap_nil]
        split <;> simp_all
      have hevents : events (action :: actions) = events [action] ++ events actions :=
        events_append [action] actions
      rw [htail, ih, hevents, List.count_append, List.replicate_add]
      congr 1
      cases action with
      | log event => by_cases hstart : event = .runStarted <;> simp [events, Action.event?, hstart]
      | read _ | hand _ _ | send _ _ | save _ | print _ => rfl

theorem startTimes_runActions (runner : Runner) (time number : Nat) :
    startTimes (timed time (runActions runner number)) = [time] := by
  obtain ⟨later, hevents, hstart, -⟩ := runner.exists_events_actions number
  have hpanic : (events (if (runner.delivery number).panicked then
      [Action.log .runPanicked] else [])).count .runStarted = 0 := by
    split <;> rfl
  rw [startTimes_timed, runActions, events_append, List.count_append, hevents, List.count_cons,
    List.count_eq_zero.mpr hstart, hpanic]
  rfl

theorem startTimes_timedRuns (runner : Runner) (earlier : Nat) (times : List Nat) :
    startTimes (timedRuns runner earlier times) = times := by
  induction times generalizing earlier with
  | nil => rfl
  | cons time times ih =>
      rw [timedRuns, startTimes_append, startTimes_runActions, ih, List.singleton_append]

theorem map_snd_timedRuns (runner : Runner) (earlier : Nat) (times : List Nat) :
    (timedRuns runner earlier times).map Prod.snd =
      Timetable.actionsAfter runner earlier times.length := by
  induction times generalizing earlier with
  | nil => rfl
  | cons time times ih =>
      have hactions (actions : List Action) : (timed time actions).map Prod.snd = actions := by
        simp [timed, Function.comp_def]
      rw [timedRuns, List.map_append, hactions, ih, List.length_cons, Timetable.actionsAfter,
        Timetable.actionsAfter, List.range_succ_eq_map, List.flatMap_cons, List.flatMap_map]
      congr 2
      funext place
      congr 1
      omega

theorem startTimes_play (timetable : Timetable) (runner : Runner) (steps : List Timetable.Step) :
    (play timetable runner steps).map startTimes = [0] :: timetable.times {} steps := by
  have hturns (earlier : Nat) (turns : List (List Nat)) :
      (timedTurns runner earlier turns).map startTimes = turns := by
    induction turns generalizing earlier with
    | nil => rfl
    | cons times turns ih => rw [timedTurns, List.map_cons, ih, startTimes_timedRuns]
  rw [play_eq, hturns]

/-- What the loop does is what the timetable says. -/
theorem map_snd_play (timetable : Timetable) (runner : Runner) (steps : List Timetable.Step) :
    ((play timetable runner steps).map fun turn => turn.map Prod.snd) =
      timetable.play runner steps := by
  have hturns (earlier : Nat) (turns : List (List Nat)) :
      ((timedTurns runner earlier turns).map fun turn => turn.map Prod.snd) =
        Timetable.actionsOfSteps runner earlier (turns.map List.length) := by
    induction turns generalizing earlier with
    | nil => rfl
    | cons times turns ih =>
        rw [timedTurns, List.map_cons, ih, map_snd_timedRuns]
        rfl
  rw [play_eq, hturns]
  rfl

theorem flatten_timedTurns (runner : Runner) (earlier : Nat) (turns : List (List Nat)) :
    (timedTurns runner earlier turns).flatten = timedRuns runner earlier turns.flatten := by
  induction turns generalizing earlier with
  | nil => rfl
  | cons times turns ih =>
      rw [timedTurns, List.flatten_cons, List.flatten_cons, timedRuns_append, ih]

theorem timedTurns_append_idle (runner : Runner) (earlier : Nat) (turns : List (List Nat))
    (count : Nat) :
    timedTurns runner earlier (turns ++ List.replicate count []) =
      timedTurns runner earlier turns ++ List.replicate count [] := by
  induction turns generalizing earlier with
  | nil =>
      induction count with
      | zero => rfl
      | succ count ih => exact congrArg _ ih
  | cons times turns ih => exact congrArg _ (ih (earlier + times.length))

theorem flatten_play (timetable : Timetable) (runner : Runner) (steps : List Timetable.Step) :
    (play timetable runner steps).flatten = timedRuns runner 0 (timetable.runTimes steps) := by
  rw [play_eq, flatten_timedTurns]
  rfl

/-- While the loop waits for a tick, the clock and the number of runs tell everything else. -/
theorem AwaitsTick.eq (hawaits : AwaitsTick timetable runner clock count loop) :
    { loop with done := [] } =
      { now := clock.now
        due := clock.lastRun + timetable.period
        overlap := {
          runs := List.replicate count .finished
          entered := count
          history := runner.actionsOfRuns count }
        stopped := clock.stopped } := by
  obtain ⟨now, due, ⟨runs, holder, entered, history⟩, awaited, stopped, done⟩ := loop
  obtain ⟨hnow, hdue, hawaited, hstopped, hlength, hholder, -, hentered, hfinished, hhistory⟩ :=
    hawaits
  have hruns : runs = List.replicate count .finished := by
    refine List.eq_replicate_iff.mpr ⟨hlength, fun progress hmem => ?_⟩
    exact (List.count_eq_length.mp (hfinished.trans hlength.symm) progress hmem).symm
  simp_all

/-- The loop makes its first run at time zero, and any two runs are at least a period apart. When it
waits, less than a period has passed since the last run, and the next is due a period after it. Time
that passes brings one run for each period, so it can be cut in pieces; a jump of the clock brings
one at most. After a stop there is none. -/
theorem runs_a_period_apart (timetable : Timetable) (runner : Runner)
    (steps : List Timetable.Step) :
    (play timetable runner steps).map startTimes = [0] :: timetable.times {} steps ∧
    ((timetable.runTimes steps).IsChain fun earlier later => earlier + timetable.period ≤ later) ∧
    (∃ loop last, after timetable runner steps = loop ∧
      (timetable.runTimes steps).getLast? = some last ∧
      loop.due = last + timetable.period ∧ last ≤ loop.now ∧ loop.now < last + timetable.period ∧
      (∀ seconds, startTimes (loop.step timetable runner (.sleep seconds)).done =
        if loop.stopped then []
        else (List.range ((loop.now + seconds - last) / timetable.period)).map fun place =>
          last + (place + 1) * timetable.period) ∧
      ∀ seconds, startTimes (loop.step timetable runner (.jump seconds)).done =
        if loop.stopped then []
        else if last + timetable.period ≤ loop.now + seconds then [loop.now + seconds]
        else []) ∧
    (∀ first second rest,
      (play timetable runner (steps ++ .sleep (first + second) :: rest)).flatten =
        (play timetable runner (steps ++ .sleep first :: .sleep second :: rest)).flatten ∧
      { after timetable runner (steps ++ .sleep (first + second) :: rest) with done := [] } =
        { after timetable runner (steps ++ .sleep first :: .sleep second :: rest) with
          done := [] }) ∧
    ∀ rest, play timetable runner (steps ++ .stop :: rest) =
      play timetable runner steps ++ List.replicate (rest.length + 1) [] := by
  have hawaits := awaitsTick_after timetable runner steps
  have hsteady := Timetable.steady_clockAfter timetable.steady_start steps
  have hlast := timetable.lastRun_clockAfter {} steps
  have hstarted (next : Timetable.Step) :
      startTimes ((after timetable runner steps).step timetable runner next).done =
        (timetable.step (timetable.clockAfter {} steps) next).1 := by
    rw [(hawaits.step hsteady next).2, startTimes_timedRuns]
  refine ⟨startTimes_play timetable runner steps, timetable.isChain_times {} steps, ?_, ?_, ?_⟩
  · refine ⟨_, (timetable.clockAfter {} steps).lastRun, rfl, ?_, hawaits.due, ?_, ?_, ?_, ?_⟩
    · rw [hlast, Timetable.runTimes, List.getLast?_cons, ← List.getLastD_eq_getLast?]
    · rw [hawaits.now]
      exact hsteady.lastRun_le
    · rw [hawaits.now]
      exact hsteady.now_lt
    · intro seconds
      rw [hstarted, hawaits.stopped, hawaits.now]
      cases hstopped : (timetable.clockAfter {} steps).stopped with
      | true => rw [Timetable.step_of_stopped hstopped]; rfl
      | false => rw [Timetable.step_sleep hstopped, Timetable.ticks_eq]; rfl
    · intro seconds
      rw [hstarted, hawaits.stopped, hawaits.now]
      cases hstopped : (timetable.clockAfter {} steps).stopped with
      | true => rw [Timetable.step_of_stopped hstopped]; rfl
      | false => rw [Timetable.step_jump hstopped]; split <;> rfl
  · intro first second rest
    obtain ⟨htimes, hclock⟩ := timetable.sleep_cut steps rest first second
    constructor
    · rw [flatten_play, flatten_play, htimes]
    · rw [(awaitsTick_after timetable runner _).eq, (awaitsTick_after timetable runner _).eq,
        htimes, hclock]
  · intro rest
    rw [play_eq, play_eq, Timetable.times_stop, ← List.cons_append, timedTurns_append_idle]

example :
    (play ⟨4, by decide⟩ ⟨{ version := "2.0.0" }, { store := {} }, []⟩
        [.sleep 4, .jump 0, .jump 11, .sleep 3, .sleep 1, .stop, .sleep 9]).map startTimes =
      [[0], [4], [], [15], [], [19], [], []] := by
  decide +kernel

end Loop

end UsageReport
