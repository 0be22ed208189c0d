import Mathlib.Data.List.Chain
import UsageReport.Run.Timetable

/-!
When a timetable has its runs. Between steps the clock is always less than a period past the last
run, whether that run came on time or late; so the ticks of a step can be counted, runs never come
in bursts, and it makes no difference whether time passes in one step or in two.
-/

namespace UsageReport.Timetable

variable {timetable : Timetable} {clock : Clock}

/-- The clock after some steps. -/
def clockAfter (timetable : Timetable) (clock : Clock) (steps : List Step) : Clock :=
  steps.foldl (fun clock next => (timetable.step clock next).2) clock

/-- The times of all runs, the one at time zero included. -/
def runTimes (timetable : Timetable) (steps : List Step) : List Nat :=
  0 :: (timetable.times {} steps).flatten

theorem ticks_of_lt {lastRun limit : Nat} (hlt : limit < lastRun + timetable.period) :
    timetable.ticks lastRun limit = [] := by
  rw [ticks, if_neg (Nat.not_le.mpr hlt)]

theorem ticks_of_le {lastRun limit : Nat} (hle : lastRun + timetable.period ≤ limit) :
    timetable.ticks lastRun limit =
      (lastRun + timetable.period) :: timetable.ticks (lastRun + timetable.period) limit := by
  rw [ticks, if_pos hle]

/-- The ticks follow each other by the period, and there are as many as periods have passed. -/
theorem ticks_eq (timetable : Timetable) (lastRun limit : Nat) :
    timetable.ticks lastRun limit =
      (List.range ((limit - lastRun) / timetable.period)).map fun place =>
        lastRun + (place + 1) * timetable.period := by
  have hpos := timetable.period_pos
  fun_induction timetable.ticks lastRun limit with
  | case1 lastRun hle ih =>
      have hcount : (limit - lastRun) / timetable.period =
          (limit - (lastRun + timetable.period)) / timetable.period + 1 := by
        rw [Nat.div_eq_sub_div hpos (by omega), Nat.sub_sub]
      rw [hcount, List.range_succ_eq_map, List.map_cons, List.map_map, ih]
      congr 1
      · omega
      · refine List.map_congr_left fun place _ => ?_
        simp only [Function.comp_apply, Nat.succ_eq_add_one, Nat.add_mul]
        omega
  | case2 lastRun hlt =>
      rw [Nat.div_eq_of_lt (by omega)]
      rfl

/-- The last tick up to some time, or the last run if there is none. -/
def lastTick (timetable : Timetable) (lastRun limit : Nat) : Nat :=
  (timetable.ticks lastRun limit).getLastD lastRun

theorem lastTick_of_le {lastRun limit : Nat} (hle : lastRun + timetable.period ≤ limit) :
    timetable.lastTick lastRun limit =
      timetable.lastTick (lastRun + timetable.period) limit := by
  rw [lastTick, ticks_of_le hle, List.getLastD_cons]
  rfl

theorem lastTick_of_lt {lastRun limit : Nat} (hlt : limit < lastRun + timetable.period) :
    timetable.lastTick lastRun limit = lastRun := by
  rw [lastTick, ticks_of_lt hlt]
  rfl

theorem lastTick_bounds (timetable : Timetable) {lastRun limit : Nat} (hle : lastRun ≤ limit) :
    timetable.lastTick lastRun limit ≤ limit ∧
      limit < timetable.lastTick lastRun limit + timetable.period := by
  fun_induction timetable.ticks lastRun limit with
  | case1 lastRun hdue ih =>
      rw [lastTick_of_le hdue]
      exact ih hdue
  | case2 lastRun hlt =>
      rw [lastTick_of_lt (Nat.not_le.mp hlt)]
      exact ⟨hle, Nat.not_le.mp hlt⟩

/-- The ticks up to a later time are those up to an earlier one and those after the last of them. -/
theorem ticks_append (timetable : Timetable) {first second : Nat} (lastRun : Nat)
    (hle : first ≤ second) :
    timetable.ticks lastRun second = timetable.ticks lastRun first ++
      timetable.ticks (timetable.lastTick lastRun first) second := by
  fun_induction timetable.ticks lastRun first with
  | case1 lastRun hdue ih =>
      rw [ticks_of_le (Nat.le_trans hdue hle), lastTick_of_le hdue, ih, List.cons_append]
  | case2 lastRun hlt =>
      rw [lastTick_of_lt (Nat.not_le.mp hlt), List.nil_append]

theorem isChain_ticks (timetable : Timetable) (lastRun limit : Nat) :
    (lastRun :: timetable.ticks lastRun limit).IsChain fun earlier later =>
      earlier + timetable.period ≤ later := by
  fun_induction timetable.ticks lastRun limit with
  | case1 lastRun _ ih => exact List.isChain_cons_cons.mpr ⟨Nat.le_refl _, ih⟩
  | case2 lastRun _ => exact List.isChain_singleton _

theorem getLastD_append {α : Type} (first second : List α) (value : α) :
    (first ++ second).getLastD value = second.getLastD (first.getLastD value) := by
  simp only [List.getLastD_eq_getLast?, List.getLast?_append]
  cases second.getLast? <;> rfl

theorem isChain_cons_append {α : Type} {related : α → α → Prop} {value : α} {first second : List α}
    (hfirst : (value :: first).IsChain related)
    (hsecond : (first.getLastD value :: second).IsChain related) :
    (value :: (first ++ second)).IsChain related := by
  rw [← List.cons_append, List.isChain_append]
  refine ⟨hfirst, (List.isChain_cons.mp hsecond).2, ?_⟩
  rintro last hlast next hnext
  rw [List.getLast?_cons, Option.mem_some_iff, ← List.getLastD_eq_getLast?] at hlast
  exact (List.isChain_cons.mp hsecond).1 next hnext |> fun hrelated => hlast ▸ hrelated

/-- Less than a period has passed since the last run. -/
structure Steady (timetable : Timetable) (clock : Clock) : Prop where
  lastRun_le : clock.lastRun ≤ clock.now
  now_lt : clock.now < clock.lastRun + timetable.period

theorem step_of_stopped (hstopped : clock.stopped = true) (next : Step) :
    timetable.step clock next = ([], clock) := by
  simp only [step, hstopped, if_true]

theorem step_sleep (hrunning : clock.stopped = false) (seconds : Nat) :
    timetable.step clock (.sleep seconds) =
      (timetable.ticks clock.lastRun (clock.now + seconds),
        { clock with
          now := clock.now + seconds
          lastRun := timetable.lastTick clock.lastRun (clock.now + seconds) }) := by
  simp only [step, hrunning, Bool.false_eq_true, if_false, lastTick]

theorem step_jump (hrunning : clock.stopped = false) (seconds : Nat) :
    timetable.step clock (.jump seconds) =
      if clock.lastRun + timetable.period ≤ clock.now + seconds then
        ([clock.now + seconds],
          { clock with now := clock.now + seconds, lastRun := clock.now + seconds })
      else ([], { clock with now := clock.now + seconds }) := by
  simp only [step, hrunning, Bool.false_eq_true, if_false]

theorem step_stop (hrunning : clock.stopped = false) :
    timetable.step clock .stop = ([], { clock with stopped := true }) := by
  simp only [step, hrunning, Bool.false_eq_true, if_false]

theorem steady_start (timetable : Timetable) : Steady timetable {} :=
  ⟨Nat.le_refl 0, by simpa using timetable.period_pos⟩

theorem Steady.step (hsteady : Steady timetable clock) (next : Step) :
    Steady timetable (timetable.step clock next).2 := by
  obtain ⟨hle, hlt⟩ := hsteady
  cases hstopped : clock.stopped with
  | true =>
      rw [step_of_stopped hstopped]
      exact ⟨hle, hlt⟩
  | false =>
      cases next with
      | stop =>
          rw [step_stop hstopped]
          exact ⟨hle, hlt⟩
      | sleep seconds =>
          rw [step_sleep hstopped]
          obtain ⟨hlast, hnext⟩ := lastTick_bounds timetable
            (Nat.le_trans hle (Nat.le_add_right clock.now seconds))
          exact ⟨hlast, hnext⟩
      | jump seconds =>
          rw [step_jump hstopped]
          split
          · exact ⟨Nat.le_refl _, Nat.lt_add_of_pos_right timetable.period_pos⟩
          · rename_i hearly
            exact ⟨Nat.le_trans hle (Nat.le_add_right _ _), Nat.not_le.mp hearly⟩

theorem steady_clockAfter (hsteady : Steady timetable clock) (steps : List Step) :
    Steady timetable (timetable.clockAfter clock steps) := by
  induction steps generalizing clock with
  | nil => exact hsteady
  | cons next steps ih => exact ih (hsteady.step next)

theorem lastRun_step (timetable : Timetable) (clock : Clock) (next : Step) :
    (timetable.step clock next).2.lastRun =
      (timetable.step clock next).1.getLastD clock.lastRun := by
  cases hstopped : clock.stopped with
  | true => rw [step_of_stopped hstopped]; rfl
  | false =>
      cases next with
      | stop => rw [step_stop hstopped]; rfl
      | sleep seconds => rw [step_sleep hstopped]; rfl
      | jump seconds => rw [step_jump hstopped]; split <;> rfl

theorem isChain_step (timetable : Timetable) (clock : Clock) (next : Step) :
    (clock.lastRun :: (timetable.step clock next).1).IsChain fun earlier later =>
      earlier + timetable.period ≤ later := by
  cases hstopped : clock.stopped with
  | true => rw [step_of_stopped hstopped]; exact List.isChain_singleton _
  | false =>
      cases next with
      | stop => rw [step_stop hstopped]; exact List.isChain_singleton _
      | sleep seconds => rw [step_sleep hstopped]; exact isChain_ticks _ _ _
      | jump seconds =>
          rw [step_jump hstopped]
          split
          · rename_i hdue
            exact List.isChain_cons_cons.mpr ⟨hdue, List.isChain_singleton _⟩
          · exact List.isChain_singleton _

theorem isChain_times (timetable : Timetable) (clock : Clock) (steps : List Step) :
    (clock.lastRun :: (timetable.times clock steps).flatten).IsChain fun earlier later =>
      earlier + timetable.period ≤ later := by
  induction steps generalizing clock with
  | nil => exact List.isChain_singleton _
  | cons next steps ih =>
      have hrest := ih (timetable.step clock next).2
      rw [lastRun_step] at hrest
      exact isChain_cons_append (isChain_step timetable clock next) hrest

theorem lastRun_clockAfter (timetable : Timetable) (clock : Clock) (steps : List Step) :
    (timetable.clockAfter clock steps).lastRun =
      (timetable.times clock steps).flatten.getLastD clock.lastRun := by
  induction steps generalizing clock with
  | nil => rfl
  | cons next steps ih =>
      have hrest := ih (timetable.step clock next).2
      rw [lastRun_step] at hrest
      rw [times, List.flatten_cons, getLastD_append]
      exact hrest

/-- It makes no difference whether time passes at one go or at two. -/
theorem step_sleep_add (timetable : Timetable) (clock : Clock) (first second : Nat) :
    timetable.step clock (.sleep (first + second)) =
      ((timetable.step clock (.sleep first)).1 ++
          (timetable.step (timetable.step clock (.sleep first)).2 (.sleep second)).1,
        (timetable.step (timetable.step clock (.sleep first)).2 (.sleep second)).2) := by
  cases hstopped : clock.stopped with
  | true => rw [step_of_stopped hstopped, step_of_stopped hstopped, step_of_stopped hstopped]; rfl
  | false =>
      have hle : clock.now + first ≤ clock.now + first + second := Nat.le_add_right _ _
      have happend := ticks_append timetable clock.lastRun hle
      simp only [step_sleep, hstopped, ← Nat.add_assoc]
      rw [lastTick, happend, getLastD_append]
      rfl

theorem Steady.step_sleep_one (hsteady : Steady timetable clock) :
    timetable.step clock (.sleep 1) = timetable.step clock (.jump 1) := by
  cases hstopped : clock.stopped with
  | true => rw [step_of_stopped hstopped, step_of_stopped hstopped]
  | false =>
      have hlt := hsteady.now_lt
      have hpos := timetable.period_pos
      rw [step_sleep hstopped, step_jump hstopped]
      split
      · rename_i hdue
        have hnow : clock.lastRun + timetable.period = clock.now + 1 := by omega
        have hnext : clock.now + 1 < clock.now + 1 + timetable.period := by omega
        rw [lastTick_of_le hdue, ticks_of_le hdue, hnow, ticks_of_lt hnext, lastTick_of_lt hnext]
      · rename_i hearly
        rw [ticks_of_lt (Nat.not_le.mp hearly), lastTick_of_lt (Nat.not_le.mp hearly)]

theorem Steady.step_sleep_zero (hsteady : Steady timetable clock) :
    timetable.step clock (.sleep 0) = ([], clock) := by
  cases hstopped : clock.stopped with
  | true => rw [step_of_stopped hstopped]
  | false =>
      rw [step_sleep hstopped, Nat.add_zero, ticks_of_lt hsteady.now_lt,
        lastTick_of_lt hsteady.now_lt]

theorem times_append (timetable : Timetable) (clock : Clock) (first second : List Step) :
    timetable.times clock (first ++ second) =
      timetable.times clock first ++
        timetable.times (timetable.clockAfter clock first) second := by
  induction first generalizing clock with
  | nil => rfl
  | cons next first ih => exact congrArg _ (ih (timetable.step clock next).2)

theorem times_of_stopped (hstopped : clock.stopped = true) (steps : List Step) :
    timetable.times clock steps = List.replicate steps.length [] := by
  induction steps with
  | nil => rfl
  | cons next steps ih =>
      rw [times, step_of_stopped hstopped, ih]
      rfl

theorem stopped_step (timetable : Timetable) (clock : Clock) (next : Step) :
    (timetable.step clock next).2.stopped = (clock.stopped || next == .stop) := by
  cases hstopped : clock.stopped with
  | true => rw [step_of_stopped hstopped, hstopped]; rfl
  | false =>
      cases next with
      | stop => rw [step_stop hstopped]; rfl
      | sleep seconds => rw [step_sleep hstopped]; exact hstopped
      | jump seconds => rw [step_jump hstopped]; split <;> exact hstopped

theorem step_stop_fst (timetable : Timetable) (clock : Clock) :
    (timetable.step clock .stop).1 = [] := by
  cases hstopped : clock.stopped with
  | true => rw [step_of_stopped hstopped]
  | false => rw [step_stop hstopped]

/-- Only a stop ends the runs. -/
theorem stopped_clockAfter_iff (timetable : Timetable) (clock : Clock) (steps : List Step) :
    (timetable.clockAfter clock steps).stopped = true ↔ clock.stopped = true ∨ .stop ∈ steps := by
  induction steps generalizing clock with
  | nil => simp [clockAfter]
  | cons next steps ih =>
      rw [clockAfter, List.foldl_cons]
      refine (ih (timetable.step clock next).2).trans ?_
      rw [stopped_step, Bool.or_eq_true, beq_iff_eq, List.mem_cons, or_assoc, eq_comm (a := next)]

theorem times_stop (timetable : Timetable) (clock : Clock) (before rest : List Step) :
    timetable.times clock (before ++ .stop :: rest) =
      timetable.times clock before ++ List.replicate (rest.length + 1) [] := by
  have hstopped := (stopped_step timetable (timetable.clockAfter clock before) .stop).trans
    (Bool.or_true _)
  rw [times_append, times, step_stop_fst, times_of_stopped hstopped]
  rfl

theorem clockAfter_append (timetable : Timetable) (clock : Clock) (first second : List Step) :
    timetable.clockAfter clock (first ++ second) =
      timetable.clockAfter (timetable.clockAfter clock first) second :=
  List.foldl_append

/-- A wait that is cut in two leaves all later steps as they are. -/
theorem sleep_cut (timetable : Timetable) (before rest : List Step) (first second : Nat) :
    timetable.runTimes (before ++ .sleep (first + second) :: rest) =
        timetable.runTimes (before ++ .sleep first :: .sleep second :: rest) ∧
      timetable.clockAfter {} (before ++ .sleep (first + second) :: rest) =
        timetable.clockAfter {} (before ++ .sleep first :: .sleep second :: rest) := by
  have hadd := step_sleep_add timetable (timetable.clockAfter {} before) first second
  constructor
  · simp only [runTimes, times_append, times, hadd, List.flatten_append, List.flatten_cons,
      List.append_assoc]
  · rw [clockAfter_append, clockAfter_append]
    simp only [clockAfter, List.foldl_cons] at hadd ⊢
    rw [hadd]

end UsageReport.Timetable
