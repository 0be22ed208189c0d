import UsageReport.Run.Basic

/-!
Timetables: a run at time zero, and one whenever the next tick is due. A tick that comes on time
runs at its time; if the clock has jumped past it, one run makes up for all ticks that were
missed. The next tick is one period after the last run.
-/

namespace UsageReport

structure Timetable where
  period : Nat
  period_pos : 0 < period

namespace Timetable

inductive Step where
  /-- Time passes, and every tick within it, the end included, comes on time. -/
  | sleep (seconds : Nat)
  /-- The clock moves at once. -/
  | jump (seconds : Nat)
  | stop
deriving DecidableEq

structure Clock where
  now : Nat := 0
  lastRun : Nat := 0
  stopped : Bool := false
deriving DecidableEq

/-- The ticks after the last run, up to some time. -/
def ticks (timetable : Timetable) (lastRun limit : Nat) : List Nat :=
  if lastRun + timetable.period ≤ limit then
    (lastRun + timetable.period) :: timetable.ticks (lastRun + timetable.period) limit
  else []
termination_by limit - lastRun
decreasing_by
  have := timetable.period_pos
  omega

/-- The times of the runs that a step causes, and the clock after it. -/
def step (timetable : Timetable) (clock : Clock) (next : Step) : List Nat × Clock :=
  if clock.stopped then ([], clock)
  else match next with
    | .stop => ([], { clock with stopped := true })
    | .sleep seconds =>
      let now := clock.now + seconds
      let times := timetable.ticks clock.lastRun now
      (times, { clock with now, lastRun := times.getLastD clock.lastRun })
    | .jump seconds =>
      let now := clock.now + seconds
      if clock.lastRun + timetable.period ≤ now then ([now], { clock with now, lastRun := now })
      else ([], { clock with now })

/-- The times of the runs that each step causes. -/
def times (timetable : Timetable) (clock : Clock) : List Step → List (List Nat)
  | [] => []
  | step :: steps =>
    (timetable.step clock step).1 :: timetable.times (timetable.step clock step).2 steps

/-- A scheduled run. One that panicked is logged, and the timetable goes on. -/
def runActions (runner : Runner) (number : Nat) : List Action :=
  runner.actions number ++
    if (runner.delivery number).panicked then [.log .runPanicked] else []

/-- The actions of some runs in a row, when some runs came before. -/
def actionsAfter (runner : Runner) (earlier count : Nat) : List Action :=
  (List.range count).flatMap fun place => runActions runner (earlier + place + 1)

/-- The actions of the runs of each step, given how many runs each step causes. -/
def actionsOfSteps (runner : Runner) (earlier : Nat) : List Nat → List (List Action)
  | [] => []
  | count :: counts =>
    actionsAfter runner earlier count :: actionsOfSteps runner (earlier + count) counts

/-- What the run at time zero does, and then what the runs of each step do. -/
def play (timetable : Timetable) (runner : Runner) (steps : List Step) : List (List Action) :=
  actionsOfSteps runner 0 (1 :: (timetable.times {} steps).map List.length)

end UsageReport.Timetable
