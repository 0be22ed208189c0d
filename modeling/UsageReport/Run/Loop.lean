import UsageReport.Run.Overlap
import UsageReport.Run.Timetable

/-!
The loop behind a timetable, one move at a time. It waits for a tick, triggers a run, lets that run
move until it has finished, logs if it panicked, and waits for the next tick.
-/

namespace UsageReport

/-- When the tick after one is due: a period after that one was due, if it was taken on time, and
otherwise a period after it was taken. -/
def Timetable.nextDue (timetable : Timetable) (due taken : Nat) : Nat :=
  if taken = due then due + timetable.period else taken + timetable.period

/-- One more run is triggered. -/
def Overlap.trigger (overlap : Overlap) : Overlap :=
  { overlap with runs := overlap.runs ++ [.waiting] }

structure Loop where
  now : Nat := 0
  /-- When the next tick is due. The first is due at once. -/
  due : Nat := 0
  /-- The runs that were triggered, with their lock. -/
  overlap : Overlap := { runs := [] }
  /-- The place of the run that the loop waits for. -/
  awaited : Option Nat := none
  stopped : Bool := false
  /-- The actions of the present step, each with its time. -/
  done : List (Nat × Action) := []
deriving DecidableEq

namespace Loop

variable (timetable : Timetable) (runner : Runner)

def timed (time : Nat) (actions : List Action) : List (Nat × Action) :=
  actions.map fun action => (time, action)

/-- Makes the next move, if there is one before more time passes. -/
def move (loop : Loop) : Loop :=
  match loop.awaited with
  | none =>
    if loop.now < loop.due then loop
    else { loop with
      due := timetable.nextDue loop.due loop.now
      overlap := loop.overlap.trigger
      awaited := some loop.overlap.runs.length }
  | some place =>
    if loop.overlap.runs[place]? = some .finished then
      { loop with
        awaited := none
        done := loop.done ++ timed loop.now
          (if (runner.delivery loop.overlap.entered).panicked then [.log .runPanicked] else []) }
    else
      let overlap := Overlap.move runner loop.overlap place
      { loop with
        overlap
        done := loop.done ++
          timed loop.now (overlap.history.drop loop.overlap.history.length) }

def moves : Nat → Loop → Loop
  | 0, loop => loop
  | count + 1, loop => moves count (move timetable runner loop)

/-- Lets time pass at once. Then there are moves enough to take a tick, to make a run, and to learn
of its end. -/
def pass (seconds : Nat) (loop : Loop) : Loop :=
  moves timetable runner (Overlap.moves runner (loop.overlap.entered + 1) + 2)
    { loop with now := loop.now + seconds }

/-- Lets time pass by the second. -/
def wait : Nat → Loop → Loop
  | 0, loop => loop
  | seconds + 1, loop => pass timetable runner 1 (wait seconds loop)

def step (loop : Loop) (next : Timetable.Step) : Loop :=
  if loop.stopped then { loop with done := [] }
  else match next with
    | .stop => { loop with stopped := true, done := [] }
    | .sleep seconds => wait timetable runner seconds { loop with done := [] }
    | .jump seconds => pass timetable runner seconds { loop with done := [] }

/-- The loop after the run at time zero. -/
def start : Loop := pass timetable runner 0 {}

/-- The loop after some steps. -/
def after (steps : List Timetable.Step) : Loop :=
  steps.foldl (step timetable runner) (start timetable runner)

/-- What the loop has done, and then does in each of some steps. -/
def turns (loop : Loop) : List Timetable.Step → List (List (Nat × Action))
  | [] => [loop.done]
  | next :: steps => loop.done :: turns (loop.step timetable runner next) steps

/-- What the loop does at time zero, and then in each of some steps. -/
def play (steps : List Timetable.Step) : List (List (Nat × Action)) :=
  turns timetable runner (start timetable runner) steps

/-- The times at which runs start. -/
def startTimes (turn : List (Nat × Action)) : List Nat :=
  turn.filterMap fun (time, action) => if action = .log .runStarted then some time else none

end Loop

end UsageReport
