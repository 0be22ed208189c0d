import UsageReport.Run.Basic

/-!
Runs that are triggered before earlier ones have finished. They share a lock: a run waits until
nobody holds it, takes it, and then does its actions one at a time, the other runs moving in between
as they can. It gives the lock back in any case, also if a destination panicked.
-/

namespace UsageReport

inductive Progress where
  | waiting
  | inside (remaining : List Action)
  | finished
deriving DecidableEq

structure Overlap where
  runs : List Progress
  /-- The place of the run that holds the lock. -/
  holder : Option Nat := none
  /-- How many runs have taken the lock. -/
  entered : Nat := 0
  history : List Action := []
deriving DecidableEq

namespace Overlap

def start (count : Nat) : Overlap := { runs := List.replicate count .waiting }

def isFinished (overlap : Overlap) : Bool := overlap.runs.all (· == .finished)

/-- Lets the run at some place make one move, if it can make one. -/
def move (runner : Runner) (overlap : Overlap) (place : Nat) : Overlap :=
  match overlap.runs[place]? with
  | none | some .finished => overlap
  | some .waiting =>
    match overlap.holder with
    | some _ => overlap
    | none =>
      { overlap with
        runs := overlap.runs.set place (.inside (runner.actions (overlap.entered + 1)))
        holder := some place
        entered := overlap.entered + 1 }
  | some (.inside []) =>
    { overlap with runs := overlap.runs.set place .finished, holder := none }
  | some (.inside (action :: remaining)) =>
    { overlap with
      runs := overlap.runs.set place (.inside remaining)
      history := overlap.history ++ [action] }

def play (runner : Runner) (overlap : Overlap) (places : List Nat) : Overlap :=
  places.foldl (move runner) overlap

/-- How many moves a run makes: it takes the lock, does its actions and gives the lock back. -/
def moves (runner : Runner) (number : Nat) : Nat := (runner.actions number).length + 2

/-- How many moves some runs make that come after earlier ones. -/
def movesAfter (runner : Runner) (earlier : Nat) : Nat → Nat
  | 0 => 0
  | count + 1 => moves runner (earlier + 1) + movesAfter runner (earlier + 1) count

/-- Lets all runs move in turn, until all have finished. Somebody moves in every round before that,
so there need not be more rounds than moves. -/
def finish (runner : Runner) (count : Nat) : Overlap :=
  play runner (start count)
    ((List.replicate (movesAfter runner 0 count) (List.range count)).flatten)

end UsageReport.Overlap
