import UsageReport.Run.Destination
import UsageReport.Survey.Basic

/-!
Runs: a survey of the source, the event that it ends in, and the delivery of its outcome.
-/

namespace UsageReport

structure Runner where
  host : Survey.Host
  source : Source
  destinations : List Destination
deriving DecidableEq

namespace Runner

def outcome (runner : Runner) : Outcome :=
  .ofResult (Survey.run runner.host runner.source).result

/-- The event that tells how a survey ended. -/
def finalEvent : Outcome → Event
  | .ready report => .reportReady report.identifier report.endpoint.count
  | .failed error => .runAborted error

def delivery (runner : Runner) (number : Nat) : Delivery :=
  Destination.deliverAll number 0 runner.outcome runner.destinations

/-- Everything that the run with some number does, in order. -/
def actions (runner : Runner) (number : Nat) : List Action :=
  .log .runStarted :: (Survey.run runner.host runner.source).actions ++
    .log (finalEvent runner.outcome) :: (runner.delivery number).actions

/-- Runs one after another, the first with number one. -/
def actionsOfRuns (runner : Runner) (count : Nat) : List Action :=
  (List.range count).flatMap fun earlier => runner.actions (earlier + 1)

end UsageReport.Runner
