import UsageReport.Report.Format
import UsageReport.Survey.Trace

/-!
Where the outcomes of runs go. Every outcome is handed to each destination in order. A destination
may panic; the ones before it have then been served, the ones after it have not.
-/

namespace UsageReport

inductive Destination where
  | channel
  /-- A channel that nobody listens to any more. -/
  | abandoned
  /-- A directory for one file for each report, unless something is in the way. -/
  | directory (obstacle : Option FileError)
  | printer (format : Format)
  /-- Panics on the outcomes of some runs, counted from one. -/
  | faulty (runs : List Nat)
deriving DecidableEq

structure Delivery where
  actions : List Action
  panicked : Bool
deriving DecidableEq

namespace Destination

/-- Hands over the outcome of a run with its number to the destination at some place. Only a channel
takes failures. -/
def deliver (number place : Nat) (outcome : Outcome) : Destination → Delivery
  | .channel => ⟨[.send place outcome], false⟩
  | .abandoned => ⟨[.log .receiverDropped], false⟩
  | .directory obstacle =>
    match outcome, obstacle with
    | .ready report, none => ⟨[.save report, .log .reportWritten], false⟩
    | .ready _, some error => ⟨[.log (.reportNotWritten error)], false⟩
    | .failed _, _ => ⟨[], false⟩
  | .printer format =>
    match outcome with
    | .ready report => ⟨[.print (report.render format ++ "\n")], false⟩
    | .failed _ => ⟨[], false⟩
  | .faulty runs => ⟨[], runs.contains number⟩

def deliverAll (number place : Nat) (outcome : Outcome) : List Destination → Delivery
  | [] => ⟨[], false⟩
  | destination :: rest =>
    let first := destination.deliver number place outcome
    if first.panicked then ⟨.hand place outcome :: first.actions, true⟩
    else
      let others := deliverAll number (place + 1) outcome rest
      ⟨.hand place outcome :: first.actions ++ others.actions, others.panicked⟩

end Destination

/-- The outcomes handed to the destination at some place. -/
def handedTo (place : Nat) (actions : List Action) : List Outcome :=
  actions.filterMap fun
    | .hand there outcome => if there = place then some outcome else none
    | _ => none

/-- The outcomes sent to the channel at some place. -/
def sentTo (place : Nat) (actions : List Action) : List Outcome :=
  actions.filterMap fun
    | .send there outcome => if there = place then some outcome else none
    | _ => none

/-- The reports written to files, each in its own. -/
def savedReports (actions : List Action) : List Report :=
  actions.filterMap fun
    | .save report => some report
    | _ => none

def printedText (actions : List Action) : String :=
  String.join (actions.filterMap fun
    | .print text => some text
    | _ => none)

/-- The text that a report file holds. -/
def Report.fileText (report : Report) : String := report.render .json

/-- The name of a report file. `stamp` tells when it is written. -/
def reportFileName (stamp : String) : String := "telemetry-" ++ stamp ++ ".json"

end UsageReport
