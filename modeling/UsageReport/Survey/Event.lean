import UsageReport.Duration
import UsageReport.File
import UsageReport.Survey.Section

/-!
Events that runs log, and the schedule that triggers them. That a schedule starts is logged once,
before its first run, and is not among them.
-/

namespace UsageReport

inductive Level where
  | debug
  | info
  | warn
  | error
deriving DecidableEq

def Level.name : Level → String
  | .debug => "DEBUG"
  | .info => "INFO"
  | .warn => "WARN"
  | .error => "ERROR"

inductive Event where
  | runStarted
  | sectionComputed (part : Section)
  | intervalRejected (error : Duration.Error)
  | reportReady (identifier : String) (endpoints : Nat)
  | runAborted (error : SurveyError)
  | receiverDropped
  | reportWritten
  | reportNotWritten (error : FileError)
  | runPanicked
deriving DecidableEq

namespace Event

def level : Event → Level
  | .runStarted | .reportReady _ _ | .reportWritten => .info
  | .sectionComputed _ | .receiverDropped => .debug
  | .intervalRejected _ | .reportNotWritten _ | .runPanicked => .warn
  | .runAborted _ => .error

def message : Event → String
  | .runStarted => "telemetry run started"
  | .sectionComputed _ => "telemetry section computed"
  | .intervalRejected _ => "unable to parse snapshot interval duration"
  | .reportReady _ _ => "telemetry report ready"
  | .runAborted _ => "telemetry run aborted"
  | .receiverDropped => "telemetry outcome receiver dropped"
  | .reportWritten => "telemetry report written"
  | .reportNotWritten _ => "unable to write telemetry report"
  | .runPanicked => "telemetry run task failed"

/-- The fields of an event, each with its name. Three fields are left out: the path that a report
was written to, the directory that it could not be written to, and the words of a panic. -/
def fields : Event → List (String × String)
  | .sectionComputed part => [("category", part.category)]
  | .intervalRejected error => [("error", error.message), ("value", error.text)]
  | .reportReady identifier endpoints =>
    [("identifier", identifier), ("endpoints", toString endpoints)]
  | .runAborted error => [("category", error.stage.category), ("error", error.cause.message)]
  | .reportNotWritten error => [("error", error.message)]
  | .runStarted | .receiverDropped | .reportWritten | .runPanicked => []

end UsageReport.Event
