import UsageReport.Report.Basic
import UsageReport.Store.Bucket

/-!
The sections of a report in the order in which they are surveyed, after the identifier.
-/

namespace UsageReport

inductive Section where
  | dockerHub
  | edgeCompute
  | endpoint
  | endpointGroup
  | registry
  | resourceControl
  | runtime
  | settings
  | stack
  | tag
  | team
deriving DecidableEq

namespace Section

def all : List Section := [
  .dockerHub, .edgeCompute, .endpoint, .endpointGroup, .registry, .resourceControl, .runtime,
  .settings, .stack, .tag, .team]

def category : Section → String
  | .dockerHub => "dockerhub"
  | .edgeCompute => "edge compute"
  | .endpoint => "endpoint"
  | .endpointGroup => "endpoint group"
  | .registry => "registry"
  | .resourceControl => "resource control"
  | .runtime => "runtime"
  | .settings => "settings"
  | .stack => "stack"
  | .tag => "tag"
  | .team => "team"

end Section

/-- What a survey was at when it failed: the identifier or a section. -/
inductive Stage where
  | identifier
  | inside (part : Section)
deriving DecidableEq

def Stage.category : Stage → String
  | .identifier => "identifier"
  | .inside part => part.category

structure SurveyError where
  stage : Stage
  cause : ReadError
deriving DecidableEq

def SurveyError.message (error : SurveyError) : String :=
  "unable to compute " ++ error.stage.category ++ " telemetry: " ++ error.cause.message

/-- What a run ends in. -/
inductive Outcome where
  | ready (report : Report)
  | failed (error : SurveyError)
deriving DecidableEq

def Outcome.ofResult : Except SurveyError Report → Outcome
  | .ok report => .ready report
  | .error error => .failed error

end UsageReport
