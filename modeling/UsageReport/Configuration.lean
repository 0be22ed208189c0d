import UsageReport.File
import UsageReport.Text.Blank
import UsageReport.Text.Digits
import UsageReport.Text.Quoted

/-!
Settings of the program. What the command line gives comes first, then environment variables, then
fixed values. A variable that is no text, or only blanks, counts as unset; the others are taken as
they are.
-/

namespace UsageReport

/-- Environment variables by name. -/
abbrev Variables := String → Option Content

def Variables.value? (environment : Variables) (name : String) : Option String :=
  ((environment name).bind Content.text?).filter fun value => !Text.isAllBlank value

structure Configuration where
  storePath : String
  version : String
  outputDirectory : Option String
deriving DecidableEq

namespace Configuration

/-- The variables that hold settings. -/
def variableNames : List String := [
  "TELEMETRY_STORE_PATH", "TELEMETRY_APP_VERSION", "TELEMETRY_OUTPUT_DIR",
  "TELEMETRY_INTERVAL_SECONDS"]

def ofVariables (environment : Variables) : Configuration where
  storePath := (environment.value? "TELEMETRY_STORE_PATH").getD "./data/store.json"
  version := (environment.value? "TELEMETRY_APP_VERSION").getD "0.1.0"
  outputDirectory := environment.value? "TELEMETRY_OUTPUT_DIR"

/-- Given values replace the ones that were set, even when they are empty. -/
def override (configuration : Configuration) (storePath outputDirectory : Option String) :
    Configuration where
  storePath := storePath.getD configuration.storePath
  version := configuration.version
  outputDirectory := outputDirectory.or configuration.outputDirectory

/-- The shortest time between scheduled runs, in seconds. -/
def shortestInterval : Nat := 10

/-- One day. -/
def usualInterval : Nat := 24 * 60 * 60

inductive IntervalError where
  | notSeconds (text : String)
  | tooShort (seconds : Nat)
deriving DecidableEq

def IntervalError.message : IntervalError → String
  | .notSeconds text =>
    "Config error: TELEMETRY_INTERVAL_SECONDS must be a number of seconds, got " ++ Text.quoted text
  | .tooShort seconds =>
    "Config error: interval must be >= " ++ toString shortestInterval ++ " seconds, got " ++
      toString seconds

/-- The interval asked for, whether it is long enough or not. The text of the variable may have
blanks at its ends. -/
def requestedInterval (given : Option Nat) (environment : Variables) : Except IntervalError Nat :=
  match given with
  | some seconds => .ok seconds
  | none =>
    match environment.value? "TELEMETRY_INTERVAL_SECONDS" with
    | none => .ok usualInterval
    | some text =>
      match Text.word? (Text.trimmed text.toList) with
      | some seconds => .ok seconds
      | none => .error (.notSeconds text)

/-- The seconds between scheduled runs. -/
def interval (given : Option Nat) (environment : Variables) : Except IntervalError Nat :=
  match requestedInterval given environment with
  | .error error => .error error
  | .ok seconds =>
    if seconds < shortestInterval then .error (.tooShort seconds) else .ok seconds

theorem interval_pos {given : Option Nat} {environment : Variables} {seconds : Nat}
    (accepted : interval given environment = .ok seconds) : 0 < seconds := by
  unfold interval at accepted
  split at accepted
  · cases accepted
  · split at accepted
    · cases accepted
    · cases accepted
      simp only [shortestInterval] at *
      omega

end UsageReport.Configuration
