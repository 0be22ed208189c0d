import UsageReport.CommandLine.Arguments
import UsageReport.Configuration
import UsageReport.FileTree
import UsageReport.Run.Timetable
import UsageReport.Store.Load

/-!
What the two commands do. Each fails with the first problem that it meets: the output format, then
for a schedule the interval, then the store, and for a collection the survey.
-/

namespace UsageReport.CommandLine

inductive Failure where
  | format (name : String)
  | interval (error : Configuration.IntervalError)
  | load (path : String) (error : Store.LoadError)
  | survey (error : SurveyError)
  | noOutcome
deriving DecidableEq

namespace Failure

/-- What lies behind an error of loading is told once more after it. For a JSON failure these are
the words of the JSON library again, left out here as well. -/
def cause : Store.LoadError → String
  | .file error => ": " ++ error.words
  | .json _ => ""

def message : Failure → String
  | .format name => Format.unknownMessage name
  | .interval error => error.message
  | .load path error => "unable to load store " ++ path ++ ": " ++ error.message ++ cause error
  | .survey error => error.message
  | .noOutcome => "telemetry run ended without an outcome"

end Failure

/-- A text for whoever runs the program, or an event for the log. -/
inductive Message where
  | text (words : String)
  | event (event : Event)
deriving DecidableEq

def Message.text? : Message → Option String
  | .text words => some words
  | .event _ => none

/-- How a command ends: its exit status, what it printed, and its messages. -/
structure Finish where
  status : Nat
  output : String
  messages : List Message
deriving DecidableEq

/-- The end of a command that failed after some messages. -/
def Finish.ofFailure (messages : List Message) (failure : Failure) : Finish :=
  ⟨1, "", messages ++ [.text ("Error: " ++ failure.message)]⟩

/-- Reads the content of a file. -/
abbrev Files := String → Except FileError Content

def format (options : Options) (usual : String) : Except Failure Format :=
  let name := options.format.getD usual
  match Format.ofName? name with
  | some format => .ok format
  | none => .error (.format name)

def configuration (environment : Variables) (options : Options) : Configuration :=
  (Configuration.ofVariables environment).override options.store options.directory

def loadStore (files : Files) (path : String) : Except Failure Store :=
  (Store.ofContent (files path)).mapError (.load path)

namespace Collect

def loading (path : String) : Message := .text ("Loading store from " ++ path ++ "...")

def computing : Message := .text "Computing telemetry..."

/-- The outcome of a run reaches the command over a channel. -/
def runner (version : String) (store : Store) : Runner where
  host := { version }
  source := ⟨store, none⟩
  destinations := [.channel]

def finish (files : Files) (environment : Variables) (options : Options) : Finish :=
  match format options "text" with
  | .error failure => .ofFailure [] failure
  | .ok format =>
    let configuration := configuration environment options
    match loadStore files configuration.storePath with
    | .error failure => .ofFailure [loading configuration.storePath] failure
    | .ok store =>
      let actions := (runner configuration.version store).actions 1
      let messages :=
        loading configuration.storePath :: computing :: (events actions).map .event
      match (sentTo 0 actions).head? with
      | some (.ready report) => ⟨0, report.render format ++ "\n", messages⟩
      | some (.failed error) => .ofFailure messages (.survey error)
      | none => .ofFailure messages .noOutcome

end Collect

namespace Schedule

/-- All that is settled before the first run. -/
structure Plan where
  format : Format
  /-- The seconds between runs. -/
  interval : Nat
  interval_pos : 0 < interval
  configuration : Configuration
  store : Store
deriving DecidableEq

def plan (files : Files) (environment : Variables) (options : Options) : Except Failure Plan :=
  match format options "json" with
  | .error failure => .error failure
  | .ok format =>
    match interval : Configuration.interval options.interval environment with
    | .error error => .error (.interval error)
    | .ok seconds =>
      let configuration := configuration environment options
      (loadStore files configuration.storePath).map fun store =>
        ⟨format, seconds, Configuration.interval_pos interval, configuration, store⟩

/-- The ticks of a plan, in milliseconds. -/
def Plan.timetable (plan : Plan) : Timetable :=
  ⟨1000 * plan.interval, Nat.mul_pos (Nat.succ_pos 999) plan.interval_pos⟩

/-- Reports are printed, and written to the output directory if there is one. -/
def Plan.runner (plan : Plan) (obstacle : Option FileError) : Runner where
  host := { version := plan.configuration.version }
  source := ⟨plan.store, none⟩
  destinations := .printer plan.format ::
    match plan.configuration.outputDirectory with
    | some _ => [.directory obstacle]
    | none => []

/-- Writes the report of a run to the output directory if there is one, and tells what kept it from
being written. -/
def Plan.save (plan : Plan) (stamp : String) : StateM FileTree (Option FileError) :=
  match plan.configuration.outputDirectory, (plan.runner none).outcome with
  | some directory, .ready report =>
    FileTree.save directory (reportFileName stamp) (.text report.fileText)
  | _, _ => return none

def interruption : Message := .text "\nCtrl+C received, exiting..."

end Schedule

/-- The command line in a tree of files. A schedule is interrupted after its first run; `stamp`
names the file of that run. The entry of the log that the schedule starts is left out. None if the
arguments cannot be used. -/
def run (tree : FileTree) (environment : Variables) (stamp : String) (arguments : List String) :
    Option (Finish × FileTree) :=
  match readArguments arguments with
  | none => none
  | some (.collect, options) => some (Collect.finish tree.read environment options, tree)
  | some (.schedule, options) =>
    match Schedule.plan tree.read environment options with
    | .error failure => some (.ofFailure [] failure, tree)
    | .ok plan =>
      let (obstacle, tree) := (plan.save stamp).run tree
      let actions := Timetable.runActions (plan.runner obstacle) 1
      some (
        ⟨0, printedText actions, (events actions).map .event ++ [Schedule.interruption]⟩,
        tree)

end UsageReport.CommandLine
