import Std.Async.Signal
import Std.Async.Timer
import Std.Time
import UsageReport.CommandLine.Program

/-!
The program. Only what touches the system is done here: reading the environment and the store file,
waiting, and writing.
-/

namespace UsageReport.Main

open Std.Async

/-- An error by the number that the system gives it, with or without a minus sign, and its words. -/
def numberedError (code : UInt32) (words : String) : FileError :=
  match code.toInt32.toInt.natAbs with
  | 20 => .throughFile
  | 21 => .directory
  | 36 => .nameTooLong
  | number => .other (words ++ " (os error " ++ toString number ++ ")")

def fileError (error : IO.Error) : FileError :=
  match error with
  | .noFileOrDirectory .. => .missing
  | .alreadyExists .. => .occupied
  | .inappropriateType _ code words => numberedError code words
  | .invalidArgument _ code words => numberedError code words
  | .permissionDenied _ code words => numberedError code words
  | .resourceExhausted _ code words => numberedError code words
  | .otherError code words => numberedError code words
  | _ => .other error.toString

def readContent (path : String) : IO (Except FileError Content) := do
  try
    return .ok (.ofBytes (← IO.FS.readBinFile path))
  catch error =>
    return .error (fileError error)

def readVariables : IO Variables := do
  let values ← Configuration.variableNames.mapM fun name => return (name, ← IO.getEnv name)
  return fun name => (values.find? (·.1 == name)).bind fun found => found.2.map .text

/-- Events of the level for debugging are kept back. -/
def tell (message : CommandLine.Message) : IO Unit :=
  match message with
  | .text words => IO.eprintln words
  | .event event => do
    if event.level ≠ .debug then
      let fields := event.fields.map fun field => " " ++ field.1 ++ "=" ++ field.2
      IO.eprintln (event.level.name ++ " " ++ event.message ++ String.join fields)

def collect (environment : Variables) (options : CommandLine.Options) : IO UInt32 := do
  let path := (CommandLine.configuration environment options).storePath
  let content ← readContent path
  let finish := CommandLine.Collect.finish (fun _ => content) environment options
  finish.messages.forM tell
  IO.print finish.output
  return finish.status.toUInt32

/-- The time in the name of a report file, in whole milliseconds. -/
def currentStamp : IO String := do
  let now := Std.Time.DateTime.ofTimestamp (← Std.Time.Timestamp.now) .UTC
  return now.format "uuuuMMdd'T'HHmmss.SSS'Z'"

/-- Sees to it that a directory is there, or tells what is in the way. -/
def provide (path : Path) : IO (Option FileError) := do
  try
    IO.FS.createDir path.toText
    return none
  catch error =>
    let error := fileError error
    if error = .occupied then
      if ← ((← IO.currentDir) / path.toText).isDir then return none
    return some error

/-- Writes a report to the output directory if there is one, and tells what kept it from being
written. -/
def save (plan : CommandLine.Schedule.Plan) : IO (Option FileError) := do
  match plan.configuration.outputDirectory, (plan.runner none).outcome with
  | some directory, .ready report =>
    match Path.ofText directory with
    | .error error => return some error
    | .ok path =>
      match ← Path.makeWay provide path.way with
      | some error => return some error
      | none =>
        try
          let name := reportFileName (← currentStamp)
          IO.FS.writeFile (Path.textInside directory name) report.fileText
          return none
        catch error =>
          return some (fileError error)
  | _, _ => return none

def performRun (plan : CommandLine.Schedule.Plan) (number : Nat) : IO Unit := do
  let actions := Timetable.runActions (plan.runner (← save plan)) number
  (events actions).forM fun event => tell (.event event)
  IO.print (printedText actions)
  (← IO.getStdout).flush

/-- Waits some milliseconds. False if the program was interrupted meanwhile. -/
def wait (interrupt : Signal.Waiter) (milliseconds : Nat) : IO Bool :=
  Async.block do
    let sleep ← Selector.sleep (.ofNat milliseconds)
    Selectable.one #[
      .case interrupt.selector fun _ => return false,
      .case sleep fun _ => return true]

/-- A tick that comes this many milliseconds late still counts as on time. -/
def tolerance : Nat := 5

/-- The longest wait without a look at the clock, in milliseconds. -/
def longestWait : Nat := 60 * 60 * 1000

/-- Makes the runs of a plan at the ticks of its timetable, until the program is interrupted. -/
partial def keepRunning (plan : CommandLine.Schedule.Plan) (interrupt : Signal.Waiter)
    (start number : Nat) (clock : Timetable.Clock) : IO Unit := do
  let due := clock.lastRun + plan.timetable.period
  if ← wait interrupt (min longestWait (due - ((← IO.monoMsNow) - start))) then
    let now := (← IO.monoMsNow) - start
    let elapsed := now - clock.now
    let (times, clock) := plan.timetable.step clock <|
      if now ≤ due + tolerance then .sleep elapsed else .jump elapsed
    for earlier in List.range times.length do
      performRun plan (number + earlier)
    keepRunning plan interrupt start (number + times.length) clock

def schedule (environment : Variables) (options : CommandLine.Options) : IO UInt32 := do
  let path := (CommandLine.configuration environment options).storePath
  let content ← readContent path
  match CommandLine.Schedule.plan (fun _ => content) environment options with
  | .error failure =>
    let finish := CommandLine.Finish.ofFailure [] failure
    finish.messages.forM tell
    return finish.status.toUInt32
  | .ok plan =>
    let interrupt ← Signal.Waiter.mk .sigint false
    let start ← IO.monoMsNow
    performRun plan 1
    keepRunning plan interrupt start 2 {}
    tell CommandLine.Schedule.interruption
    return 0

def usage : String :=
  "Usage: collect [--store FILE] [--output FORMAT]\n" ++
  "       schedule [--store FILE] [--output FORMAT] [--interval SECONDS] [--output-dir DIRECTORY]"

def run (arguments : List String) : IO UInt32 := do
  let environment ← readVariables
  match CommandLine.readArguments arguments with
  | none =>
    IO.eprintln usage
    return 2
  | some (.collect, options) => collect environment options
  | some (.schedule, options) => schedule environment options

end UsageReport.Main

def main (arguments : List String) : IO UInt32 := UsageReport.Main.run arguments
