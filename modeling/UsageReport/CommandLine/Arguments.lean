import UsageReport.Text.Digits

/-!
The arguments of the program: a command and its options. An option has a long and a short name and
needs a value, which follows as the next argument or stands in the same one.
-/

namespace UsageReport.CommandLine

inductive Command where
  | collect
  | schedule
deriving DecidableEq

def Command.ofName? (name : String) : Option Command :=
  if name = "collect" then some .collect
  else if name = "schedule" then some .schedule
  else none

inductive OptionName where
  | store
  | output
  | interval
  | directory
deriving DecidableEq

namespace OptionName

def long : OptionName → List Char
  | .store => "store".toList
  | .output => "output".toList
  | .interval => "interval".toList
  | .directory => "output-dir".toList

def short : OptionName → Char
  | .store => 's'
  | .output => 'o'
  | .interval => 'i'
  | .directory => 'd'

end OptionName

def Command.optionNames : Command → List OptionName
  | .collect => [.store, .output]
  | .schedule => [.store, .output, .interval, .directory]

structure Options where
  store : Option String := none
  format : Option String := none
  interval : Option Nat := none
  directory : Option String := none
deriving DecidableEq

namespace Options

/-- Sets an option that is not set yet. A path is never empty, and an interval is a number. -/
def set? (options : Options) (name : OptionName) (value : String) : Option Options :=
  match name with
  | .store =>
    if options.store.isSome || value = "" then none
    else some { options with store := some value }
  | .output =>
    if options.format.isSome then none
    else some { options with format := some value }
  | .interval =>
    if options.interval.isSome then none
    else (Text.word? value.toList).map fun seconds => { options with interval := some seconds }
  | .directory =>
    if options.directory.isSome || value = "" then none
    else some { options with directory := some value }

end Options

/-- What an argument is: an option, perhaps with its value, the end of the options, or anything
else. -/
inductive Argument where
  | option (name : OptionName) (value : Option String)
  | ending
  | other
deriving DecidableEq

namespace Argument

/-- The part before an equals sign, and the part after it if there is one. -/
def splitEquals (text : List Char) : List Char × Option (List Char) :=
  (text.takeWhile (· != '='), ((text.dropWhile (· != '=')).tail?))

def ofLong (command : Command) (text : List Char) : Argument :=
  let (name, value) := splitEquals text
  match command.optionNames.find? (·.long == name) with
  | some name => .option name (value.map String.ofList)
  | none => .other

/-- After a short name the value may follow at once or after an equals sign. -/
def ofShort (command : Command) (letter : Char) (rest : List Char) : Argument :=
  match command.optionNames.find? (·.short == letter), rest with
  | none, _ => .other
  | some name, [] => .option name none
  | some name, '=' :: value => .option name (some (String.ofList value))
  | some name, value => .option name (some (String.ofList value))

def ofText (command : Command) (text : String) : Argument :=
  match text.toList with
  | ['-', '-'] => .ending
  | '-' :: '-' :: rest => ofLong command rest
  | '-' :: letter :: rest => ofShort command letter rest
  | _ => .other

end Argument

/-- Whether an argument can be the value of the option before it: it starts with no dash, or is
one. -/
def isValue (text : String) : Bool :=
  match text.toList with
  | '-' :: _ :: _ => false
  | _ => true

/-- Reads the arguments after the command. -/
def readOptions (command : Command) (options : Options) : List String → Option Options
  | [] => some options
  | text :: rest =>
    match Argument.ofText command text with
    | .other => none
    | .ending => if rest.isEmpty then some options else none
    | .option name (some value) =>
      match options.set? name value with
      | none => none
      | some options => readOptions command options rest
    | .option name none =>
      match rest with
      | [] => none
      | value :: rest =>
        if !isValue value then none
        else
          match options.set? name value with
          | none => none
          | some options => readOptions command options rest

/-- The command and its options, or none if the arguments cannot be used. -/
def readArguments : List String → Option (Command × Options)
  | [] => none
  | name :: rest =>
    match Command.ofName? name with
    | none => none
    | some command => (readOptions command {} rest).map fun options => (command, options)

end UsageReport.CommandLine
