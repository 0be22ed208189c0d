import UsageReport.File

/-!
Paths: steps between slashes, taken from the root or from where one stands. A path that is empty or
too long is refused before any of its steps is taken.
-/

namespace UsageReport

structure Path where
  fromRoot : Bool
  /-- What stands between slashes. Several slashes count as one. -/
  steps : List String
  /-- Only a directory can be named with a slash at the end. -/
  endsInSlash : Bool
deriving DecidableEq

namespace Path

/-- The bytes of the longest path. -/
def greatestLength : Nat := 4095

/-- The bytes of the longest name. -/
def greatestNameLength : Nat := 255

def ofText (text : String) : Except FileError Path :=
  if text = "" then .error .missing
  else if greatestLength < text.utf8ByteSize then .error .nameTooLong
  else .ok {
    fromRoot := text.toList.head? = some '/'
    steps := ((text.toList.splitOn '/').map String.ofList).filter fun step => step ≠ ""
    endsInSlash := text.toList.getLast? = some '/' }

def toText (path : Path) : String :=
  (if path.fromRoot then "/" else "") ++ "/".intercalate path.steps ++
    (if path.endsInSlash && !path.steps.isEmpty then "/" else "")

/-- The text of a path into a directory. -/
def textInside (directory name : String) : String :=
  if directory.toList.getLast? = some '/' then directory ++ name else directory ++ "/" ++ name

/-- A step that leads to no new name: it stays, or goes up. -/
def isMove (step : String) : Bool := step = "." || step = ".."

/-- The way to a directory: its path, then the directories on the way there, inmost first. Steps
that stay are left out on the way, but not in the path itself. -/
def way (path : Path) : List Path :=
  let steps := path.steps.filter fun step => step ≠ "."
  path :: ((List.range steps.length).drop 1).reverse.map fun count =>
    { fromRoot := path.fromRoot, steps := steps.take count, endsInSlash := false }

/-- Makes the directories of a way, as few as it takes: the outer ones only where an inner one
cannot be made for lack of them. `make` makes one directory, or tells what keeps it from being
there. -/
def makeWay {m : Type → Type} [Monad m] (make : Path → m (Option FileError)) :
    List Path → m (Option FileError)
  | [] => return none
  | path :: outer => do
    match ← make path with
    | some .missing =>
      match ← makeWay make outer with
      | none => make path
      | failure => return failure
    | result => return result

end UsageReport.Path
