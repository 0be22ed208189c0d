import UsageReport.Path

/-!
A tree of files and directories, and what the system does with a path in it: every step but the last
has to lead to a directory, and a step up from the root stays there.
-/

namespace UsageReport

inductive Entry where
  | file (content : Content)
  | directory
deriving DecidableEq

/-- Entries with the names that lead to them from the root, which is a directory without names.
Paths start at the root or at `here`. -/
structure FileTree where
  entries : List (List String × Entry)
  here : List String
deriving DecidableEq

namespace FileTree

def find? (tree : FileTree) (names : List String) : Option Entry :=
  if names = [] then some .directory
  else (tree.entries.find? fun entry => entry.1 = names).map fun entry => entry.2

/-- Checks that names lead to a directory. -/
def enter (tree : FileTree) (names : List String) : Except FileError Unit :=
  match tree.find? names with
  | none => .error .missing
  | some (.file _) => .error .throughFile
  | some .directory => .ok ()

/-- The names that steps from some place lead along. Nothing needs to be at their end. -/
def walk (tree : FileTree) (names : List String) : List String → Except FileError (List String)
  | [] => .ok names
  | step :: rest =>
    match tree.enter names with
    | .error error => .error error
    | .ok () =>
      if step = "." then tree.walk names rest
      else if step = ".." then tree.walk names.dropLast rest
      else if Path.greatestNameLength < step.utf8ByteSize then .error .nameTooLong
      else tree.walk (names ++ [step]) rest

def start (tree : FileTree) (path : Path) : List String :=
  if path.fromRoot then [] else tree.here

/-- The names of a directory. -/
def directory? (tree : FileTree) (path : Path) : Option (List String) :=
  match tree.walk (tree.start path) path.steps with
  | .error _ => none
  | .ok names => if tree.find? names = some .directory then some names else none

/-- The files right inside a directory, or none if there is no such directory. -/
def filesIn (tree : FileTree) (path : Path) : List (String × Content) :=
  match tree.directory? path with
  | none => []
  | some directory =>
    tree.entries.filterMap fun
      | (names, .file content) =>
        if names.dropLast = directory then names.getLast?.map fun name => (name, content) else none
      | (_, .directory) => none

def read (tree : FileTree) (text : String) : Except FileError Content := do
  let path ← Path.ofText text
  let names ← tree.walk (tree.start path) path.steps
  match tree.find? names with
  | none => .error .missing
  | some .directory => .error .directory
  | some (.file content) => if path.endsInSlash then .error .throughFile else .ok content

/-- The names that a path leads along if its last step leads to a name. -/
def target (tree : FileTree) (path : Path) : Except FileError (Option (List String)) := do
  let names ← tree.walk (tree.start path) path.steps
  return if path.steps.getLast?.all Path.isMove then none else some names

def makeDirectory (tree : FileTree) (path : Path) : Except FileError FileTree := do
  match ← tree.target path with
  | none => .error .occupied
  | some names =>
    if (tree.find? names).isSome then .error .occupied
    else .ok { tree with entries := tree.entries ++ [(names, .directory)] }

/-- Writes a file, over the one that is there if there is one. -/
def write (tree : FileTree) (text : String) (content : Content) : Except FileError FileTree := do
  let path ← Path.ofText text
  match ← tree.target path with
  | none => .error .directory
  | some names =>
    if path.endsInSlash || tree.find? names = some .directory then .error .directory
    else
      let others := tree.entries.filter fun entry => entry.1 ≠ names
      .ok { tree with entries := others ++ [(names, .file content)] }

/-- Sees to it that a directory is there, or tells what is in the way. -/
def provide (path : Path) : StateM FileTree (Option FileError) := fun tree =>
  match tree.makeDirectory path with
  | .ok tree => (none, tree)
  | .error error =>
    if error = .occupied && (tree.directory? path).isSome then (none, tree) else (some error, tree)

/-- Writes a file in a directory, which is made first with all that lead to it. What has been made
stays when the rest fails. -/
def save (directory name : String) (content : Content) : StateM FileTree (Option FileError) := do
  match Path.ofText directory with
  | .error error => return some error
  | .ok path =>
    match ← Path.makeWay provide path.way with
    | some error => return some error
    | none =>
      match (← get).write (Path.textInside directory name) content with
      | .error error => return some error
      | .ok tree =>
        set tree
        return none

/-- Some of what every system has at its root. No path can spell the empty name. -/
def surroundings : List (List String × Entry) :=
  ["", "bin", "boot", "dev", "etc", "home", "lib", "media", "mnt", "opt", "proc", "root", "run",
    "sbin", "srv", "sys", "tmp", "usr", "var"].map (fun name => ([name], .directory)) ++
  [(["dev", "null"], .file (.text ""))]

/-- Adds a file with the directories on the way to it. -/
def add (tree : FileTree) (text : String) (content : Content) : Except FileError FileTree := do
  let path ← Path.ofText text
  ((Path.makeWay provide (path.way.drop 1)).run tree).2.write text content

/-- A directory with some files in it, given by their paths from there. What leads out of it leads
to nothing but the surroundings. -/
def ofFiles (files : List (String × Content)) : FileTree :=
  files.foldl (fun tree file => (tree.add file.1 file.2).toOption.getD tree)
    ⟨surroundings ++ [(["", ""], .directory)], ["", ""]⟩

end UsageReport.FileTree
