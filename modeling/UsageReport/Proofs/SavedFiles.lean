import Mathlib.Data.List.Basic
import UsageReport.FileTree

/-!
Files that are saved to a directory one after another. The directory is made with all that lead to
it, and then holds each of the files, besides what it held before under other names.
-/

namespace UsageReport

namespace Path

/-- A name that one step of a path leads to. -/
def IsName (name : String) : Prop := name ≠ "" ∧ '/' ∉ name.toList ∧ isMove name = false

theorem textInside_eq (directory name : String) :
    (textInside directory name).toList = directory.toList ++ name.toList ∧
        directory.toList.getLast? = some '/' ∨
      (textInside directory name).toList = directory.toList ++ '/' :: name.toList := by
  unfold textInside
  split
  · exact .inl ⟨String.toList_append, by assumption⟩
  · right
    rw [String.toList_append, String.toList_append]
    simp

/-- The steps of a text, without the empty ones between slashes. -/
def stepsOf (text : List Char) : List String :=
  ((text.splitOn '/').map String.ofList).filter fun step => step ≠ ""

theorem stepsOf_append_slash (before after : List Char) :
    stepsOf (before ++ '/' :: after) = stepsOf before ++ stepsOf after := by
  unfold stepsOf
  rw [List.splitOn_append_cons_self, List.map_append, List.filter_append]

theorem stepsOf_name {name : String} (hname : IsName name) : stepsOf name.toList = [name] := by
  unfold stepsOf
  rw [List.splitOn_eq_singleton hname.2.1]
  simp [hname.1]

theorem stepsOf_textInside {name : String} (directory : String) (hname : IsName name) :
    stepsOf (textInside directory name).toList = stepsOf directory.toList ++ [name] := by
  rcases textInside_eq directory name with ⟨htext, hslash⟩ | htext
  · obtain ⟨before, hbefore⟩ := List.getLast?_eq_some_iff.mp hslash
    have hnothing : stepsOf [] = [] := rfl
    rw [htext, hbefore, List.append_assoc, List.singleton_append, stepsOf_append_slash,
      stepsOf_append_slash, stepsOf_name hname, hnothing, List.append_nil]
  · rw [htext, stepsOf_append_slash, stepsOf_name hname]

theorem ofText_eq_ok {text : String} {path : Path} (hpath : ofText text = .ok path) :
    text ≠ "" ∧ path.steps = stepsOf text.toList ∧
      path.fromRoot = decide (text.toList.head? = some '/') := by
  unfold ofText at hpath
  split at hpath
  · cases hpath
  · split at hpath
    · cases hpath
    · cases hpath
      exact ⟨by assumption, rfl, rfl⟩

theorem ofText_textInside {directory name : String} {path inside : Path} (hname : IsName name)
    (hpath : ofText directory = .ok path)
    (hinside : ofText (textInside directory name) = .ok inside) :
    inside.steps = path.steps ++ [name] ∧ inside.fromRoot = path.fromRoot := by
  obtain ⟨hdirectory, hsteps, hroot⟩ := ofText_eq_ok hpath
  obtain ⟨-, hinsideSteps, hinsideRoot⟩ := ofText_eq_ok hinside
  refine ⟨by rw [hinsideSteps, hsteps, stepsOf_textInside directory hname], ?_⟩
  have hhead : (textInside directory name).toList.head? = directory.toList.head? := by
    have hnonempty : directory.toList ≠ [] :=
      fun hnil => hdirectory (String.toList_eq_nil_iff.mp hnil)
    obtain ⟨c, rest, hchars⟩ := List.exists_cons_of_ne_nil hnonempty
    rcases textInside_eq directory name with ⟨htext, -⟩ | htext <;> rw [htext, hchars] <;> rfl
  rw [hinsideRoot, hroot, hhead]

end Path

namespace FileTree

variable {tree later : FileTree} {names : List String} {path : Path}

/-- The name and the content of an entry that is a file right inside a directory. -/
def fileIn? (directory : List String) : List String × Entry → Option (String × Content)
  | (names, .file content) =>
    if names.dropLast = directory then names.getLast?.map fun name => (name, content) else none
  | (_, .directory) => none

/-- The files right inside the directory of some names. -/
def filesAt (tree : FileTree) (directory : List String) : List (String × Content) :=
  tree.entries.filterMap (fileIn? directory)

theorem filesIn_eq_filesAt (hdirectory : tree.directory? path = some names) :
    tree.filesIn path = tree.filesAt names := by
  unfold filesIn
  rw [hdirectory]
  rfl

theorem fileIn?_eq_some_iff {entry : List String × Entry} {name : String} {content : Content} :
    fileIn? names entry = some (name, content) ↔ entry = (names ++ [name], .file content) := by
  constructor
  · intro hfile
    rcases entry with ⟨found, _ | _⟩
    · simp only [fileIn?] at hfile
      split at hfile
      · rename_i hdirectory
        obtain ⟨last, hlast, ⟨⟩⟩ := Option.map_eq_some_iff.mp hfile
        rw [← hdirectory, List.dropLast_append_getLast? _ hlast]
      · cases hfile
    · cases hfile
  · rintro rfl
    simp [fileIn?]

/-- Every directory is still there, and paths start where they did. -/
structure Keeps (tree later : FileTree) : Prop where
  here : later.here = tree.here
  directories : ∀ names,
    tree.find? names = some .directory → later.find? names = some .directory

theorem Keeps.refl (tree : FileTree) : tree.Keeps tree := ⟨rfl, fun _ => id⟩

theorem Keeps.trans {latest : FileTree} (hfirst : tree.Keeps later) (hsecond : later.Keeps latest) :
    tree.Keeps latest :=
  ⟨hsecond.here.trans hfirst.here,
    fun names hnames => hsecond.directories names (hfirst.directories names hnames)⟩

theorem enter_eq_ok_iff : tree.enter names = .ok () ↔ tree.find? names = some .directory := by
  unfold enter
  split <;> simp_all

/-- The names that one step from a directory leads along. -/
def next? (names : List String) (step : String) : Option (List String) :=
  if step = "." then some names
  else if step = ".." then some names.dropLast
  else if Path.greatestNameLength < step.utf8ByteSize then none
  else some (names ++ [step])

theorem walk_cons_eq_ok_iff {step : String} {steps found : List String} :
    tree.walk names (step :: steps) = .ok found ↔
      tree.find? names = some .directory ∧
        ∃ next, next? names step = some next ∧ tree.walk next steps = .ok found := by
  rw [walk, ← enter_eq_ok_iff]
  cases tree.enter names with
  | error error => simp
  | ok =>
      unfold next?
      simp only [true_and]
      split
      · simp
      · split
        · simp
        · split <;> simp

theorem walk_append (steps more : List String) :
    tree.walk names (steps ++ more) =
      (tree.walk names steps).bind fun middle => tree.walk middle more := by
  induction steps generalizing names with
  | nil => rfl
  | cons step steps ih =>
      rw [List.cons_append, walk, walk]
      cases tree.enter names with
      | error error => rfl
      | ok => simp only [ih]; split_ifs <;> rfl

theorem Keeps.walk (hkeeps : tree.Keeps later) {steps found : List String}
    (hwalk : tree.walk names steps = .ok found) : later.walk names steps = .ok found := by
  induction steps generalizing names with
  | nil => exact hwalk
  | cons step steps ih =>
      obtain ⟨hdirectory, next, hnext, hrest⟩ := walk_cons_eq_ok_iff.mp hwalk
      exact walk_cons_eq_ok_iff.mpr ⟨hkeeps.directories names hdirectory, next, hnext, ih hrest⟩

theorem directory?_eq_some_iff :
    tree.directory? path = some names ↔
      tree.walk (tree.start path) path.steps = .ok names ∧
        tree.find? names = some .directory := by
  unfold directory?
  cases tree.walk (tree.start path) path.steps with
  | error error => simp
  | ok found =>
      simp only [Except.ok.injEq]
      constructor
      · intro hfound
        split at hfound
        · cases hfound
          exact ⟨rfl, by assumption⟩
        · cases hfound
      · rintro ⟨rfl, hdirectory⟩
        rw [if_pos hdirectory]

theorem Keeps.directory? (hkeeps : tree.Keeps later)
    (hdirectory : tree.directory? path = some names) : later.directory? path = some names := by
  obtain ⟨hwalk, hfind⟩ := directory?_eq_some_iff.mp hdirectory
  refine directory?_eq_some_iff.mpr ⟨?_, hkeeps.directories names hfind⟩
  have hstart : later.start path = tree.start path := by rw [start, start, hkeeps.here]
  rw [hstart]
  exact hkeeps.walk hwalk

/-- Only directories have been added. -/
structure Grows (tree later : FileTree) : Prop extends Keeps tree later where
  files : ∀ names, later.filesAt names = tree.filesAt names

theorem Grows.refl (tree : FileTree) : tree.Grows tree := ⟨.refl tree, fun _ => rfl⟩

theorem Grows.trans {latest : FileTree} (hfirst : tree.Grows later) (hsecond : later.Grows latest) :
    tree.Grows latest :=
  ⟨hfirst.toKeeps.trans hsecond.toKeeps,
    fun names => (hsecond.files names).trans (hfirst.files names)⟩

theorem grows_add (tree : FileTree) (names : List String) :
    tree.Grows { tree with entries := tree.entries ++ [(names, .directory)] } := by
  refine ⟨⟨rfl, fun other hother => ?_⟩, fun other => ?_⟩
  · unfold find? at hother ⊢
    split at hother
    · exact if_pos (by assumption)
    · rename_i hnonempty
      rw [if_neg hnonempty, List.find?_append]
      obtain ⟨entry, hentry, hkind⟩ := Option.map_eq_some_iff.mp hother
      rw [hentry, Option.some_or, Option.map_some, hkind]
  · unfold filesAt
    rw [List.filterMap_append]
    exact List.append_nil _

theorem target_eq_some_iff :
    tree.target path = .ok (some names) ↔
      tree.walk (tree.start path) path.steps = .ok names ∧
        path.steps.getLast?.all Path.isMove = false := by
  unfold target
  cases tree.walk (tree.start path) path.steps with
  | error error => simp [bind, Except.bind]
  | ok found =>
      simp only [bind, Except.bind, pure, Except.pure, Except.ok.injEq]
      split <;> simp_all

theorem makeDirectory_eq_ok (hmade : tree.makeDirectory path = .ok later) :
    ∃ names, tree.walk (tree.start path) path.steps = .ok names ∧ tree.find? names = none ∧
      later = { tree with entries := tree.entries ++ [(names, .directory)] } := by
  unfold makeDirectory at hmade
  rcases htarget : tree.target path with error | _ | names
  · rw [htarget] at hmade
    cases hmade
  · rw [htarget] at hmade
    cases hmade
  · rw [htarget] at hmade
    simp only [bind, Except.bind] at hmade
    split at hmade
    · cases hmade
    · rename_i hnone
      cases hmade
      obtain ⟨hwalk, -⟩ := target_eq_some_iff.mp htarget
      exact ⟨names, hwalk, Option.not_isSome_iff_eq_none.mp hnone, rfl⟩

theorem makeDirectory_of_directory (hdirectory : tree.directory? path = some names) :
    tree.makeDirectory path = .error .occupied := by
  obtain ⟨hwalk, hfind⟩ := directory?_eq_some_iff.mp hdirectory
  unfold makeDirectory
  rcases htarget : tree.target path with error | _ | found
  · unfold target at htarget
    rw [hwalk] at htarget
    cases htarget
  · rfl
  · obtain ⟨hfound, -⟩ := target_eq_some_iff.mp htarget
    rw [hwalk] at hfound
    cases hfound
    simp only [bind, Except.bind, hfind]
    rfl

theorem directory?_of_makeDirectory (hmade : tree.makeDirectory path = .ok later) :
    (later.directory? path).isSome := by
  obtain ⟨names, hwalk, hnone, rfl⟩ := makeDirectory_eq_ok hmade
  have hgrows := tree.grows_add names
  refine Option.isSome_iff_exists.mpr ⟨names, directory?_eq_some_iff.mpr ⟨?_, ?_⟩⟩
  · exact hgrows.toKeeps.walk hwalk
  · unfold find? at hnone ⊢
    split at hnone
    · cases hnone
    · rename_i hnonempty
      rw [if_neg hnonempty, List.find?_append, Option.map_eq_none_iff.mp hnone]
      simp

theorem provide_grows (path : Path) (tree : FileTree) : tree.Grows ((provide path).run tree).2 := by
  change tree.Grows (provide path tree).2
  unfold provide
  split
  · rename_i hmade
    obtain ⟨names, -, -, rfl⟩ := makeDirectory_eq_ok hmade
    exact tree.grows_add names
  · split <;> exact .refl tree

theorem directory?_of_provide (hprovided : ((provide path).run tree).1 = none) :
    (((provide path).run tree).2.directory? path).isSome := by
  change (provide path tree).1 = none at hprovided
  change ((provide path tree).2.directory? path).isSome
  unfold provide at hprovided ⊢
  cases hmade : tree.makeDirectory path with
  | ok made => exact directory?_of_makeDirectory hmade
  | error error =>
      rw [hmade] at hprovided
      simp only at hprovided ⊢
      by_cases hthere : (decide (error = .occupied) && (tree.directory? path).isSome) = true
      · rw [if_pos hthere]
        exact ((Bool.and_eq_true _ _).mp hthere).2
      · rw [if_neg hthere] at hprovided
        cases hprovided

theorem run_makeWay_cons (path : Path) (outer : List Path) (tree : FileTree) :
    (Path.makeWay provide (path :: outer)).run tree =
      match (provide path).run tree with
      | (some .missing, later) =>
        match (Path.makeWay provide outer).run later with
        | (none, latest) => (provide path).run latest
        | (some error, latest) => (some error, latest)
      | result => result := by
  rw [Path.makeWay, StateT.run_bind]
  rcases (provide path).run tree with ⟨_ | error, later⟩
  · rfl
  · cases error <;> try rfl
    change ((Path.makeWay provide outer >>= _).run later : Id _) = _
    rw [StateT.run_bind]
    simp only
    rcases (Path.makeWay provide outer).run later with ⟨_ | error, latest⟩ <;> rfl

/-- Where there is a directory, nothing is made. -/
theorem run_makeWay_of_directory (hdirectory : tree.directory? path = some names) :
    (Path.makeWay provide path.way).run tree = (none, tree) := by
  have hprovided : (provide path).run tree = (none, tree) := by
    change provide path tree = _
    unfold provide
    rw [makeDirectory_of_directory hdirectory]
    simp [hdirectory]
  unfold Path.way
  rw [run_makeWay_cons, hprovided]

/-- A way that has been made leads to a directory. -/
theorem makeWay_spec (way : List Path) (tree : FileTree) :
    tree.Grows ((Path.makeWay provide way).run tree).2 ∧
      (((Path.makeWay provide way).run tree).1 = none → ∀ path ∈ way.head?,
        (((Path.makeWay provide way).run tree).2.directory? path).isSome) := by
  induction way generalizing tree with
  | nil => exact ⟨.refl tree, fun _ path hpath => nomatch hpath⟩
  | cons path outer ih =>
      have hfirst := provide_grows path tree
      have hthere := @directory?_of_provide tree path
      rw [run_makeWay_cons]
      rcases hprovided : (provide path).run tree with ⟨_ | error, later⟩
      · rw [hprovided] at hfirst hthere
        exact ⟨hfirst, fun _ _ hhead => Option.some.inj hhead ▸ hthere rfl⟩
      · rw [hprovided] at hfirst
        cases error <;> try exact ⟨hfirst, nofun⟩
        -- The outer directories are made, and then the inner one is tried again.
        obtain ⟨hway, -⟩ := ih later
        simp only
        rcases hmade : (Path.makeWay provide outer).run later with ⟨_ | error, latest⟩
        · rw [hmade] at hway
          refine ⟨hfirst.trans (hway.trans (provide_grows path latest)), ?_⟩
          intro hnone _ hhead
          exact Option.some.inj hhead ▸ directory?_of_provide hnone
        · rw [hmade] at hway
          exact ⟨hfirst.trans hway, nofun⟩

variable {name : String} {content : Content}

/-- A file takes the place of the one with its names. -/
def withFile (tree : FileTree) (names : List String) (content : Content) : FileTree :=
  { tree with
    entries := (tree.entries.filter fun entry => entry.1 ≠ names) ++ [(names, .file content)] }

/-- The text is that of a path along some names, as that of a file can be. -/
def LeadsTo (tree : FileTree) (text : String) (names : List String) : Prop :=
  ∃ path, Path.ofText text = .ok path ∧ path.endsInSlash = false ∧
    tree.target path = .ok (some names)

theorem write_eq_ok_iff {text : String} :
    tree.write text content = .ok later ↔
      ∃ names, tree.LeadsTo text names ∧ tree.find? names ≠ some .directory ∧
        later = tree.withFile names content := by
  constructor
  · intro hwrite
    unfold write at hwrite
    cases hpath : Path.ofText text with
    | error error => rw [hpath] at hwrite; cases hwrite
    | ok path =>
        rw [hpath] at hwrite
        simp only [bind, Except.bind] at hwrite
        rcases htarget : tree.target path with error | _ | names
        · rw [htarget] at hwrite
          cases hwrite
        · rw [htarget] at hwrite
          cases hwrite
        · rw [htarget] at hwrite
          simp only at hwrite
          split at hwrite
          · cases hwrite
          · rename_i hfree
            cases hwrite
            simp only [Bool.or_eq_true, decide_eq_true_eq, not_or, Bool.not_eq_true] at hfree
            exact ⟨names, ⟨path, hpath, hfree.1, htarget⟩, hfree.2, rfl⟩
  · rintro ⟨names, ⟨path, hpath, hslash, htarget⟩, hfile, rfl⟩
    simp [write, hpath, htarget, hslash, hfile, bind, Except.bind, withFile]

theorem Keeps.leadsTo {text : String} (hkeeps : tree.Keeps later)
    (hleads : tree.LeadsTo text names) : later.LeadsTo text names := by
  obtain ⟨path, hpath, hslash, htarget⟩ := hleads
  obtain ⟨hwalk, hlast⟩ := target_eq_some_iff.mp htarget
  refine ⟨path, hpath, hslash, target_eq_some_iff.mpr ⟨?_, hlast⟩⟩
  have hstart : later.start path = tree.start path := by rw [start, start, hkeeps.here]
  rw [hstart]
  exact hkeeps.walk hwalk

theorem find?_withFile_of_ne {other : List String} (hne : other ≠ names) :
    (tree.withFile names content).find? other = tree.find? other := by
  unfold find?
  split
  · rfl
  · have hothers : ((tree.entries.filter fun entry => entry.1 ≠ names).find? fun entry =>
        entry.1 = other) = tree.entries.find? fun entry => entry.1 = other := by
      rw [List.find?_filter]
      congr 1
      funext entry
      by_cases heq : entry.1 = other <;> simp [heq, hne]
    have hlast : ([(names, Entry.file content)].find? fun entry => entry.1 = other) = none :=
      List.find?_eq_none.mpr (by simpa using hne.symm)
    rw [withFile, List.find?_append, hothers, hlast, Option.or_none]

theorem keeps_withFile (hfile : tree.find? names ≠ some .directory) :
    tree.Keeps (tree.withFile names content) := by
  refine ⟨rfl, fun other hother => ?_⟩
  have hne : other ≠ names := by
    rintro rfl
    exact hfile hother
  rw [find?_withFile_of_ne hne]
  exact hother

theorem filesAt_withFile (tree : FileTree) (names : List String) (name : String)
    (content : Content) :
    (tree.withFile (names ++ [name]) content).filesAt names =
      ((tree.filesAt names).filter fun file => file.1 ≠ name) ++ [(name, content)] := by
  unfold withFile filesAt
  rw [List.filterMap_append]
  congr 1
  · rw [List.filterMap_filter, List.filter_filterMap]
    congr 1
    funext entry
    cases hfile : fileIn? names entry with
    | none => simp
    | some file =>
        obtain rfl := fileIn?_eq_some_iff.mp hfile
        by_cases hname : file.1 = name <;> simp [hname, Option.filter]
  · simp [fileIn?]

theorem run_save (directory name : String) (content : Content) (tree : FileTree) :
    (save directory name content).run tree =
      match Path.ofText directory with
      | .error error => (some error, tree)
      | .ok path =>
        match (Path.makeWay provide path.way).run tree with
        | (some error, made) => (some error, made)
        | (none, made) =>
          match made.write (Path.textInside directory name) content with
          | .error error => (some error, made)
          | .ok later => (none, later) := by
  unfold save
  cases Path.ofText directory with
  | error error => rfl
  | ok path =>
      simp only [StateT.run_bind]
      rcases (Path.makeWay provide path.way).run tree with ⟨_ | error, made⟩
      · change ((get >>= _ : StateM FileTree (Option FileError)).run made : Id _) = _
        rw [StateT.run_bind, StateT.run_get]
        simp only [pure_bind]
        cases made.write (Path.textInside directory name) content <;> rfl
      · rfl

theorem LeadsTo.eq_of_textInside {directory : String} {found : List String}
    (hleads : tree.LeadsTo (Path.textInside directory name) found) (hname : Path.IsName name)
    (hpath : Path.ofText directory = .ok path) (hnames : tree.directory? path = some names) :
    found = names ++ [name] := by
  obtain ⟨inside, hinside, -, htarget⟩ := hleads
  obtain ⟨hwalk, -⟩ := target_eq_some_iff.mp htarget
  obtain ⟨hsteps, hroot⟩ := Path.ofText_textInside hname hpath hinside
  obtain ⟨hmiddle, -⟩ := directory?_eq_some_iff.mp hnames
  have hstart : tree.start inside = tree.start path := by rw [start, start, hroot]
  rw [hstart, hsteps, walk_append, hmiddle] at hwalk
  obtain ⟨-, next, hnext, hend⟩ := walk_cons_eq_ok_iff.mp hwalk
  cases hend
  have hstays : ¬name = "." ∧ ¬name = ".." := by simpa [Path.isMove] using hname.2.2
  unfold next? at hnext
  rw [if_neg hstays.1, if_neg hstays.2] at hnext
  split at hnext
  · cases hnext
  · exact (Option.some.inj hnext).symm

/-- A file that has been saved is in the directory, which has been made for it. -/
theorem save_eq_none {directory : String} (hname : Path.IsName name)
    (hsaved : (save directory name content).run tree = (none, later)) :
    ∃ path names made, Path.ofText directory = .ok path ∧
      (Path.makeWay provide path.way).run tree = (none, made) ∧ tree.Grows made ∧
      made.directory? path = some names ∧
      made.LeadsTo (Path.textInside directory name) (names ++ [name]) ∧
      made.find? (names ++ [name]) ≠ some .directory ∧
      later = made.withFile (names ++ [name]) content := by
  rw [run_save] at hsaved
  cases hpath : Path.ofText directory with
  | error error => rw [hpath] at hsaved; cases hsaved
  | ok path =>
      rw [hpath] at hsaved
      obtain ⟨hgrows, hthere⟩ := makeWay_spec path.way tree
      rcases hway : (Path.makeWay provide path.way).run tree with ⟨_ | error, made⟩
      · rw [hway] at hgrows hthere
        simp only [hway] at hsaved
        obtain ⟨names, hnames⟩ := Option.isSome_iff_exists.mp (hthere rfl path rfl)
        cases hwrite : made.write (Path.textInside directory name) content with
        | error error =>
            simp only [hwrite] at hsaved
            cases hsaved
        | ok written =>
            simp only [hwrite] at hsaved
            cases hsaved
            obtain ⟨found, hleads, hfile, rfl⟩ := write_eq_ok_iff.mp hwrite
            obtain rfl := hleads.eq_of_textInside hname hpath hnames
            exact ⟨path, names, made, rfl, hway, hgrows, hnames, hleads, hfile, rfl⟩
      · simp only [hway] at hsaved
        cases hsaved

theorem run_save_of_directory {directory : String} {found : List String}
    (hpath : Path.ofText directory = .ok path) (hnames : tree.directory? path = some names)
    (hleads : tree.LeadsTo (Path.textInside directory name) found)
    (hfile : tree.find? found ≠ some .directory) :
    (save directory name content).run tree = (none, tree.withFile found content) := by
  have hwrite : tree.write (Path.textInside directory name) content =
      .ok (tree.withFile found content) := write_eq_ok_iff.mpr ⟨found, hleads, hfile, rfl⟩
  simp only [run_save, hpath, run_makeWay_of_directory hnames, hwrite]

/-- The file could be saved in the directory. -/
def Admits (tree : FileTree) (directory : String) (file : String × Content) : Prop :=
  ((save directory file.1 file.2).run tree).1 = none

/-- What could have been saved before another file was, can be saved after it. -/
theorem Admits.after_save {directory : String} {first second : String × Content}
    (hadmits : tree.Admits directory second) (hfirst : Path.IsName first.1)
    (hsecond : Path.IsName second.1) (hne : first.1 ≠ second.1)
    (hsaved : (save directory first.1 first.2).run tree = (none, later)) :
    later.Admits directory second := by
  obtain ⟨path, names, made, hpath, hway, -, hnames, -, hfile, rfl⟩ := save_eq_none hfirst hsaved
  have hother : (save directory second.1 second.2).run tree =
      (none, ((save directory second.1 second.2).run tree).2) := Prod.ext hadmits rfl
  obtain ⟨otherPath, otherNames, otherMade, hotherPath, hotherWay, -, hotherNames, hleads, hfree,
    -⟩ := save_eq_none hsecond hother
  -- Both are saved in the same directory, which is there once the first has been.
  obtain rfl : path = otherPath := Except.ok.inj (hpath.symm.trans hotherPath)
  obtain rfl : made = otherMade := congrArg Prod.snd (hway.symm.trans hotherWay)
  obtain rfl : names = otherNames := Option.some.inj (hnames.symm.trans hotherNames)
  have hkeeps : made.Keeps (made.withFile (names ++ [first.1]) first.2) := keeps_withFile hfile
  have hdiffer : names ++ [second.1] ≠ names ++ [first.1] := by simpa using hne.symm
  unfold Admits
  rw [run_save_of_directory hpath (hkeeps.directory? hnames) (hkeeps.leadsTo hleads)]
  rw [find?_withFile_of_ne hdiffer]
  exact hfree

/-- Saves files in a directory one after another, and tells of each what kept it from being saved.
-/
def saveAll (directory : String) (files : List (String × Content)) :
    StateM FileTree (List (Option FileError)) :=
  files.mapM fun file => save directory file.1 file.2

theorem run_saveAll_cons (directory : String) (file : String × Content)
    (files : List (String × Content)) (tree : FileTree) :
    (saveAll directory (file :: files)).run tree =
      let first := (save directory file.1 file.2).run tree
      let rest := (saveAll directory files).run first.2
      (first.1 :: rest.1, rest.2) := by
  rw [saveAll, List.mapM_cons]
  rfl

/-- Files with different names that could each be saved in the directory can be saved there one
after another. All are then in the directory, in the places of those with their names. -/
theorem saveAll_spec {directory : String} {files : List (String × Content)}
    (hnames : ∀ file ∈ files, Path.IsName file.1) (hnodup : (files.map Prod.fst).Nodup)
    (hadmits : ∀ file ∈ files, tree.Admits directory file) :
    ∃ later, (saveAll directory files).run tree = (List.replicate files.length none, later) ∧
      tree.Keeps later ∧
      (files ≠ [] → ∃ path names, Path.ofText directory = .ok path ∧
        later.directory? path = some names) ∧
      ∀ path names, Path.ofText directory = .ok path → later.directory? path = some names →
        later.filesAt names =
          ((tree.filesAt names).filter fun file => file.1 ∉ files.map Prod.fst) ++ files := by
  induction files generalizing tree with
  | nil =>
      refine ⟨tree, rfl, .refl tree, fun hnonempty => absurd rfl hnonempty, ?_⟩
      intro path names _ _
      simp
  | cons file files ih =>
      obtain ⟨hfirst, hothers⟩ := List.forall_mem_cons.mp hnames
      obtain ⟨hnew, hdistinct⟩ := List.nodup_cons.mp hnodup
      obtain ⟨hadmitted, hrest⟩ := List.forall_mem_cons.mp hadmits
      have hsaved : (save directory file.1 file.2).run tree =
          (none, ((save directory file.1 file.2).run tree).2) := Prod.ext hadmitted rfl
      generalize ((save directory file.1 file.2).run tree).2 = middle at hsaved
      have hstill : ∀ other ∈ files, middle.Admits directory other := by
        intro other hother
        refine (hrest other hother).after_save hfirst (hothers other hother) ?_ hsaved
        intro heq
        exact hnew (heq ▸ List.mem_map_of_mem hother)
      obtain ⟨later, hrun, hlaterKeeps, -, hlaterFiles⟩ := ih hothers hdistinct hstill
      obtain ⟨path, names, made, hpath, -, hgrows, hmade, -, hfile, rfl⟩ :=
        save_eq_none hfirst hsaved
      have hkeeps : made.Keeps (made.withFile (names ++ [file.1]) file.2) := keeps_withFile hfile
      have hstays := hlaterKeeps.directory? (hkeeps.directory? hmade)
      refine ⟨later, ?_, (hgrows.toKeeps.trans hkeeps).trans hlaterKeeps,
        fun _ => ⟨path, names, hpath, hstays⟩, ?_⟩
      · rw [run_saveAll_cons, hsaved]
        simp only [hrun]
        rfl
      · intro other found hother hfound
        obtain rfl : path = other := Except.ok.inj (hpath.symm.trans hother)
        obtain rfl : names = found := Option.some.inj (hstays.symm.trans hfound)
        rw [hlaterFiles path names hpath hstays, filesAt_withFile, hgrows.files,
          List.filter_append, List.filter_filter, List.append_assoc]
        congr 1
        · congr 1
          funext other
          rw [List.map_cons, ← Bool.decide_and, decide_eq_decide, List.mem_cons, not_or,
            and_comm]
        · rw [List.filter_cons_of_pos (by simpa using hnew), List.filter_nil,
            List.singleton_append]

end FileTree

end UsageReport
