import UsageReport.Proofs.Digits
import UsageReport.Report.Format

/-!
The lines of a page. If no text of a report is broken by a line feed, what stands in front of the
line feeds of its page are the lines that the page was put together from.
-/

namespace UsageReport

namespace Text

/-- What stands in front of each line feed of a text. -/
def lines (text : String) : List String :=
  (text.toList.splitOn '\n').dropLast.map String.ofList

/-- The text does not go on in another line. -/
def OneLine (text : String) : Prop := '\n' ∉ text.toList

theorem lineFeed_notMem_toDigits (n : Nat) : '\n' ∉ Nat.toDigits 10 n := by
  intro hmem
  exact absurd (isDigit_of_mem_decimal hmem) (by decide)

theorem toList_join_lineFeed (rows : List String) :
    (String.join (rows.map (· ++ "\n"))).toList = rows.flatMap fun row => row.toList ++ ['\n'] := by
  rw [String.toList_join, List.flatMap_map]
  congr 1
  funext row
  exact String.toList_append

theorem splitOn_flatMap {rows : List String} (hrows : ∀ row ∈ rows, OneLine row) :
    (rows.flatMap fun row => row.toList ++ ['\n']).splitOn '\n' =
      rows.map String.toList ++ [[]] := by
  induction rows with
  | nil => rfl
  | cons row rows ih =>
      obtain ⟨hrow, hrest⟩ := List.forall_mem_cons.mp hrows
      have hfirst : List.splitOn '\n' row.toList = [row.toList] :=
        List.splitOn_eq_singleton hrow
      rw [List.flatMap_cons, List.append_assoc, List.singleton_append, List.splitOn_eq_splitOnP,
        List.splitOnP_append_cons _ _ (by decide), ← List.splitOn_eq_splitOnP,
        ← List.splitOn_eq_splitOnP, hfirst, ih hrest]
      rfl

theorem lines_join {rows : List String} (hrows : ∀ row ∈ rows, OneLine row) :
    lines (String.join (rows.map (· ++ "\n"))) = rows := by
  rw [lines, toList_join_lineFeed, splitOn_flatMap hrows, List.dropLast_concat, List.map_map]
  simp

theorem count_lineFeed_join {rows : List String} (hrows : ∀ row ∈ rows, OneLine row) :
    (String.join (rows.map (· ++ "\n"))).toList.count '\n' = rows.length := by
  rw [toList_join_lineFeed]
  induction rows with
  | nil => rfl
  | cons row rows ih =>
      obtain ⟨hrow, hrest⟩ := List.forall_mem_cons.mp hrows
      rw [List.flatMap_cons, List.count_append, List.count_append, ih hrest,
        List.count_eq_zero.mpr hrow, List.length_cons, Nat.zero_add, Nat.add_comm]
      rfl

end Text

open Text

namespace Binary64

theorem lineFeed_notMem_positionalText {ending digits : List Char} (point : Int)
    (hending : '\n' ∉ ending) (hdigits : '\n' ∉ digits) :
    '\n' ∉ positionalText ending digits point := by
  unfold positionalText
  split
  · simp [hending, hdigits]
  · split
    · rw [List.mem_append, List.mem_cons, not_or, not_or]
      exact ⟨fun hmem => hdigits (List.mem_of_mem_take hmem), by decide,
        fun hmem => hdigits (List.mem_of_mem_drop hmem)⟩
    · simp [hdigits]

theorem lineFeed_notMem_text_plain (x : Binary64) : '\n' ∉ x.text .plain := by
  have hpositional : (x.rank = 0 || Layout.plain.isPositional
      (shortestDecimal Layout.plain.tie x.rank).leadingExponent) = true := Bool.or_true _
  simp only [text, hpositional, if_true]
  rw [List.mem_append, not_or]
  constructor
  · split <;> simp
  · apply lineFeed_notMem_positionalText
    · decide
    · exact lineFeed_notMem_toDigits _

end Binary64

namespace Report

/-- The texts of a report that its page shows. -/
def shownTexts (report : Report) : List String :=
  [report.identifier, report.runtime.version, report.runtime.platform,
    report.runtime.architecture, report.settings.authenticationMode] ++
  (report.endpoint.endpoints.flatMap fun entry => [entry.environment, entry.docker.version]) ++
  report.registry.registries.map RegistryEntry.kind

theorem lineFeed_notMem_rule : '\n' ∉ rule.toList := by
  intro hmem
  have hrule : rule.toList = List.replicate 60 '─' := String.toList_ofList
  exact absurd (List.eq_of_mem_replicate (hrule ▸ hmem)) (by decide)

theorem lineFeed_notMem_yesNo (value : Bool) : '\n' ∉ (yesNo value).toList := by
  cases value <;> simp [yesNo]

theorem lineFeed_notMem_modeName (entry : EnvironmentUsage) : '\n' ∉ (modeName entry).toList := by
  unfold modeName
  split <;> simp

/-- How the version of a snapshot is told. -/
def shownVersion (docker : DockerUsage) : String :=
  if docker.version = "" then "(no snapshot)" else docker.version

/-- What follows the version of a snapshot. -/
def shownCounts (docker : DockerUsage) : String :=
  (if docker.swarm then " swarm" else "") ++
    "  containers=" ++ toString docker.containerCount ++ " images=" ++ toString docker.imageCount ++
    " volumes=" ++ toString docker.volumeCount ++ " services=" ++ toString docker.serviceCount ++
    " stacks=" ++ toString docker.stackCount ++ " nodes=" ++ toString docker.nodeCount

theorem dockerLine_eq (docker : DockerUsage) :
    dockerLine docker = "      Docker " ++ shownVersion docker ++ shownCounts docker := by
  delta dockerLine
  simp only [shownVersion, shownCounts, String.append_assoc]

/-- The line of the environment at some place. -/
def entryLine (count place : Nat) (entry : EnvironmentUsage) : String :=
  "  [" ++ toString place ++ "/" ++ toString count ++ "] " ++
    (if entry.environment = "" then "(other)" else entry.environment) ++
    " (" ++ modeName entry ++ ")"

theorem environmentLines_eq (count place : Nat) (entry : EnvironmentUsage) :
    environmentLines count place entry = entryLine count place entry ::
      if entry.environment = "" then [] else [dockerLine entry.docker] := rfl

section OneLine

attribute [local simp] OneLine lineFeed_notMem_toDigits Binary64.lineFeed_notMem_text_plain
  lineFeed_notMem_rule lineFeed_notMem_yesNo lineFeed_notMem_modeName titleLines or_imp forall_and

theorem oneLine_settingsLines {settings : SettingsUsage} (dockerHub : DockerHubUsage)
    (hmode : '\n' ∉ settings.authenticationMode.toList) :
    ∀ line ∈ settingsLines settings dockerHub, OneLine line := by
  have hdockerHub : '\n' ∉
      (if dockerHub.authentication then "authenticated" else "anonymous").toList := by
    split <;> simp
  simp [settingsLines, hmode, hdockerHub]

theorem oneLine_dockerLine {docker : DockerUsage} (hversion : '\n' ∉ docker.version.toList) :
    OneLine (dockerLine docker) := by
  have hshown : '\n' ∉ (shownVersion docker).toList := by
    unfold shownVersion
    split
    · simp
    · exact hversion
  have hswarm : '\n' ∉ (if docker.swarm then " swarm" else "").toList := by
    split <;> simp
  simp [dockerLine_eq, shownCounts, hshown, hswarm]

theorem oneLine_entryLine (count place : Nat) {entry : EnvironmentUsage}
    (hname : '\n' ∉ entry.environment.toList) : OneLine (entryLine count place entry) := by
  have hshown : '\n' ∉
      (if entry.environment = "" then "(other)" else entry.environment).toList := by
    split
    · simp
    · exact hname
  simp [entryLine, hshown]

theorem oneLine_environmentsLines (count place : Nat) {entries : List EnvironmentUsage}
    (hentries : ∀ entry ∈ entries,
      '\n' ∉ entry.environment.toList ∧ '\n' ∉ entry.docker.version.toList) :
    ∀ line ∈ environmentsLines count place entries, OneLine line := by
  induction entries generalizing place with
  | nil => exact fun line hline => nomatch hline
  | cons entry entries ih =>
      obtain ⟨⟨hname, hversion⟩, hrest⟩ := List.forall_mem_cons.mp hentries
      rw [environmentsLines, environmentLines_eq, List.forall_mem_append, List.forall_mem_cons]
      refine ⟨⟨oneLine_entryLine count place hname, ?_⟩, ih (place + 1) hrest⟩
      split
      · exact fun line hline => nomatch hline
      · exact List.forall_mem_singleton.mpr (oneLine_dockerLine hversion)

theorem oneLine_resourceControlLines (usage : ResourceControlUsage) :
    ∀ line ∈ resourceControlLines usage, OneLine line := by
  rw [resourceControlLines, List.forall_mem_append]
  constructor
  · simp
  · split <;> simp

theorem oneLine_pageLines {report : Report} (hshown : ∀ text ∈ report.shownTexts, OneLine text) :
    ∀ line ∈ report.pageLines, OneLine line := by
  simp only [shownTexts, OneLine, List.forall_mem_append, List.forall_mem_cons,
    List.forall_mem_flatMap, List.forall_mem_map] at hshown
  obtain ⟨⟨⟨hidentifier, hversion, hplatform, harchitecture, hmode, -⟩, hentries⟩, hkinds⟩ := hshown
  simp only [pageLines, List.forall_mem_append]
  refine ⟨⟨⟨⟨⟨⟨⟨?_, ?_⟩, ?_⟩, ?_⟩, ?_⟩, ?_⟩, ?_⟩, ?_⟩
  · simp [identityLines, hidentifier]
  · simp [runtimeLines, hversion, hplatform, harchitecture]
  · exact oneLine_settingsLines report.dockerHub hmode
  · rw [endpointLines, List.forall_mem_append]
    constructor
    · simp
    · apply oneLine_environmentsLines
      exact fun entry hentry => ⟨(hentries entry hentry).1, (hentries entry hentry).2.1⟩
  · simp [edgeComputeLines]
  · simpa [registryLines] using hkinds
  · exact oneLine_resourceControlLines report.resourceControl
  · simp [stackTagTeamLines]

end OneLine

/-- The lines that a report is printed in. -/
def lines (report : Report) : List String := Text.lines (report.render .text)

theorem lines_eq {report : Report} (hshown : ∀ text ∈ report.shownTexts, OneLine text) :
    report.lines = report.pageLines :=
  lines_join (oneLine_pageLines hshown)

theorem length_environmentsLines (count place : Nat) (entries : List EnvironmentUsage) :
    (environmentsLines count place entries).length =
      entries.length + entries.countP fun entry => entry.environment ≠ "" := by
  induction entries generalizing place with
  | nil => rfl
  | cons entry entries ih =>
      rw [environmentsLines, List.length_append, ih, environmentLines, List.length_cons,
        List.length_cons, List.countP_cons]
      by_cases hempty : entry.environment = "" <;> simp [hempty] <;> omega

theorem length_pageLines (report : Report) :
    report.pageLines.length = 48 + report.endpoint.endpoints.length +
      (report.endpoint.endpoints.countP fun entry => entry.environment ≠ "") +
      report.registry.registries.length +
      if report.resourceControl.classified < report.resourceControl.count then 1 else 0 := by
  have hcontrols : (resourceControlLines report.resourceControl).length =
      5 + if report.resourceControl.classified < report.resourceControl.count then 1 else 0 := by
    rw [resourceControlLines, List.length_append]
    split <;> rfl
  simp only [pageLines, List.length_append, hcontrols, endpointLines, length_environmentsLines,
    registryLines, List.length_map, identityLines, runtimeLines, settingsLines, edgeComputeLines,
    stackTagTeamLines, titleLines, List.length_cons, List.length_nil]
  omega

end Report

end UsageReport
