import UsageReport.Proofs.Counts
import UsageReport.Proofs.PageLines

/-!
Where the environments and registries of a report stand on its page. A reader can tell their lines
from all others by how they begin.
-/

namespace UsageReport

namespace Report

/-- Lines of a page that can be told from all others by how they begin. -/
inductive Mark where
  | endpointTitle
  | entry
  | detail
  | registryTitle
  | registry
  | unclassified
deriving DecidableEq

namespace Mark

def start : Mark → String
  | .endpointTitle => "  ENDPOINTS ("
  | .entry => "  ["
  | .detail => "      Docker "
  | .registryTitle => "  REGISTRIES ("
  | .registry => "  - "
  | .unclassified => "  unclassified="

/-- The line begins like all lines with this mark. -/
def isOn (mark : Mark) (line : String) : Bool := mark.start.toList.isPrefixOf line.toList

theorem isOn_start_append (mark other : Mark) (rest : String) :
    mark.isOn (other.start ++ rest) = decide (mark = other) := by
  cases mark <;> cases other <;> simp [isOn, start, List.isPrefixOf]

end Mark

/-- No mark is on the line. -/
def Unmarked (line : String) : Prop := ∀ mark : Mark, mark.isOn line = false

theorem filter_of_unmarked (mark : Mark) {rows : List String} (hrows : ∀ row ∈ rows, Unmarked row) :
    rows.filter mark.isOn = [] := by
  rw [List.filter_eq_nil_iff]
  exact fun row hrow => Bool.eq_false_iff.mp (hrows row hrow mark)

theorem unmarked_rule : Unmarked rule := by
  intro mark
  have hrule : rule.toList = List.replicate 60 '─' := String.toList_ofList
  rw [Mark.isOn, hrule]
  cases mark <;> rfl

theorem unmarked_iff {line : String} :
    Unmarked line ↔ Mark.endpointTitle.isOn line = false ∧ Mark.entry.isOn line = false ∧
      Mark.detail.isOn line = false ∧ Mark.registryTitle.isOn line = false ∧
      Mark.registry.isOn line = false ∧ Mark.unclassified.isOn line = false := by
  constructor
  · intro hline
    exact ⟨hline _, hline _, hline _, hline _, hline _, hline _⟩
  · rintro ⟨hendpoints, hentry, hdetail, hregistries, hregistry, hunclassified⟩ mark
    cases mark
    exacts [hendpoints, hentry, hdetail, hregistries, hregistry, hunclassified]

section Unmarked

attribute [local simp] unmarked_iff Mark.isOn Mark.start List.isPrefixOf or_imp forall_and

theorem unmarked_empty : Unmarked "" := by simp

theorem unmarked_titleLines {title : String} (htitle : Unmarked ("  " ++ title)) :
    ∀ line ∈ titleLines title, Unmarked line := by
  rintro line hline
  simp only [titleLines, List.mem_cons, List.not_mem_nil, or_false] at hline
  rcases hline with rfl | rfl | rfl | rfl
  exacts [unmarked_empty, unmarked_rule, htitle, unmarked_rule]

theorem unmarked_section {title : String} {rows : List String}
    (htitle : Unmarked ("  " ++ title)) (hrows : ∀ row ∈ rows, Unmarked row) :
    ∀ line ∈ titleLines title ++ rows, Unmarked line :=
  List.forall_mem_append.mpr ⟨unmarked_titleLines htitle, hrows⟩

theorem unmarked_identityLines (report : Report) :
    ∀ line ∈ report.identityLines, Unmarked line :=
  unmarked_section (by simp) (by simp)

theorem unmarked_runtimeLines (runtime : RuntimeUsage) :
    ∀ line ∈ runtimeLines runtime, Unmarked line :=
  unmarked_section (by simp) (by simp)

theorem unmarked_settingsLines (settings : SettingsUsage) (dockerHub : DockerHubUsage) :
    ∀ line ∈ settingsLines settings dockerHub, Unmarked line :=
  unmarked_section (by simp) (by simp)

theorem unmarked_edgeComputeLines (edgeCompute : EdgeComputeUsage) :
    ∀ line ∈ edgeComputeLines edgeCompute, Unmarked line :=
  unmarked_section (by simp) (by simp)

theorem unmarked_stackTagTeamLines (stack : StackUsage) (tag : TagUsage) (team : TeamUsage) :
    ∀ line ∈ stackTagTeamLines stack tag team, Unmarked line :=
  unmarked_section (by simp) (by simp)

theorem unmarked_groupsLine (groups : EndpointGroupUsage) :
    Unmarked ("  Groups       : " ++ toString groups.count) := by
  simp

theorem unmarked_resourceControlTitle (count : Nat) :
    Unmarked ("  " ++ ("RESOURCE CONTROLS (" ++ toString count ++ ")")) := by
  simp

theorem unmarked_bucketsLine (usage : ResourceControlUsage) :
    Unmarked ("  containers=" ++ toString usage.containerCount ++
      " services=" ++ toString usage.serviceCount ++ " volumes=" ++ toString usage.volumeCount ++
      " networks=" ++ toString usage.networkCount ++ " secrets=" ++ toString usage.secretCount ++
      " configs=" ++ toString usage.configCount ++ " stacks=" ++ toString usage.stackCount) := by
  simp

end Unmarked

theorem isOn_entryLine (mark : Mark) (count place : Nat) (entry : EnvironmentUsage) :
    mark.isOn (entryLine count place entry) = decide (mark = .entry) := by
  simp only [entryLine, String.append_assoc]
  exact mark.isOn_start_append .entry _

theorem isOn_dockerLine (mark : Mark) (docker : DockerUsage) :
    mark.isOn (dockerLine docker) = decide (mark = .detail) := by
  rw [dockerLine_eq, String.append_assoc]
  exact mark.isOn_start_append .detail _

theorem filter_titleLines (mark other : Mark) {title rest : String}
    (htitle : "  " ++ title = other.start ++ rest) :
    (titleLines title).filter mark.isOn =
      if mark = other then [other.start ++ rest] else [] := by
  simp only [titleLines, List.filter_cons, unmarked_empty mark, unmarked_rule mark, htitle,
    mark.isOn_start_append, decide_eq_true_eq, Bool.false_eq_true, if_false, List.filter_nil]

/-- The lines that a page has with each mark. -/
def marked (report : Report) : Mark → List String
  | .endpointTitle => ["  ENDPOINTS (" ++ toString report.endpoint.count ++ ")"]
  | .entry => report.endpoint.endpoints.mapIdx fun index entry =>
      entryLine report.endpoint.count (index + 1) entry
  | .detail => (report.endpoint.endpoints.filter fun entry => entry.environment ≠ "").map
      fun entry => dockerLine entry.docker
  | .registryTitle => ["  REGISTRIES (" ++ toString report.registry.count ++ ")"]
  | .registry => report.registry.registries.map fun entry => "  - " ++ entry.kind
  | .unclassified =>
      if report.resourceControl.classified < report.resourceControl.count then
        ["  unclassified=" ++
          toString (report.resourceControl.count - report.resourceControl.classified)]
      else []

theorem filter_environmentsLines (mark : Mark) (count start : Nat)
    (entries : List EnvironmentUsage) :
    (environmentsLines count start entries).filter mark.isOn = match mark with
      | .entry => entries.mapIdx fun index entry => entryLine count (index + start) entry
      | .detail => (entries.filter fun entry => entry.environment ≠ "").map fun entry =>
          dockerLine entry.docker
      | _ => [] := by
  induction entries generalizing start with
  | nil => cases mark <;> rfl
  | cons entry entries ih =>
      rw [environmentsLines, environmentLines_eq, List.filter_append, ih]
      by_cases hempty : entry.environment = "" <;> cases mark <;>
        simp [isOn_entryLine, isOn_dockerLine, hempty, List.mapIdx_cons, Nat.add_comm,
          Nat.add_left_comm]

theorem endpointTitle_eq (count : Nat) :
    "  " ++ ("ENDPOINTS (" ++ toString count ++ ")") =
      Mark.endpointTitle.start ++ (toString count ++ ")") := by
  rw [String.append_assoc, ← String.append_assoc]
  rfl

theorem registryTitle_eq (count : Nat) :
    "  " ++ ("REGISTRIES (" ++ toString count ++ ")") =
      Mark.registryTitle.start ++ (toString count ++ ")") := by
  rw [String.append_assoc, ← String.append_assoc]
  rfl

theorem filter_endpointLines (mark : Mark) (endpoint : EndpointUsage)
    (groups : EndpointGroupUsage) :
    (endpointLines endpoint groups).filter mark.isOn =
      (if mark = .endpointTitle then ["  ENDPOINTS (" ++ toString endpoint.count ++ ")"] else []) ++
        (environmentsLines endpoint.count 1 endpoint.endpoints).filter mark.isOn := by
  rw [endpointLines, List.filter_append, List.filter_append,
    filter_titleLines mark _ (endpointTitle_eq endpoint.count),
    filter_of_unmarked mark (List.forall_mem_singleton.mpr (unmarked_groupsLine groups)),
    List.append_nil, String.append_assoc]
  rfl

theorem filter_registryLines (mark : Mark) (registry : RegistryUsage) :
    (registryLines registry).filter mark.isOn =
      (if mark = .registryTitle then ["  REGISTRIES (" ++ toString registry.count ++ ")"] else []) ++
        if mark = .registry then registry.registries.map fun entry => "  - " ++ entry.kind
        else [] := by
  have hentry (entry : RegistryEntry) :
      mark.isOn ("  - " ++ entry.kind) = decide (mark = .registry) :=
    mark.isOn_start_append .registry entry.kind
  rw [registryLines, List.filter_append,
    filter_titleLines mark _ (registryTitle_eq registry.count), List.filter_map,
    String.append_assoc]
  congr 1
  by_cases hmark : mark = .registry
  · subst hmark
    simp [Function.comp_def, hentry]
  · simp [Function.comp_def, hentry, hmark]

theorem filter_resourceControlLines (mark : Mark) (usage : ResourceControlUsage) :
    (resourceControlLines usage).filter mark.isOn =
      if mark = .unclassified ∧ usage.classified < usage.count then
        ["  unclassified=" ++ toString (usage.count - usage.classified)]
      else [] := by
  have hsection : ∀ line ∈ titleLines ("RESOURCE CONTROLS (" ++ toString usage.count ++ ")") ++
      ["  containers=" ++ toString usage.containerCount ++
        " services=" ++ toString usage.serviceCount ++ " volumes=" ++ toString usage.volumeCount ++
        " networks=" ++ toString usage.networkCount ++ " secrets=" ++ toString usage.secretCount ++
        " configs=" ++ toString usage.configCount ++ " stacks=" ++ toString usage.stackCount],
      Unmarked line :=
    unmarked_section (unmarked_resourceControlTitle usage.count)
      (List.forall_mem_singleton.mpr (unmarked_bucketsLine usage))
  have hother := mark.isOn_start_append .unclassified (toString (usage.count - usage.classified))
  simp only [Mark.start] at hother
  rw [resourceControlLines, List.filter_append, filter_of_unmarked mark hsection, List.nil_append]
  by_cases hless : usage.classified < usage.count
  · simp only [hless, if_true, and_true, List.filter_cons, List.filter_nil, hother,
      decide_eq_true_eq]
  · simp only [hless, if_false, and_false, List.filter_nil]

theorem filter_pageLines (report : Report) (mark : Mark) :
    report.pageLines.filter mark.isOn = report.marked mark := by
  simp only [pageLines, List.filter_append, filter_of_unmarked mark (unmarked_identityLines report),
    filter_of_unmarked mark (unmarked_runtimeLines report.runtime),
    filter_of_unmarked mark (unmarked_settingsLines report.settings report.dockerHub),
    filter_of_unmarked mark (unmarked_edgeComputeLines report.edgeCompute),
    filter_of_unmarked mark (unmarked_stackTagTeamLines report.stack report.tag report.team),
    filter_endpointLines, filter_environmentsLines, filter_registryLines,
    filter_resourceControlLines]
  cases mark <;> simp [marked]

theorem countP_environmentLines (count place : Nat) (entry : EnvironmentUsage) :
    (environmentLines count place entry).countP Mark.entry.isOn = 1 := by
  rw [environmentLines_eq]
  split <;> simp [isOn_entryLine, isOn_dockerLine]

/-- Each environment has its line behind those of the ones before it, and right after it a line
about Docker if it belongs to a family. The empty line stands for the section that comes next, so
that the last environment too is followed by something. -/
theorem exists_entryLine {entries : List EnvironmentUsage} {place : Nat} {entry : EnvironmentUsage}
    (hplace : entries[place]? = some entry) (count start : Nat) (tail : List String) :
    ∃ before after, environmentsLines count start entries ++ "" :: tail =
        before ++ entryLine count (place + start) entry :: after ∧
      before.countP Mark.entry.isOn = place ∧
      (entry.environment ≠ "" → after.head? = some (dockerLine entry.docker)) ∧
      after.head?.any Mark.detail.isOn = decide (entry.environment ≠ "") := by
  induction entries generalizing start place with
  | nil => cases hplace
  | cons first entries ih =>
      rw [environmentsLines, List.append_assoc]
      cases place with
      | zero =>
          cases hplace
          rw [environmentLines_eq, Nat.zero_add]
          refine ⟨[], _, rfl, rfl, ?_, ?_⟩
          · intro hname
            rw [if_neg hname]
            rfl
          · by_cases hempty : entry.environment = ""
            · cases entries with
              | nil => simp [hempty, environmentsLines, unmarked_empty Mark.detail]
              | cons next entries =>
                  simp [hempty, environmentsLines, environmentLines_eq, isOn_entryLine]
            · simp [hempty, isOn_dockerLine]
      | succ place =>
          obtain ⟨before, after, hlines, hcount, hafter⟩ := ih hplace (start + 1)
          refine ⟨environmentLines count start first ++ before, after, ?_, ?_, hafter⟩
          · rw [hlines, List.append_assoc, Nat.add_right_comm, Nat.add_assoc]
          · rw [List.countP_append, countP_environmentLines, hcount, Nat.add_comm]

/-- The page of a report that a survey has made counts the lines that it shows. -/
theorem marked_of_run {host : Survey.Host} {source : Source} {report : Report}
    (hrun : (Survey.run host source).result = .ok report) :
    report.endpoint.count = (report.marked .entry).length ∧
      report.registry.count = (report.marked .registry).length ∧
      report.resourceControl.count - report.resourceControl.classified =
        source.store.resourceControls.countP fun control => !control.kind.isNamed := by
  obtain ⟨-, hcompute⟩ := Survey.result_run_eq_ok_iff.mp hrun
  have hendpoint : _ = report.endpoint := Except.ok.inj
    (@Survey.result_of_trace_bind source.store _ .endpoints _ rfl _ _ _ (hcompute .endpoint))
  have hregistry : _ = report.registry := Except.ok.inj
    (@Survey.result_of_trace_bind source.store _ .registries _ rfl _ _ _ (hcompute .registry))
  have hcount : report.resourceControl.count = source.store.resourceControls.length :=
    Survey.count_resourceControl (hcompute .resourceControl)
  have hclassified : report.resourceControl.classified =
      source.store.resourceControls.countP fun control => control.kind.isNamed :=
    Survey.classified_eq_countP_isNamed (hcompute .resourceControl)
  refine ⟨?_, ?_, ?_⟩
  · rw [marked, List.length_mapIdx, ← hendpoint, List.length_map]
  · rw [marked, List.length_map, ← hregistry, List.length_map]
  · have hsplit := source.store.resourceControls.length_eq_countP_add_countP
      fun control => control.kind.isNamed
    simp only [Bool.not_eq_true, Bool.decide_eq_false] at hsplit
    omega

/-- What comes in front of the environments on a page. -/
def openingLines (report : Report) : List String :=
  report.identityLines ++ runtimeLines report.runtime ++
    settingsLines report.settings report.dockerHub ++
    titleLines ("ENDPOINTS (" ++ toString report.endpoint.count ++ ")") ++
    ["  Groups       : " ++ toString report.endpointGroup.count]

theorem countP_entry_openingLines (report : Report) :
    report.openingLines.countP Mark.entry.isOn = 0 := by
  rw [List.countP_eq_length_filter, openingLines, List.filter_append, List.filter_append,
    List.filter_append, List.filter_append, filter_of_unmarked _ (unmarked_identityLines report),
    filter_of_unmarked _ (unmarked_runtimeLines report.runtime),
    filter_of_unmarked _ (unmarked_settingsLines report.settings report.dockerHub),
    filter_titleLines _ _ (endpointTitle_eq report.endpoint.count),
    filter_of_unmarked _ (List.forall_mem_singleton.mpr (unmarked_groupsLine report.endpointGroup))]
  rfl

theorem exists_pageLines_environments (report : Report) :
    ∃ tail, report.pageLines = report.openingLines ++
      (environmentsLines report.endpoint.count 1 report.endpoint.endpoints ++ "" :: tail) := by
  obtain ⟨tail, htail⟩ : ∃ tail, edgeComputeLines report.edgeCompute ++
      (registryLines report.registry ++ (resourceControlLines report.resourceControl ++
        stackTagTeamLines report.stack report.tag report.team)) = "" :: tail := ⟨_, rfl⟩
  refine ⟨tail, ?_⟩
  rw [← htail]
  simp only [pageLines, openingLines, endpointLines, List.append_assoc]

theorem exists_pageLines_registries (report : Report) :
    ∃ before after, report.pageLines = before ++ report.marked .registryTitle ++ [rule] ++
      report.marked .registry ++ after := by
  refine ⟨report.identityLines ++ runtimeLines report.runtime ++
    settingsLines report.settings report.dockerHub ++
    endpointLines report.endpoint report.endpointGroup ++ edgeComputeLines report.edgeCompute ++
    ["", rule], resourceControlLines report.resourceControl ++
    stackTagTeamLines report.stack report.tag report.team, ?_⟩
  have htitle := registryTitle_eq report.registry.count
  simp only [Mark.start, String.append_assoc] at htitle
  simp only [pageLines, registryLines, titleLines, marked, htitle, String.append_assoc,
    List.append_assoc, List.cons_append, List.nil_append]

theorem exists_entryLine_pageLines {report : Report} {place : Nat} {entry : EnvironmentUsage}
    (hplace : report.endpoint.endpoints[place]? = some entry) :
    ∃ before after, report.pageLines =
        before ++ entryLine report.endpoint.count (place + 1) entry :: after ∧
      before.countP Mark.entry.isOn = place ∧
      (entry.environment ≠ "" → after.head? = some (dockerLine entry.docker)) ∧
      after.head?.any Mark.detail.isOn = decide (entry.environment ≠ "") := by
  obtain ⟨tail, hpage⟩ := report.exists_pageLines_environments
  obtain ⟨before, after, hentry, hbefore, hafter⟩ :=
    exists_entryLine hplace report.endpoint.count 1 tail
  refine ⟨report.openingLines ++ before, after, ?_, ?_, hafter⟩
  · rw [hpage, hentry, List.append_assoc]
  · rw [List.countP_append, countP_entry_openingLines, hbefore, Nat.zero_add]

/-- A report none of whose texts is broken by a line feed is printed in 48 lines, one for each
environment, one more for each of a family, one for each registry, and one if there are access rules
of kinds that are not counted apart. -/
theorem lines_of_page {report : Report} (hshown : ∀ text ∈ report.shownTexts, Text.OneLine text) :
    (report.render .text).toList.count '\n' = 48 + report.endpoint.endpoints.length +
      (report.endpoint.endpoints.countP fun entry => entry.environment ≠ "") +
      report.registry.registries.length +
      (if report.resourceControl.classified < report.resourceControl.count then 1 else 0) ∧
    (∀ mark : Mark, report.lines.filter mark.isOn = report.marked mark) ∧
    (∀ place entry, report.endpoint.endpoints[place]? = some entry →
      ∃ before after, report.lines =
          before ++ entryLine report.endpoint.count (place + 1) entry :: after ∧
        before.countP Mark.entry.isOn = place ∧
        (entry.environment ≠ "" → after.head? = some (dockerLine entry.docker)) ∧
        after.head?.any Mark.detail.isOn = decide (entry.environment ≠ "")) ∧
    (∃ before after, report.lines = before ++ report.marked .registryTitle ++ [rule] ++
      report.marked .registry ++ after) ∧
    (report.resourceControl.classified ≤ Text.greatestWord →
      report.resourceControl.classifiedWord.toNat = report.resourceControl.classified ∧
      (report.resourceControl.classified ≤ report.resourceControl.count →
        report.resourceControl.count ≤ Text.greatestWord →
        report.resourceControl.unclassifiedWord.toNat =
          report.resourceControl.count - report.resourceControl.classified)) ∧
    ∀ host source, (Survey.run host source).result = .ok report →
      report.lines.filter Mark.endpointTitle.isOn =
        ["  ENDPOINTS (" ++ toString (report.lines.countP Mark.entry.isOn) ++ ")"] ∧
      report.lines.filter Mark.registryTitle.isOn =
        ["  REGISTRIES (" ++ toString (report.lines.countP Mark.registry.isOn) ++ ")"] ∧
      ∀ k, "  unclassified=" ++ toString k ∈ report.lines ↔
        0 < k ∧ (source.store.resourceControls.countP fun control => !control.kind.isNamed) = k := by
  have hlines := lines_eq hshown
  have hmarked (mark : Mark) : report.lines.filter mark.isOn = report.marked mark := by
    rw [hlines, filter_pageLines]
  refine ⟨?_, hmarked, ?_, ?_, ?_, ?_⟩
  · exact (Text.count_lineFeed_join (oneLine_pageLines hshown)).trans report.length_pageLines
  · intro place entry hplace
    rw [hlines]
    exact exists_entryLine_pageLines hplace
  · rw [hlines]
    exact report.exists_pageLines_registries
  · intro hfits
    exact ⟨ResourceControlUsage.toNat_classifiedWord hfits,
      fun hle hcount => ResourceControlUsage.toNat_unclassifiedWord hle hcount⟩
  · intro host source hrun
    obtain ⟨hendpoints, hregistries, hcontrols⟩ := marked_of_run hrun
    refine ⟨?_, ?_, ?_⟩
    · rw [hmarked, List.countP_eq_length_filter, hmarked, ← hendpoints]
      rfl
    · rw [hmarked, List.countP_eq_length_filter, hmarked, ← hregistries]
      rfl
    · intro k
      have hmem : "  unclassified=" ++ toString k ∈ report.lines ↔
          "  unclassified=" ++ toString k ∈ report.marked .unclassified := by
        rw [← hmarked, List.mem_filter, and_iff_left]
        exact (Mark.isOn_start_append .unclassified .unclassified _).trans (by decide)
      rw [hmem, marked, ← hcontrols]
      split
      · rw [List.mem_singleton, String.append_right_inj, Text.toString_inj]
        omega
      · constructor
        · rintro ⟨⟩
        · omega

/-- Two environments of the Docker family, the second without a snapshot, and one of another kind
between them; two of the three access rules are of kinds that are not counted apart. -/
def pagedSource : Source where
  store := {
    identity := some ⟨"6f1c"⟩, dockerHub := some {}, settings := some {}
    endpoints := [
      { kind := .docker, snapshots := [{ dockerVersion := "24.0.7", nodeCount := 1 }] },
      { kind := .azure }, { kind := .edgeAgentOnDocker }]
    registries := [{ kind := .quay }, {}]
    resourceControls := [{ kind := .unknown 9 }, { kind := .volume }, {}] }

def pagedReport : Report where
  identifier := "6f1c"
  endpoint := {
    count := 3
    endpoints := [
      { environment := "docker", docker := { version := "24.0.7", nodeCount := 1 } }, {},
      { environment := "docker", agent := true, edge := true }] }
  registry := { count := 2, registries := [⟨"quay"⟩, ⟨"custom"⟩] }
  resourceControl := { count := 3, volumeCount := 1 }
  runtime := { version := "2.0.0", platform := "linux", architecture := "amd64" }
  settings := {
    authenticationMode := "internal"
    restrictions := { bindMounts := true, privilegedMode := true, volumeBrowser := true } }

theorem lines_of_pagedReport :
    (∀ text ∈ pagedReport.shownTexts, Text.OneLine text) ∧
    (Survey.run { version := "2.0.0" } pagedSource).result = .ok pagedReport ∧
    (pagedReport.render .text).toList.count '\n' = 56 ∧
    pagedReport.lines.filter Mark.entry.isOn =
      ["  [1/3] docker (direct)", "  [2/3] (other) (direct)", "  [3/3] docker (edge agent)"] ∧
    (∃ before after, pagedReport.lines = before ++ "  [2/3] (other) (direct)" :: after ∧
      before.countP Mark.entry.isOn = 1 ∧ after.head?.any Mark.detail.isOn = false) ∧
    pagedReport.resourceControl.unclassifiedWord.toNat = 2 ∧
    pagedReport.lines.filter Mark.endpointTitle.isOn = ["  ENDPOINTS (3)"] ∧
    "  unclassified=" ++ toString 2 ∈ pagedReport.lines := by
  have hshown : ∀ text ∈ pagedReport.shownTexts, Text.OneLine text := by
    have hchars : ∀ text ∈ pagedReport.shownTexts, '\n' ∉ text.toList := by decide
    exact hchars
  have hrun : (Survey.run { version := "2.0.0" } pagedSource).result = .ok pagedReport := rfl
  obtain ⟨hcount, hmarked, hentries, -, hwords, hsurvey⟩ := lines_of_page hshown
  obtain ⟨-, -, hunclassified⟩ := hsurvey _ _ hrun
  obtain ⟨before, after, hlines, hbefore, -, hdetail⟩ := hentries 1 {} rfl
  refine ⟨hshown, hrun, hcount, ?_, ⟨before, after, ?_, hbefore, hdetail⟩, ?_, ?_,
    (hunclassified 2).mpr ⟨by decide, rfl⟩⟩
  · rw [hmarked]
    decide
  · rw [hlines]
    rfl
  · exact ((hwords (by decide)).2 (by decide) (by decide))
  · rw [hmarked]
    decide

end Report

end UsageReport
