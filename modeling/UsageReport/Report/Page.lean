import UsageReport.Binary64.Decimal
import UsageReport.Report.Basic

/-!
A report as a page of text: sections under ruled titles, and one line for each fact.
-/

namespace UsageReport.Report

def yesNo (value : Bool) : String := if value then "yes" else "no"

def rule : String := String.ofList (List.replicate 60 '─')

/-- An empty line, and the title between two rules. -/
def titleLines (title : String) : List String :=
  ["", rule, "  " ++ title, rule]

def identityLines (report : Report) : List String :=
  titleLines "TELEMETRY" ++ ["  Identifier   : " ++ report.identifier]

def runtimeLines (runtime : RuntimeUsage) : List String :=
  titleLines "RUNTIME" ++ [
    "  Version      : " ++ runtime.version,
    "  Platform     : " ++ runtime.platform ++ "/" ++ runtime.architecture]

def settingsLines (settings : SettingsUsage) (dockerHub : DockerHubUsage) : List String :=
  titleLines "SETTINGS" ++ [
    "  Auth mode    : " ++ settings.authenticationMode,
    "  Custom logo  : " ++ yesNo settings.usesLogo,
    "  Label filter : " ++ yesNo settings.usesLabelFilter,
    "  Host mgmt    : " ++ yesNo settings.hostManagement,
    "  Snapshot     : every " ++ String.ofList (settings.snapshotInterval.text .plain) ++ "s",
    "  Restrictions : bind mounts=" ++ yesNo settings.restrictions.bindMounts ++
      "  privileged=" ++ yesNo settings.restrictions.privilegedMode ++
      "  volume browser=" ++ yesNo settings.restrictions.volumeBrowser,
    "  DockerHub    : " ++ if dockerHub.authentication then "authenticated" else "anonymous"]

def modeName (environment : EnvironmentUsage) : String :=
  match environment.agent, environment.edge with
  | true, true => "edge agent"
  | true, false => "agent"
  | false, _ => "direct"

def dockerLine (docker : DockerUsage) : String :=
  "      Docker " ++ (if docker.version = "" then "(no snapshot)" else docker.version) ++
    (if docker.swarm then " swarm" else "") ++
    "  containers=" ++ toString docker.containerCount ++ " images=" ++ toString docker.imageCount ++
    " volumes=" ++ toString docker.volumeCount ++ " services=" ++ toString docker.serviceCount ++
    " stacks=" ++ toString docker.stackCount ++ " nodes=" ++ toString docker.nodeCount

/-- An environment is described on a second line if it belongs to a family. -/
def environmentLines (count place : Nat) (environment : EnvironmentUsage) : List String :=
  ("  [" ++ toString place ++ "/" ++ toString count ++ "] " ++
    (if environment.environment = "" then "(other)" else environment.environment) ++
    " (" ++ modeName environment ++ ")") ::
    if environment.environment = "" then [] else [dockerLine environment.docker]

/-- The environments from some place on, which starts at one. -/
def environmentsLines (count place : Nat) : List EnvironmentUsage → List String
  | [] => []
  | environment :: rest =>
    environmentLines count place environment ++ environmentsLines count (place + 1) rest

def endpointLines (endpoint : EndpointUsage) (groups : EndpointGroupUsage) : List String :=
  titleLines ("ENDPOINTS (" ++ toString endpoint.count ++ ")") ++
    ["  Groups       : " ++ toString groups.count] ++
    environmentsLines endpoint.count 1 endpoint.endpoints

def edgeComputeLines (edgeCompute : EdgeComputeUsage) : List String :=
  titleLines "EDGE COMPUTE" ++ [
    "  Schedules    : " ++ toString edgeCompute.schedule.count ++ " total  " ++
      toString edgeCompute.schedule.recurring ++ " recurring scripts"]

def registryLines (registry : RegistryUsage) : List String :=
  titleLines ("REGISTRIES (" ++ toString registry.count ++ ")") ++
    registry.registries.map fun entry => "  - " ++ entry.kind

def resourceControlLines (usage : ResourceControlUsage) : List String :=
  titleLines ("RESOURCE CONTROLS (" ++ toString usage.count ++ ")") ++ [
    "  containers=" ++ toString usage.containerCount ++
      " services=" ++ toString usage.serviceCount ++
      " volumes=" ++ toString usage.volumeCount ++ " networks=" ++ toString usage.networkCount ++
      " secrets=" ++ toString usage.secretCount ++ " configs=" ++ toString usage.configCount ++
      " stacks=" ++ toString usage.stackCount] ++
    if usage.classified < usage.count then
      ["  unclassified=" ++ toString (usage.count - usage.classified)]
    else []

def stackTagTeamLines (stack : StackUsage) (tag : TagUsage) (team : TeamUsage) : List String :=
  titleLines "STACKS / TAGS / TEAMS" ++ [
    "  Stacks       : " ++ toString stack.count ++ " total  " ++
      toString stack.standalone ++ " standalone  " ++ toString stack.swarm ++ " swarm",
    "  Tags         : " ++ toString tag.count,
    "  Teams        : " ++ toString team.count ++ "  (" ++ toString team.leaders ++ " leaders)"]

def pageLines (report : Report) : List String :=
  report.identityLines ++ runtimeLines report.runtime ++
    settingsLines report.settings report.dockerHub ++
    endpointLines report.endpoint report.endpointGroup ++
    edgeComputeLines report.edgeCompute ++ registryLines report.registry ++
    resourceControlLines report.resourceControl ++
    stackTagTeamLines report.stack report.tag report.team

/-- Every line ends in a line feed. -/
def page (report : Report) : String :=
  String.join (report.pageLines.map (· ++ "\n"))

end UsageReport.Report
