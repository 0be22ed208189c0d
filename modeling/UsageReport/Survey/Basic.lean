import UsageReport.Survey.Wording
import UsageReport.Survey.Trace

/-!
Surveys: the sections of a report, each computed from the buckets that it reads, and whole
reports. A section replaces its own part of a report and touches no other; the first read that
fails ends a survey.
-/

namespace UsageReport.Survey

/-- Whatever the survey is told about where it runs. -/
structure Host where
  version : String
  system : String := "linux"
  machine : String := "x86_64"
deriving DecidableEq

def dockerHub (source : Source) : Trace ReadError DockerHubUsage := do
  let hub ← source.trace .dockerHub
  return { authentication := hub.authentication }

/-- Schedules that run a script again and again are counted apart. -/
def edgeCompute (source : Source) : Trace ReadError EdgeComputeUsage := do
  let schedules ← source.trace .schedules
  return { schedule := {
    count := schedules.length
    recurring := schedules.countP fun schedule =>
      schedule.job == .scriptExecution && schedule.recurring } }

def endpoint (source : Source) : Trace ReadError EndpointUsage := do
  let endpoints ← source.trace .endpoints
  return { count := endpoints.length, endpoints := endpoints.map environmentUsage }

def endpointGroup (source : Source) : Trace ReadError EndpointGroupUsage := do
  let groups ← source.trace .endpointGroups
  return { count := groups.length }

def registry (source : Source) : Trace ReadError RegistryUsage := do
  let registries ← source.trace .registries
  return {
    count := registries.length
    registries := registries.map fun registry => { kind := registryName registry.kind } }

def resourceControl (source : Source) : Trace ReadError ResourceControlUsage := do
  let controls ← source.trace .resourceControls
  return controls.foldl (fun usage control => tallyResource usage control.kind)
    { count := controls.length }

def runtime (host : Host) : RuntimeUsage where
  version := host.version
  platform := platformName host.system
  architecture := architectureName host.machine

/-- The snapshot interval in seconds. A text that is no duration is logged and counts as zero. -/
def snapshotInterval (text : String) : Trace ReadError Binary64 :=
  if text = "" then return .zero
  else match Duration.parse text with
    | .ok nanoseconds => return Duration.seconds nanoseconds
    | .error error => do
      Trace.take (.log (.intervalRejected error))
      return .zero

def settings (source : Source) : Trace ReadError SettingsUsage := do
  let settings ← source.trace .settings
  let interval ← snapshotInterval settings.snapshotInterval
  return {
    authenticationMode := authenticationMode settings.authenticationMethod
    usesLogo := settings.logoURL != ""
    usesLabelFilter := !settings.blackListedLabels.isEmpty
    restrictions := {
      bindMounts := !settings.allowBindMounts
      privilegedMode := !settings.allowPrivilegedMode
      volumeBrowser := !settings.allowVolumeBrowser }
    hostManagement := settings.hostManagement
    snapshotInterval := interval }

/-- What is not composed counts as swarm. -/
def stack (source : Source) : Trace ReadError StackUsage := do
  let all ← source.trace .containerStacks
  let standalone := all.countP fun stack => stack.kind == .dockerCompose
  return { count := all.length, standalone, swarm := all.length - standalone }

def tag (source : Source) : Trace ReadError TagUsage := do
  let tags ← source.trace .tags
  return { count := tags.length }

/-- Two buckets make up this section, the memberships second. -/
def team (source : Source) : Trace ReadError TeamUsage := do
  let teams ← source.trace .teams
  let memberships ← source.trace .teamMemberships
  return {
    count := teams.length
    leaders := memberships.countP fun membership => membership.role == .teamLeader }

/-- Computes a section of a report anew. -/
def update (host : Host) (source : Source) (report : Report) :
    Section → Trace ReadError Report
  | .dockerHub => return { report with dockerHub := ← dockerHub source }
  | .edgeCompute => return { report with edgeCompute := ← edgeCompute source }
  | .endpoint => return { report with endpoint := ← endpoint source }
  | .endpointGroup => return { report with endpointGroup := ← endpointGroup source }
  | .registry => return { report with registry := ← registry source }
  | .resourceControl => return { report with resourceControl := ← resourceControl source }
  | .runtime => return { report with runtime := runtime host }
  | .settings => return { report with settings := ← settings source }
  | .stack => return { report with stack := ← stack source }
  | .tag => return { report with tag := ← tag source }
  | .team => return { report with team := ← team source }

/-- Computes a section as part of a whole survey, and logs that it is done. The runtime section
needs no store and is not logged. -/
def extend (host : Host) (source : Source) (report : Report) (part : Section) :
    Trace SurveyError Report := do
  let report ← (update host source report part).mapError fun cause => ⟨.inside part, cause⟩
  if part ≠ .runtime then Trace.take (.log (.sectionComputed part))
  return report

/-- The whole report of a store. -/
def run (host : Host) (source : Source) : Trace SurveyError Report := do
  let identity ← (source.trace .identity).mapError fun cause => ⟨.identifier, cause⟩
  Section.all.foldlM (extend host source) { identifier := identity.identifier }

end UsageReport.Survey
