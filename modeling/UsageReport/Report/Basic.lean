import UsageReport.Binary64.Basic

/-!
The usage report: what is told about a store, section by section. No section names anything in the
store; it counts, or tells which of a few known kinds a thing is.
-/

namespace UsageReport

structure DockerHubUsage where
  authentication : Bool := false
deriving DecidableEq

structure ScheduleUsage where
  count : Nat := 0
  recurring : Nat := 0
deriving DecidableEq

structure EdgeComputeUsage where
  schedule : ScheduleUsage := {}
deriving DecidableEq

structure DockerUsage where
  version : String := ""
  swarm : Bool := false
  containerCount : Nat := 0
  imageCount : Nat := 0
  volumeCount : Nat := 0
  serviceCount : Nat := 0
  stackCount : Nat := 0
  nodeCount : Nat := 0
deriving DecidableEq

structure KubernetesUsage where
  version : String := ""
  nodeCount : Nat := 0
deriving DecidableEq

/-- One environment. Only those of the Docker family are described. -/
structure EnvironmentUsage where
  /-- Empty outside the Docker family. -/
  environment : String := ""
  agent : Bool := false
  edge : Bool := false
  docker : DockerUsage := {}
  kubernetes : KubernetesUsage := {}
deriving DecidableEq

structure EndpointUsage where
  count : Nat := 0
  endpoints : List EnvironmentUsage := []
deriving DecidableEq

structure EndpointGroupUsage where
  count : Nat := 0
deriving DecidableEq

structure RegistryEntry where
  kind : String := ""
deriving DecidableEq

structure RegistryUsage where
  count : Nat := 0
  registries : List RegistryEntry := []
deriving DecidableEq

/-- Access rules in all, and by the kind of resource they govern. -/
structure ResourceControlUsage where
  count : Nat := 0
  containerCount : Nat := 0
  serviceCount : Nat := 0
  volumeCount : Nat := 0
  networkCount : Nat := 0
  secretCount : Nat := 0
  configCount : Nat := 0
  stackCount : Nat := 0
deriving DecidableEq

structure RuntimeUsage where
  version : String := ""
  platform : String := ""
  architecture : String := ""
deriving DecidableEq

/-- What ordinary users may not do. -/
structure RestrictionUsage where
  bindMounts : Bool := false
  privilegedMode : Bool := false
  volumeBrowser : Bool := false
deriving DecidableEq

structure SettingsUsage where
  authenticationMode : String := ""
  usesLogo : Bool := false
  usesLabelFilter : Bool := false
  restrictions : RestrictionUsage := {}
  hostManagement : Bool := false
  /-- In seconds. -/
  snapshotInterval : Binary64 := .zero
deriving DecidableEq

structure StackUsage where
  count : Nat := 0
  standalone : Nat := 0
  swarm : Nat := 0
deriving DecidableEq

structure TagUsage where
  count : Nat := 0
deriving DecidableEq

structure TeamUsage where
  count : Nat := 0
  leaders : Nat := 0
deriving DecidableEq

structure Report where
  identifier : String := ""
  dockerHub : DockerHubUsage := {}
  edgeCompute : EdgeComputeUsage := {}
  endpoint : EndpointUsage := {}
  endpointGroup : EndpointGroupUsage := {}
  registry : RegistryUsage := {}
  resourceControl : ResourceControlUsage := {}
  runtime : RuntimeUsage := {}
  settings : SettingsUsage := {}
  stack : StackUsage := {}
  tag : TagUsage := {}
  team : TeamUsage := {}
deriving DecidableEq

/-- Access rules that govern a kind of resource that is counted. -/
def ResourceControlUsage.classified (usage : ResourceControlUsage) : Nat :=
  usage.containerCount + usage.serviceCount + usage.volumeCount + usage.networkCount +
    usage.secretCount + usage.configCount + usage.stackCount

end UsageReport
