import UsageReport.Store.Kind

/-!
The records of a store. Every field may be absent from the written form and then has the value that
the structure gives it here.
-/

namespace UsageReport.Store

open Json

/-- The record that holds the anonymous identifier of the installation. -/
structure Identity where
  identifier : String := ""
deriving DecidableEq

def Identity.shape : Shape Identity :=
  .record false {} <|
  .field "TelemetryID" .text Identity.identifier
    (fun record value => { record with identifier := value }) .none

structure DockerHub where
  authentication : Bool := false
  username : String := ""
deriving DecidableEq

def DockerHub.shape : Shape DockerHub :=
  .record false {} <|
  .field "Authentication" .flag DockerHub.authentication
    (fun record value => { record with authentication := value }) <|
  .field "Username" .text DockerHub.username
    (fun record value => { record with username := value }) .none

structure Schedule where
  id : Nat := 0
  name : String := ""
  cronExpression : String := ""
  recurring : Bool := false
  job : JobKind := .unknown 0
deriving DecidableEq

def Schedule.shape : Shape Schedule :=
  .record false {} <|
  .field "Id" .halfWord Schedule.id (fun record value => { record with id := value }) <|
  .field "Name" .text Schedule.name (fun record value => { record with name := value }) <|
  .field "CronExpression" .text Schedule.cronExpression
    (fun record value => { record with cronExpression := value }) <|
  .field "Recurring" .flag Schedule.recurring
    (fun record value => { record with recurring := value }) <|
  .field "JobType" (Kind.shape JobKind) Schedule.job
    (fun record value => { record with job := value }) .none

/-- What an environment looked like at some time. -/
structure DockerSnapshot where
  time : Int := 0
  dockerVersion : String := ""
  swarm : Bool := false
  totalCPU : Nat := 0
  totalMemory : Nat := 0
  runningContainers : Nat := 0
  stoppedContainers : Nat := 0
  healthyContainers : Nat := 0
  unhealthyContainers : Nat := 0
  volumeCount : Nat := 0
  imageCount : Nat := 0
  serviceCount : Nat := 0
  stackCount : Nat := 0
  nodeCount : Nat := 0
deriving DecidableEq

def DockerSnapshot.shape : Shape DockerSnapshot :=
  .record false {} <|
  .field "Time" .signedWord DockerSnapshot.time
    (fun record value => { record with time := value }) <|
  .field "DockerVersion" .text DockerSnapshot.dockerVersion
    (fun record value => { record with dockerVersion := value }) <|
  .field "Swarm" .flag DockerSnapshot.swarm (fun record value => { record with swarm := value }) <|
  .field "TotalCPU" .halfWord DockerSnapshot.totalCPU
    (fun record value => { record with totalCPU := value }) <|
  .field "TotalMemory" .word DockerSnapshot.totalMemory
    (fun record value => { record with totalMemory := value }) <|
  .field "RunningContainerCount" .word DockerSnapshot.runningContainers
    (fun record value => { record with runningContainers := value }) <|
  .field "StoppedContainerCount" .word DockerSnapshot.stoppedContainers
    (fun record value => { record with stoppedContainers := value }) <|
  .field "HealthyContainerCount" .word DockerSnapshot.healthyContainers
    (fun record value => { record with healthyContainers := value }) <|
  .field "UnhealthyContainerCount" .word DockerSnapshot.unhealthyContainers
    (fun record value => { record with unhealthyContainers := value }) <|
  .field "VolumeCount" .word DockerSnapshot.volumeCount
    (fun record value => { record with volumeCount := value }) <|
  .field "ImageCount" .word DockerSnapshot.imageCount
    (fun record value => { record with imageCount := value }) <|
  .field "ServiceCount" .word DockerSnapshot.serviceCount
    (fun record value => { record with serviceCount := value }) <|
  .field "StackCount" .word DockerSnapshot.stackCount
    (fun record value => { record with stackCount := value }) <|
  .field "NodeCount" .word DockerSnapshot.nodeCount
    (fun record value => { record with nodeCount := value }) .none

structure Endpoint where
  id : Nat := 0
  name : String := ""
  kind : EndpointKind := .unknown 0
  url : String := ""
  groupId : Nat := 0
  /-- The latest first. -/
  snapshots : List DockerSnapshot := []
deriving DecidableEq

def Endpoint.shape : Shape Endpoint :=
  .record false {} <|
  .field "Id" .halfWord Endpoint.id (fun record value => { record with id := value }) <|
  .field "Name" .text Endpoint.name (fun record value => { record with name := value }) <|
  .field "Type" (Kind.shape EndpointKind) Endpoint.kind
    (fun record value => { record with kind := value }) <|
  .field "URL" .text Endpoint.url (fun record value => { record with url := value }) <|
  .field "GroupId" .halfWord Endpoint.groupId
    (fun record value => { record with groupId := value }) <|
  .field "Snapshots" (.list DockerSnapshot.shape) Endpoint.snapshots
    (fun record value => { record with snapshots := value }) .none

structure EndpointGroup where
  id : Nat := 0
  name : String := ""
  description : String := ""
deriving DecidableEq

def EndpointGroup.shape : Shape EndpointGroup :=
  .record false {} <|
  .field "Id" .halfWord EndpointGroup.id (fun record value => { record with id := value }) <|
  .field "Name" .text EndpointGroup.name (fun record value => { record with name := value }) <|
  .field "Description" .text EndpointGroup.description
    (fun record value => { record with description := value }) .none

structure Registry where
  id : Nat := 0
  name : String := ""
  kind : RegistryKind := .unknown 0
  url : String := ""
deriving DecidableEq

def Registry.shape : Shape Registry :=
  .record false {} <|
  .field "Id" .halfWord Registry.id (fun record value => { record with id := value }) <|
  .field "Name" .text Registry.name (fun record value => { record with name := value }) <|
  .field "Type" (Kind.shape RegistryKind) Registry.kind
    (fun record value => { record with kind := value }) <|
  .field "URL" .text Registry.url (fun record value => { record with url := value }) .none

structure ResourceControl where
  id : Nat := 0
  resourceId : String := ""
  kind : ResourceKind := .unknown 0
  isPublic : Bool := false
deriving DecidableEq

def ResourceControl.shape : Shape ResourceControl :=
  .record false {} <|
  .field "Id" .halfWord ResourceControl.id (fun record value => { record with id := value }) <|
  .field "ResourceId" .text ResourceControl.resourceId
    (fun record value => { record with resourceId := value }) <|
  .field "Type" (Kind.shape ResourceKind) ResourceControl.kind
    (fun record value => { record with kind := value }) <|
  .field "Public" .flag ResourceControl.isPublic
    (fun record value => { record with isPublic := value }) .none

structure Label where
  name : String := ""
  value : String := ""
deriving DecidableEq

def Label.shape : Shape Label :=
  .record false {} <|
  .field "Name" .text Label.name (fun record value => { record with name := value }) <|
  .field "Value" .text Label.value (fun record value => { record with value := value }) .none

structure Settings where
  logoURL : String := ""
  blackListedLabels : List Label := []
  authenticationMethod : AuthenticationMethod := .unknown 0
  allowBindMounts : Bool := false
  allowPrivilegedMode : Bool := false
  allowVolumeBrowser : Bool := false
  hostManagement : Bool := false
  /-- A duration, or empty if none was ever set. -/
  snapshotInterval : String := ""
deriving DecidableEq

def Settings.shape : Shape Settings :=
  .record false {} <|
  .field "LogoURL" .text Settings.logoURL (fun record value => { record with logoURL := value }) <|
  .field "BlackListedLabels" (.list Label.shape) Settings.blackListedLabels
    (fun record value => { record with blackListedLabels := value }) <|
  .field "AuthenticationMethod" (Kind.shape AuthenticationMethod) Settings.authenticationMethod
    (fun record value => { record with authenticationMethod := value }) <|
  .field "AllowBindMountsForRegularUsers" .flag Settings.allowBindMounts
    (fun record value => { record with allowBindMounts := value }) <|
  .field "AllowPrivilegedModeForRegularUsers" .flag Settings.allowPrivilegedMode
    (fun record value => { record with allowPrivilegedMode := value }) <|
  .field "AllowVolumeBrowserForRegularUsers" .flag Settings.allowVolumeBrowser
    (fun record value => { record with allowVolumeBrowser := value }) <|
  .field "EnableHostManagementFeatures" .flag Settings.hostManagement
    (fun record value => { record with hostManagement := value }) <|
  .field "SnapshotInterval" .text Settings.snapshotInterval
    (fun record value => { record with snapshotInterval := value }) .none

structure Stack where
  id : Nat := 0
  name : String := ""
  kind : StackKind := .unknown 0
  endpointId : Nat := 0
  entryPoint : String := ""
deriving DecidableEq

def Stack.shape : Shape Stack :=
  .record false {} <|
  .field "Id" .halfWord Stack.id (fun record value => { record with id := value }) <|
  .field "Name" .text Stack.name (fun record value => { record with name := value }) <|
  .field "Type" (Kind.shape StackKind) Stack.kind
    (fun record value => { record with kind := value }) <|
  .field "EndpointId" .halfWord Stack.endpointId
    (fun record value => { record with endpointId := value }) <|
  .field "EntryPoint" .text Stack.entryPoint
    (fun record value => { record with entryPoint := value }) .none

structure Tag where
  id : Nat := 0
  name : String := ""
deriving DecidableEq

def Tag.shape : Shape Tag :=
  .record false {} <|
  .field "ID" .halfWord Tag.id (fun record value => { record with id := value }) <|
  .field "Name" .text Tag.name (fun record value => { record with name := value }) .none

structure Team where
  id : Nat := 0
  name : String := ""
deriving DecidableEq

def Team.shape : Shape Team :=
  .record false {} <|
  .field "Id" .halfWord Team.id (fun record value => { record with id := value }) <|
  .field "Name" .text Team.name (fun record value => { record with name := value }) .none

structure TeamMembership where
  id : Nat := 0
  userId : Nat := 0
  teamId : Nat := 0
  role : MembershipRole := .unknown 0
deriving DecidableEq

def TeamMembership.shape : Shape TeamMembership :=
  .record false {} <|
  .field "Id" .halfWord TeamMembership.id (fun record value => { record with id := value }) <|
  .field "UserID" .halfWord TeamMembership.userId
    (fun record value => { record with userId := value }) <|
  .field "TeamID" .halfWord TeamMembership.teamId
    (fun record value => { record with teamId := value }) <|
  .field "Role" (Kind.shape MembershipRole) TeamMembership.role
    (fun record value => { record with role := value }) .none

end UsageReport.Store
