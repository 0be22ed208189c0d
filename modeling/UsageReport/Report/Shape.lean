import UsageReport.Json.Shape
import UsageReport.Report.Basic

/-!
The written form of a report. All its fields are required.
-/

namespace UsageReport

open Json

def DockerHubUsage.shape : Shape DockerHubUsage :=
  .record true {} <|
  .field "Authentication" .flag DockerHubUsage.authentication
    (fun record value => { record with authentication := value }) .none

def ScheduleUsage.shape : Shape ScheduleUsage :=
  .record true {} <|
  .field "Count" .word ScheduleUsage.count (fun record value => { record with count := value }) <|
  .field "Recurring" .word ScheduleUsage.recurring
    (fun record value => { record with recurring := value }) .none

def EdgeComputeUsage.shape : Shape EdgeComputeUsage :=
  .record true {} <|
  .field "Schedule" ScheduleUsage.shape EdgeComputeUsage.schedule
    (fun record value => { record with schedule := value }) .none

def DockerUsage.shape : Shape DockerUsage :=
  .record true {} <|
  .field "Version" .text DockerUsage.version
    (fun record value => { record with version := value }) <|
  .field "Swarm" .flag DockerUsage.swarm (fun record value => { record with swarm := value }) <|
  .field "Containers" .word DockerUsage.containerCount
    (fun record value => { record with containerCount := value }) <|
  .field "Images" .word DockerUsage.imageCount
    (fun record value => { record with imageCount := value }) <|
  .field "Volumes" .word DockerUsage.volumeCount
    (fun record value => { record with volumeCount := value }) <|
  .field "Services" .word DockerUsage.serviceCount
    (fun record value => { record with serviceCount := value }) <|
  .field "Stacks" .word DockerUsage.stackCount
    (fun record value => { record with stackCount := value }) <|
  .field "Nodes" .word DockerUsage.nodeCount
    (fun record value => { record with nodeCount := value }) .none

def KubernetesUsage.shape : Shape KubernetesUsage :=
  .record true {} <|
  .field "Version" .text KubernetesUsage.version
    (fun record value => { record with version := value }) <|
  .field "Nodes" .word KubernetesUsage.nodeCount
    (fun record value => { record with nodeCount := value }) .none

def EnvironmentUsage.shape : Shape EnvironmentUsage :=
  .record true {} <|
  .field "Environment" .text EnvironmentUsage.environment
    (fun record value => { record with environment := value }) <|
  .field "Agent" .flag EnvironmentUsage.agent
    (fun record value => { record with agent := value }) <|
  .field "Edge" .flag EnvironmentUsage.edge (fun record value => { record with edge := value }) <|
  .field "Docker" DockerUsage.shape EnvironmentUsage.docker
    (fun record value => { record with docker := value }) <|
  .field "Kubernetes" KubernetesUsage.shape EnvironmentUsage.kubernetes
    (fun record value => { record with kubernetes := value }) .none

def EndpointUsage.shape : Shape EndpointUsage :=
  .record true {} <|
  .field "Count" .word EndpointUsage.count (fun record value => { record with count := value }) <|
  .field "Endpoints" (.list EnvironmentUsage.shape) EndpointUsage.endpoints
    (fun record value => { record with endpoints := value }) .none

def EndpointGroupUsage.shape : Shape EndpointGroupUsage :=
  .record true {} <|
  .field "Count" .word EndpointGroupUsage.count
    (fun record value => { record with count := value }) .none

def RegistryEntry.shape : Shape RegistryEntry :=
  .record true {} <|
  .field "Type" .text RegistryEntry.kind (fun record value => { record with kind := value }) .none

def RegistryUsage.shape : Shape RegistryUsage :=
  .record true {} <|
  .field "Count" .word RegistryUsage.count (fun record value => { record with count := value }) <|
  .field "Registries" (.list RegistryEntry.shape) RegistryUsage.registries
    (fun record value => { record with registries := value }) .none

def ResourceControlUsage.shape : Shape ResourceControlUsage :=
  .record true {} <|
  .field "Count" .word ResourceControlUsage.count
    (fun record value => { record with count := value }) <|
  .field "Containers" .word ResourceControlUsage.containerCount
    (fun record value => { record with containerCount := value }) <|
  .field "Services" .word ResourceControlUsage.serviceCount
    (fun record value => { record with serviceCount := value }) <|
  .field "Volumes" .word ResourceControlUsage.volumeCount
    (fun record value => { record with volumeCount := value }) <|
  .field "Networks" .word ResourceControlUsage.networkCount
    (fun record value => { record with networkCount := value }) <|
  .field "Secrets" .word ResourceControlUsage.secretCount
    (fun record value => { record with secretCount := value }) <|
  .field "Config" .word ResourceControlUsage.configCount
    (fun record value => { record with configCount := value }) <|
  .field "Stacks" .word ResourceControlUsage.stackCount
    (fun record value => { record with stackCount := value }) .none

def RuntimeUsage.shape : Shape RuntimeUsage :=
  .record true {} <|
  .field "PortainerVersion" .text RuntimeUsage.version
    (fun record value => { record with version := value }) <|
  .field "Platform" .text RuntimeUsage.platform
    (fun record value => { record with platform := value }) <|
  .field "Arch" .text RuntimeUsage.architecture
    (fun record value => { record with architecture := value }) .none

def RestrictionUsage.shape : Shape RestrictionUsage :=
  .record true {} <|
  .field "RestrictBindMounts" .flag RestrictionUsage.bindMounts
    (fun record value => { record with bindMounts := value }) <|
  .field "RestrictPrivilegedMode" .flag RestrictionUsage.privilegedMode
    (fun record value => { record with privilegedMode := value }) <|
  .field "RestrictVolumeBrowser" .flag RestrictionUsage.volumeBrowser
    (fun record value => { record with volumeBrowser := value }) .none

def SettingsUsage.shape : Shape SettingsUsage :=
  .record true {} <|
  .field "AuthenticationMode" .text SettingsUsage.authenticationMode
    (fun record value => { record with authenticationMode := value }) <|
  .field "UseLogoURL" .flag SettingsUsage.usesLogo
    (fun record value => { record with usesLogo := value }) <|
  .field "UseBlackListedLabels" .flag SettingsUsage.usesLabelFilter
    (fun record value => { record with usesLabelFilter := value }) <|
  .field "Docker" RestrictionUsage.shape SettingsUsage.restrictions
    (fun record value => { record with restrictions := value }) <|
  .field "HostManagement" .flag SettingsUsage.hostManagement
    (fun record value => { record with hostManagement := value }) <|
  .field "SnapshotInterval" .real SettingsUsage.snapshotInterval
    (fun record value => { record with snapshotInterval := value }) .none

def StackUsage.shape : Shape StackUsage :=
  .record true {} <|
  .field "Count" .word StackUsage.count (fun record value => { record with count := value }) <|
  .field "Standalone" .word StackUsage.standalone
    (fun record value => { record with standalone := value }) <|
  .field "Swarm" .word StackUsage.swarm (fun record value => { record with swarm := value }) .none

def TagUsage.shape : Shape TagUsage :=
  .record true {} <|
  .field "Count" .word TagUsage.count (fun record value => { record with count := value }) .none

def TeamUsage.shape : Shape TeamUsage :=
  .record true {} <|
  .field "Count" .word TeamUsage.count (fun record value => { record with count := value }) <|
  .field "TeamLeaderCount" .word TeamUsage.leaders
    (fun record value => { record with leaders := value }) .none

def Report.shape : Shape Report :=
  .record true {} <|
  .field "Identifier" .text Report.identifier
    (fun record value => { record with identifier := value }) <|
  .field "DockerHub" DockerHubUsage.shape Report.dockerHub
    (fun record value => { record with dockerHub := value }) <|
  .field "EdgeCompute" EdgeComputeUsage.shape Report.edgeCompute
    (fun record value => { record with edgeCompute := value }) <|
  .field "Endpoint" EndpointUsage.shape Report.endpoint
    (fun record value => { record with endpoint := value }) <|
  .field "EndpointGroup" EndpointGroupUsage.shape Report.endpointGroup
    (fun record value => { record with endpointGroup := value }) <|
  .field "Registry" RegistryUsage.shape Report.registry
    (fun record value => { record with registry := value }) <|
  .field "ResourceControl" ResourceControlUsage.shape Report.resourceControl
    (fun record value => { record with resourceControl := value }) <|
  .field "Runtime" RuntimeUsage.shape Report.runtime
    (fun record value => { record with runtime := value }) <|
  .field "Settings" SettingsUsage.shape Report.settings
    (fun record value => { record with settings := value }) <|
  .field "Stack" StackUsage.shape Report.stack
    (fun record value => { record with stack := value }) <|
  .field "Tag" TagUsage.shape Report.tag (fun record value => { record with tag := value }) <|
  .field "Team" TeamUsage.shape Report.team
    (fun record value => { record with team := value }) .none

end UsageReport
