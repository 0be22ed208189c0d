import UsageReport.Store.Record

/-!
A store: three single records, each of which may be missing, and nine collections.
-/

namespace UsageReport

structure Store where
  identity : Option Store.Identity := none
  dockerHub : Option Store.DockerHub := none
  schedules : List Store.Schedule := []
  endpoints : List Store.Endpoint := []
  endpointGroups : List Store.EndpointGroup := []
  registries : List Store.Registry := []
  resourceControls : List Store.ResourceControl := []
  settings : Option Store.Settings := none
  containerStacks : List Store.Stack := []
  tags : List Store.Tag := []
  teams : List Store.Team := []
  teamMemberships : List Store.TeamMembership := []
deriving DecidableEq

namespace Store

def shape : Json.Shape Store :=
  .record false {} <|
  .field "Telemetry" (.optional Identity.shape) Store.identity
    (fun record value => { record with identity := value }) <|
  .field "DockerHub" (.optional DockerHub.shape) Store.dockerHub
    (fun record value => { record with dockerHub := value }) <|
  .field "Schedules" (.list Schedule.shape) Store.schedules
    (fun record value => { record with schedules := value }) <|
  .field "Endpoints" (.list Endpoint.shape) Store.endpoints
    (fun record value => { record with endpoints := value }) <|
  .field "EndpointGroups" (.list EndpointGroup.shape) Store.endpointGroups
    (fun record value => { record with endpointGroups := value }) <|
  .field "Registries" (.list Registry.shape) Store.registries
    (fun record value => { record with registries := value }) <|
  .field "ResourceControls" (.list ResourceControl.shape) Store.resourceControls
    (fun record value => { record with resourceControls := value }) <|
  .field "Settings" (.optional Settings.shape) Store.settings
    (fun record value => { record with settings := value }) <|
  .field "Stacks" (.list Stack.shape) Store.containerStacks
    (fun record value => { record with containerStacks := value }) <|
  .field "Tags" (.list Tag.shape) Store.tags
    (fun record value => { record with tags := value }) <|
  .field "Teams" (.list Team.shape) Store.teams
    (fun record value => { record with teams := value }) <|
  .field "TeamMemberships" (.list TeamMembership.shape) Store.teamMemberships
    (fun record value => { record with teamMemberships := value }) .none

end UsageReport.Store
