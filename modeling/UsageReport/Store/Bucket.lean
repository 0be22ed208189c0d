import UsageReport.Store.Basic

/-!
The twelve buckets that a store keeps its records in, and reading them. One bucket of a store may be
unreadable; a single record may be missing.
-/

namespace UsageReport

/-- In the order in which a survey reads them. -/
inductive Bucket where
  | identity
  | dockerHub
  | schedules
  | endpoints
  | endpointGroups
  | registries
  | resourceControls
  | settings
  | containerStacks
  | tags
  | teams
  | teamMemberships
deriving DecidableEq

namespace Bucket

def all : List Bucket := [
  .identity, .dockerHub, .schedules, .endpoints, .endpointGroups, .registries, .resourceControls,
  .settings, .containerStacks, .tags, .teams, .teamMemberships]

def name : Bucket → String
  | .identity => "telemetry"
  | .dockerHub => "dockerhub"
  | .schedules => "schedules"
  | .endpoints => "endpoints"
  | .endpointGroups => "endpoint_groups"
  | .registries => "registries"
  | .resourceControls => "resource_controls"
  | .settings => "settings"
  | .containerStacks => "stacks"
  | .tags => "tags"
  | .teams => "teams"
  | .teamMemberships => "team_memberships"

def ofName? (name : String) : Option Bucket := all.find? fun bucket => bucket.name == name

theorem mem_all (bucket : Bucket) : bucket ∈ all := by cases bucket <;> decide

end Bucket

/-- A record that a store has once, or not at all. -/
inductive SingleRecord where
  | identity
  | dockerHub
  | settings
deriving DecidableEq

def SingleRecord.description : SingleRecord → String
  | .identity => "telemetry configuration"
  | .dockerHub => "dockerhub configuration"
  | .settings => "settings"

inductive ReadError where
  | missing (record : SingleRecord)
  | unreadable (bucket : Bucket)
deriving DecidableEq

def ReadError.message : ReadError → String
  | .missing record => record.description ++ " not found"
  | .unreadable bucket => "IO error: " ++ bucket.name ++ " bucket unreadable"

/-- What a bucket holds. -/
abbrev Bucket.Held : Bucket → Type
  | .identity => Store.Identity
  | .dockerHub => Store.DockerHub
  | .schedules => List Store.Schedule
  | .endpoints => List Store.Endpoint
  | .endpointGroups => List Store.EndpointGroup
  | .registries => List Store.Registry
  | .resourceControls => List Store.ResourceControl
  | .settings => Store.Settings
  | .containerStacks => List Store.Stack
  | .tags => List Store.Tag
  | .teams => List Store.Team
  | .teamMemberships => List Store.TeamMembership

def SingleRecord.require {α : Type} (record : SingleRecord) : Option α → Except ReadError α
  | some value => .ok value
  | none => .error (.missing record)

/-- What a readable bucket yields. -/
def Store.read (store : Store) : (bucket : Bucket) → Except ReadError bucket.Held
  | .identity => SingleRecord.identity.require store.identity
  | .dockerHub => SingleRecord.dockerHub.require store.dockerHub
  | .schedules => .ok store.schedules
  | .endpoints => .ok store.endpoints
  | .endpointGroups => .ok store.endpointGroups
  | .registries => .ok store.registries
  | .resourceControls => .ok store.resourceControls
  | .settings => SingleRecord.settings.require store.settings
  | .containerStacks => .ok store.containerStacks
  | .tags => .ok store.tags
  | .teams => .ok store.teams
  | .teamMemberships => .ok store.teamMemberships

/-- A store as it is read, perhaps with one unreadable bucket. -/
structure Source where
  store : Store := {}
  unreadable : Option Bucket := none
deriving DecidableEq

/-- That a bucket is unreadable comes before what it holds. -/
def Source.read (source : Source) (bucket : Bucket) : Except ReadError bucket.Held :=
  if source.unreadable = some bucket then .error (.unreadable bucket)
  else source.store.read bucket

end UsageReport
