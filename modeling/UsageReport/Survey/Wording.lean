import UsageReport.Report.Basic
import UsageReport.Store.Record
import UsageReport.Text.Digits

/-!
Which words the report has for the kinds of things in a store, and for where the program runs.
-/

namespace UsageReport.Survey

/-- The sum, or the greatest 64-bit number if the sum is beyond it. -/
def saturatingAdd (a b : Nat) : Nat := min (a + b) Text.greatestWord

def dockerUsage (snapshot : Store.DockerSnapshot) : DockerUsage where
  version := snapshot.dockerVersion
  swarm := snapshot.swarm
  containerCount :=
    saturatingAdd
      (saturatingAdd
        (saturatingAdd snapshot.healthyContainers snapshot.runningContainers)
        snapshot.stoppedContainers)
      snapshot.unhealthyContainers
  imageCount := snapshot.imageCount
  volumeCount := snapshot.volumeCount
  serviceCount := snapshot.serviceCount
  stackCount := snapshot.stackCount
  nodeCount := snapshot.nodeCount

/-- Environments of the Docker family are told by whether an agent runs there, and one at the
edge. -/
def dockerFamily? : Store.EndpointKind → Option (Bool × Bool)
  | .docker => some (false, false)
  | .agentOnDocker => some (true, false)
  | .edgeAgentOnDocker => some (true, true)
  | .azure | .kubernetesLocal | .agentOnKubernetes | .edgeAgentOnKubernetes | .unknown _ => none

/-- An environment of the Docker family is described from its latest snapshot. -/
def environmentUsage (endpoint : Store.Endpoint) : EnvironmentUsage :=
  match dockerFamily? endpoint.kind with
  | none => {}
  | some (agent, edge) =>
    { environment := "docker"
      agent
      edge
      docker := (endpoint.snapshots.head?.map dockerUsage).getD {} }

def registryName : Store.RegistryKind → String
  | .quay => "quay"
  | .azure => "azure"
  | .gitlab => "gitlab"
  | .custom | .unknown _ => "custom"

def authenticationMode : Store.AuthenticationMethod → String
  | .ldap => "ldap"
  | .oauth => "oauth"
  | .internal | .unknown _ => "internal"

/-- Counts one more access rule of a kind; the count of all rules stays. -/
def tallyResource (usage : ResourceControlUsage) : Store.ResourceKind → ResourceControlUsage
  | .container => { usage with containerCount := usage.containerCount + 1 }
  | .service => { usage with serviceCount := usage.serviceCount + 1 }
  | .volume => { usage with volumeCount := usage.volumeCount + 1 }
  | .network => { usage with networkCount := usage.networkCount + 1 }
  | .secret => { usage with secretCount := usage.secretCount + 1 }
  | .config => { usage with configCount := usage.configCount + 1 }
  | .stack => { usage with stackCount := usage.stackCount + 1 }
  | .unknown _ => usage

def platformName (system : String) : String :=
  if system = "macos" then "darwin" else system

def architectureName (machine : String) : String :=
  if machine = "x86_64" then "amd64"
  else if machine = "x86" then "386"
  else if machine = "aarch64" then "arm64"
  else if machine = "powerpc64" then "ppc64le"
  else machine

end UsageReport.Survey
