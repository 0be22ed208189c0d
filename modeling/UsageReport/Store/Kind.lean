import UsageReport.Json.Shape

/-!
Kinds of things in a store. A kind is written as an integer code; a code that has no name is kept,
so that a store may hold kinds that are not known here. A record without a kind has the code zero.
-/

namespace UsageReport.Store

/-- Kinds written as codes. Every code is kept: it comes back when its kind is written. -/
class Kind (κ : Type) where
  code : κ → Int
  ofCode : Int → κ
  name : κ → String
  code_ofCode : ∀ value, code (ofCode value) = value

namespace Kind

/-- The kind of a record that names none. -/
def absent (κ : Type) [Kind κ] : κ := ofCode 0

def shape (κ : Type) [Kind κ] : Json.Shape κ := .kind code ofCode

def unknownName (code : Int) : String := "Unknown(" ++ toString code ++ ")"

end Kind

/-- How an environment is reached. -/
inductive EndpointKind where
  | docker
  | agentOnDocker
  | azure
  | edgeAgentOnDocker
  | kubernetesLocal
  | agentOnKubernetes
  | edgeAgentOnKubernetes
  | unknown (code : Int)
deriving DecidableEq

namespace EndpointKind

def code : EndpointKind → Int
  | .docker => 1
  | .agentOnDocker => 2
  | .azure => 3
  | .edgeAgentOnDocker => 4
  | .kubernetesLocal => 5
  | .agentOnKubernetes => 6
  | .edgeAgentOnKubernetes => 7
  | .unknown code => code

def ofCode (code : Int) : EndpointKind :=
  if code = 1 then .docker
  else if code = 2 then .agentOnDocker
  else if code = 3 then .azure
  else if code = 4 then .edgeAgentOnDocker
  else if code = 5 then .kubernetesLocal
  else if code = 6 then .agentOnKubernetes
  else if code = 7 then .edgeAgentOnKubernetes
  else .unknown code

def name : EndpointKind → String
  | .docker => "Docker"
  | .agentOnDocker => "AgentOnDocker"
  | .azure => "Azure"
  | .edgeAgentOnDocker => "EdgeAgentOnDocker"
  | .kubernetesLocal => "KubernetesLocal"
  | .agentOnKubernetes => "AgentOnKubernetes"
  | .edgeAgentOnKubernetes => "EdgeAgentOnKubernetes"
  | .unknown code => Kind.unknownName code

theorem code_ofCode (value : Int) : (ofCode value).code = value := by
  unfold ofCode
  repeat' split
  all_goals simp_all [code]

end EndpointKind

instance : Kind EndpointKind where
  code := EndpointKind.code
  ofCode := EndpointKind.ofCode
  name := EndpointKind.name
  code_ofCode := EndpointKind.code_ofCode

inductive RegistryKind where
  | quay
  | azure
  | custom
  | gitlab
  | unknown (code : Int)
deriving DecidableEq

namespace RegistryKind

def code : RegistryKind → Int
  | .quay => 1
  | .azure => 2
  | .custom => 3
  | .gitlab => 4
  | .unknown code => code

def ofCode (code : Int) : RegistryKind :=
  if code = 1 then .quay
  else if code = 2 then .azure
  else if code = 3 then .custom
  else if code = 4 then .gitlab
  else .unknown code

def name : RegistryKind → String
  | .quay => "Quay"
  | .azure => "Azure"
  | .custom => "Custom"
  | .gitlab => "Gitlab"
  | .unknown code => Kind.unknownName code

theorem code_ofCode (value : Int) : (ofCode value).code = value := by
  unfold ofCode
  repeat' split
  all_goals simp_all [code]

end RegistryKind

instance : Kind RegistryKind where
  code := RegistryKind.code
  ofCode := RegistryKind.ofCode
  name := RegistryKind.name
  code_ofCode := RegistryKind.code_ofCode

/-- What an access rule governs. -/
inductive ResourceKind where
  | container
  | service
  | volume
  | network
  | secret
  | stack
  | config
  | unknown (code : Int)
deriving DecidableEq

namespace ResourceKind

def code : ResourceKind → Int
  | .container => 1
  | .service => 2
  | .volume => 3
  | .network => 4
  | .secret => 5
  | .stack => 6
  | .config => 7
  | .unknown code => code

def ofCode (code : Int) : ResourceKind :=
  if code = 1 then .container
  else if code = 2 then .service
  else if code = 3 then .volume
  else if code = 4 then .network
  else if code = 5 then .secret
  else if code = 6 then .stack
  else if code = 7 then .config
  else .unknown code

def name : ResourceKind → String
  | .container => "Container"
  | .service => "Service"
  | .volume => "Volume"
  | .network => "Network"
  | .secret => "Secret"
  | .stack => "Stack"
  | .config => "Config"
  | .unknown code => Kind.unknownName code

theorem code_ofCode (value : Int) : (ofCode value).code = value := by
  unfold ofCode
  repeat' split
  all_goals simp_all [code]

end ResourceKind

instance : Kind ResourceKind where
  code := ResourceKind.code
  ofCode := ResourceKind.ofCode
  name := ResourceKind.name
  code_ofCode := ResourceKind.code_ofCode

inductive StackKind where
  | dockerSwarm
  | dockerCompose
  | kubernetes
  | unknown (code : Int)
deriving DecidableEq

namespace StackKind

def code : StackKind → Int
  | .dockerSwarm => 1
  | .dockerCompose => 2
  | .kubernetes => 3
  | .unknown code => code

def ofCode (code : Int) : StackKind :=
  if code = 1 then .dockerSwarm
  else if code = 2 then .dockerCompose
  else if code = 3 then .kubernetes
  else .unknown code

def name : StackKind → String
  | .dockerSwarm => "DockerSwarm"
  | .dockerCompose => "DockerCompose"
  | .kubernetes => "Kubernetes"
  | .unknown code => Kind.unknownName code

theorem code_ofCode (value : Int) : (ofCode value).code = value := by
  unfold ofCode
  repeat' split
  all_goals simp_all [code]

end StackKind

instance : Kind StackKind where
  code := StackKind.code
  ofCode := StackKind.ofCode
  name := StackKind.name
  code_ofCode := StackKind.code_ofCode

inductive AuthenticationMethod where
  | internal
  | ldap
  | oauth
  | unknown (code : Int)
deriving DecidableEq

namespace AuthenticationMethod

def code : AuthenticationMethod → Int
  | .internal => 1
  | .ldap => 2
  | .oauth => 3
  | .unknown code => code

def ofCode (code : Int) : AuthenticationMethod :=
  if code = 1 then .internal
  else if code = 2 then .ldap
  else if code = 3 then .oauth
  else .unknown code

def name : AuthenticationMethod → String
  | .internal => "Internal"
  | .ldap => "Ldap"
  | .oauth => "OAuth"
  | .unknown code => Kind.unknownName code

theorem code_ofCode (value : Int) : (ofCode value).code = value := by
  unfold ofCode
  repeat' split
  all_goals simp_all [code]

end AuthenticationMethod

instance : Kind AuthenticationMethod where
  code := AuthenticationMethod.code
  ofCode := AuthenticationMethod.ofCode
  name := AuthenticationMethod.name
  code_ofCode := AuthenticationMethod.code_ofCode

inductive MembershipRole where
  | teamLeader
  | teamMember
  | unknown (code : Int)
deriving DecidableEq

namespace MembershipRole

def code : MembershipRole → Int
  | .teamLeader => 1
  | .teamMember => 2
  | .unknown code => code

def ofCode (code : Int) : MembershipRole :=
  if code = 1 then .teamLeader
  else if code = 2 then .teamMember
  else .unknown code

def name : MembershipRole → String
  | .teamLeader => "TeamLeader"
  | .teamMember => "TeamMember"
  | .unknown code => Kind.unknownName code

theorem code_ofCode (value : Int) : (ofCode value).code = value := by
  unfold ofCode
  repeat' split
  all_goals simp_all [code]

end MembershipRole

instance : Kind MembershipRole where
  code := MembershipRole.code
  ofCode := MembershipRole.ofCode
  name := MembershipRole.name
  code_ofCode := MembershipRole.code_ofCode

/-- What a schedule does. -/
inductive JobKind where
  | scriptExecution
  | snapshot
  | endpointSync
  | unknown (code : Int)
deriving DecidableEq

namespace JobKind

def code : JobKind → Int
  | .scriptExecution => 1
  | .snapshot => 2
  | .endpointSync => 3
  | .unknown code => code

def ofCode (code : Int) : JobKind :=
  if code = 1 then .scriptExecution
  else if code = 2 then .snapshot
  else if code = 3 then .endpointSync
  else .unknown code

def name : JobKind → String
  | .scriptExecution => "ScriptExecution"
  | .snapshot => "Snapshot"
  | .endpointSync => "EndpointSync"
  | .unknown code => Kind.unknownName code

theorem code_ofCode (value : Int) : (ofCode value).code = value := by
  unfold ofCode
  repeat' split
  all_goals simp_all [code]

end JobKind

instance : Kind JobKind where
  code := JobKind.code
  ofCode := JobKind.ofCode
  name := JobKind.name
  code_ofCode := JobKind.code_ofCode

end UsageReport.Store
