import Mathlib.Data.List.Perm.Basic
import UsageReport.Proofs.Anonymity
import UsageReport.Proofs.Counts

/-!
What a report tells about each environment of a store. Only those of the Docker family are
described, by their code and their first snapshot; the containers of a snapshot are added up as far
as a word goes.
-/

namespace UsageReport

namespace Survey

open Store

/-- Once a sum is beyond a word it stays at the greatest word, so it makes no difference where on
the way that happens. -/
theorem foldl_saturatingAdd (counts : List Nat) {start : Nat} (hstart : start ≤ Text.greatestWord) :
    counts.foldl saturatingAdd start = min Text.greatestWord (start + counts.sum) := by
  induction counts generalizing start with
  | nil => exact (Nat.min_eq_right hstart).symm
  | cons count counts ih =>
      rw [List.foldl_cons, saturatingAdd, ih (Nat.min_le_right _ _), List.sum_cons]
      omega

end Survey

namespace Store

/-- Containers that are well, that run, that are stopped and that are not well. -/
def DockerSnapshot.containerCounts (snapshot : DockerSnapshot) : List Nat :=
  [snapshot.healthyContainers, snapshot.runningContainers, snapshot.stoppedContainers,
    snapshot.unhealthyContainers]

/-- The codes of the Docker family, each with whether an agent runs there and whether at the
edge. -/
def EndpointKind.dockerFamily : List (Int × Bool × Bool) :=
  [(1, false, false), (2, true, false), (4, true, true)]

theorem EndpointKind.isDocker_ofCode :
    ∀ member ∈ dockerFamily, (ofCode member.1).isDocker = true := by
  decide

end Store

namespace Survey

open Store

/-- What is told of a snapshot is what it says, with its containers as one number. -/
structure Summary (snapshot : DockerSnapshot) (usage : DockerUsage) : Prop where
  version : usage.version = snapshot.dockerVersion
  swarm : usage.swarm = snapshot.swarm
  containerCount : usage.containerCount = min Text.greatestWord snapshot.containerCounts.sum
  imageCount : usage.imageCount = snapshot.imageCount
  volumeCount : usage.volumeCount = snapshot.volumeCount
  serviceCount : usage.serviceCount = snapshot.serviceCount
  stackCount : usage.stackCount = snapshot.stackCount
  nodeCount : usage.nodeCount = snapshot.nodeCount

/-- What a report may tell about an environment. -/
inductive Describes (endpoint : Endpoint) : EnvironmentUsage → Prop where
  | snapshot {code : Int} {agent edge : Bool} {snapshot : DockerSnapshot} {docker : DockerUsage}
      (hfamily : (code, agent, edge) ∈ EndpointKind.dockerFamily)
      (hkind : endpoint.kind = .ofCode code) (hfirst : endpoint.snapshots.head? = some snapshot)
      (hdocker : Summary snapshot docker) :
      Describes endpoint { environment := "docker", agent, edge, docker }
  | noSnapshot {code : Int} {agent edge : Bool}
      (hfamily : (code, agent, edge) ∈ EndpointKind.dockerFamily)
      (hkind : endpoint.kind = .ofCode code) (hnone : endpoint.snapshots = []) :
      Describes endpoint { environment := "docker", agent, edge }
  | other (hkind : ∀ member ∈ EndpointKind.dockerFamily, endpoint.kind ≠ .ofCode member.1) :
      Describes endpoint {}

theorem summary_dockerUsage (snapshot : DockerSnapshot) :
    Summary snapshot (dockerUsage snapshot) := by
  constructor
  case containerCount =>
    have hsum := foldl_saturatingAdd snapshot.containerCounts (Nat.zero_le _)
    rw [Nat.zero_add] at hsum
    rw [← hsum]
    simp only [dockerUsage, DockerSnapshot.containerCounts, List.foldl_cons, List.foldl_nil,
      saturatingAdd]
    omega
  all_goals rfl

theorem dockerFamily?_eq (kind : EndpointKind) :
    (kind.isDocker = false ∧ dockerFamily? kind = none) ∨
      ∃ code agent edge, (code, agent, edge) ∈ EndpointKind.dockerFamily ∧ kind = .ofCode code ∧
        dockerFamily? kind = some (agent, edge) := by
  cases kind with
  | docker => exact .inr ⟨1, false, false, by decide, rfl, rfl⟩
  | agentOnDocker => exact .inr ⟨2, true, false, by decide, rfl, rfl⟩
  | edgeAgentOnDocker => exact .inr ⟨4, true, true, by decide, rfl, rfl⟩
  | azure | kubernetesLocal | agentOnKubernetes | edgeAgentOnKubernetes | unknown _ =>
      exact .inl ⟨rfl, rfl⟩

theorem dockerFamily?_ofCode {code : Int} (hcode : code ≠ 1 ∧ code ≠ 2 ∧ code ≠ 4) :
    dockerFamily? (.ofCode code) = none := by
  rcases dockerFamily?_eq (.ofCode code) with ⟨-, hnone⟩ | ⟨other, agent, edge, hfamily, hkind, -⟩
  · exact hnone
  · have hsame : code = other := by
      rw [← EndpointKind.code_ofCode code, hkind, EndpointKind.code_ofCode]
    subst hsame
    simp only [EndpointKind.dockerFamily, List.mem_cons, List.not_mem_nil, or_false,
      Prod.mk.injEq] at hfamily
    omega

theorem describes_environmentUsage (endpoint : Endpoint) :
    Describes endpoint (environmentUsage endpoint) := by
  rcases dockerFamily?_eq endpoint.kind with
    ⟨hother, hnone⟩ | ⟨code, agent, edge, hfamily, hkind, hsome⟩
  · simp only [environmentUsage, hnone]
    refine .other fun member hmember hkind => ?_
    rw [hkind, EndpointKind.isDocker_ofCode member hmember] at hother
    cases hother
  · simp only [environmentUsage, hsome]
    cases hsnapshots : endpoint.snapshots with
    | nil => exact .noSnapshot hfamily hkind hsnapshots
    | cons snapshot _ =>
        exact .snapshot hfamily hkind (by rw [hsnapshots]; rfl) (summary_dockerUsage snapshot)

theorem endpoints_of_run {host : Host} {source : Source} {report : Report}
    (hrun : (run host source).result = .ok report) :
    report.endpoint.endpoints = source.store.endpoints.map environmentUsage := by
  have hcompute := (result_run_eq_ok_iff.mp hrun).2 .endpoint
  exact congrArg EndpointUsage.endpoints
    (Except.ok.inj (@result_of_trace_bind source.store _ _ _ rfl _ _ _ hcompute)).symm

theorem Describes.edge_agent {endpoint : Endpoint} {entry : EnvironmentUsage}
    (hdescribes : Describes endpoint entry) (hedge : entry.edge = true) : entry.agent = true := by
  have hfamily : ∀ member ∈ EndpointKind.dockerFamily, member.2.2 = true → member.2.1 = true := by
    decide
  cases hdescribes with
  | snapshot hmember | noSnapshot hmember => exact hfamily _ hmember hedge
  | other => cases hedge

theorem Describes.environment {endpoint : Endpoint} {entry : EnvironmentUsage}
    (hdescribes : Describes endpoint entry) (hdocker : entry.docker ≠ {}) :
    entry.environment = "docker" := by
  cases hdescribes with
  | snapshot | noSnapshot => rfl
  | other => exact absurd rfl hdocker

theorem Describes.kubernetes {endpoint : Endpoint} {entry : EnvironmentUsage}
    (hdescribes : Describes endpoint entry) : entry.kubernetes = {} := by
  cases hdescribes <;> rfl

theorem environmentUsage_congr {first second : Endpoint} (hkind : first.kind = second.kind)
    (hfirst : first.kind.isDocker = true → first.snapshots.head? = second.snapshots.head?) :
    environmentUsage first = environmentUsage second := by
  rcases dockerFamily?_eq first.kind with ⟨-, hnone⟩ | ⟨code, agent, edge, hfamily, hcode, hsome⟩
  · simp only [environmentUsage, ← hkind, hnone]
  · have hdocker : first.kind.isDocker = true := by
      rw [hcode]
      exact EndpointKind.isDocker_ofCode _ hfamily
    simp only [environmentUsage, ← hkind, hsome, hfirst hdocker]

/-- A report has one entry for each environment of the store, in their order, and it is described
there by its code and its first snapshot, or not at all. Containers are added up to the same number
in any order. -/
theorem entries_of_run {host : Host} {source : Source} {report : Report}
    (hrun : (run host source).result = .ok report) :
    List.Forall₂ Describes source.store.endpoints report.endpoint.endpoints ∧
    (∀ (snapshot : DockerSnapshot) (counts : List Nat), counts.Perm snapshot.containerCounts →
      counts.foldl saturatingAdd 0 = min Text.greatestWord snapshot.containerCounts.sum) ∧
    (∀ (place : Nat) (endpoint : Endpoint) (code : Int),
      source.store.endpoints[place]? = some endpoint → endpoint.kind = .ofCode code →
      code ≠ 1 ∧ code ≠ 2 ∧ code ≠ 4 → report.endpoint.endpoints[place]? = some {}) ∧
    (∀ (host' : Host) (source' : Source) (report' : Report),
      (run host' source').result = .ok report' →
      ∀ (place place' : Nat) (endpoint endpoint' : Endpoint),
        source.store.endpoints[place]? = some endpoint →
        source'.store.endpoints[place']? = some endpoint' → endpoint.kind = endpoint'.kind →
        (endpoint.kind.isDocker = true →
          endpoint.snapshots.head? = endpoint'.snapshots.head?) →
        report.endpoint.endpoints[place]? = report'.endpoint.endpoints[place']?) ∧
    ∀ entry ∈ report.endpoint.endpoints,
      (entry.edge = true → entry.agent = true) ∧
      (entry.docker ≠ {} → entry.environment = "docker") ∧ entry.kubernetes = {} := by
  have hentries := endpoints_of_run hrun
  refine ⟨?_, ?_, ?_, ?_, ?_⟩
  · rw [hentries, List.forall₂_map_right_iff, List.forall₂_same]
    exact fun endpoint _ => describes_environmentUsage endpoint
  · intro snapshot counts hperm
    rw [foldl_saturatingAdd counts (Nat.zero_le _), hperm.sum_eq, Nat.zero_add]
  · intro place endpoint code hplace hkind hcode
    rw [hentries, List.getElem?_map, hplace, Option.map_some]
    simp only [environmentUsage, hkind, dockerFamily?_ofCode hcode]
  · intro host' source' report' hrun' place place' endpoint endpoint' hplace hplace' hkind hfirst
    rw [hentries, endpoints_of_run hrun', List.getElem?_map, List.getElem?_map, hplace, hplace',
      Option.map_some, Option.map_some, environmentUsage_congr hkind hfirst]
  · intro entry hentry
    rw [hentries] at hentry
    obtain ⟨endpoint, -, rfl⟩ := List.mem_map.mp hentry
    have hdescribes := describes_environmentUsage endpoint
    exact ⟨hdescribes.edge_agent, hdescribes.environment, hdescribes.kubernetes⟩

/-- The first environment has more containers than a word can count, the second no snapshot; the
third is described by no code. -/
def mixedSource : Source where
  store := {
    identity := some ⟨"6f1c2a9e"⟩, dockerHub := some {}, settings := some {}
    endpoints := [
      { kind := .agentOnDocker, snapshots := [
        { dockerVersion := "19.03", runningContainers := Text.greatestWord, stoppedContainers := 2 },
        { imageCount := 9 }] },
      { kind := .edgeAgentOnDocker },
      { kind := .unknown 9, snapshots := [{ dockerVersion := "18.09" }] }] }

/-- Another name, and another snapshot behind the first. -/
def renamedSource : Source where
  store := { mixedSource.store with
    endpoints := [
      { name := "lab", kind := .agentOnDocker, snapshots := [
        { dockerVersion := "19.03", runningContainers := Text.greatestWord, stoppedContainers := 2 },
        { nodeCount := 4 }] }] }

theorem entries_of_mixedSource :
    ∃ report renamed : Report, (run { version := "2.0.0" } mixedSource).result = .ok report ∧
      (run { version := "2.0.1" } renamedSource).result = .ok renamed ∧
      List.Forall₂ Describes mixedSource.store.endpoints report.endpoint.endpoints ∧
      [0, Text.greatestWord, 2, 0].foldl saturatingAdd 0 = Text.greatestWord ∧
      report.endpoint.endpoints[2]? = some ({} : EnvironmentUsage) ∧
      report.endpoint.endpoints[0]? = renamed.endpoint.endpoints[0]? ∧
      (∃ entry ∈ report.endpoint.endpoints, entry.edge = true ∧ entry.agent = true) ∧
      ∃ entry ∈ report.endpoint.endpoints, entry.docker ≠ {} ∧ entry.environment = "docker" := by
  obtain ⟨report, hrun⟩ : ∃ report,
      (run { version := "2.0.0" } mixedSource).result = .ok report := ⟨_, rfl⟩
  obtain ⟨renamed, hrenamed⟩ : ∃ renamed,
      (run { version := "2.0.1" } renamedSource).result = .ok renamed := ⟨_, rfl⟩
  obtain ⟨hdescribed, hcounts, hother, hsame, hentries⟩ := entries_of_run hrun
  have hsum := hcounts
    { dockerVersion := "19.03", runningContainers := Text.greatestWord, stoppedContainers := 2 }
    [0, Text.greatestWord, 2, 0] (List.Perm.refl _)
  have hedge : report.endpoint.endpoints[1]? =
      some { environment := "docker", agent := true, edge := true } := by
    rw [endpoints_of_run hrun]
    rfl
  have hagent : report.endpoint.endpoints[0]? = some {
      environment := "docker"
      agent := true
      docker := { version := "19.03", containerCount := Text.greatestWord } } := by
    rw [endpoints_of_run hrun]
    rfl
  have hedgeMember := List.mem_of_getElem? hedge
  have hagentMember := List.mem_of_getElem? hagent
  have hdocker : ({ version := "19.03", containerCount := Text.greatestWord } : DockerUsage) ≠ {} :=
    by decide
  exact ⟨report, renamed, hrun, hrenamed, hdescribed, hsum, hother 2 _ 9 rfl rfl (by decide),
    hsame _ _ _ hrenamed 0 0 _ _ rfl rfl rfl fun _ => rfl,
    ⟨_, hedgeMember, rfl, (hentries _ hedgeMember).1 rfl⟩,
    ⟨_, hagentMember, hdocker, (hentries _ hagentMember).2.1 hdocker⟩⟩

end Survey

end UsageReport
