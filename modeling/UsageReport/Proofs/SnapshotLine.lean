import UsageReport.Proofs.Environments
import UsageReport.Proofs.PageLayout

/-!
What the page says about the snapshot of an environment of the Docker family. It tells by the
version alone whether there is a snapshot, so one without a version passes for none.
-/

namespace UsageReport

namespace Report

theorem shownVersion_eq_noSnapshot_iff {docker : DockerUsage}
    (hother : docker.version ≠ "(no snapshot)") :
    shownVersion docker = "(no snapshot)" ↔ docker.version = "" := by
  unfold shownVersion
  split
  · exact iff_of_true rfl ‹_›
  · exact iff_of_false hother ‹_›

theorem dockerLine_eq_noSnapshot_iff (docker : DockerUsage) :
    dockerLine docker = "      Docker (no snapshot)" ++ shownCounts docker ↔
      shownVersion docker = "(no snapshot)" := by
  have hwords : "      Docker (no snapshot)" = "      Docker " ++ "(no snapshot)" := rfl
  rw [dockerLine_eq, hwords, String.append_left_inj, String.append_right_inj]

/-- Right after the line of an environment that belongs to a family comes the one about Docker. -/
theorem exists_dockerLine {report : Report} {place : Nat} {entry : EnvironmentUsage}
    (hplace : report.endpoint.endpoints[place]? = some entry) (hfamily : entry.environment ≠ "") :
    ∃ before after, report.pageLines = before ++
        entryLine report.endpoint.count (place + 1) entry :: dockerLine entry.docker :: after ∧
      before.countP Mark.entry.isOn = place := by
  obtain ⟨before, after, hpage, hbefore, hdetail, -⟩ := exists_entryLine_pageLines hplace
  obtain ⟨rest, hrest⟩ := List.head?_eq_some_iff.mp (hdetail hfamily)
  exact ⟨before, rest, hrest ▸ hpage, hbefore⟩

end Report

namespace Survey

theorem environment_of_isDocker {endpoint : Store.Endpoint}
    (hdocker : endpoint.kind.isDocker = true) : (environmentUsage endpoint).environment ≠ "" := by
  rcases dockerFamily?_eq endpoint.kind with ⟨hother, -⟩ | ⟨-, agent, edge, -, -, hsome⟩
  · rw [hdocker] at hother
    cases hother
  · simp [environmentUsage, hsome]

theorem version_of_isDocker {endpoint : Store.Endpoint} (hdocker : endpoint.kind.isDocker = true) :
    (environmentUsage endpoint).docker.version =
      (endpoint.snapshots.head?.map Store.DockerSnapshot.dockerVersion).getD "" := by
  rcases dockerFamily?_eq endpoint.kind with ⟨hother, -⟩ | ⟨-, agent, edge, -, -, hsome⟩
  · rw [hdocker] at hother
    cases hother
  · simp only [environmentUsage, hsome]
    cases endpoint.snapshots.head? <;> rfl

/-- The page of a survey says that an environment of the Docker family has no snapshot if that is
so, and also if its first snapshot has no version. -/
theorem dockerLine_of_run {host : Host} {source : Source} {report : Report}
    (hrun : (run host source).result = .ok report) {place : Nat} {endpoint : Store.Endpoint}
    (hplace : source.store.endpoints[place]? = some endpoint)
    (hdocker : endpoint.kind.isDocker = true)
    (hversion : ∀ snapshot ∈ endpoint.snapshots.head?, snapshot.dockerVersion ≠ "(no snapshot)") :
    ∃ before line after, report.pageLines = before ++
        Report.entryLine report.endpoint.count (place + 1) (environmentUsage endpoint) ::
          line :: after ∧
      before.countP Report.Mark.entry.isOn = place ∧
      (line = "      Docker (no snapshot)" ++
          Report.shownCounts (environmentUsage endpoint).docker ↔
        endpoint.snapshots = [] ∨
          ∃ snapshot ∈ endpoint.snapshots.head?, snapshot.dockerVersion = "") := by
  have hentry : report.endpoint.endpoints[place]? = some (environmentUsage endpoint) := by
    rw [endpoints_of_run hrun, List.getElem?_map, hplace, Option.map_some]
  obtain ⟨before, after, hpage, hbefore⟩ :=
    Report.exists_dockerLine hentry (environment_of_isDocker hdocker)
  refine ⟨before, _, after, hpage, hbefore, ?_⟩
  rw [Report.dockerLine_eq_noSnapshot_iff]
  have hshown := version_of_isDocker hdocker
  cases hsnapshots : endpoint.snapshots with
  | nil =>
      rw [hsnapshots] at hshown
      exact iff_of_true (if_pos hshown) (.inl rfl)
  | cons snapshot rest =>
      rw [hsnapshots] at hshown hversion
      have hother : snapshot.dockerVersion ≠ "(no snapshot)" := hversion snapshot rfl
      have hfirst : (environmentUsage endpoint).docker.version = snapshot.dockerVersion := hshown
      rw [Report.shownVersion_eq_noSnapshot_iff (hfirst ▸ hother), hfirst]
      simp

/-- The first environment has a snapshot with a version, the second none. -/
def snapshotSource : Source where
  store := {
    identity := some ⟨"6f1c"⟩, dockerHub := some {}, settings := some {}
    endpoints := [{ kind := .docker, snapshots := [{ dockerVersion := "24.0.7" }] },
      { kind := .agentOnDocker }] }

theorem dockerLine_of_snapshotSource :
    ∃ report, (run { version := "2.0.0" } snapshotSource).result = .ok report ∧
      (∃ before line after,
        report.pageLines = before ++ "  [1/2] docker (direct)" :: line :: after ∧
        line ≠ "      Docker (no snapshot)" ++ Report.shownCounts { version := "24.0.7" }) ∧
      ∃ before line after,
        report.pageLines = before ++ "  [2/2] docker (agent)" :: line :: after ∧
        line = "      Docker (no snapshot)" ++ Report.shownCounts {} := by
  obtain ⟨report, hrun⟩ : ∃ report,
      (run { version := "2.0.0" } snapshotSource).result = .ok report := ⟨_, rfl⟩
  have hcount : report.endpoint.count = 2 := by
    cases hrun
    rfl
  obtain ⟨before, line, after, hfirst, -, hreads⟩ :=
    @dockerLine_of_run _ _ _ hrun 0 _ rfl rfl (by simp)
  obtain ⟨before', line', after', hsecond, -, hreads'⟩ :=
    @dockerLine_of_run _ _ _ hrun 1 _ rfl rfl (by simp)
  rw [hcount] at hfirst hsecond
  refine ⟨report, hrun, ⟨before, line, after, hfirst, ?_⟩, before', line', after', hsecond, ?_⟩
  · intro hline
    have hnone := hreads.mp hline
    simp at hnone
  · exact hreads'.mpr (.inl rfl)

/-- The only snapshot tells of three containers but not of a version. -/
def versionlessEndpoint : Store.Endpoint where
  kind := .docker
  snapshots := [{ runningContainers := 3 }]

def versionlessSource : Source where
  store := {
    identity := some ⟨"6f1c"⟩, dockerHub := some {}, settings := some {}
    endpoints := [versionlessEndpoint] }

theorem dockerLine_of_versionlessSource :
    versionlessEndpoint.snapshots ≠ [] ∧
    ∃ report, (run { version := "2.0.0" } versionlessSource).result = .ok report ∧
      ∃ before after, report.pageLines = before ++ "  [1/1] docker (direct)" ::
        "      Docker (no snapshot)  containers=3 images=0 volumes=0 services=0 stacks=0 nodes=0" ::
          after := by
  obtain ⟨report, hrun⟩ : ∃ report,
      (run { version := "2.0.0" } versionlessSource).result = .ok report := ⟨_, rfl⟩
  have hcount : report.endpoint.count = 1 := by
    cases hrun
    rfl
  have hentry : report.endpoint.endpoints[0]? = some (environmentUsage versionlessEndpoint) := by
    rw [endpoints_of_run hrun]
    rfl
  have hdetail : Report.dockerLine (environmentUsage versionlessEndpoint).docker =
      "      Docker (no snapshot)  containers=3 images=0 volumes=0 services=0 stacks=0 nodes=0" := by
    decide
  obtain ⟨before, after, hpage, -⟩ := Report.exists_dockerLine hentry (by decide)
  rw [hcount, hdetail] at hpage
  exact ⟨by decide, report, hrun, before, after, hpage⟩

end Survey

end UsageReport
