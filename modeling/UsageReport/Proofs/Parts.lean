import UsageReport.Proofs.Trace
import UsageReport.Survey.Basic

/-!
Reports taken apart by section. A report is its identifier and what it tells in each section; to
compute a section is to put a value in its place that no report has a part in, and a survey that
succeeds has put such a value in every place.
-/

namespace UsageReport

/-- What a report tells in a section. -/
abbrev Section.Usage : Section → Type
  | .dockerHub => DockerHubUsage
  | .edgeCompute => EdgeComputeUsage
  | .endpoint => EndpointUsage
  | .endpointGroup => EndpointGroupUsage
  | .registry => RegistryUsage
  | .resourceControl => ResourceControlUsage
  | .runtime => RuntimeUsage
  | .settings => SettingsUsage
  | .stack => StackUsage
  | .tag => TagUsage
  | .team => TeamUsage

theorem Section.mem_all (part : Section) : part ∈ Section.all := by cases part <;> decide

theorem Section.nodup_all : Section.all.Nodup := by decide

namespace Report

def usage (report : Report) : (part : Section) → part.Usage
  | .dockerHub => report.dockerHub
  | .edgeCompute => report.edgeCompute
  | .endpoint => report.endpoint
  | .endpointGroup => report.endpointGroup
  | .registry => report.registry
  | .resourceControl => report.resourceControl
  | .runtime => report.runtime
  | .settings => report.settings
  | .stack => report.stack
  | .tag => report.tag
  | .team => report.team

def put (report : Report) : (part : Section) → part.Usage → Report
  | .dockerHub, usage => { report with dockerHub := usage }
  | .edgeCompute, usage => { report with edgeCompute := usage }
  | .endpoint, usage => { report with endpoint := usage }
  | .endpointGroup, usage => { report with endpointGroup := usage }
  | .registry, usage => { report with registry := usage }
  | .resourceControl, usage => { report with resourceControl := usage }
  | .runtime, usage => { report with runtime := usage }
  | .settings, usage => { report with settings := usage }
  | .stack, usage => { report with stack := usage }
  | .tag, usage => { report with tag := usage }
  | .team, usage => { report with team := usage }

@[simp] theorem usage_put_self (report : Report) (part : Section) (usage : part.Usage) :
    (report.put part usage).usage part = usage := by
  cases part <;> rfl

theorem usage_put_of_ne (report : Report) {part other : Section} (usage : part.Usage)
    (hne : other ≠ part) : (report.put part usage).usage other = report.usage other := by
  cases part <;> cases other <;> first | rfl | exact absurd rfl hne

@[simp] theorem identifier_put (report : Report) (part : Section) (usage : part.Usage) :
    (report.put part usage).identifier = report.identifier := by
  cases part <;> rfl

theorem eq_of_usage_eq {first second : Report} (hidentifier : first.identifier = second.identifier)
    (husage : ∀ part, first.usage part = second.usage part) : first = second := by
  rcases first with ⟨identifier, a, b, c, d, e, f, g, h, i, j, k⟩
  rcases second with ⟨identifier', a', b', c', d', e', f', g', h', i', j', k'⟩
  rw [Report.mk.injEq]
  exact ⟨hidentifier, husage .dockerHub, husage .edgeCompute, husage .endpoint,
    husage .endpointGroup, husage .registry, husage .resourceControl, husage .runtime,
    husage .settings, husage .stack, husage .tag, husage .team⟩

end Report

namespace Survey

/-- Computes what is told in a section. -/
def compute (host : Host) (source : Source) : (part : Section) → Trace ReadError part.Usage
  | .dockerHub => dockerHub source
  | .edgeCompute => edgeCompute source
  | .endpoint => endpoint source
  | .endpointGroup => endpointGroup source
  | .registry => registry source
  | .resourceControl => resourceControl source
  | .runtime => pure (runtime host)
  | .settings => settings source
  | .stack => stack source
  | .tag => tag source
  | .team => team source

theorem update_eq_put (host : Host) (source : Source) (report : Report) (part : Section) :
    update host source report part =
      compute host source part >>= fun usage => pure (report.put part usage) := by
  cases part <;> rfl

theorem result_update_eq_ok_iff {host : Host} {source : Source} {report updated : Report}
    {part : Section} :
    (update host source report part).result = .ok updated ↔
      ∃ usage, (compute host source part).result = .ok usage ∧ updated = report.put part usage := by
  rw [update_eq_put, Trace.result_bind_eq_ok_iff]
  simp only [Trace.result_pure, Except.ok.injEq, eq_comm]

theorem result_extend (host : Host) (source : Source) (report : Report) (part : Section) :
    (extend host source report part).result =
      (update host source report part).result.mapError fun cause => ⟨.inside part, cause⟩ := by
  unfold extend
  cases hresult : (update host source report part).result with
  | error error => rw [Trace.bind_of_error _ (by simp [Trace.mapError, hresult]; rfl)]; rfl
  | ok updated =>
      rw [Trace.bind_of_ok _ (by simp [Trace.mapError, hresult]; rfl)]
      split <;> rfl

theorem result_extend_eq_ok_iff {host : Host} {source : Source} {report extended : Report}
    {part : Section} :
    (extend host source report part).result = .ok extended ↔
      ∃ usage, (compute host source part).result = .ok usage ∧
        extended = report.put part usage := by
  rw [← result_update_eq_ok_iff, result_extend]
  exact Trace.mapError_eq_ok_iff

/-- Sections that are computed one after another all end up in the report, and the others stay. -/
theorem result_foldlM_extend_eq_ok_iff {host : Host} {source : Source} {parts : List Section}
    (hnodup : parts.Nodup) {start report : Report} :
    (parts.foldlM (extend host source) start).result = .ok report ↔
      report.identifier = start.identifier ∧
        (∀ part ∈ parts, (compute host source part).result = .ok (report.usage part)) ∧
        ∀ part, part ∉ parts → report.usage part = start.usage part := by
  induction parts generalizing start with
  | nil =>
      simp only [List.foldlM_nil, Trace.result_pure, Except.ok.injEq]
      constructor
      · rintro rfl
        simp
      · rintro ⟨hidentifier, -, husage⟩
        exact Report.eq_of_usage_eq hidentifier.symm fun part => (husage part (by simp)).symm
  | cons first parts ih =>
      rw [List.nodup_cons] at hnodup
      rw [List.foldlM_cons, Trace.result_bind_eq_ok_iff]
      constructor
      · rintro ⟨extended, hextended, hrest⟩
        obtain ⟨usage, hcompute, rfl⟩ := result_extend_eq_ok_iff.mp hextended
        obtain ⟨hidentifier, hcomputed, hkept⟩ := (ih hnodup.2).mp hrest
        have hfirst : report.usage first = usage := by
          rw [hkept first hnodup.1, Report.usage_put_self]
        refine ⟨by rw [hidentifier, Report.identifier_put], ?_, ?_⟩
        · intro part hpart
          rcases List.mem_cons.mp hpart with rfl | hpart
          · rw [hfirst, hcompute]
          · exact hcomputed part hpart
        · intro part hpart
          rw [List.mem_cons, not_or] at hpart
          rw [hkept part hpart.2, Report.usage_put_of_ne _ _ hpart.1]
      · rintro ⟨hidentifier, hcomputed, hkept⟩
        refine ⟨start.put first (report.usage first), ?_, ?_⟩
        · exact result_extend_eq_ok_iff.mpr ⟨_, hcomputed first (by simp), rfl⟩
        · refine (ih hnodup.2).mpr ⟨by rw [hidentifier, Report.identifier_put], ?_, ?_⟩
          · exact fun part hpart => hcomputed part (by simp [hpart])
          · intro part hpart
            by_cases heq : part = first
            · subst heq
              rw [Report.usage_put_self]
            · rw [Report.usage_put_of_ne _ _ heq, hkept part (by simp [heq, hpart])]

/-- A survey succeeds with a report exactly if it can read the identifier and compute what the
report tells in every section. -/
theorem result_run_eq_ok_iff {host : Host} {source : Source} {report : Report} :
    (run host source).result = .ok report ↔
      source.read .identity = .ok ⟨report.identifier⟩ ∧
        ∀ part, (compute host source part).result = .ok (report.usage part) := by
  unfold run
  rw [Trace.result_bind_eq_ok_iff]
  simp only [Trace.result_mapError_eq_ok_iff, result_foldlM_extend_eq_ok_iff Section.nodup_all]
  constructor
  · rintro ⟨identity, hread, hidentifier, hcomputed, -⟩
    refine ⟨?_, fun part => hcomputed part (Section.mem_all part)⟩
    rw [hidentifier]
    exact hread
  · rintro ⟨hread, hcomputed⟩
    exact ⟨_, hread, rfl, fun part _ => hcomputed part,
      fun part hpart => absurd (Section.mem_all part) hpart⟩

end Survey

end UsageReport
