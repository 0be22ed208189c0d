import UsageReport.Proofs.RoundTrip
import UsageReport.Report.Format

/-!
The JSON texts of a report. In either layout the report is read back, but for the length of the
snapshot interval, which is read back as the number that its text is read as.
-/

namespace UsageReport

open Json

section Lawful

attribute [local simp] Shape.Lawful Fields.Lawful Fields.Agree Fields.Preserve Fields.Canonical
  Shape.Canonical Shape.word

theorem DockerHubUsage.lawful_shape : DockerHubUsage.shape.Lawful := by
  simp [shape]

theorem ScheduleUsage.lawful_shape : ScheduleUsage.shape.Lawful := by
  simp [shape]

theorem EdgeComputeUsage.lawful_shape : EdgeComputeUsage.shape.Lawful := by
  simp [shape, ScheduleUsage.lawful_shape]
  exact Shape.canonical_blank ScheduleUsage.lawful_shape

theorem DockerUsage.lawful_shape : DockerUsage.shape.Lawful := by
  simp [shape]

theorem KubernetesUsage.lawful_shape : KubernetesUsage.shape.Lawful := by
  simp [shape]

theorem EnvironmentUsage.lawful_shape : EnvironmentUsage.shape.Lawful := by
  simp [shape, DockerUsage.lawful_shape, KubernetesUsage.lawful_shape]
  exact ⟨Shape.canonical_blank DockerUsage.lawful_shape,
    Shape.canonical_blank KubernetesUsage.lawful_shape⟩

theorem EndpointUsage.lawful_shape : EndpointUsage.shape.Lawful := by
  simp [shape, EnvironmentUsage.lawful_shape]

theorem EndpointGroupUsage.lawful_shape : EndpointGroupUsage.shape.Lawful := by
  simp [shape]

theorem RegistryEntry.lawful_shape : RegistryEntry.shape.Lawful := by
  simp [shape]

theorem RegistryUsage.lawful_shape : RegistryUsage.shape.Lawful := by
  simp [shape, RegistryEntry.lawful_shape]

theorem ResourceControlUsage.lawful_shape : ResourceControlUsage.shape.Lawful := by
  simp [shape]

theorem RuntimeUsage.lawful_shape : RuntimeUsage.shape.Lawful := by
  simp [shape]

theorem RestrictionUsage.lawful_shape : RestrictionUsage.shape.Lawful := by
  simp [shape]

theorem SettingsUsage.lawful_shape : SettingsUsage.shape.Lawful := by
  simp [shape, RestrictionUsage.lawful_shape]
  exact Shape.canonical_blank RestrictionUsage.lawful_shape

theorem StackUsage.lawful_shape : StackUsage.shape.Lawful := by
  simp [shape]

theorem TagUsage.lawful_shape : TagUsage.shape.Lawful := by
  simp [shape]

theorem TeamUsage.lawful_shape : TeamUsage.shape.Lawful := by
  simp [shape]

theorem Report.lawful_shape : Report.shape.Lawful := by
  simp [shape, DockerHubUsage.lawful_shape, EdgeComputeUsage.lawful_shape,
    EndpointUsage.lawful_shape, EndpointGroupUsage.lawful_shape, RegistryUsage.lawful_shape,
    ResourceControlUsage.lawful_shape, RuntimeUsage.lawful_shape, SettingsUsage.lawful_shape,
    StackUsage.lawful_shape, TagUsage.lawful_shape, TeamUsage.lawful_shape]
  exact ⟨Shape.canonical_blank DockerHubUsage.lawful_shape,
    Shape.canonical_blank EdgeComputeUsage.lawful_shape,
    Shape.canonical_blank EndpointUsage.lawful_shape,
    Shape.canonical_blank EndpointGroupUsage.lawful_shape,
    Shape.canonical_blank RegistryUsage.lawful_shape,
    Shape.canonical_blank ResourceControlUsage.lawful_shape,
    Shape.canonical_blank RuntimeUsage.lawful_shape,
    Shape.canonical_blank SettingsUsage.lawful_shape,
    Shape.canonical_blank StackUsage.lawful_shape,
    Shape.canonical_blank TagUsage.lawful_shape,
    Shape.canonical_blank TeamUsage.lawful_shape⟩

end Lawful

section Faithful

attribute [local simp] Shape.Faithful Fields.Faithful Fields.names Shape.Blank Fields.Blank
  Fields.rebuild Shape.word

theorem DockerHubUsage.faithful_shape : DockerHubUsage.shape.Faithful := by
  simp [shape]

theorem ScheduleUsage.faithful_shape : ScheduleUsage.shape.Faithful := by
  simp [shape]

theorem EdgeComputeUsage.faithful_shape : EdgeComputeUsage.shape.Faithful := by
  simp [shape, ScheduleUsage.faithful_shape]

theorem DockerUsage.faithful_shape : DockerUsage.shape.Faithful := by
  simp [shape]

theorem KubernetesUsage.faithful_shape : KubernetesUsage.shape.Faithful := by
  simp [shape]

theorem EnvironmentUsage.faithful_shape : EnvironmentUsage.shape.Faithful := by
  simp [shape, DockerUsage.faithful_shape, KubernetesUsage.faithful_shape]

theorem EndpointUsage.faithful_shape : EndpointUsage.shape.Faithful := by
  simp [shape, EnvironmentUsage.faithful_shape]

theorem EndpointGroupUsage.faithful_shape : EndpointGroupUsage.shape.Faithful := by
  simp [shape]

theorem RegistryEntry.faithful_shape : RegistryEntry.shape.Faithful := by
  simp [shape]

theorem RegistryUsage.faithful_shape : RegistryUsage.shape.Faithful := by
  simp [shape, RegistryEntry.faithful_shape]

theorem ResourceControlUsage.faithful_shape : ResourceControlUsage.shape.Faithful := by
  simp [shape]

theorem RuntimeUsage.faithful_shape : RuntimeUsage.shape.Faithful := by
  simp [shape]

theorem RestrictionUsage.faithful_shape : RestrictionUsage.shape.Faithful := by
  simp [shape]

theorem SettingsUsage.faithful_shape : SettingsUsage.shape.Faithful := by
  simp [shape, RestrictionUsage.faithful_shape]

theorem StackUsage.faithful_shape : StackUsage.shape.Faithful := by
  simp [shape]

theorem TagUsage.faithful_shape : TagUsage.shape.Faithful := by
  simp [shape]

theorem TeamUsage.faithful_shape : TeamUsage.shape.Faithful := by
  simp [shape]

theorem Report.faithful_shape : Report.shape.Faithful := by
  simp [shape, DockerHubUsage.faithful_shape, EdgeComputeUsage.faithful_shape,
    EndpointUsage.faithful_shape, EndpointGroupUsage.faithful_shape, RegistryUsage.faithful_shape,
    ResourceControlUsage.faithful_shape, RuntimeUsage.faithful_shape, SettingsUsage.faithful_shape,
    StackUsage.faithful_shape, TagUsage.faithful_shape, TeamUsage.faithful_shape]

end Faithful

namespace Report

variable {report : Report}

def withInterval (report : Report) (interval : Binary64) : Report :=
  { report with settings := { report.settings with snapshotInterval := interval } }

theorem withInterval_withInterval (report : Report) (first second : Binary64) :
    (report.withInterval first).withInterval second = report.withInterval second := rfl

theorem withInterval_snapshotInterval (report : Report) :
    report.withInterval report.settings.snapshotInterval = report := rfl

/-- The compact text, and the one that is printed. -/
def jsonTexts (report : Report) : List String :=
  [shape.encode .compact report, report.render .json]

theorem exists_layout_of_mem_jsonTexts {text : String} (htext : text ∈ report.jsonTexts) :
    ∃ layout, text = shape.encode layout report := by
  rcases List.mem_pair.mp htext with rfl | rfl
  · exact ⟨.compact, rfl⟩
  · exact ⟨.indented, rfl⟩

/-- The interval is the only real number. -/
theorem rereads_withInterval {interval : Binary64}
    (hinterval : (Number.real report.settings.snapshotInterval).printed = .number (.real interval)) :
    shape.Rereads report (report.withInterval interval) := by
  have hsettings : SettingsUsage.shape.Rereads report.settings
      (report.withInterval interval).settings := by
    simp only [SettingsUsage.shape, Shape.Rereads, Fields.Rereads]
    exact ⟨rfl, rfl, rfl, Shape.rereads_self rfl _, rfl, hinterval, trivial⟩
  simp only [shape, Shape.Rereads, Fields.Rereads]
  exact ⟨rfl, Shape.rereads_self rfl _, Shape.rereads_self rfl _, Shape.rereads_self rfl _,
    Shape.rereads_self rfl _, Shape.rereads_self rfl _, Shape.rereads_self rfl _,
    Shape.rereads_self rfl _, hsettings, Shape.rereads_self rfl _, Shape.rereads_self rfl _,
    Shape.rereads_self rfl _, trivial⟩

theorem exists_decode_jsonTexts (hcanonical : shape.Canonical report) :
    ∃ interval, (∀ layout, Shape.real.decode
        (Shape.real.encode layout report.settings.snapshotInterval) = .ok interval) ∧
      ∀ text ∈ report.jsonTexts, shape.decode text = .ok (report.withInterval interval) := by
  obtain ⟨interval, hinterval⟩ := Number.exists_printed_real report.settings.snapshotInterval
  refine ⟨interval, Shape.decode_encode_real hinterval, fun text htext => ?_⟩
  obtain ⟨layout, rfl⟩ := exists_layout_of_mem_jsonTexts htext
  exact Shape.decode_encode lawful_shape faithful_shape hcanonical
    (rereads_withInterval hinterval) layout

/-- Every JSON text of a report is read, and what is read is the report, but for the interval, of
which what its own text is read as. So reports that share a text differ in nothing else. -/
theorem decode_jsonTexts (hcanonical : shape.Canonical report) :
    (∃ interval, (∀ layout, Shape.real.decode
          (Shape.real.encode layout report.settings.snapshotInterval) = .ok interval) ∧
      ∀ text ∈ report.jsonTexts, shape.decode text = .ok (report.withInterval interval)) ∧
    (Shape.real.decode (Shape.real.encode .compact report.settings.snapshotInterval) =
        .ok report.settings.snapshotInterval →
      ∀ text ∈ report.jsonTexts, shape.decode text = .ok report) ∧
    ∀ other, shape.Canonical other → ∀ text ∈ report.jsonTexts, text ∈ other.jsonTexts →
      report.withInterval .zero = other.withInterval .zero := by
  obtain ⟨interval, hinterval, htexts⟩ := exists_decode_jsonTexts hcanonical
  refine ⟨⟨interval, hinterval, htexts⟩, fun hsame text htext => ?_,
    fun other hother text htext hshared => ?_⟩
  · cases (hinterval .compact).symm.trans hsame
    rw [htexts text htext, withInterval_snapshotInterval]
  · obtain ⟨found, -, hothers⟩ := exists_decode_jsonTexts hother
    have hboth := (htexts text htext).symm.trans (hothers text hshared)
    calc report.withInterval .zero
        = (report.withInterval interval).withInterval .zero :=
          (withInterval_withInterval _ _ _).symm
      _ = (other.withInterval found).withInterval .zero := by rw [Except.ok.inj hboth]
      _ = other.withInterval .zero := withInterval_withInterval _ _ _

/-- A quote, a backslash, a control character and one outside ASCII, the greatest count, and the
number nearest to a tenth. -/
def awkward : Report where
  identifier := "\"\\\u0001\u00e9"
  endpoint :=
    { count := Text.greatestWord, endpoints := [{ environment := "\n", edge := true }, {}] }
  registry := { count := 1, registries := [{ kind := "" }] }
  settings := { snapshotInterval := .ofRatio false 1 10 }

theorem canonical_awkward : shape.Canonical awkward := by
  simp [awkward, shape, DockerHubUsage.shape, ScheduleUsage.shape, EdgeComputeUsage.shape,
    DockerUsage.shape, KubernetesUsage.shape, EnvironmentUsage.shape, EndpointUsage.shape,
    EndpointGroupUsage.shape, RegistryEntry.shape, RegistryUsage.shape, ResourceControlUsage.shape,
    RuntimeUsage.shape, RestrictionUsage.shape, SettingsUsage.shape, StackUsage.shape,
    TagUsage.shape, TeamUsage.shape, Shape.word, Shape.Canonical, Fields.Canonical,
    Text.greatestWord]

theorem decode_jsonTexts_awkward :
    shape.Canonical awkward ∧
    Shape.real.decode (Shape.real.encode .compact awkward.settings.snapshotInterval) =
      .ok awkward.settings.snapshotInterval ∧
    (∀ text ∈ awkward.jsonTexts, shape.decode text = .ok awkward) ∧
    shape.Canonical {} ∧ ∀ text ∈ awkward.jsonTexts, text ∉ jsonTexts {} := by
  obtain ⟨-, hread, hdistinct⟩ := decode_jsonTexts canonical_awkward
  have hinterval : Shape.real.decode
      (Shape.real.encode .compact awkward.settings.snapshotInterval) =
        .ok awkward.settings.snapshotInterval := by
    decide +kernel
  have hblank : shape.Canonical {} := Shape.canonical_blank lawful_shape
  refine ⟨canonical_awkward, hinterval, hread hinterval, hblank, fun text htext hshared => ?_⟩
  have hsame := hdistinct {} hblank text htext hshared
  exact absurd (congrArg Report.identifier hsame) (by decide)

end Report

end UsageReport
