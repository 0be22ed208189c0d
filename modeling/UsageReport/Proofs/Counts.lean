import UsageReport.Proofs.Loaded
import UsageReport.Proofs.Parts

/-!
What the numbers of a report mean in terms of the codes in the text of its store.
-/

namespace UsageReport

namespace ResourceControlUsage

/-- The rules of counted kinds, added up in words of 64 bits. -/
def classifiedWord (usage : ResourceControlUsage) : UInt64 :=
  .ofNat usage.containerCount + .ofNat usage.serviceCount + .ofNat usage.volumeCount +
    .ofNat usage.networkCount + .ofNat usage.secretCount + .ofNat usage.configCount +
    .ofNat usage.stackCount

/-- The other rules, again in words of 64 bits. -/
def unclassifiedWord (usage : ResourceControlUsage) : UInt64 :=
  .ofNat usage.count - usage.classifiedWord

theorem toNat_add_ofNat {word : UInt64} {sum n : Nat} (hword : word.toNat = sum)
    (hfits : sum + n ≤ Text.greatestWord) : (word + .ofNat n).toNat = sum + n := by
  rw [UInt64.toNat_add, hword, Text.toNat_ofNat (Nat.le_trans (Nat.le_add_left n sum) hfits)]
  exact Nat.mod_eq_of_lt (Nat.lt_of_le_of_lt hfits (by decide))

/-- If the whole sum fits into a word, so does every sum on the way. -/
theorem toNat_classifiedWord {usage : ResourceControlUsage}
    (hfits : usage.classified ≤ Text.greatestWord) :
    usage.classifiedWord.toNat = usage.classified := by
  unfold classified at hfits ⊢
  unfold classifiedWord
  have hcontainers : usage.containerCount ≤ Text.greatestWord := by omega
  iterate 6 refine toNat_add_ofNat ?_ (by omega)
  exact Text.toNat_ofNat hcontainers

theorem toNat_unclassifiedWord {usage : ResourceControlUsage}
    (hle : usage.classified ≤ usage.count) (hfits : usage.count ≤ Text.greatestWord) :
    usage.unclassifiedWord.toNat = usage.count - usage.classified := by
  have hclassified := toNat_classifiedWord (Nat.le_trans hle hfits)
  have hcount := Text.toNat_ofNat hfits
  rw [unclassifiedWord, UInt64.toNat_sub_of_le, hcount, hclassified]
  rw [UInt64.le_iff_toNat_le, hcount, hclassified]
  exact hle

/-- The rules of a kind that is counted apart. -/
def bucket (usage : ResourceControlUsage) : Store.ResourceKind → Nat
  | .container => usage.containerCount
  | .service => usage.serviceCount
  | .volume => usage.volumeCount
  | .network => usage.networkCount
  | .secret => usage.secretCount
  | .stack => usage.stackCount
  | .config => usage.configCount
  | .unknown _ => 0

end ResourceControlUsage

namespace Store

/-- Whether a kind of resource is counted apart. -/
def ResourceKind.isNamed : ResourceKind → Bool
  | .unknown _ => false
  | _ => true

theorem ResourceKind.proper_of_isNamed {kind : ResourceKind} (hnamed : kind.isNamed = true) :
    Kind.Proper kind := by
  cases kind
  case unknown => cases hnamed
  all_goals rfl

theorem ResourceKind.isNamed_eq {kind : ResourceKind} (hproper : Kind.Proper kind) :
    kind.isNamed = decide (1 ≤ kind.code ∧ kind.code ≤ 7) := by
  cases kind
  case unknown code =>
    have hne : ∀ named : ResourceKind, named.isNamed = true → named ≠ .unknown code := by
      rintro named hnamed rfl
      cases hnamed
    rw [eq_comm, isNamed, decide_eq_false_iff_not]
    rintro ⟨hleast, hgreatest⟩
    have hcodes : code = 1 ∨ code = 2 ∨ code = 3 ∨ code = 4 ∨ code = 5 ∨ code = 6 ∨ code = 7 := by
      simp only [ResourceKind.code] at hleast hgreatest
      omega
    rcases hcodes with rfl | rfl | rfl | rfl | rfl | rfl | rfl <;> exact hne _ rfl hproper
  all_goals rfl

/-- How many rules are of a kind with that code. -/
def countRules (store : Store) (code : Int) : Nat :=
  store.resourceControls.countP fun control => control.kind.code == code

/-- The word for a registry whose kind has that code. -/
def registryWord (code : Int) : String :=
  if code = 1 then "quay" else if code = 2 then "azure" else if code = 4 then "gitlab"
  else "custom"

theorem registryWord_code {kind : RegistryKind} (hproper : Kind.Proper kind) :
    registryWord kind.code = Survey.registryName kind := by
  rw [← hproper]
  simp only [Kind.code, Kind.ofCode, RegistryKind.ofCode, registryWord]
  repeat' split
  all_goals first | rfl | simp_all [RegistryKind.code]

end Store

namespace Survey

open Store

/-- A count that each rule raises by one or not at all, as its kind alone decides. -/
theorem foldl_tallyResource {observe : ResourceControlUsage → Nat} {counted : ResourceKind → Bool}
    (hstep : ∀ usage kind, observe (tallyResource usage kind) =
      observe usage + if counted kind then 1 else 0)
    (controls : List ResourceControl) (start : ResourceControlUsage) :
    observe (controls.foldl (fun usage control => tallyResource usage control.kind) start) =
      observe start + controls.countP fun control => counted control.kind := by
  induction controls generalizing start with
  | nil => rfl
  | cons control controls ih =>
      rw [List.foldl_cons, ih, hstep, List.countP_cons, Nat.add_assoc, Nat.add_comm (ite _ _ _)]

section Counts

variable {store : Store} {unreadable : Option Bucket}

/-- What is computed from a bucket that could be read is computed from what the store holds. -/
theorem result_of_trace_bind {bucket : Bucket} {held : bucket.Held}
    (hheld : store.read bucket = .ok held) {β : Type} {next : bucket.Held → Trace ReadError β}
    {usage : β}
    (hresult : ((Source.mk store unreadable).trace bucket >>= next).result = .ok usage) :
    (next held).result = .ok usage := by
  obtain ⟨read, hread, hnext⟩ := Trace.result_bind_eq_ok_iff.mp hresult
  simp only [Source.trace, Source.read] at hread
  split at hread
  · cases hread
  · cases hheld.symm.trans hread
    exact hnext

theorem edgeCompute_eq (hproper : store.Proper) {usage : EdgeComputeUsage}
    (hresult : (edgeCompute ⟨store, unreadable⟩).result = .ok usage) :
    usage.schedule = {
      count := store.schedules.length
      recurring := store.schedules.countP fun schedule =>
        schedule.job.code == 1 && schedule.recurring } := by
  have husage := Except.ok.inj (result_of_trace_bind rfl hresult)
  rw [← husage, ScheduleUsage.mk.injEq]
  refine ⟨rfl, List.countP_congr fun schedule hschedule => ?_⟩
  have hcode := Kind.code_eq_iff (hproper.schedules schedule hschedule)
    (show Kind.Proper JobKind.scriptExecution from rfl)
  rw [Bool.and_eq_true, Bool.and_eq_true, beq_iff_eq, beq_iff_eq, ← hcode]
  rfl

theorem registry_eq (hproper : store.Proper) {usage : RegistryUsage}
    (hresult : (registry ⟨store, unreadable⟩).result = .ok usage) :
    usage = {
      count := store.registries.length
      registries := store.registries.map fun registry => ⟨registryWord registry.kind.code⟩ } := by
  have husage := Except.ok.inj (result_of_trace_bind rfl hresult)
  rw [← husage, RegistryUsage.mk.injEq]
  refine ⟨rfl, List.map_congr_left fun registry hregistry => ?_⟩
  rw [registryWord_code (hproper.registries registry hregistry)]

theorem stack_eq (hproper : store.Proper) {usage : StackUsage}
    (hresult : (stack ⟨store, unreadable⟩).result = .ok usage) :
    usage.count = store.containerStacks.length ∧
      usage.standalone = (store.containerStacks.countP fun stack => stack.kind.code == 2) ∧
      usage.standalone + usage.swarm = usage.count := by
  have husage := Except.ok.inj (result_of_trace_bind rfl hresult)
  rw [← husage]
  refine ⟨rfl, ?_, ?_⟩
  · exact Kind.countP_eq hproper.containerStacks (show Kind.Proper StackKind.dockerCompose from rfl)
  · exact Nat.add_sub_of_le List.countP_le_length

theorem team_eq (hproper : store.Proper) {usage : TeamUsage}
    (hresult : (team ⟨store, unreadable⟩).result = .ok usage) :
    usage = {
      count := store.teams.length
      leaders := store.teamMemberships.countP fun membership => membership.role.code == 1 } := by
  have hmemberships := result_of_trace_bind rfl hresult
  have husage := Except.ok.inj (result_of_trace_bind rfl hmemberships)
  rw [← husage, TeamUsage.mk.injEq]
  exact ⟨rfl, Kind.countP_eq hproper.teamMemberships
    (show Kind.Proper MembershipRole.teamLeader from rfl)⟩

section Rules

variable {usage : ResourceControlUsage}

theorem observe_resourceControl (observe : ResourceControlUsage → Nat)
    (counted : ResourceKind → Bool)
    (hstep : ∀ usage kind, observe (tallyResource usage kind) =
      observe usage + if counted kind then 1 else 0)
    (hresult : (resourceControl ⟨store, unreadable⟩).result = .ok usage) :
    observe usage = observe { count := store.resourceControls.length } +
      store.resourceControls.countP fun control => counted control.kind := by
  have husage := Except.ok.inj (result_of_trace_bind rfl hresult)
  rw [← husage]
  exact foldl_tallyResource hstep _ _

theorem bucket_tallyResource (usage : ResourceControlUsage) (kind : ResourceKind)
    {named : ResourceKind} (hnamed : named.isNamed = true) :
    (tallyResource usage kind).bucket named =
      usage.bucket named + if kind == named then 1 else 0 := by
  cases named
  case unknown => cases hnamed
  all_goals cases kind <;> rfl

theorem bucket_eq (hproper : store.Proper)
    (hresult : (resourceControl ⟨store, unreadable⟩).result = .ok usage) {named : ResourceKind}
    (hnamed : named.isNamed = true) : usage.bucket named = store.countRules named.code := by
  have hstep (usage : ResourceControlUsage) (kind : ResourceKind) :
      (tallyResource usage kind).bucket named =
        usage.bucket named + if kind == named then 1 else 0 :=
    bucket_tallyResource usage kind hnamed
  have hstart (count : Nat) : ({ count } : ResourceControlUsage).bucket named = 0 := by
    cases named <;> rfl
  rw [observe_resourceControl (fun usage => usage.bucket named) (· == named) hstep hresult, hstart,
    Nat.zero_add]
  exact Kind.countP_eq hproper.resourceControls (ResourceKind.proper_of_isNamed hnamed)

theorem count_resourceControl
    (hresult : (resourceControl ⟨store, unreadable⟩).result = .ok usage) :
    usage.count = store.resourceControls.length := by
  have hstep (usage : ResourceControlUsage) (kind : ResourceKind) :
      (tallyResource usage kind).count = usage.count := by cases kind <;> rfl
  rw [observe_resourceControl ResourceControlUsage.count (fun _ => false) hstep hresult,
    List.countP_false]
  rfl

theorem resourceControl_eq (hproper : store.Proper)
    (hresult : (resourceControl ⟨store, unreadable⟩).result = .ok usage) :
    usage = {
      count := store.resourceControls.length
      containerCount := store.countRules 1
      serviceCount := store.countRules 2
      volumeCount := store.countRules 3
      networkCount := store.countRules 4
      secretCount := store.countRules 5
      stackCount := store.countRules 6
      configCount := store.countRules 7 } := by
  have hcount := count_resourceControl hresult
  have hbucket (named : ResourceKind) (hnamed : named.isNamed = true) :
      usage.bucket named = store.countRules named.code := bucket_eq hproper hresult hnamed
  have hcontainers : usage.containerCount = store.countRules 1 := hbucket .container rfl
  have hservices : usage.serviceCount = store.countRules 2 := hbucket .service rfl
  have hvolumes : usage.volumeCount = store.countRules 3 := hbucket .volume rfl
  have hnetworks : usage.networkCount = store.countRules 4 := hbucket .network rfl
  have hsecrets : usage.secretCount = store.countRules 5 := hbucket .secret rfl
  have hstacks : usage.stackCount = store.countRules 6 := hbucket .stack rfl
  have hconfigs : usage.configCount = store.countRules 7 := hbucket .config rfl
  rw [← hcount, ← hcontainers, ← hservices, ← hvolumes, ← hnetworks, ← hsecrets, ← hstacks,
    ← hconfigs]

theorem classified_eq_countP_isNamed
    (hresult : (resourceControl ⟨store, unreadable⟩).result = .ok usage) :
    usage.classified = store.resourceControls.countP fun control => control.kind.isNamed := by
  have hstep (usage : ResourceControlUsage) (kind : ResourceKind) :
      (tallyResource usage kind).classified =
        usage.classified + if kind.isNamed then 1 else 0 := by
    cases kind <;> simp only [tallyResource, ResourceControlUsage.classified,
      ResourceKind.isNamed, if_true, Bool.false_eq_true, if_false] <;> omega
  rw [observe_resourceControl ResourceControlUsage.classified ResourceKind.isNamed hstep hresult]
  exact Nat.zero_add _

/-- Between one and seven lie the codes of the kinds that are counted apart. -/
theorem classified_eq (hproper : store.Proper)
    (hresult : (resourceControl ⟨store, unreadable⟩).result = .ok usage) :
    usage.classified = store.resourceControls.countP fun control =>
      1 ≤ control.kind.code ∧ control.kind.code ≤ 7 := by
  rw [classified_eq_countP_isNamed hresult]
  refine List.countP_congr fun control hcontrol => ?_
  rw [ResourceKind.isNamed_eq (hproper.resourceControls control hcontrol)]

end Rules

/-- Each number of the report is the number of all records of a collection, or of those with a
code. -/
structure Counts (store : Store) (report : Report) : Prop where
  schedules : report.edgeCompute.schedule = {
    count := store.schedules.length
    recurring := store.schedules.countP fun schedule =>
      schedule.job.code == 1 && schedule.recurring }
  endpoints : report.endpoint = {
    count := store.endpoints.length, endpoints := store.endpoints.map environmentUsage }
  endpointGroups : report.endpointGroup = { count := store.endpointGroups.length }
  registries : report.registry = {
    count := store.registries.length
    registries := store.registries.map fun registry => ⟨registryWord registry.kind.code⟩ }
  resourceControls : report.resourceControl = {
    count := store.resourceControls.length
    containerCount := store.countRules 1
    serviceCount := store.countRules 2
    volumeCount := store.countRules 3
    networkCount := store.countRules 4
    secretCount := store.countRules 5
    stackCount := store.countRules 6
    configCount := store.countRules 7 }
  stackCount : report.stack.count = store.containerStacks.length
  standalone : report.stack.standalone =
    store.containerStacks.countP fun stack => stack.kind.code == 2
  swarm : report.stack.standalone + report.stack.swarm = report.stack.count
  tags : report.tag = { count := store.tags.length }
  teams : report.team = {
    count := store.teams.length
    leaders := store.teamMemberships.countP fun membership => membership.role.code == 1 }

theorem counts_of_run (hproper : store.Proper) {host : Host} {report : Report}
    (hrun : (run host ⟨store, unreadable⟩).result = .ok report) : Counts store report := by
  obtain ⟨-, hcompute⟩ := result_run_eq_ok_iff.mp hrun
  obtain ⟨hcount, hstandalone, hswarm⟩ := stack_eq hproper (hcompute .stack)
  constructor
  · exact edgeCompute_eq hproper (hcompute .edgeCompute)
  · exact (Except.ok.inj (result_of_trace_bind rfl (hcompute .endpoint))).symm
  · exact (Except.ok.inj (result_of_trace_bind rfl (hcompute .endpointGroup))).symm
  · exact registry_eq hproper (hcompute .registry)
  · exact resourceControl_eq hproper (hcompute .resourceControl)
  · exact hcount
  · exact hstandalone
  · exact hswarm
  · exact (Except.ok.inj (result_of_trace_bind rfl (hcompute .tag))).symm
  · exact team_eq hproper (hcompute .team)

/-- A report on a store that was loaded from a text counts the records by their codes. The rules
that are counted apart are those with codes from one to seven, each of them once. In words of 64 bits
their sum and the difference to all rules are the true ones if the length of the text is a word. -/
theorem counts_of_loaded {text : String} {host : Host} {report : Report}
    (hload : Store.ofText text = .ok store)
    (hrun : (run host ⟨store, unreadable⟩).result = .ok report) :
    Counts store report ∧
    report.resourceControl.classified = (store.resourceControls.countP fun control =>
      1 ≤ control.kind.code ∧ control.kind.code ≤ 7) ∧
    report.resourceControl.classified ≤ report.resourceControl.count ∧
    report.resourceControl.count - report.resourceControl.classified =
      (store.resourceControls.countP fun control =>
        ¬(1 ≤ control.kind.code ∧ control.kind.code ≤ 7)) ∧
    (report.resourceControl.classified = report.resourceControl.count ↔
      ∀ control ∈ store.resourceControls, 1 ≤ control.kind.code ∧ control.kind.code ≤ 7) ∧
    (∀ members control, (∀ tree, (.ok "Type", tree) ∉ Json.Members.entries members) →
      ResourceControl.shape.read (.record members) = .ok control → control.kind.code = 0) ∧
    (∀ size ∈ store.sizes, size ≤ text.length) ∧
    (text.length ≤ Text.greatestWord →
      report.resourceControl.classifiedWord.toNat = report.resourceControl.classified ∧
      report.resourceControl.unclassifiedWord.toNat =
        report.resourceControl.count - report.resourceControl.classified) := by
  have hproper := proper_of_ofText hload
  have hcounts := counts_of_run hproper hrun
  have hsizes := size_le_of_ofText hload
  have hclassified : report.resourceControl.classified =
      store.resourceControls.countP fun control =>
        1 ≤ control.kind.code ∧ control.kind.code ≤ 7 :=
    classified_eq hproper ((result_run_eq_ok_iff.mp hrun).2 .resourceControl)
  have hcount : report.resourceControl.count = store.resourceControls.length :=
    congrArg ResourceControlUsage.count hcounts.resourceControls
  have hle : report.resourceControl.classified ≤ report.resourceControl.count := by
    rw [hclassified, hcount]
    exact List.countP_le_length
  refine ⟨hcounts, hclassified, hle, ?_, ?_, ?_, hsizes, ?_⟩
  · rw [hclassified, hcount, List.length_eq_countP_add_countP, Nat.add_sub_cancel_left]
    simp only [decide_eq_true_eq]
  · rw [hclassified, hcount, List.countP_eq_length]
    simp only [decide_eq_true_eq]
  · exact fun members control habsent hread => ResourceControl.code_of_no_kind habsent hread
  · intro htext
    have hfits : report.resourceControl.count ≤ Text.greatestWord := by
      refine Nat.le_trans ?_ htext
      rw [hcount]
      exact hsizes _ (by simp [sizes])
    exact ⟨ResourceControlUsage.toNat_classifiedWord (Nat.le_trans hle hfits),
      ResourceControlUsage.toNat_unclassifiedWord hle hfits⟩

end Counts

/-- The rules have the codes 6, 1, 6, 9 and none. -/
def ruledText : String :=
  "\x7b\"Telemetry\":[\"6f1c\"],\"DockerHub\":[],\"Settings\":[],\"Stacks\":[[1,\"\",2],[]]," ++
  "\"ResourceControls\":[[1,\"\",6],[2,\"\",1],[3,\"\",6],\x7b\"Type\":9\x7d,[5]]\x7d"

def ruledStore : Store where
  identity := some ⟨"6f1c"⟩
  dockerHub := some {}
  settings := some {}
  containerStacks := [{ id := 1, kind := .dockerCompose }, {}]
  resourceControls := [{ id := 1, kind := .stack }, { id := 2, kind := .container },
    { id := 3, kind := .stack }, { kind := .unknown 9 }, { id := 5 }]

theorem ofText_ruledText : Store.ofText ruledText = .ok ruledStore := by
  have hload : (Store.ofText ruledText).toOption = some ruledStore := by decide +kernel
  cases hresult : Store.ofText ruledText <;> rw [hresult] at hload <;> cases hload
  rfl

theorem counts_of_ruledText :
    Store.ofText ruledText = .ok ruledStore ∧ ruledText.length ≤ Text.greatestWord ∧
    ∃ report, (run { version := "2.0.0" } ⟨ruledStore, none⟩).result = .ok report ∧
      Counts ruledStore report ∧
      report.resourceControl.classified = 3 ∧ report.resourceControl.stackCount = 2 ∧
      report.resourceControl.unclassifiedWord.toNat = 2 ∧ report.stack.swarm = 1 := by
  obtain ⟨report, hrun⟩ : ∃ report,
      (run { version := "2.0.0" } ⟨ruledStore, none⟩).result = .ok report := ⟨_, rfl⟩
  obtain ⟨hcounts, hclassified, -, hunclassified, -, -, -, hwords⟩ :=
    counts_of_loaded ofText_ruledText hrun
  have hlength : ruledText.length ≤ Text.greatestWord := by decide +kernel
  refine ⟨ofText_ruledText, hlength, report, hrun, hcounts, hclassified, ?_, ?_, ?_⟩
  · rw [hcounts.resourceControls]
    rfl
  · exact (hwords hlength).2.trans hunclassified
  · have hswarm := hcounts.swarm
    have hstandalone : report.stack.standalone = 1 := hcounts.standalone
    have hcount : report.stack.count = 2 := hcounts.stackCount
    omega

end Survey

end UsageReport
