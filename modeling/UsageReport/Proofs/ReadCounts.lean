import Mathlib
import UsageReport.Proofs.LastWrite
import UsageReport.Proofs.ReadOrder

/-!
What a session counts as read: in every bucket, the reads of the steps since the last source was
loaded. A step reads the buckets of its section, or of a whole survey, as far as the first that
cannot be read, whether it succeeds or not.
-/

namespace UsageReport

theorem Source.exists_read_eq_error {source : Source} {bucket : Bucket}
    (hreadable : ¬source.Readable bucket) : ∃ error, source.read bucket = .error error := by
  cases hread : source.read bucket with
  | ok held => exact absurd ⟨held, hread⟩ hreadable
  | error error => exact ⟨error, rfl⟩

namespace Session

namespace Step

/-- The step gives the session another source. -/
def loads : Step → Bool
  | .load content _ => (Store.ofContent content).toOption.isSome
  | .begin _ | .parse _ | .compute _ _ | .survey _ | .countReads | .render _ | .classify => false

theorem exists_of_loads {step : Step} (hloads : step.loads = true) :
    ∃ content unreadable store,
      step = .load content unreadable ∧ Store.ofContent content = .ok store := by
  cases step with
  | load content unreadable =>
      cases hcontent : Store.ofContent content with
      | ok store => exact ⟨content, unreadable, store, rfl, hcontent⟩
      | error error => simp only [loads, hcontent] at hloads; cases hloads
  | begin _ | parse _ | compute _ _ | survey _ | countReads | render _ | classify => cases hloads

/-- The buckets of a source that a step reads, in order. -/
def bucketsRead (source : Source) : Step → List Bucket
  | .compute part _ => source.reach part.buckets
  | .survey _ => source.reach Bucket.all
  | .begin _ | .parse _ | .load _ _ | .countReads | .render _ | .classify => []

end Step

theorem reads_absorb {ε : Type} (session : Session) (failure : ε → Failure)
    (trace : Trace ε Report) :
    (session.absorb failure trace).1.reads = session.reads ++ bucketsRead trace.actions := by
  unfold absorb
  cases trace.result <;> rfl

/-- A source that is loaded has not been read yet; any other step adds what it reads. -/
theorem reads_step (session : Session) (step : Step) :
    (session.step step).1.reads =
      if step.loads then [] else session.reads ++ step.bucketsRead session.source := by
  have hnone : session.reads = session.reads ++ [] := (List.append_nil _).symm
  cases step with
  | begin _ | countReads | classify => exact hnone
  | parse text => simp only [Session.step]; split <;> exact hnone
  | render name => simp only [Session.step]; split <;> exact hnone
  | load content unreadable =>
      cases hcontent : Store.ofContent content with
      | ok store => simp only [Session.step, Step.loads, hcontent]; rfl
      | error error => simp only [Session.step, Step.loads, hcontent]; exact hnone
  | compute part host =>
      exact (reads_absorb session _ _).trans (congrArg (session.reads ++ ·)
        (Survey.update_follows host session.source session.report part).reads)
  | survey host =>
      exact (reads_absorb session _ _).trans (congrArg (session.reads ++ ·)
        (Survey.run_follows host session.source).reads)

theorem source_step_of_not_loads (session : Session) {step : Step} (hloads : step.loads = false) :
    (session.step step).1.source = session.source := by
  rw [source_step]
  cases step with
  | load content unreadable =>
      simp only [Step.loads] at hloads
      simp only [Step.sourceAfter]
      cases hcontent : Store.ofContent content with
      | ok store => rw [hcontent] at hloads; cases hloads
      | error error => rfl
  | begin _ | parse _ | compute _ _ | survey _ | countReads | render _ | classify => rfl

theorem after_append (session : Session) (before later : List Step) :
    session.after (before ++ later) = (session.after before).after later := by
  induction before generalizing session with
  | nil => rfl
  | cons step before ih => rw [List.cons_append, after_cons, after_cons, ih]

/-- Every step works on the session that the steps before it have left. -/
theorem getElem?_play (session : Session) (before later : List Step) (step : Step) :
    (session.play (before ++ step :: later))[before.length]? =
      some ((session.after before).step step) := by
  induction before generalizing session with
  | nil => rfl
  | cons first before ih =>
      rw [after_cons, ← ih]
      rfl

/-- As long as no other source is loaded, reads are only added. -/
theorem reads_after_of_not_loads (session : Session) {steps : List Step}
    (hloads : ∀ step ∈ steps, step.loads = false) :
    (session.after steps).reads =
      session.reads ++ steps.flatMap (Step.bucketsRead session.source) := by
  induction steps generalizing session with
  | nil => exact (List.append_nil _).symm
  | cons step steps ih =>
      obtain ⟨hstep, hsteps⟩ := List.forall_mem_cons.mp hloads
      rw [after_cons, ih _ hsteps, source_step_of_not_loads session hstep, reads_step, hstep,
        List.flatMap_cons, ← List.append_assoc]
      rfl

/-- The source that a session from the start has after some steps, and the steps since that source
was loaded. -/
inductive SinceLoad : List Step → Source → List Step → Prop where
  | start {steps : List Step} (hloads : ∀ step ∈ steps, step.loads = false) :
      SinceLoad steps {} steps
  | load {before since : List Step} {content : Except FileError Content}
      {unreadable : Option Bucket} {store : Store} (hcontent : Store.ofContent content = .ok store)
      (hloads : ∀ step ∈ since, step.loads = false) :
      SinceLoad (before ++ .load content unreadable :: since) ⟨store, unreadable⟩ since

theorem exists_sinceLoad (steps : List Step) : ∃ source since, SinceLoad steps source since := by
  induction steps with
  | nil => exact ⟨_, _, .start nofun⟩
  | cons step steps ih =>
      obtain ⟨source, since, hsince⟩ := ih
      cases hsince with
      | load hcontent hloads =>
          rw [← List.cons_append]
          exact ⟨_, _, .load hcontent hloads⟩
      | start hloads =>
          cases hstep : step.loads with
          | false => exact ⟨_, _, .start (List.forall_mem_cons.mpr ⟨hstep, hloads⟩)⟩
          | true =>
              obtain ⟨content, unreadable, store, rfl, hcontent⟩ := Step.exists_of_loads hstep
              exact ⟨_, _, @SinceLoad.load [] _ _ _ _ hcontent hloads⟩

theorem reads_after {steps since : List Step} {source : Source}
    (hsince : SinceLoad steps source since) :
    (({} : Session).after steps).reads = since.flatMap (Step.bucketsRead source) := by
  cases hsince with
  | start hloads => exact reads_after_of_not_loads {} hloads
  | @load before _ content unreadable store hcontent hloads =>
      have hload : (Step.load content unreadable).loads = true := by
        simp only [Step.loads, hcontent]
        rfl
      rw [after_append, after_cons, reads_after_of_not_loads _ hloads, reads_step, hload,
        source_step, Step.sourceAfter, hcontent]
      rfl

/-- A section other than the teams has at most one bucket, which is read whatever comes of it. -/
theorem bucketsRead_compute {part : Section} (hpart : part ≠ .team) (source : Source)
    (host : Survey.Host) : (Step.compute part host).bucketsRead source = part.buckets := by
  have hsingle (bucket : Bucket) : source.reach [bucket] = [bucket] := by
    simp only [Source.reach]
    cases source.read bucket <;> rfl
  cases part with
  | team => exact absurd rfl hpart
  | runtime => rfl
  | _ => exact hsingle _

theorem bucketsRead_team_of_readable {source : Source} (hreadable : source.Readable .teams)
    (host : Survey.Host) :
    (Step.compute .team host).bucketsRead source = [.teams, .teamMemberships] := by
  obtain ⟨held, hread⟩ := hreadable
  simp only [Step.bucketsRead, Section.buckets, Source.reach, hread]
  cases source.read .teamMemberships <;> rfl

theorem bucketsRead_team_of_not_readable {source : Source} (hreadable : ¬source.Readable .teams)
    (host : Survey.Host) : (Step.compute .team host).bucketsRead source = [.teams] := by
  obtain ⟨error, herror⟩ := Source.exists_read_eq_error hreadable
  simp only [Step.bucketsRead, Section.buckets, Source.reach, herror]

/-- Whenever the reads are asked for, the answer is, for every bucket, the sum of the reads that the
steps since the last successful loading have made. To compute a section reads its bucket once; the
teams read that of the memberships too, if their own could be read. A survey reads the buckets
once each, as far as the first that cannot be read. No other step reads anything. -/
theorem answered_reads_eq_sum :
    (∀ (before later since : List Step) (source : Source), SinceLoad before source since →
      ∃ count : Bucket → Nat,
        ((({} : Session).play (before ++ .countReads :: later))[before.length]?).map Prod.snd =
            some (.reads count) ∧
          ∀ bucket, count bucket =
            (since.map fun step => (step.bucketsRead source).count bucket).sum) ∧
    (∀ steps, ∃ source since, SinceLoad steps source since) ∧
    (Section.all.map fun part => (part.category, part.buckets.map Bucket.name)) = [
      ("dockerhub", ["dockerhub"]), ("edge compute", ["schedules"]), ("endpoint", ["endpoints"]),
      ("endpoint group", ["endpoint_groups"]), ("registry", ["registries"]),
      ("resource control", ["resource_controls"]), ("runtime", []), ("settings", ["settings"]),
      ("stack", ["stacks"]), ("tag", ["tags"]), ("team", ["teams", "team_memberships"])] ∧
    (∀ (source : Source) (host : Survey.Host) (part : Section) (bucket : Bucket), part ≠ .team →
      ((Step.compute part host).bucketsRead source).count bucket =
        if bucket ∈ part.buckets then 1 else 0) ∧
    (∀ (source : Source) (host : Survey.Host) (bucket : Bucket),
      (source.Readable .teams → ((Step.compute .team host).bucketsRead source).count bucket =
        if bucket ∈ [Bucket.teams, .teamMemberships] then 1 else 0) ∧
      (¬source.Readable .teams → ((Step.compute .team host).bucketsRead source).count bucket =
        if bucket = .teams then 1 else 0)) ∧
    (∀ (source : Source) (host : Survey.Host), (∀ bucket, source.Readable bucket) →
      ∀ bucket, ((Step.survey host).bucketsRead source).count bucket = 1) ∧
    (∀ (source : Source) (host : Survey.Host) (before after : List Bucket) (bucket : Bucket),
      Bucket.all = before ++ bucket :: after → (∀ earlier ∈ before, source.Readable earlier) →
      ¬source.Readable bucket →
      ∀ other, ((Step.survey host).bucketsRead source).count other =
        if other ∈ before ++ [bucket] then 1 else 0) ∧
    ∀ (source : Source) (step : Step), (∀ part host, step ≠ .compute part host) →
      (∀ host, step ≠ .survey host) → step.bucketsRead source = [] := by
  have hcount {buckets : List Bucket} (hnodup : buckets.Nodup) (bucket : Bucket) :
      buckets.count bucket = if bucket ∈ buckets then 1 else 0 := hnodup.count
  refine ⟨?_, exists_sinceLoad, rfl, ?_, ?_, ?_, ?_, ?_⟩
  · intro before later since source hsince
    refine ⟨(since.flatMap (Step.bucketsRead source)).count, ?_, fun bucket => ?_⟩
    · rw [getElem?_play, ← reads_after hsince]
      rfl
    · exact List.count_flatMap
  · intro source host part bucket hpart
    rw [bucketsRead_compute hpart]
    exact hcount (by cases part <;> decide) bucket
  · intro source host bucket
    refine ⟨fun hreadable => ?_, fun hreadable => ?_⟩
    · rw [bucketsRead_team_of_readable hreadable]
      exact hcount (by decide) bucket
    · rw [bucketsRead_team_of_not_readable hreadable, hcount (by decide)]
      simp only [List.mem_singleton]
  · intro source host hreadable bucket
    have hreads : (Step.survey host).bucketsRead source = Bucket.all :=
      Source.reach_of_readable fun bucket _ => hreadable bucket
    rw [hreads, hcount Bucket.nodup_all, if_pos (Bucket.mem_all bucket)]
  · intro source host before after bucket hall hreadable hfails other
    obtain ⟨error, herror⟩ := Source.exists_read_eq_error hfails
    have hreads : (Step.survey host).bucketsRead source = before ++ [bucket] := by
      rw [Step.bucketsRead, hall]
      exact Source.reach_of_split after hreadable herror
    have hnodup : (before ++ [bucket] ++ after).Nodup := by
      rw [List.append_assoc, List.singleton_append, ← hall]
      exact Bucket.nodup_all
    rw [hreads]
    exact hcount (List.nodup_append.mp hnodup).1 other
  · intro source step hcompute hsurvey
    cases step with
    | compute part host => exact absurd rfl (hcompute part host)
    | survey host => exact absurd rfl (hsurvey host)
    | begin _ | parse _ | load _ _ | countReads | render _ | classify => rfl

/-- An empty store with unreadable teams is loaded, after the tags were counted. The teams fail, a
survey fails for want of an identifier, and no other store is found to be loaded. -/
def failingSteps : List Step := [
  .compute .team { version := "2.0.0" }, .survey { version := "2.0.0" },
  .load (.error .missing) none, .compute .runtime { version := "2.0.0" }]

def failingSource : Source := ⟨{}, some .teams⟩

/-- Nothing is missing there. -/
def wholeSource : Source where
  store := { identity := some {}, dockerHub := some {}, settings := some {} }

theorem ofContent_emptyList : Store.ofContent (.ok (.text "[]")) = .ok {} := by
  have hload : (Store.ofContent (.ok (.text "[]"))).toOption = some {} := by decide +kernel
  cases hresult : Store.ofContent (.ok (.text "[]")) <;> rw [hresult] at hload <;> cases hload
  rfl

theorem answered_reads_of_failingSteps :
    SinceLoad ([.compute .tag { version := "2.0.0" }] ++
      .load (.ok (.text "[]")) (some .teams) :: failingSteps) failingSource failingSteps ∧
    (∃ count : Bucket → Nat,
      (((({} : Session).play ([.compute .tag { version := "2.0.0" }] ++
        .load (.ok (.text "[]")) (some .teams) :: failingSteps ++ [.countReads]))[6]?).map
          Prod.snd = some (.reads count)) ∧
      count .teams = 1 ∧ count .teamMemberships = 0 ∧ count .identity = 1 ∧ count .dockerHub = 0 ∧
      count .tags = 0) ∧
    ((Step.compute .tag { version := "2.0.0" }).bucketsRead failingSource).count .tags = 1 ∧
    ¬failingSource.Readable .teams ∧
    ((Step.compute .team { version := "2.0.0" }).bucketsRead failingSource).count
      .teamMemberships = 0 ∧
    (∀ bucket, wholeSource.Readable bucket) ∧
    ((Step.compute .team { version := "2.0.0" }).bucketsRead wholeSource).count
      .teamMemberships = 1 ∧
    ((Step.survey { version := "2.0.0" }).bucketsRead wholeSource).count .teamMemberships = 1 ∧
    ¬failingSource.Readable .identity ∧
    ((Step.survey { version := "2.0.0" }).bucketsRead failingSource).count .teams = 0 ∧
    (Step.render "text").bucketsRead failingSource = [] := by
  obtain ⟨hanswers, -, -, hsection, hteam, hwhole, hsurvey, hother⟩ := answered_reads_eq_sum
  have hsince : SinceLoad ([.compute .tag { version := "2.0.0" }] ++
      .load (.ok (.text "[]")) (some .teams) :: failingSteps) failingSource failingSteps :=
    .load ofContent_emptyList (by
      intro step hstep
      simp only [failingSteps, List.mem_cons, List.not_mem_nil, or_false] at hstep
      rcases hstep with rfl | rfl | rfl | rfl <;> rfl)
  have hteams : ¬failingSource.Readable .teams := by
    rintro ⟨held, hread⟩
    cases hread
  have hidentity : ¬failingSource.Readable .identity := by
    rintro ⟨held, hread⟩
    cases hread
  have hall : ∀ bucket, wholeSource.Readable bucket := by
    intro bucket
    cases bucket <;> exact ⟨_, rfl⟩
  obtain ⟨count, hanswer, hcount⟩ := hanswers _ [] _ _ hsince
  refine ⟨hsince, ⟨count, hanswer, ?_, ?_, ?_, ?_, ?_⟩, ?_⟩
  iterate 5 rw [hcount]; rfl
  exact ⟨hsection failingSource _ .tag .tags (by decide), hteams,
    (hteam failingSource _ .teamMemberships).2 hteams, hall,
    (hteam wholeSource _ .teamMemberships).1 (hall .teams),
    hwhole wholeSource _ hall .teamMemberships, hidentity,
    hsurvey failingSource _ [] _ .identity rfl (List.forall_mem_nil _) hidentity .teams,
    hother failingSource _ (by simp) (by simp)⟩

end Session

end UsageReport
