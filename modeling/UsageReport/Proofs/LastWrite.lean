import UsageReport.Proofs.Parts
import UsageReport.Session

/-!
What a session's report holds after any steps: in every section, and as its identifier, what the
last step wrote that wrote there at all. What a step writes depends on the source at that moment
and on nothing that the report held.
-/

namespace UsageReport

namespace Survey

theorem toOption_update (host : Host) (source : Source) (report : Report) (part : Section) :
    (update host source report part).result.toOption =
      (compute host source part).result.toOption.map (report.put part) := by
  rw [update_eq_put]
  cases hresult : (compute host source part).result with
  | error error => rw [Trace.bind_of_error _ hresult]; rfl
  | ok usage => rw [Trace.bind_of_ok _ hresult]; rfl

end Survey

namespace Session

/-- The session that some steps end in. -/
def after (session : Session) (steps : List Step) : Session :=
  ((session.play steps).getLast?.map Prod.fst).getD session

theorem after_cons (session : Session) (step : Step) (steps : List Step) :
    session.after (step :: steps) = (session.step step).1.after steps := by
  simp only [after, play, List.getLast?_cons, Option.map_some, Option.getD_some]
  cases ((session.step step).1.play steps).getLast? <;> rfl

namespace Step

/-- The source that a session has after a step: only loading gives it another. -/
def sourceAfter (source : Source) : Step → Source
  | .load content unreadable =>
    match Store.ofContent content with
    | .ok store => ⟨store, unreadable⟩
    | .error _ => source
  | _ => source

/-- What a step writes into a section of the report if it succeeds. -/
def usage? (part : Section) (source : Source) : Step → Option part.Usage
  | .begin _ => some (({} : Report).usage part)
  | .parse text => (Report.shape.decode text).toOption.map fun report => report.usage part
  | .compute computed host =>
    if computed = part then (Survey.compute host source part).result.toOption else none
  | .survey host => (Survey.run host source).result.toOption.map fun report => report.usage part
  | .load _ _ | .countReads | .render _ | .classify => none

/-- The identifier that a step writes if it succeeds. -/
def identifier? (source : Source) : Step → Option String
  | .begin identifier => some identifier
  | .parse text => (Report.shape.decode text).toOption.map Report.identifier
  | .survey host => (Survey.run host source).result.toOption.map Report.identifier
  | .compute _ _ | .load _ _ | .countReads | .render _ | .classify => none

end Step

/-- What some steps write one after another. `write?` tells what a single step writes. -/
def written {α : Type} (write? : Source → Step → Option α) (source : Source) : List Step → List α
  | [] => []
  | step :: steps => (write? source step).toList ++ written write? (step.sourceAfter source) steps

theorem report_absorb {ε : Type} (session : Session) (failure : ε → Failure)
    (trace : Trace ε Report) :
    (session.absorb failure trace).1.report = trace.result.toOption.getD session.report := by
  unfold absorb
  cases trace.result <;> rfl

theorem source_absorb {ε : Type} (session : Session) (failure : ε → Failure)
    (trace : Trace ε Report) : (session.absorb failure trace).1.source = session.source := by
  unfold absorb
  cases trace.result <;> rfl

theorem source_step (session : Session) (step : Step) :
    (session.step step).1.source = step.sourceAfter session.source := by
  cases step with
  | parse text => simp only [Session.step]; split <;> rfl
  | load content unreadable =>
      simp only [Session.step, Step.sourceAfter]
      cases Store.ofContent content <;> rfl
  | compute part host => exact source_absorb session _ _
  | survey host => exact source_absorb session _ _
  | render name => simp only [Session.step]; split <;> rfl
  | begin _ | countReads | classify => rfl

theorem usage_step (session : Session) (step : Step) (part : Section) :
    (session.step step).1.report.usage part =
      (step.usage? part session.source).getD (session.report.usage part) := by
  cases step with
  | parse text =>
      simp only [Session.step, Step.usage?]
      cases Report.shape.decode text <;> rfl
  | load content unreadable => simp only [Session.step]; split <;> rfl
  | compute computed host =>
      simp only [Session.step, report_absorb, Survey.toOption_update, Step.usage?]
      split
      · rename_i heq
        subst heq
        cases (Survey.compute host session.source computed).result with
        | error error => rfl
        | ok usage => exact Report.usage_put_self session.report computed usage
      · rename_i hne
        cases (Survey.compute host session.source computed).result with
        | error error => rfl
        | ok usage => exact Report.usage_put_of_ne session.report usage (Ne.symm hne)
  | survey host =>
      simp only [Session.step, report_absorb, Step.usage?]
      cases (Survey.run host session.source).result <;> rfl
  | render name => simp only [Session.step]; split <;> rfl
  | begin _ | countReads | classify => rfl

theorem identifier_step (session : Session) (step : Step) :
    (session.step step).1.report.identifier =
      (step.identifier? session.source).getD session.report.identifier := by
  cases step with
  | parse text =>
      simp only [Session.step, Step.identifier?]
      cases Report.shape.decode text <;> rfl
  | load content unreadable => simp only [Session.step]; split <;> rfl
  | compute computed host =>
      simp only [Session.step, report_absorb, Survey.toOption_update, Step.identifier?]
      cases (Survey.compute host session.source computed).result with
      | error error => rfl
      | ok usage => exact Report.identifier_put session.report computed usage
  | survey host =>
      simp only [Session.step, report_absorb, Step.identifier?]
      cases (Survey.run host session.source).result <;> rfl
  | render name => simp only [Session.step]; split <;> rfl
  | begin _ | countReads | classify => rfl

/-- Whatever is seen of the report, if every step either overwrites it or leaves it, then the last
value written is seen in the end. -/
theorem observed_after {α : Type} (observe : Report → α) {write? : Source → Step → Option α}
    (hstep : ∀ session step, observe (Session.step session step).1.report =
      (write? session.source step).getD (observe session.report))
    (session : Session) (steps : List Step) :
    observe (session.after steps).report =
      (written write? session.source steps).getLast?.getD (observe session.report) := by
  induction steps generalizing session with
  | nil => rfl
  | cons step steps ih =>
      rw [after_cons, ih, source_step, hstep, written, List.getLast?_append]
      cases (written write? (step.sourceAfter session.source) steps).getLast? with
      | none => cases write? session.source step <;> rfl
      | some value => rfl

/-- The step did not do what was asked. -/
def Reply.refuses : Reply → Bool
  | .failed _ | .unknownFormat _ => true
  | .done | .reads _ | .rendered _ | .classified _ => false

/-- The step is meant to write into a section. -/
def Step.addresses (part : Section) : Step → Bool
  | .begin _ | .parse _ | .survey _ => true
  | .compute computed _ => computed = part
  | .load _ _ | .countReads | .render _ | .classify => false

/-- The step is meant to write an identifier. -/
def Step.identifies : Step → Bool
  | .begin _ | .parse _ | .survey _ => true
  | .compute _ _ | .load _ _ | .countReads | .render _ | .classify => false

theorem refuses_absorb {ε : Type} (session : Session) (failure : ε → Failure)
    (trace : Trace ε Report) :
    (session.absorb failure trace).2.refuses = !trace.result.toOption.isSome := by
  unfold absorb
  cases trace.result <;> rfl

theorem isSome_usage? (session : Session) (step : Step) (part : Section) :
    (step.usage? part session.source).isSome =
      (step.addresses part && !(session.step step).2.refuses) := by
  cases step with
  | parse text =>
      simp only [Session.step, Step.usage?]
      cases Report.shape.decode text <;> rfl
  | compute computed host =>
      simp only [Session.step, refuses_absorb, Survey.toOption_update, Step.usage?,
        Step.addresses, Option.isSome_map, Bool.not_not]
      split
      · rename_i heq
        subst heq
        simp
      · rename_i hne
        simp [hne]
  | survey host => simp [Session.step, refuses_absorb, Step.usage?, Step.addresses]
  | begin _ | load _ _ | countReads | render _ | classify => rfl

theorem isSome_identifier? (session : Session) (step : Step) :
    (step.identifier? session.source).isSome =
      (step.identifies && !(session.step step).2.refuses) := by
  cases step with
  | parse text =>
      simp only [Session.step, Step.identifier?]
      cases Report.shape.decode text <;> rfl
  | survey host => simp [Session.step, refuses_absorb, Step.identifier?, Step.identifies]
  | begin _ | compute _ _ | load _ _ | countReads | render _ | classify => rfl

theorem report_step_of_refuses {session : Session} {step : Step}
    (hrefuses : (session.step step).2.refuses = true) :
    (session.step step).1.report = session.report := by
  apply Report.eq_of_usage_eq
  · have hnone : step.identifier? session.source = none := by
      rw [← Option.not_isSome_iff_eq_none, isSome_identifier?, hrefuses]
      simp
    rw [identifier_step, hnone, Option.getD_none]
  · intro part
    have hnone : step.usage? part session.source = none := by
      rw [← Option.not_isSome_iff_eq_none, isSome_usage?, hrefuses]
      simp
    rw [usage_step, hnone, Option.getD_none]

/-- Computing sections of a source that can be surveyed writes into each the same value, as often
as it is computed. -/
theorem written_computes {host : Survey.Host} {source : Source} {report : Report}
    (hrun : (Survey.run host source).result = .ok report) (part : Section)
    (parts : List Section) :
    written (Step.usage? part) source (parts.map fun computed => .compute computed host) =
      List.replicate (parts.count part) (report.usage part) := by
  have hcompute := (Survey.result_run_eq_ok_iff.mp hrun).2 part
  induction parts with
  | nil => rfl
  | cons computed parts ih =>
      simp only [List.map_cons, written, Step.sourceAfter, ih, Step.usage?, List.count_cons,
        beq_iff_eq]
      split
      · rw [hcompute, List.replicate_succ]
        rfl
      · rfl

theorem usage_after_computes {host : Survey.Host} {session : Session} {report : Report}
    (hrun : (Survey.run host session.source).result = .ok report) {parts : List Section}
    {part : Section} (hpart : part ∈ parts) :
    (session.after (parts.map fun computed => .compute computed host)).report.usage part =
      report.usage part := by
  rw [observed_after (fun report => report.usage part)
    fun session step => usage_step session step part, written_computes hrun,
    List.getLast?_replicate, if_neg (Nat.ne_of_gt (List.count_pos_iff.mpr hpart))]
  rfl

/-- The last write wins. -/
theorem report_after_eq_last_written :
    (∀ (session : Session) (steps : List Step),
      (session.after steps).report.identifier =
        (written Step.identifier? session.source steps).getLast?.getD session.report.identifier ∧
      ∀ part, (session.after steps).report.usage part =
        (written (Step.usage? part) session.source steps).getLast?.getD
          (session.report.usage part)) ∧
    (∀ (session : Session) (step : Step),
      (step.identifier? session.source).isSome =
        (step.identifies && !(session.step step).2.refuses) ∧
      ∀ part, (step.usage? part session.source).isSome =
        (step.addresses part && !(session.step step).2.refuses)) ∧
    (∀ (session : Session) (step : Step), (session.step step).2.refuses = true →
      (session.step step).1.report = session.report) ∧
    (∀ (session : Session) (part other : Section) (host : Survey.Host), other ≠ part →
      (session.step (.compute part host)).1.report.identifier = session.report.identifier ∧
      (session.step (.compute part host)).1.report.usage other = session.report.usage other) ∧
    ∀ (session : Session) (host : Survey.Host) (report : Report) (parts : List Section),
      (Survey.run host session.source).result = .ok report → (∀ part, part ∈ parts) →
      ∀ part, (session.after (parts.map fun part => .compute part host)).report.usage part =
        report.usage part := by
  refine ⟨?_, ?_, fun _ _ => report_step_of_refuses, ?_, ?_⟩
  · intro session steps
    refine ⟨observed_after Report.identifier identifier_step session steps, fun part => ?_⟩
    exact observed_after (fun report => report.usage part)
      (fun session step => usage_step session step part) session steps
  · exact fun session step => ⟨isSome_identifier? session step, isSome_usage? session step⟩
  · intro session part other host hne
    refine ⟨identifier_step session _, ?_⟩
    rw [usage_step, Step.usage?, if_neg (Ne.symm hne), Option.getD_none]
  · intro session host report parts hrun hparts part
    exact usage_after_computes hrun (hparts part)

/-- A session whose report is stale and whose source holds one team with its leader. -/
def staleSession : Session where
  report := { identifier := "old", team := { count := 7, leaders := 7 }, tag := { count := 7 } }
  source := { store := {
    identity := some ⟨"6f1c2a9e"⟩, dockerHub := some {}, settings := some {}
    teams := [{ id := 1 }], teamMemberships := [{ teamId := 1, role := .teamLeader }] } }

/-- What a survey of that source tells. -/
def freshReport : Report where
  identifier := "6f1c2a9e"
  runtime := { version := "2.0.0", platform := "linux", architecture := "amd64" }
  settings := {
    authenticationMode := "internal"
    restrictions := { bindMounts := true, privilegedMode := true, volumeBrowser := true } }
  team := { count := 1, leaders := 1 }

theorem staleSession_after_computes :
    (Survey.run { version := "2.0.0" } staleSession.source).result = .ok freshReport ∧
    (∀ part, part ∈ Section.all.reverse ++ [Section.tag, .team]) ∧
    (∀ part, (staleSession.after ((Section.all.reverse ++ [Section.tag, .team]).map fun part =>
      .compute part { version := "2.0.0" })).report.usage part = freshReport.usage part) ∧
    (staleSession.step (.parse "")).2.refuses = true ∧
    (staleSession.step (.parse "")).1.report = staleSession.report ∧
    (staleSession.step (.compute .team { version := "2.0.0" })).1.report.usage .tag =
      { count := 7 } := by
  obtain ⟨-, -, hrefused, hkept, hcomputed⟩ := report_after_eq_last_written
  have hrun : (Survey.run { version := "2.0.0" } staleSession.source).result = .ok freshReport :=
    rfl
  have hparts : ∀ part, part ∈ Section.all.reverse ++ [Section.tag, .team] :=
    fun part => List.mem_append_left _ (List.mem_reverse.mpr (Section.mem_all part))
  have hparse : (staleSession.step (.parse "")).2.refuses = true := by decide +kernel
  exact ⟨hrun, hparts, hcomputed _ _ _ _ hrun hparts, hparse, hrefused _ _ hparse,
    (hkept staleSession .team .tag { version := "2.0.0" } (by decide)).2⟩

end Session

end UsageReport
