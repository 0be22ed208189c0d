import Mathlib.Data.List.Basic
import UsageReport.Proofs.Parts
import UsageReport.Run.Basic

/-!
What a single run does: the survey only reads and logs, and the outcome is then handed to the
destinations in order, as far as the first that panics.
-/

namespace UsageReport

namespace Action

/-- The action is a read of the store or an entry of the log. -/
def observes : Action → Bool
  | .read _ | .log _ => true
  | .hand _ _ | .send _ _ | .save _ | .print _ => false

end Action

namespace Trace

variable {ε δ α β : Type}

def Observes (trace : Trace ε α) : Prop := ∀ action ∈ trace.actions, action.observes = true

theorem observes_pure (value : α) : Observes (pure value : Trace ε α) := by
  intro action hmem
  cases hmem

theorem observes_log (event : Event) : Observes (take (.log event) : Trace ε Unit) := by
  intro action hmem
  rw [List.mem_singleton.mp hmem]
  rfl

theorem observes_read (source : Source) (bucket : Bucket) : (source.trace bucket).Observes := by
  intro action hmem
  rw [List.mem_singleton.mp hmem]
  rfl

theorem Observes.bind {trace : Trace ε α} {next : α → Trace ε β} (htrace : trace.Observes)
    (hnext : ∀ value, (next value).Observes) : (trace >>= next).Observes := by
  cases hresult : trace.result with
  | error error =>
      rw [bind_of_error next hresult]
      exact htrace
  | ok value =>
      rw [bind_of_ok next hresult]
      intro action hmem
      rcases List.mem_append.mp hmem with hfirst | hrest
      · exact htrace action hfirst
      · exact hnext value action hrest

theorem Observes.mapError {trace : Trace ε α} (htrace : trace.Observes) (f : ε → δ) :
    (trace.mapError f).Observes := htrace

theorem Observes.foldlM {γ : Type} {step : α → γ → Trace ε α}
    (hstep : ∀ value part, (step value part).Observes) (parts : List γ) (start : α) :
    (parts.foldlM step start).Observes := by
  induction parts generalizing start with
  | nil => exact observes_pure start
  | cons part parts ih =>
      rw [List.foldlM_cons]
      exact (hstep start part).bind ih

end Trace

namespace Survey

theorem observes_snapshotInterval (text : String) : (snapshotInterval text).Observes := by
  unfold snapshotInterval
  split
  · exact Trace.observes_pure _
  · split
    · exact Trace.observes_pure _
    · exact (Trace.observes_log _).bind fun _ => Trace.observes_pure _

theorem observes_compute (host : Host) (source : Source) (part : Section) :
    (compute host source part).Observes := by
  have hread := Trace.observes_read source
  have hpure {α : Type} (value : α) : Trace.Observes (pure value : Trace ReadError α) :=
    Trace.observes_pure value
  cases part with
  | runtime => exact hpure _
  | settings =>
      refine (hread .settings).bind fun _ => ?_
      exact (observes_snapshotInterval _).bind fun _ => hpure _
  | team => exact (hread .teams).bind fun _ => (hread .teamMemberships).bind fun _ => hpure _
  | dockerHub => exact (hread .dockerHub).bind fun _ => hpure _
  | edgeCompute => exact (hread .schedules).bind fun _ => hpure _
  | endpoint => exact (hread .endpoints).bind fun _ => hpure _
  | endpointGroup => exact (hread .endpointGroups).bind fun _ => hpure _
  | registry => exact (hread .registries).bind fun _ => hpure _
  | resourceControl => exact (hread .resourceControls).bind fun _ => hpure _
  | stack => exact (hread .containerStacks).bind fun _ => hpure _
  | tag => exact (hread .tags).bind fun _ => hpure _

theorem observes_extend (host : Host) (source : Source) (report : Report) (part : Section) :
    (extend host source report part).Observes := by
  unfold extend
  refine Trace.Observes.bind ?_ fun updated => ?_
  · rw [update_eq_put]
    exact ((observes_compute host source part).bind fun _ => Trace.observes_pure _).mapError _
  · split
    · exact (Trace.observes_log _).bind fun _ => Trace.observes_pure _
    · exact Trace.observes_pure _

theorem observes_run (host : Host) (source : Source) : (run host source).Observes :=
  ((Trace.observes_read source .identity).mapError _).bind fun _ =>
    Trace.Observes.foldlM (observes_extend host source) Section.all _

end Survey

theorem handedTo_append (place : Nat) (first second : List Action) :
    handedTo place (first ++ second) = handedTo place first ++ handedTo place second :=
  List.filterMap_append

theorem sentTo_append (place : Nat) (first second : List Action) :
    sentTo place (first ++ second) = sentTo place first ++ sentTo place second :=
  List.filterMap_append

theorem filterMap_of_observes {α : Type} {see : Action → Option α} {actions : List Action}
    (hread : ∀ bucket, see (.read bucket) = none) (hlog : ∀ event, see (.log event) = none)
    (hactions : ∀ action ∈ actions, action.observes = true) : actions.filterMap see = [] := by
  rw [List.filterMap_eq_nil_iff]
  intro action hmem
  have hobserves := hactions action hmem
  cases action with
  | read bucket => exact hread bucket
  | log event => exact hlog event
  | _ => cases hobserves

theorem handedTo_of_observes {actions : List Action}
    (hactions : ∀ action ∈ actions, action.observes = true) (place : Nat) :
    handedTo place actions = [] :=
  filterMap_of_observes (fun _ => rfl) (fun _ => rfl) hactions

theorem sentTo_of_observes {actions : List Action}
    (hactions : ∀ action ∈ actions, action.observes = true) (place : Nat) :
    sentTo place actions = [] :=
  filterMap_of_observes (fun _ => rfl) (fun _ => rfl) hactions

namespace Destination

def panics (number : Nat) : Destination → Bool
  | .faulty runs => runs.contains number
  | .channel | .abandoned | .directory _ | .printer _ => false

variable (number place : Nat) (outcome : Outcome)

theorem panicked_deliver (destination : Destination) :
    (destination.deliver number place outcome).panicked = destination.panics number := by
  cases destination <;> simp only [deliver, panics] <;> repeat' split
  all_goals rfl

theorem bucketsRead_deliver (destination : Destination) :
    bucketsRead (destination.deliver number place outcome).actions = [] := by
  cases destination <;> simp only [deliver] <;> repeat' split
  all_goals rfl

theorem handedTo_deliver (there : Nat) (destination : Destination) :
    handedTo there (destination.deliver number place outcome).actions = [] := by
  cases destination <;> simp only [deliver] <;> repeat' split
  all_goals rfl

/-- Only a channel has something put into it, and then what it was handed. -/
theorem sentTo_deliver (there : Nat) (destination : Destination) :
    sentTo there (destination.deliver number place outcome).actions =
      if destination = .channel ∧ place = there then [outcome] else [] := by
  cases destination <;> simp only [deliver] <;> repeat' split
  all_goals simp_all [sentTo]

theorem actions_deliverAll_cons (destination : Destination) (destinations : List Destination) :
    (deliverAll number place outcome (destination :: destinations)).actions =
      [.hand place outcome] ++ (destination.deliver number place outcome).actions ++
        if destination.panics number then []
        else (deliverAll number (place + 1) outcome destinations).actions := by
  rw [deliverAll, panicked_deliver]
  split <;> simp

theorem bucketsRead_deliverAll (destinations : List Destination) :
    bucketsRead (deliverAll number place outcome destinations).actions = [] := by
  induction destinations generalizing place with
  | nil => rfl
  | cons destination destinations ih =>
      have hhand : bucketsRead [.hand place outcome] = [] := rfl
      rw [actions_deliverAll_cons, bucketsRead_append, bucketsRead_append, bucketsRead_deliver, hhand]
      split
      · rfl
      · exact ih (place + 1)

theorem handedTo_deliverAll_of_lt (destinations : List Destination) {there : Nat}
    (hlt : there < place) :
    handedTo there (deliverAll number place outcome destinations).actions = [] := by
  induction destinations generalizing place with
  | nil => rfl
  | cons destination destinations ih =>
      rw [actions_deliverAll_cons, handedTo_append, handedTo_append, handedTo_deliver]
      have hhand : handedTo there [.hand place outcome] = [] := by
        simp [handedTo, Nat.ne_of_gt hlt]
      rw [hhand]
      split
      · rfl
      · exact ih (place + 1) (Nat.lt_succ_of_lt hlt)

/-- A destination is handed the outcome if no destination before it panics. -/
theorem handedTo_deliverAll (destinations : List Destination) (there : Nat) :
    handedTo (place + there) (deliverAll number place outcome destinations).actions =
      if there < destinations.length ∧
          ∀ destination ∈ destinations.take there, destination.panics number = false then [outcome]
      else [] := by
  induction destinations generalizing place there with
  | nil => rfl
  | cons destination destinations ih =>
      rw [actions_deliverAll_cons, handedTo_append, handedTo_append, handedTo_deliver]
      cases there with
      | zero =>
          have hrest := handedTo_deliverAll_of_lt number (place + 1) outcome destinations
            (Nat.lt_succ_self place)
          have hhand : handedTo (place + 0) [.hand place outcome] = [outcome] := by
            simp [handedTo]
          rw [hhand, Nat.add_zero]
          split
          · simp [handedTo]
          · simp [hrest]
      | succ there =>
          have hhand : handedTo (place + (there + 1)) [.hand place outcome] = [] := by
            simp [handedTo]
          have hrest := ih (place + 1) there
          rw [Nat.add_right_comm] at hrest
          rw [hhand, ← Nat.add_assoc]
          cases hpanics : destination.panics number with
          | true => simp [handedTo, hpanics]
          | false => simp [hrest, hpanics]

/-- What is put into a channel is what it is handed. -/
theorem sentTo_deliverAll (destinations : List Destination) {there : Nat}
    (hchannel : place ≤ there → destinations[there - place]? = some .channel) :
    sentTo there (deliverAll number place outcome destinations).actions =
      handedTo there (deliverAll number place outcome destinations).actions := by
  induction destinations generalizing place with
  | nil => rfl
  | cons destination destinations ih =>
      have hhand : sentTo there [.hand place outcome] = [] := rfl
      have hfirst : sentTo there (destination.deliver number place outcome).actions =
          handedTo there [.hand place outcome] := by
        rw [sentTo_deliver]
        by_cases heq : place = there
        · subst heq
          have hdestination := hchannel (Nat.le_refl _)
          rw [Nat.sub_self, List.getElem?_cons_zero, Option.some.injEq] at hdestination
          simp [hdestination, handedTo]
        · simp [heq, handedTo]
      have hrest := ih (place + 1) fun hle => by
        have hthere : there - place = there - (place + 1) + 1 := by omega
        have hdestination := hchannel (by omega)
        rwa [hthere, List.getElem?_cons_succ] at hdestination
      rw [actions_deliverAll_cons, sentTo_append, sentTo_append, handedTo_append, handedTo_append,
        hhand, hfirst, handedTo_deliver, List.nil_append, List.append_nil]
      split
      · rfl
      · rw [hrest]

end Destination

namespace Runner

/-- The run with some number comes as far as handing its outcome to the destination at some place.
-/
def Reaches (runner : Runner) (number place : Nat) : Prop :=
  place < runner.destinations.length ∧
    ∀ destination ∈ runner.destinations.take place, destination.panics number = false

instance (runner : Runner) (number place : Nat) : Decidable (runner.Reaches number place) :=
  inferInstanceAs (Decidable (_ ∧ _))

theorem actions_eq (runner : Runner) (number : Nat) :
    runner.actions number =
      [.log .runStarted] ++ (Survey.run runner.host runner.source).actions ++
        [.log (finalEvent runner.outcome)] ++ (runner.delivery number).actions := by
  simp [actions]

theorem bucketsRead_actions (runner : Runner) (number : Nat) :
    bucketsRead (runner.actions number) =
      bucketsRead (Survey.run runner.host runner.source).actions := by
  have hlog (event : Event) : bucketsRead [.log event] = [] := rfl
  rw [actions_eq, bucketsRead_append, bucketsRead_append, bucketsRead_append, hlog, hlog, delivery,
    Destination.bucketsRead_deliverAll, List.nil_append, List.append_nil, List.append_nil]

theorem handedTo_actions (runner : Runner) (number place : Nat) :
    handedTo place (runner.actions number) =
      if runner.Reaches number place then [runner.outcome] else [] := by
  have hsurvey := handedTo_of_observes (Survey.observes_run runner.host runner.source) place
  have hlog (event : Event) : handedTo place [.log event] = [] := rfl
  have hdelivery := Destination.handedTo_deliverAll number 0 runner.outcome runner.destinations place
  rw [Nat.zero_add] at hdelivery
  rw [actions_eq, handedTo_append, handedTo_append, handedTo_append, hsurvey, hlog, hlog, delivery,
    hdelivery]
  rfl

theorem sentTo_actions (runner : Runner) (number : Nat) {place : Nat}
    (hchannel : runner.destinations[place]? = some .channel) :
    sentTo place (runner.actions number) = handedTo place (runner.actions number) := by
  have hobserves := Survey.observes_run runner.host runner.source
  have hsent (event : Event) : sentTo place [.log event] = [] := rfl
  have hhanded (event : Event) : handedTo place [.log event] = [] := rfl
  have hdelivery := Destination.sentTo_deliverAll number 0 runner.outcome runner.destinations
    fun _ => hchannel
  rw [actions_eq, sentTo_append, sentTo_append, sentTo_append, handedTo_append, handedTo_append,
    handedTo_append, handedTo_of_observes hobserves, sentTo_of_observes hobserves, hsent, hsent,
    hhanded, hhanded, delivery, hdelivery]

end Runner

end UsageReport
