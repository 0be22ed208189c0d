import UsageReport.Survey.Trace

/-!
Laws of traces: what a computation made of others does and how it ends, in terms of its parts.
-/

namespace UsageReport

/-- The buckets that some actions read, in order. -/
def bucketsRead (actions : List Action) : List Bucket := actions.filterMap Action.bucket?

theorem readCount_eq (actions : List Action) (bucket : Bucket) :
    readCount actions bucket = (bucketsRead actions).count bucket := rfl

theorem bucketsRead_append (first second : List Action) :
    bucketsRead (first ++ second) = bucketsRead first ++ bucketsRead second := by
  simp [bucketsRead]

namespace Trace

variable {ε δ α β : Type}

theorem bind_eq (trace : Trace ε α) (next : α → Trace ε β) :
    trace >>= next = trace.andThen next := rfl

theorem bind_of_error {trace : Trace ε α} {error : ε} (next : α → Trace ε β)
    (herror : trace.result = .error error) :
    trace >>= next = ⟨trace.actions, .error error⟩ := by
  simp only [bind_eq, andThen, herror]

theorem bind_of_ok {trace : Trace ε α} {value : α} (next : α → Trace ε β)
    (hok : trace.result = .ok value) :
    trace >>= next = ⟨trace.actions ++ (next value).actions, (next value).result⟩ := by
  simp only [bind_eq, andThen, hok]

theorem result_pure (value : α) : (pure value : Trace ε α).result = .ok value := rfl

theorem result_bind_eq_ok_iff {trace : Trace ε α} {next : α → Trace ε β} {value : β} :
    (trace >>= next).result = .ok value ↔
      ∃ middle, trace.result = .ok middle ∧ (next middle).result = .ok value := by
  cases hresult : trace.result with
  | error error => simp [bind_of_error next hresult]
  | ok middle => simp [bind_of_ok next hresult]

theorem mapError_eq_ok_iff {attempt : Except ε α} {f : ε → δ} {value : α} :
    attempt.mapError f = .ok value ↔ attempt = .ok value := by
  cases attempt with
  | error error =>
      constructor
      · rintro ⟨⟩
      · rintro ⟨⟩
  | ok held =>
      constructor
      · rintro ⟨⟩
        rfl
      · rintro ⟨⟩
        rfl

theorem result_mapError_eq_ok_iff {trace : Trace ε α} {f : ε → δ} {value : α} :
    (trace.mapError f).result = .ok value ↔ trace.result = .ok value :=
  mapError_eq_ok_iff

end Trace

end UsageReport
