import UsageReport.Configuration

/-!
Where a setting comes from: what is given for it, the variable for it, or a fixed value.
-/

namespace UsageReport

namespace Variables

variable {environment : Variables} {name value : String}

/-- The variable does not count: it is absent, no text, or nothing but blanks. -/
inductive Unset (environment : Variables) (name : String) : Prop where
  | absent (habsent : environment name = none)
  | binary {bytes : List UInt8} (hbinary : environment name = some (.binary bytes))
  | blank {value : String} (htext : environment name = some (.text value))
      (hblank : ∀ c ∈ value.toList, Text.isBlank c = true)

/-- The variable is a text with more than blanks, which counts as it stands. -/
structure Holds (environment : Variables) (name value : String) : Prop where
  text : environment name = some (.text value)
  notBlank : ∃ c ∈ value.toList, Text.isBlank c = false

theorem value?_of_text (htext : environment name = some (.text value)) :
    environment.value? name = if Text.isAllBlank value then none else some value := by
  rw [value?, htext]
  change (if !Text.isAllBlank value then some value else none) = _
  cases Text.isAllBlank value <;> rfl

theorem isAllBlank_iff {value : String} :
    Text.isAllBlank value = true ↔ ∀ c ∈ value.toList, Text.isBlank c = true :=
  List.all_eq_true

theorem unset_or_holds (environment : Variables) (name : String) :
    (environment.value? name = none ∧ environment.Unset name) ∨
      ∃ value, environment.value? name = some value ∧ environment.Holds name value := by
  cases hvariable : environment name with
  | none =>
      refine .inl ⟨?_, .absent hvariable⟩
      rw [value?, hvariable]
      rfl
  | some content =>
      cases content with
      | binary bytes =>
          refine .inl ⟨?_, .binary hvariable⟩
          rw [value?, hvariable]
          rfl
      | text value =>
          have hvalue := value?_of_text hvariable
          cases hblank : Text.isAllBlank value with
          | true =>
              rw [hblank, if_pos rfl] at hvalue
              exact .inl ⟨hvalue, .blank hvariable (isAllBlank_iff.mp hblank)⟩
          | false =>
              rw [hblank] at hvalue
              refine .inr ⟨value, hvalue, hvariable, ?_⟩
              simpa [Text.isAllBlank] using hblank

theorem Holds.value?_eq (hholds : environment.Holds name value) :
    environment.value? name = some value := by
  obtain ⟨c, hmem, hc⟩ := hholds.notBlank
  rw [value?_of_text hholds.text, if_neg]
  intro hblank
  rw [isAllBlank_iff.mp hblank c hmem] at hc
  cases hc

theorem Unset.value?_eq (hunset : environment.Unset name) : environment.value? name = none := by
  cases hunset with
  | absent habsent =>
      rw [value?, habsent]
      rfl
  | binary hbinary =>
      rw [value?, hbinary]
      rfl
  | blank htext hblank => rw [value?_of_text htext, if_pos (isAllBlank_iff.mpr hblank)]

/-- What a setting comes to: the value that is given, else the variable, else the usual value. -/
inductive Settles (given : Option String) (environment : Variables) (name usual : String) :
    String → Prop where
  | given {value : String} (hgiven : given = some value) :
      Settles given environment name usual value
  | held {value : String} (hgiven : given = none) (hholds : environment.Holds name value) :
      Settles given environment name usual value
  | usual (hgiven : given = none) (hunset : environment.Unset name) :
      Settles given environment name usual usual

theorem settles_iff {given : Option String} {usual : String} :
    Settles given environment name usual value ↔
      given.getD ((environment.value? name).getD usual) = value := by
  constructor
  · rintro (hgiven | ⟨hgiven, hholds⟩ | ⟨hgiven, hunset⟩)
    · rw [hgiven]
      rfl
    · rw [hgiven, hholds.value?_eq]
      rfl
    · rw [hgiven, hunset.value?_eq]
      rfl
  · rintro rfl
    cases given with
    | some value => exact .given rfl
    | none =>
        rcases unset_or_holds environment name with ⟨hnone, hunset⟩ | ⟨held, hheld, hholds⟩
        · rw [hnone]
          exact .usual rfl hunset
        · rw [hheld]
          exact .held rfl hholds

/-- Only the one variable counts. -/
theorem settles_congr {other : Variables} {given : Option String} {usual : String}
    (hsame : other name = environment name) :
    Settles given environment name usual value ↔ Settles given other name usual value := by
  rw [settles_iff, settles_iff, value?, value?, hsame]

end Variables

end UsageReport
