import Mathlib.Data.List.TakeWhile
import UsageReport.Proofs.Commands
import UsageReport.Proofs.Digits
import UsageReport.Proofs.Span

/-!
The time between scheduled runs, from the texts that ask for it to the period of the timetable.
-/

namespace UsageReport

namespace Text

/-- What a text is without the blanks at its two ends. -/
structure Core (text core : List Char) : Prop where
  surrounded : ∃ before after, text = before ++ core ++ after ∧
    (∀ c ∈ before, isBlank c = true) ∧ ∀ c ∈ after, isBlank c = true
  first : Clear isBlank core
  last : Clear isBlank core.reverse

theorem core_trimmed (text : List Char) : Core text (trimmed text) := by
  have hsplit : text.dropWhile isBlank =
      trimmed text ++ ((text.dropWhile isBlank).reverse.takeWhile isBlank).reverse := by
    rw [trimmed, ← List.reverse_append, List.takeWhile_append_dropWhile, List.reverse_reverse]
  constructor
  · refine ⟨text.takeWhile isBlank,
      ((text.dropWhile isBlank).reverse.takeWhile isBlank).reverse, ?_, ?_, ?_⟩
    · rw [List.append_assoc, ← hsplit, List.takeWhile_append_dropWhile]
    · exact fun c hc => List.mem_takeWhile_imp hc
    · exact fun c hc => List.mem_takeWhile_imp (List.mem_reverse.mp hc)
  · apply Clear.of_append
    rw [← hsplit]
    exact clear_dropWhile isBlank text
  · rw [trimmed, List.reverse_reverse]
    exact clear_dropWhile isBlank _

theorem Core.trimmed_eq {text core : List Char} (hcore : Core text core) :
    trimmed text = core := by
  obtain ⟨⟨before, after, rfl, hbefore, hafter⟩, hfirst, hlast⟩ := hcore
  have hblank : ∀ c ∈ after.reverse, isBlank c = true :=
    fun c hc => hafter c (List.mem_reverse.mp hc)
  by_cases hempty : core = []
  · rw [hempty, trimmed, List.append_nil, List.dropWhile_append_of_pos hbefore,
      List.dropWhile_eq_nil_iff.mpr hafter]
    rfl
  · have hrest : Clear isBlank (core ++ after) :=
      (clear_append_of_ne_nil after hempty).mpr hfirst
    rw [trimmed, List.append_assoc, dropWhile_append_of_clear hbefore hrest, List.reverse_append,
      dropWhile_append_of_clear hblank hlast, List.reverse_reverse]

theorem core_iff {text core : List Char} : Core text core ↔ trimmed text = core := by
  constructor
  · exact Core.trimmed_eq
  · rintro rfl
    exact core_trimmed text

/-- A number in decimal digits, at least one, perhaps after a plus sign. -/
inductive Writes : List Char → Nat → Prop where
  | bare {digits : List Char} (hne : digits ≠ []) (hdigits : ∀ c ∈ digits, c.isDigit = true) :
      Writes digits (Nat.ofDigitChars 10 digits 0)
  | signed {digits : List Char} (hne : digits ≠ []) (hdigits : ∀ c ∈ digits, c.isDigit = true) :
      Writes ('+' :: digits) (Nat.ofDigitChars 10 digits 0)

/-- The text without the plus sign that it may start with. -/
def unsigned (text : List Char) : List Char :=
  match text with
  | '+' :: rest => rest
  | _ => text

theorem eq_unsigned_or (text : List Char) : text = unsigned text ∨ text = '+' :: unsigned text := by
  unfold unsigned
  split
  · exact .inr rfl
  · exact .inl rfl

theorem unsigned_of_digits {digits : List Char} (hdigits : ∀ c ∈ digits, c.isDigit = true) :
    unsigned digits = digits := by
  rcases eq_unsigned_or digits with hbare | hsigned
  · exact hbare.symm
  · have hplus : '+' ∈ digits := hsigned ▸ List.mem_cons_self
    cases hdigits '+' hplus

theorem writes_iff {text : List Char} {n : Nat} :
    Writes text n ↔ unsigned text ≠ [] ∧ (∀ c ∈ unsigned text, c.isDigit = true) ∧
      digitsValue (unsigned text) = n := by
  rw [← digitsFrom_zero, digitsFrom_eq_ofDigitChars]
  constructor
  · rintro (⟨hne, hdigits⟩ | ⟨hne, hdigits⟩)
    · rw [unsigned_of_digits hdigits]
      exact ⟨hne, hdigits, rfl⟩
    · exact ⟨hne, hdigits, rfl⟩
  · have hform := eq_unsigned_or text
    generalize unsigned text = digits at hform ⊢
    rintro ⟨hne, hdigits, rfl⟩
    rcases hform with rfl | rfl
    · exact .bare hne hdigits
    · exact .signed hne hdigits

theorem word?_eq_some_iff {text : List Char} {n : Nat} :
    word? text = some n ↔ Writes text n ∧ n < 2 ^ 64 := by
  have hword : word? text =
      if (unsigned text).isEmpty || !(unsigned text).all Char.isDigit then none
      else if digitsValue (unsigned text) ≤ greatestWord then some (digitsValue (unsigned text))
      else none := rfl
  rw [hword, writes_iff, lt_two_pow_iff]
  grind

/-- A number below 2^64, perhaps with blanks around it. -/
def Number (text : List Char) (n : Nat) : Prop :=
  ∃ core, Core text core ∧ Writes core n ∧ n < 2 ^ 64

theorem word?_trimmed_eq_some_iff {text : List Char} {n : Nat} :
    word? (trimmed text) = some n ↔ Number text n := by
  rw [word?_eq_some_iff]
  constructor
  · exact fun hword => ⟨_, core_trimmed text, hword⟩
  · rintro ⟨core, hcore, hword⟩
    rwa [hcore.trimmed_eq]

theorem isBlank_of_isDigit {c : Char} (hdigit : c.isDigit = true) : isBlank c = false := by
  have hcode : 48 ≤ c.toNat ∧ c.toNat ≤ 57 := Char.isDigit_iff_toNat.mp hdigit
  simp [isBlank, blankRanges]
  omega

theorem Writes.exists_digit {text : List Char} {n : Nat} (hwrites : Writes text n) :
    ∃ c ∈ text, c.isDigit = true := by
  rcases hwrites with ⟨hne, hdigits⟩ | ⟨hne, hdigits⟩
  · obtain ⟨c, hc⟩ := List.exists_mem_of_ne_nil _ hne
    exact ⟨c, hc, hdigits c hc⟩
  · obtain ⟨c, hc⟩ := List.exists_mem_of_ne_nil _ hne
    exact ⟨c, List.mem_cons_of_mem _ hc, hdigits c hc⟩

theorem Number.exists_not_blank {text : List Char} {n : Nat} (hnumber : Number text n) :
    ∃ c ∈ text, isBlank c = false := by
  obtain ⟨core, hcore, hwrites, -⟩ := hnumber
  obtain ⟨before, after, rfl, -⟩ := hcore.surrounded
  obtain ⟨c, hc, hdigit⟩ := hwrites.exists_digit
  exact ⟨c, List.mem_append_left _ (List.mem_append_right _ hc), isBlank_of_isDigit hdigit⟩

end Text

namespace Configuration

variable {given : Option Nat} {environment : Variables} {value : String} {n : Nat}

/-- The interval that is asked for, whether it is long enough or not. -/
inductive Requests (given : Option Nat) (environment : Variables) : Nat → Prop where
  | given {n : Nat} (hgiven : given = some n) : Requests given environment n
  | usual (hgiven : given = none)
      (hunset : environment.Unset "TELEMETRY_INTERVAL_SECONDS") : Requests given environment 86400
  | held {value : String} {n : Nat} (hgiven : given = none)
      (htext : environment "TELEMETRY_INTERVAL_SECONDS" = some (.text value))
      (hnumber : Text.Number value.toList n) : Requests given environment n

/-- Nothing is given, and the variable is a text that is no number. -/
structure Garbled (given : Option Nat) (environment : Variables) (value : String) : Prop where
  notGiven : given = none
  holds : environment.Holds "TELEMETRY_INTERVAL_SECONDS" value
  noNumber : ∀ n, ¬ Text.Number value.toList n

theorem requests_or_garbled (given : Option Nat) (environment : Variables) :
    (∃ n, Requests given environment n) ∨ ∃ value, Garbled given environment value := by
  cases hgiven : given with
  | some n => exact .inl ⟨n, .given rfl⟩
  | none =>
      rcases environment.unset_or_holds "TELEMETRY_INTERVAL_SECONDS" with
        ⟨-, hunset⟩ | ⟨value, -, hholds⟩
      · exact .inl ⟨_, .usual rfl hunset⟩
      · by_cases hnumber : ∃ n, Text.Number value.toList n
        · obtain ⟨n, hnumber⟩ := hnumber
          exact .inl ⟨n, .held rfl hholds.text hnumber⟩
        · exact .inr ⟨value, rfl, hholds, not_exists.mp hnumber⟩

theorem Requests.eq_ok (hrequests : Requests given environment n) :
    requestedInterval given environment = .ok n := by
  rcases hrequests with hgiven | ⟨hgiven, hunset⟩ | ⟨hgiven, htext, hnumber⟩
  · rw [hgiven]
    rfl
  · rw [hgiven]
    simp only [requestedInterval, hunset.value?_eq]
    rfl
  · have hholds : environment.Holds "TELEMETRY_INTERVAL_SECONDS" _ :=
      ⟨htext, hnumber.exists_not_blank⟩
    have hword := Text.word?_trimmed_eq_some_iff.mpr hnumber
    rw [hgiven]
    simp only [requestedInterval, hholds.value?_eq, hword]

theorem Garbled.eq_error (hgarbled : Garbled given environment value) :
    requestedInterval given environment = .error (.notSeconds value) := by
  have hword : Text.word? (Text.trimmed value.toList) = none := by
    rw [Option.eq_none_iff_forall_ne_some]
    exact fun n hn => hgarbled.noNumber n (Text.word?_trimmed_eq_some_iff.mp hn)
  rw [hgarbled.notGiven]
  simp only [requestedInterval, hgarbled.holds.value?_eq, hword]

theorem Requests.interval_eq (hrequests : Requests given environment n) :
    interval given environment = if n < 10 then .error (.tooShort n) else .ok n := by
  rw [interval, hrequests.eq_ok]
  rfl

theorem Garbled.interval_eq (hgarbled : Garbled given environment value) :
    interval given environment = .error (.notSeconds value) := by
  rw [interval, hgarbled.eq_error]

theorem interval_eq_ok_iff :
    interval given environment = .ok n ↔ 10 ≤ n ∧ Requests given environment n := by
  constructor
  · intro hinterval
    rcases requests_or_garbled given environment with ⟨m, hrequests⟩ | ⟨value, hgarbled⟩
    · rw [hrequests.interval_eq] at hinterval
      split at hinterval
      · cases hinterval
      · cases hinterval
        exact ⟨Nat.le_of_not_lt ‹_›, hrequests⟩
    · cases hgarbled.interval_eq.symm.trans hinterval
  · rintro ⟨hlong, hrequests⟩
    rw [hrequests.interval_eq, if_neg (Nat.not_lt.mpr hlong)]

theorem interval_eq_error_iff {error : IntervalError} :
    interval given environment = .error error ↔
      (∃ value, Garbled given environment value ∧ error = .notSeconds value) ∨
        ∃ n < 10, Requests given environment n ∧ error = .tooShort n := by
  constructor
  · intro hinterval
    rcases requests_or_garbled given environment with ⟨m, hrequests⟩ | ⟨value, hgarbled⟩
    · rw [hrequests.interval_eq] at hinterval
      split at hinterval
      · cases hinterval
        exact .inr ⟨m, ‹_›, hrequests, rfl⟩
      · cases hinterval
    · cases hgarbled.interval_eq.symm.trans hinterval
      exact .inl ⟨value, hgarbled, rfl⟩
  · rintro (⟨value, hgarbled, rfl⟩ | ⟨n, hshort, hrequests, rfl⟩)
    · exact hgarbled.interval_eq
    · rw [hrequests.interval_eq, if_pos hshort]

/-- The interval is what the command line gives, else the number that the variable writes, else one
day, and it is at least ten seconds. It fails with the whole text of a variable that writes no number
below 2^64, or with the number of seconds that are too few. What is given leaves no part to the
variable. The timetable of a schedule has the interval as its period, in milliseconds. -/
theorem interval_settled (given : Option Nat) (environment : Variables) :
    (∀ n, interval given environment = .ok n ↔ 10 ≤ n ∧ Requests given environment n) ∧
    (∀ error, interval given environment = .error error ↔
      (∃ value, Garbled given environment value ∧ error = .notSeconds value ∧
        error.message =
          "Config error: TELEMETRY_INTERVAL_SECONDS must be a number of seconds, got " ++
            Text.quoted value) ∨
      ∃ n < 10, Requests given environment n ∧ error = .tooShort n ∧
        error.message = "Config error: interval must be >= 10 seconds, got " ++ toString n) ∧
    (∀ seconds other, given = some seconds →
      interval given environment = interval given other) ∧
    ∀ files options planned, options.interval = given →
      CommandLine.Schedule.plan files environment options = .ok planned →
      interval given environment = .ok planned.interval ∧
        planned.timetable.period = 1000 * planned.interval ∧ planned.timetable.period ≠ 0 := by
  refine ⟨fun n => interval_eq_ok_iff, fun error => ?_, ?_, ?_⟩
  · rw [interval_eq_error_iff]
    constructor
    · rintro (⟨value, hgarbled, rfl⟩ | ⟨n, hshort, hrequests, rfl⟩)
      · exact .inl ⟨value, hgarbled, rfl, rfl⟩
      · exact .inr ⟨n, hshort, hrequests, rfl, rfl⟩
    · rintro (⟨value, hgarbled, rfl, -⟩ | ⟨n, hshort, hrequests, rfl, -⟩)
      · exact .inl ⟨value, hgarbled, rfl⟩
      · exact .inr ⟨n, hshort, hrequests, rfl⟩
  · rintro seconds other rfl
    have hgiven (environment : Variables) : Requests (some seconds) environment seconds := .given rfl
    rw [(hgiven environment).interval_eq, (hgiven other).interval_eq]
  · rintro files options planned rfl hplan
    have hinterval := (CommandLine.Schedule.settled_of_plan hplan).interval
    refine ⟨hinterval, rfl, ?_⟩
    have hlong := (interval_eq_ok_iff.mp hinterval).1
    have hperiod : planned.timetable.period = 1000 * planned.interval := rfl
    omega

/-- A minute, between a space and a line feed. -/
def paddedEnvironment : Variables := fun name =>
  if name = "TELEMETRY_INTERVAL_SECONDS" then some (.text " +0060\n") else none

theorem interval_settled_padded :
    interval none paddedEnvironment = .ok 60 ∧
    interval (some 30) paddedEnvironment = interval (some 30) (fun _ => none) ∧
    ∃ planned, CommandLine.Schedule.plan storeTree.read paddedEnvironment { store := some "s" } =
        .ok planned ∧
      planned.interval = 60 ∧ planned.timetable.period = 60000 ∧ planned.timetable.period ≠ 0 := by
  obtain ⟨hok, -, -, hplans⟩ := interval_settled none paddedEnvironment
  obtain ⟨-, -, hgiven, -⟩ := interval_settled (some 30) paddedEnvironment
  have hcore : Text.Core [' ', '+', '0', '0', '6', '0', '\n'] ['+', '0', '0', '6', '0'] :=
    Text.core_iff.mpr (by decide)
  have hwrites : Text.Writes ['+', '0', '0', '6', '0'] 60 := .signed (by simp) (by simp)
  have hnumber : Text.Number " +0060\n".toList 60 := ⟨_, hcore, hwrites, by decide⟩
  have hinterval : interval none paddedEnvironment = .ok 60 :=
    (hok 60).mpr ⟨by decide, .held rfl rfl hnumber⟩
  have hplan := @CommandLine.Schedule.plan_of_interval storeTree.read _ { store := some "s" } _ _
    .json hinterval
  have hload : CommandLine.loadStore storeTree.read (CommandLine.configuration paddedEnvironment
      { store := some "s" }).storePath = .ok fullStore := loadStore_fullText
  rw [hload] at hplan
  obtain ⟨-, hperiod, hne⟩ := hplans _ _ _ rfl hplan
  exact ⟨hinterval, hgiven 30 _ rfl, _, hplan, rfl, hperiod, hne⟩

end Configuration

end UsageReport
