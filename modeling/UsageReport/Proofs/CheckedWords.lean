import UsageReport.Duration.Words
import UsageReport.Proofs.NumeralValue
import UsageReport.Proofs.Rejection

/-!
Groups of a duration that are read in words. A word that comes out of a checked step is the exact
number, and where the exact number is no word the step is refused. Fraction digits never lead to a
refusal: eighteen digits are a word, the power of ten that they count in is one, and a fraction of
a unit comes to a unit at most.
-/

namespace UsageReport.Duration

open Text
open Json.Numeral (unitsPerOne_pos)

/-- An outcome in words is the exact outcome. The values are related, or the words are refused for
the fault that the exact outcome has. Nothing is trapped, and no fraction is unread. -/
inductive Agrees {α β : Type} (related : α → β → Prop) : Except Stop α → Except Fault β → Prop where
  | value {word : α} {number : β} (hrelated : related word number) :
      Agrees related (.ok word) (.ok number)
  | refused (site : Site) (hread : site ≠ .unreadFraction) :
      Agrees related (.error (.refused site)) (.error site.fault)

namespace Agrees

variable {α β : Type} {related : α → β → Prop}

theorem bind {γ δ : Type} {after : γ → δ → Prop} {words : Except Stop α} {exact : Except Fault β}
    {nextWords : α → Except Stop γ} {nextExact : β → Except Fault δ}
    (hfirst : Agrees related words exact)
    (hnext : ∀ word number, related word number →
      Agrees after (nextWords word) (nextExact number)) :
    Agrees after (words >>= nextWords) (exact >>= nextExact) := by
  cases hfirst with
  | value hrelated => exact hnext _ _ hrelated
  | refused site hread => exact .refused site hread

end Agrees

/-- The number, if it is in range. -/
def inRange (limit number : Nat) : Except Fault Nat :=
  if limit < number then .error .outOfRange else .ok number

theorem inRange_eq_ok_iff {limit number value : Nat} :
    inRange limit number = .ok value ↔ number = value ∧ value ≤ limit := by
  unfold inRange
  split
  · rename_i hbeyond
    constructor
    · nofun
    · rintro ⟨rfl, hle⟩
      omega
  · rename_i hle
    constructor
    · rintro ⟨⟩
      exact ⟨rfl, Nat.not_lt.mp hle⟩
    · rintro ⟨rfl, -⟩
      rfl

def IsWord (word : UInt64) (number : Nat) : Prop := word.toNat = number

theorem agrees_orRefuse {site : Site} {attempt : Option UInt64} {number : Nat}
    (hsite : site.fault = .outOfRange)
    (hword : attempt.map UInt64.toNat = if greatestWord < number then none else some number) :
    Agrees IsWord (orRefuse site attempt) (inRange greatestWord number) := by
  have hread : site ≠ .unreadFraction := by
    rintro rfl
    cases hsite
  rw [inRange, ← hsite]
  cases attempt with
  | none =>
      split at hword
      · rw [if_pos ‹_›]
        exact .refused site hread
      · cases hword
  | some word =>
      split at hword
      · cases hword
      · rw [if_neg ‹_›]
        exact .value (Option.some.inj hword)

/-- A word that is only kept if it has not wrapped around is the exact number. -/
theorem map_checked {overflows : Bool} {word : UInt64} {number : Nat}
    (hoverflows : overflows = decide (2 ^ 64 ≤ number)) (hword : word.toNat = number % 2 ^ 64) :
    (if overflows then none else some word).map UInt64.toNat =
      if greatestWord < number then none else some number := by
  subst hoverflows
  by_cases hfits : number < 2 ^ 64
  · rw [decide_eq_false (Nat.not_le.mpr hfits), if_neg Bool.false_ne_true, Option.map_some, hword,
      Nat.mod_eq_of_lt hfits, if_neg (Nat.not_lt.mpr (lt_two_pow_iff.mp hfits))]
  · rw [decide_eq_true (Nat.not_lt.mp hfits), if_pos rfl,
      if_pos (Nat.not_le.mp (lt_two_pow_iff.not.mp hfits))]
    rfl

theorem map_addWords? (first second : UInt64) :
    (addWords? first second).map UInt64.toNat =
      if greatestWord < first.toNat + second.toNat then none
      else some (first.toNat + second.toNat) :=
  map_checked rfl (UInt64.toNat_add first second)

theorem map_mulWords? (first second : UInt64) :
    (mulWords? first second).map UInt64.toNat =
      if greatestWord < first.toNat * second.toNat then none
      else some (first.toNat * second.toNat) :=
  map_checked rfl (UInt64.toNat_mul first second)

/-- Checked steps in a row are one checked step, if a number does not become less on the way. -/
theorem map_bind_checked {attempt : Option UInt64} {next : UInt64 → Option UInt64}
    {first last : Nat} (hle : first ≤ last)
    (hfirst : attempt.map UInt64.toNat = if greatestWord < first then none else some first)
    (hlast : ∀ word, word.toNat = first →
      (next word).map UInt64.toNat = if greatestWord < last then none else some last) :
    (attempt.bind next).map UInt64.toNat = if greatestWord < last then none else some last := by
  cases attempt with
  | none =>
      split at hfirst
      · rw [if_pos (Nat.lt_of_lt_of_le ‹_› hle)]
        rfl
      · cases hfirst
  | some word =>
      split at hfirst
      · cases hfirst
      · exact hlast word (Option.some.inj hfirst)

theorem map_appendDigit? (word : UInt64) {digit : Char} (hdigit : digit.isDigit = true) :
    (appendDigit? word digit).map UInt64.toNat =
      if greatestWord < word.toNat * 10 + digitValue digit then none
      else some (word.toNat * 10 + digitValue digit) := by
  have hvalue : (UInt64.ofNat (digitValue digit)).toNat = digitValue digit :=
    toNat_ofNat ((digitValue_le hdigit).trans (by decide))
  refine map_bind_checked (Nat.le_add_right _ _) (map_mulWords? word 10) fun tens htens => ?_
  rw [map_addWords?, hvalue, htens]

theorem map_foldlM_appendDigit? (word : UInt64) {digits : List Char}
    (hdigits : ∀ c ∈ digits, c.isDigit = true) :
    (digits.foldlM appendDigit? word).map UInt64.toNat =
      if greatestWord < digitsFrom word.toNat digits then none
      else some (digitsFrom word.toNat digits) := by
  induction digits generalizing word with
  | nil =>
      rw [digitsFrom, List.foldl_nil, if_neg (Nat.not_lt.mpr (lt_two_pow_iff.mp word.toNat_lt))]
      rfl
  | cons c digits ih =>
      obtain ⟨hc, hrest⟩ := List.forall_mem_cons.mp hdigits
      rw [List.foldlM_cons, digitsFrom_cons]
      refine map_bind_checked (le_digitsFrom _ digits) (map_appendDigit? word hc)
        fun next hnext => ?_
      rw [← hnext]
      exact ih next hrest

theorem map_readWord? {digits : List Char} (hne : digits ≠ [])
    (hdigits : ∀ c ∈ digits, c.isDigit = true) :
    (readWord? digits).map UInt64.toNat =
      if greatestWord < digitsValue digits then none else some (digitsValue digits) := by
  have hread : readWord? digits = digits.foldlM appendDigit? 0 := by
    unfold readWord?
    split
    · cases hdigits '+' List.mem_cons_self
    · simp [hne, List.all_eq_true.mpr hdigits]
  rw [hread]
  exact map_foldlM_appendDigit? 0 hdigits

theorem powerOfTen_eq {exponent : Nat} (hexponent : exponent ≤ Group.keptDigits) :
    ∃ power, powerOfTen exponent = .ok power ∧ power.toNat = 10 ^ exponent := by
  have hpower : 10 ^ exponent ≤ greatestWord :=
    (Nat.pow_le_pow_right (by decide) hexponent).trans (by decide)
  refine ⟨.ofNat (10 ^ exponent), ?_, toNat_ofNat hpower⟩
  exact if_neg (Nat.not_lt.mpr hpower)

theorem TimeUnit.toNat_word (unit : TimeUnit) : unit.word.toNat = unit.nanoseconds :=
  toNat_ofNat (by cases unit <;> decide)

namespace Group

/-- So many parts of a unit, of which a power of ten make one, in whole nanoseconds. -/
def partNanoseconds (count places : Nat) (unit : TimeUnit) : Nat :=
  let scale := Binary64.nearestUnits (Nat.pow 10 places) 1
  let step := Binary64.nearestUnits (unit.nanoseconds * Binary64.unitsPerOne) scale
  Binary64.product (Binary64.nearestUnits count 1) step / Binary64.unitsPerOne

theorem fractionNanoseconds_eq (digits : List Char) (unit : TimeUnit) :
    fractionNanoseconds digits unit =
      partNanoseconds (digitsValue (digits.take keptDigits)) (digits.take keptDigits).length unit :=
  rfl

theorem partNanoseconds_mono {first second : Nat} (hle : first ≤ second) (places : Nat)
    (unit : TimeUnit) : partNanoseconds first places unit ≤ partNanoseconds second places unit := by
  have hcount : Binary64.nearestUnits first 1 ≤ Binary64.nearestUnits second 1 :=
    Binary64.nearestUnits_mono Nat.one_pos hle
  have hone : 0 < Binary64.unitsPerOne * Binary64.unitsPerOne :=
    Nat.mul_pos unitsPerOne_pos unitsPerOne_pos
  exact Nat.div_le_div_right
    (Binary64.nearestUnits_mono hone (Nat.mul_le_mul_right _ hcount))

/-- Nines only come to a unit at most, however they are rounded. -/
theorem partNanoseconds_nines (unit : TimeUnit) :
    ∀ places ≤ keptDigits, partNanoseconds (10 ^ places - 1) places unit ≤ unit.nanoseconds := by
  cases unit <;> decide +kernel

theorem length_take_keptDigits_le (digits : List Char) :
    (digits.take keptDigits).length ≤ keptDigits :=
  List.length_take_le _ _

section Fraction

variable {digits : List Char} (hdigits : ∀ c ∈ digits, c.isDigit = true)
include hdigits

theorem isDigit_of_mem_take : ∀ c ∈ digits.take keptDigits, c.isDigit = true :=
  fun c hc => hdigits c (List.mem_of_mem_take hc)

theorem fractionNanoseconds_le (unit : TimeUnit) :
    fractionNanoseconds digits unit ≤ unit.nanoseconds := by
  have hvalue := digitsValue_lt (isDigit_of_mem_take hdigits)
  rw [fractionNanoseconds_eq]
  exact (partNanoseconds_mono (Nat.le_sub_one_of_lt hvalue) _ unit).trans
    (partNanoseconds_nines unit _ (length_take_keptDigits_le digits))

theorem keptFraction_eq : keptFraction digits = .ok (digits.take keptDigits) := by
  have hplace : min (bytes digits).length keptDigits =
      (bytes (digits.take keptDigits)).length := by
    rw [length_bytes_of_isDigit hdigits, length_bytes_of_isDigit (isDigit_of_mem_take hdigits),
      List.length_take, Nat.min_comm]
  have hcut := cut_bytes (digits.take keptDigits) (digits.drop keptDigits)
  rw [List.take_append_drop] at hcut
  rw [keptFraction, hplace, hcut]
  rfl

theorem scale_eq : ∃ power, scale (digits.take keptDigits) = .ok power ∧
    power.toNat = 10 ^ (digits.take keptDigits).length := by
  have hlength := length_take_keptDigits_le digits
  have hpassed : (UInt32.ofNat (bytes (digits.take keptDigits)).length).toNat =
      (digits.take keptDigits).length := by
    rw [length_bytes_of_isDigit (isDigit_of_mem_take hdigits)]
    exact UInt32.toNat_ofNat_of_lt' (Nat.lt_of_le_of_lt hlength (by decide))
  rw [scale, hpassed]
  exact powerOfTen_eq hlength

variable (hne : digits ≠ [])
include hne

theorem readWord?_kept : ∃ count, readWord? (digits.take keptDigits) = some count ∧
    count.toNat = digitsValue (digits.take keptDigits) := by
  have hkept : digits.take keptDigits ≠ [] := by
    rw [Ne, List.take_eq_nil_iff]
    exact not_or.mpr ⟨by decide, hne⟩
  have hvalue : digitsValue (digits.take keptDigits) ≤ greatestWord :=
    ((digitsValue_lt (isDigit_of_mem_take hdigits)).le.trans
      (Nat.pow_le_pow_right (by decide) (length_take_keptDigits_le digits))).trans (by decide)
  have hread := map_readWord? hkept (isDigit_of_mem_take hdigits)
  rw [if_neg (Nat.not_lt.mpr hvalue)] at hread
  exact Option.map_eq_some_iff.mp hread

/-- A fraction of a unit is always read. -/
theorem fractionWord_eq (unit : TimeUnit) : ∃ word, fractionWord digits unit.word = .ok word ∧
    word.toNat = fractionNanoseconds digits unit := by
  obtain ⟨count, hread, hcount⟩ := readWord?_kept hdigits hne
  obtain ⟨power, hscale, hpower⟩ := scale_eq hdigits
  have hunit : Binary64.nearestUnits unit.nanoseconds 1 =
      unit.nanoseconds * Binary64.unitsPerOne := by
    cases unit <;> decide +kernel
  have hle := fractionNanoseconds_le hdigits unit
  have hword : unit.nanoseconds ≤ greatestWord := by cases unit <;> decide
  refine ⟨.ofNat (fractionNanoseconds digits unit), ?_, toNat_ofNat (hle.trans hword)⟩
  have hcut : cutToWord (Binary64.product (Binary64.nearestUnits count.toNat 1)
      (Binary64.nearestUnits (Binary64.nearestUnits unit.word.toNat 1)
        (Binary64.nearestUnits power.toNat 1))) =
      .ofNat (fractionNanoseconds digits unit) := by
    rw [hcount, hpower, TimeUnit.toNat_word, hunit, cutToWord]
    congr 1
    exact Nat.min_eq_left (hle.trans hword)
  rw [fractionWord, keptFraction_eq hdigits]
  simp only [bind, Except.bind, hread, orRefuse, hscale, hcut]
  rfl

end Fraction

theorem isDigit_of_mem_split (text : List Char) :
    (∀ c ∈ (split text).1.whole, c.isDigit = true) ∧
      ∀ c ∈ (split text).1.fraction, c.isDigit = true := by
  obtain ⟨opening, rfl⟩ := exists_opening text
  rw [opening.split_text]
  exact ⟨opening.whole_isDigit, opening.fraction_isDigit⟩

/-- What a group comes to in a unit, by the steps in which it is reckoned. -/
def reckoned (group : Group) (unit : TimeUnit) : Except Fault Nat := do
  let whole ← inRange greatestWord (digitsValue group.whole)
  let product ← inRange greatestWord (whole * unit.nanoseconds)
  if group.fraction.isEmpty then return product
  else inRange greatestWord (product + fractionNanoseconds group.fraction unit)

theorem reckoned_eq (group : Group) (unit : TimeUnit) :
    group.reckoned unit =
      if greatestWord < digitsValue group.whole ||
          greatestWord < digitsValue group.whole * unit.nanoseconds +
            if group.fraction.isEmpty then 0 else fractionNanoseconds group.fraction unit then
        .error .outOfRange
      else .ok (digitsValue group.whole * unit.nanoseconds +
        if group.fraction.isEmpty then 0 else fractionNanoseconds group.fraction unit) := by
  simp only [reckoned, inRange, bind, Except.bind, pure, Except.pure]
  by_cases hwhole : greatestWord < digitsValue group.whole
  · simp [hwhole]
  by_cases hproduct : greatestWord < digitsValue group.whole * unit.nanoseconds
  · have hvalue := fun part => Nat.lt_of_lt_of_le hproduct (Nat.le_add_right _ part)
    simp [hwhole, hproduct, hvalue]
  · cases group.fraction.isEmpty <;> simp [hwhole, hproduct]

theorem nanoseconds_eq (group : Group) :
    group.nanoseconds =
      if group.whole.isEmpty && group.fraction.isEmpty then .error .malformed
      else if group.unit.isEmpty then .error .missingUnit
      else match TimeUnit.ofText? group.unit with
        | none => .error (.unknownUnit group.unit)
        | some unit => group.reckoned unit := by
  simp only [reckoned_eq]
  rfl

theorem wholeWord_agrees {digits : List Char} (hdigits : ∀ c ∈ digits, c.isDigit = true) :
    Agrees IsWord (wholeWord digits) (inRange greatestWord (digitsValue digits)) := by
  by_cases hne : digits = []
  · rw [hne]
    exact .value rfl
  · rw [wholeWord, if_neg (by rwa [List.isEmpty_iff])]
    exact agrees_orRefuse rfl (map_readWord? hne hdigits)

theorem word_agrees {group : Group} (hwhole : ∀ c ∈ group.whole, c.isDigit = true)
    (hfraction : ∀ c ∈ group.fraction, c.isDigit = true) (unit : TimeUnit) :
    Agrees IsWord (group.word unit.word) (group.reckoned unit) := by
  refine (wholeWord_agrees hwhole).bind fun whole number hnumber => ?_
  cases hnumber
  have hproduct := map_mulWords? whole unit.word
  rw [TimeUnit.toNat_word] at hproduct
  refine (agrees_orRefuse rfl hproduct).bind fun product number hnumber => ?_
  cases hnumber
  by_cases hempty : group.fraction = []
  · rw [if_pos (List.isEmpty_iff.mpr hempty), if_pos (List.isEmpty_iff.mpr hempty)]
    exact .value rfl
  · rw [if_neg (by rwa [List.isEmpty_iff]), if_neg (by rwa [List.isEmpty_iff])]
    obtain ⟨part, hpart, hvalue⟩ := fractionWord_eq hfraction hempty unit
    have hsum := map_addWords? product part
    rw [hvalue] at hsum
    rw [hpart]
    exact agrees_orRefuse rfl hsum

end Group

theorem toInt_toInt64 {total : UInt64} (htotal : total.toNat ≤ greatest) :
    total.toInt64.toInt = total.toNat := by
  have hless : 2 * total.toNat < 2 ^ 64 := by
    have hgreatest : greatest = 2 ^ 63 - 1 := rfl
    omega
  exact BitVec.toInt_eq_toNat_of_lt hless

/-- A total in range has a sign put before it, and the least signed word does not come out. -/
theorem signed_eq {total : UInt64} (htotal : total.toNat ≤ greatest) (negative : Bool) :
    ∃ word, signed negative total = .ok word ∧ word ≠ Int64.minValue ∧
      word.toInt = if negative then -(total.toNat : Int) else total.toNat := by
  have hgreatest : greatest = 2 ^ 63 - 1 := rfl
  have hword := toInt_toInt64 htotal
  have hne {word : Int64} (hless : -2 ^ 63 < word.toInt) : word ≠ Int64.minValue := by
    rintro rfl
    rw [Int64.toInt_minValue] at hless
    exact Int.lt_irrefl _ hless
  cases negative with
  | false => exact ⟨_, rfl, hne (by omega), hword⟩
  | true =>
      have hover : total.toInt64.toBitVec.negOverflow = false := by
        rw [BitVec.negOverflow, beq_eq_false_iff_ne]
        change total.toInt64.toInt ≠ -2 ^ 63
        omega
      have hnegated : (-total.toInt64).toInt = -(total.toNat : Int) := by
        rw [Int64.toInt_neg, hword]
        exact Int.bmod_eq_of_le (by omega) (by omega)
      refine ⟨-total.toInt64, ?_, hne (by omega), hnegated⟩
      rw [signed, if_pos rfl, negateWord, hover]
      rfl

end UsageReport.Duration
