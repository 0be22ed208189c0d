import UsageReport.Proofs.ShortestDecimal
import UsageReport.Proofs.Spelling

/-!
The written form of a binary64 number in a JSON text is a numeral, and one whose value is a binary64
number again. Nothing is said here of which number it is.
-/

namespace UsageReport.Json.Numeral

open Text

theorem isDigits_decimal (n : Nat) : IsDigits (decimal n) :=
  ⟨decimal_ne_nil n, fun _ hc => isDigit_of_mem_decimal hc⟩

theorem isWhole_decimal (n : Nat) : IsWhole (decimal n) := by
  refine ⟨isDigits_decimal n, fun hhead => ?_⟩
  by_cases hn : n = 0
  · subst hn
    rfl
  · exact absurd hhead (head?_decimal hn)

theorem isWhole_of_head {text : List Char} (hdigits : IsDigits text)
    (hhead : text.head? ≠ some '0') : IsWhole text :=
  ⟨hdigits, fun hzero => absurd hzero hhead⟩

namespace IsDigits

variable {digits : List Char}

theorem isDigit_of_zeros {count : Nat} {c : Char} (hc : c ∈ List.replicate count '0') :
    c.isDigit = true := by
  rw [List.eq_of_mem_replicate hc]
  rfl

theorem zeros_append (hdigits : IsDigits digits) (count : Nat) :
    IsDigits (List.replicate count '0' ++ digits) :=
  ⟨List.append_ne_nil_of_right_ne_nil _ hdigits.1, List.forall_mem_append.mpr
    ⟨fun _ => isDigit_of_zeros, hdigits.2⟩⟩

theorem append_zeros (hdigits : IsDigits digits) (count : Nat) :
    IsDigits (digits ++ List.replicate count '0') :=
  ⟨List.append_ne_nil_of_left_ne_nil hdigits.1 _, List.forall_mem_append.mpr
    ⟨hdigits.2, fun _ => isDigit_of_zeros⟩⟩

theorem take (hdigits : IsDigits digits) {count : Nat} (hcount : 0 < count) :
    IsDigits (digits.take count) := by
  refine ⟨fun hnil => ?_, fun c hc => hdigits.2 c (List.mem_of_mem_take hc)⟩
  rcases List.take_eq_nil_iff.mp hnil with hzero | hnil
  · omega
  · exact hdigits.1 hnil

theorem drop (hdigits : IsDigits digits) {count : Nat} (hcount : count < digits.length) :
    IsDigits (digits.drop count) := by
  refine ⟨fun hnil => ?_, fun c hc => hdigits.2 c (List.mem_of_mem_drop hc)⟩
  have hle := List.drop_eq_nil_iff.mp hnil
  omega

end IsDigits

end UsageReport.Json.Numeral

namespace UsageReport.Binary64

open Text
open Json (Numeral)
open Json.Numeral (IsWhole IsDigits minusText isDigits_decimal isWhole_decimal isWhole_of_head)

/-- The digits before and after the point. -/
def positionalParts (digits : List Char) (point : Int) : List Char × List Char :=
  if digits.length ≤ point then
    (digits ++ List.replicate (point.toNat - digits.length) '0', ['0'])
  else if 0 < point then (digits.take point.toNat, digits.drop point.toNat)
  else (['0'], List.replicate (-point).toNat '0' ++ digits)

theorem positionalText_eq (digits : List Char) (point : Int) :
    positionalText ['.', '0'] digits point =
      (positionalParts digits point).1 ++ '.' :: (positionalParts digits point).2 := by
  unfold positionalText positionalParts
  split
  · rfl
  · split
    · rfl
    · simp

section Positional

variable {value : Nat} {point : Int}

theorem isWhole_positionalParts (hzero : value = 0 → point ≤ 1) :
    IsWhole (positionalParts (decimal value) point).1 := by
  have hdigits := isDigits_decimal value
  have hpos := List.length_pos_iff.mpr hdigits.1
  unfold positionalParts
  split
  · rename_i hlength
    rcases Nat.eq_zero_or_pos value with rfl | hvalue
    · -- The lone digit of zero has no zeros after it.
      have hone : point.toNat - (decimal 0).length = 0 := by
        have hpoint := hzero rfl
        omega
      simp only [hone, List.replicate_zero, List.append_nil]
      exact isWhole_decimal 0
    · refine isWhole_of_head (hdigits.append_zeros _) ?_
      rw [List.head?_append_of_ne_nil _ hdigits.1]
      exact head?_decimal (by omega)
  · split
    · rename_i hlength hpoint
      refine isWhole_of_head (hdigits.take (by omega)) ?_
      rw [List.head?_take, if_neg (by omega)]
      refine head?_decimal fun hvalue => ?_
      have hsmall := hzero hvalue
      have hone : (decimal value).length = 1 := by
        rw [hvalue]
        rfl
      omega
    · exact isWhole_decimal 0

theorem isDigits_positionalParts : IsDigits (positionalParts (decimal value) point).2 := by
  have hdigits := isDigits_decimal value
  unfold positionalParts
  split
  · exact isDigits_decimal 0
  · split
    · exact hdigits.drop (by omega)
    · exact hdigits.zeros_append _

theorem digitsValue_positionalParts_lt (hvalue : value < 10 ^ 17) (hpoint : point ≤ 16) :
    digitsValue ((positionalParts (decimal value) point).1 ++
      (positionalParts (decimal value) point).2) < 10 ^ 17 := by
  unfold positionalParts
  split
  · generalize hzeros : point.toNat - (decimal value).length = zeros
    have hlength := lt_pow_length_decimal value
    rw [List.append_assoc, ← List.replicate_succ', digitsValue_append,
      digitsFrom_replicate_zero, digitsValue_decimal]
    calc value * 10 ^ (zeros + 1)
        < 10 ^ (decimal value).length * 10 ^ (zeros + 1) :=
          Nat.mul_lt_mul_of_pos_right hlength (Nat.pow_pos (by decide))
      _ = 10 ^ ((decimal value).length + (zeros + 1)) := (Nat.pow_add ..).symm
      _ ≤ 10 ^ 17 := Nat.pow_le_pow_right (by decide) (by omega)
  · split
    · rwa [List.take_append_drop, digitsValue_decimal]
    · rw [← List.append_assoc, List.singleton_append, ← List.replicate_succ,
        digitsValue_replicate_zero_append]
      rwa [digitsValue_decimal]

theorem exists_positional_numeral (negative : Bool) (hvalue : value < 10 ^ 17)
    (hpoint : point ≤ 16) (hzero : value = 0 → point ≤ 1) :
    ∃ numeral : Numeral, numeral.Spelling
        (minusText negative ++ positionalText ['.', '0'] (decimal value) point) ∧
      ∃ real, numeral.number? = some (.real real) := by
  have hfraction : IsDigits (positionalParts (decimal value) point).2 := isDigits_positionalParts
  let numeral : Numeral := ⟨negative, (positionalParts (decimal value) point).1,
    some (positionalParts (decimal value) point).2, none⟩
  refine ⟨numeral, ?_, ?_⟩
  · rw [positionalText_eq]
    have hspelling : numeral.UnsignedSpelling _ :=
      ⟨isWhole_positionalParts hzero, .some hfraction, .none⟩
    rw [List.append_nil] at hspelling
    exact ⟨hspelling⟩
  · refine Numeral.exists_number?_eq_real rfl (Numeral.isSome_real?_of_negative ?_ ?_)
    · exact (digitsValue_positionalParts_lt hvalue hpoint).le.trans (by decide)
    · have hlength := List.length_pos_iff.mpr hfraction.1
      simp only [Numeral.scale, Numeral.exponentValue, numeral, Option.getD_some]
      omega

end Positional

def scientificFraction (digits : List Char) : Option (List Char) :=
  if digits.length ≤ 1 then none else some (digits.drop 1)

theorem getD_scientificFraction (digits : List Char) :
    (scientificFraction digits).getD [] = digits.drop 1 := by
  unfold scientificFraction
  split
  · rename_i hlength
    exact (List.drop_eq_nil_of_le hlength).symm
  · rfl

def scientificNumeral (negative : Bool) (digits : List Char) (leading : Int) : Numeral where
  negative := negative
  whole := digits.take 1
  fraction := scientificFraction digits
  exponent := some (decide (leading < 0), decimal leading.natAbs)

theorem spelling_scientificNumeral (negative : Bool) {digits : List Char} (leading : Int)
    (hdigits : IsDigits digits) :
    (scientificNumeral negative digits leading).Spelling
      (minusText negative ++ scientificText digits leading) := by
  have hwhole : IsWhole (digits.take 1) := by
    refine ⟨hdigits.take Nat.one_pos, fun hhead => ?_⟩
    cases digits with
    | nil => cases hhead
    | cons c digits => simpa using hhead
  have hfraction : Numeral.FractionSpelling (scientificFraction digits)
      (if digits.length ≤ 1 then [] else '.' :: digits.drop 1) := by
    unfold scientificFraction
    split
    · exact .none
    · exact .some (hdigits.drop (by omega))
  have hsign : Numeral.SignSpelling (decide (leading < 0)) [if leading < 0 then '-' else '+'] := by
    by_cases hnegative : leading < 0
    · rw [if_pos hnegative, decide_eq_true hnegative]
      exact .minus
    · rw [if_neg hnegative, decide_eq_false hnegative]
      exact .plus
  have hunsigned : (scientificNumeral negative digits leading).UnsignedSpelling _ :=
    ⟨hwhole, hfraction, .some (.inl rfl) hsign (isDigits_decimal leading.natAbs)⟩
  simpa [scientificText, scientificNumeral] using Numeral.Spelling.intro hunsigned

theorem digits_scientificNumeral (negative : Bool) (value : Nat) (leading : Int) :
    (scientificNumeral negative (decimal value) leading).digits = value := by
  rw [Numeral.digits, scientificNumeral, getD_scientificFraction, List.take_append_drop,
    digitsValue_decimal]

theorem scale_scientificNumeral (negative : Bool) (decimal : Decimal) :
    (scientificNumeral negative (Text.decimal decimal.digits) decimal.leadingExponent).scale =
      decimal.exponent := by
  have hpos := List.length_pos_iff.mpr (decimal_ne_nil decimal.digits)
  have hexponent : Numeral.exponentValue (some (Decidable.decide (decimal.leadingExponent < 0),
      Text.decimal decimal.leadingExponent.natAbs)) = decimal.leadingExponent := by
    simp only [Numeral.exponentValue, digitsValue_decimal, decide_eq_true_eq]
    split <;> omega
  rw [Numeral.scale, scientificNumeral, getD_scientificFraction, hexponent, List.length_drop,
    Decimal.leadingExponent]
  omega

theorem digits_shortestDecimal_lt (tie : Tie) (rank : Nat) :
    (shortestDecimal tie rank).digits < 10 ^ 17 := by
  obtain hzero | hfits := shortestDecimal_eq_zero_or_fits tie rank
  · rw [hzero]
    decide
  · exact hfits.digits_lt

theorem shortestDecimal_of_digits_eq_zero {tie : Tie} {rank : Nat}
    (hdigits : (shortestDecimal tie rank).digits = 0) : shortestDecimal tie rank = ⟨0, 0⟩ := by
  obtain hzero | hfits := shortestDecimal_eq_zero_or_fits tie rank
  · exact hzero
  · have hrank := hfits.rank_eq
    rw [Decimal.rank, Decimal.numerator, hdigits, Nat.zero_mul, nearestRank_zero] at hrank
    rw [← hrank]
    rfl

theorem exists_real_of_scientific {rank : Nat} (negative : Bool) (hrank : rank < infinityRank) :
    ∃ real, (scientificNumeral negative (decimal (shortestDecimal .toEven rank).digits)
      (shortestDecimal .toEven rank).leadingExponent).number? = some (.real real) := by
  have hdigits := digits_scientificNumeral negative (shortestDecimal .toEven rank).digits
    (shortestDecimal .toEven rank).leadingExponent
  have hscale := scale_scientificNumeral negative (shortestDecimal .toEven rank)
  have hfits : (shortestDecimal .toEven rank).digits ≤ greatestWord :=
    (digits_shortestDecimal_lt .toEven rank).le.trans (by decide)
  rw [← hdigits] at hfits
  refine Numeral.exists_number?_eq_real (by simp [scientificNumeral]) ?_
  rcases Int.lt_or_le (shortestDecimal .toEven rank).exponent 0 with hnegative | hpositive
  · exact Numeral.isSome_real?_of_negative hfits (hscale ▸ hnegative)
  · obtain ⟨power, hpower⟩ := Int.eq_ofNat_of_zero_le hpositive
    refine Numeral.isSome_real?_of_product hfits (hscale.trans hpower) fun hne => ?_
    rw [hdigits] at hne ⊢
    refine productRank_shortestDecimal_lt hrank ?_ hne
    rw [← hpower]

theorem leadingExponent_zero : (⟨0, 0⟩ : Decimal).leadingExponent = 0 := rfl

theorem leadingExponent_lt_of_positional {rank : Nat}
    (hpositional : rank = 0 ∨
      Layout.json.isPositional (shortestDecimal .toEven rank).leadingExponent = true) :
    (shortestDecimal .toEven rank).leadingExponent < 16 := by
  rcases hpositional with hzero | hpositional
  · rw [hzero, shortestDecimal, if_pos rfl, leadingExponent_zero]
    decide
  · simp only [Layout.isPositional, Layout.json, Bool.and_eq_true, decide_eq_true_eq] at hpositional
    exact hpositional.2

theorem text_eq (layout : Layout) (x : Binary64) :
    x.text layout = minusText x.negative ++
      if x.rank = 0 || layout.isPositional (shortestDecimal layout.tie x.rank).leadingExponent then
        positionalText layout.wholeEnding (decimal (shortestDecimal layout.tie x.rank).digits)
          ((shortestDecimal layout.tie x.rank).leadingExponent + 1)
      else
        scientificText (decimal (shortestDecimal layout.tie x.rank).digits)
          (shortestDecimal layout.tie x.rank).leadingExponent :=
  rfl

/-- The written form of a number is a numeral, and its value is a number. -/
theorem exists_numeral_text (x : Binary64) :
    ∃ numeral : Numeral, numeral.Spelling (x.text .json) ∧
      ∃ real, numeral.number? = some (.real real) := by
  rw [text_eq]
  split
  · rename_i hpositional
    rw [Bool.or_eq_true, decide_eq_true_eq] at hpositional
    have hleading := leadingExponent_lt_of_positional hpositional
    refine exists_positional_numeral x.negative (digits_shortestDecimal_lt _ _)
      (Int.add_one_le_of_lt hleading) ?_
    intro hdigits
    rw [shortestDecimal_of_digits_eq_zero hdigits, leadingExponent_zero]
    decide
  · exact ⟨_, spelling_scientificNumeral _ _ (isDigits_decimal _),
      exists_real_of_scientific _ x.rank_lt⟩

end UsageReport.Binary64
