import UsageReport.Json.Numeral
import UsageReport.Proofs.Digits
import UsageReport.Proofs.Rounding

/-!
The value of a numeral whose digits fit 64 bits. Divided by a power of ten it is never too large;
multiplied by one it is not if the product is not.
-/

namespace UsageReport.Json.Numeral

open Text Binary64

/-- The digits on both sides of the point as one number. -/
def digits (numeral : Numeral) : Nat := digitsValue (numeral.whole ++ numeral.fraction.getD [])

def exponentValue : Option (Bool × List Char) → Int
  | none => 0
  | some (negative, digits) => if negative then -digitsValue digits else digitsValue digits

/-- The power of ten that goes with the digits. -/
def scale (numeral : Numeral) : Int :=
  exponentValue numeral.exponent - (numeral.fraction.getD []).length

theorem foldl_addWhole {value : Nat} {digits : List Char} (exponent : Int)
    (hfits : digitsFrom value digits ≤ greatestWord) :
    digits.foldl Significand.addWhole ⟨value, exponent, false⟩ =
      ⟨digitsFrom value digits, exponent, false⟩ := by
  induction digits generalizing value with
  | nil => rfl
  | cons c digits ih =>
      rw [digitsFrom_cons] at hfits ⊢
      have hnext := (le_digitsFrom _ digits).trans hfits
      rw [List.foldl_cons, Significand.addWhole, if_pos (by simpa [Significand.fits] using hnext)]
      exact ih hfits

theorem foldl_addFraction {value : Nat} {digits : List Char} (exponent : Int)
    (hfits : digitsFrom value digits ≤ greatestWord) :
    digits.foldl Significand.addFraction ⟨value, exponent, false⟩ =
      ⟨digitsFrom value digits, exponent - digits.length, false⟩ := by
  induction digits generalizing value exponent with
  | nil => simp [digitsFrom]
  | cons c digits ih =>
      rw [digitsFrom_cons] at hfits ⊢
      have hnext := (le_digitsFrom _ digits).trans hfits
      rw [List.foldl_cons, Significand.addFraction,
        if_pos (by simpa [Significand.fits] using hnext), ih _ hfits, List.length_cons]
      congr 1
      simp only
      omega

theorem significand_eq {numeral : Numeral} (hfits : numeral.digits ≤ greatestWord) :
    numeral.significand = ⟨numeral.digits, numeral.scale, false⟩ := by
  rw [digits, digitsValue_append] at hfits
  have hwhole := (le_digitsFrom _ _).trans hfits
  rw [← digitsFrom_zero] at hwhole
  simp only [significand, foldl_addWhole 0 hwhole, digitsFrom_zero, foldl_addFraction 0 hfits]
  rw [digits, digitsValue_append, scale]
  cases numeral.exponent with
  | none => rfl
  | some exponent =>
      simp only [exponentValue]
      congr 1
      omega

theorem isSome_ofRatio?_iff {negative : Bool} {numerator denominator : Nat} :
    (ofRatio? negative numerator denominator).isSome ↔
      nearestRank numerator denominator < infinityRank := by
  simp only [ofRatio?]
  split <;> simp_all

theorem isSome_ofRatio?_zero (negative : Bool) : (ofRatio? negative 0 1).isSome :=
  isSome_ofRatio?_iff.mpr (by decide +kernel)

theorem powerUnits_mono {first second : Nat} (hle : first ≤ second) :
    powerUnits first ≤ powerUnits second :=
  nearestUnits_mono (by decide) (Nat.pow_le_pow_right (by decide) hle)

theorem unitsPerOne_pos : 0 < unitsPerOne := by decide +kernel

theorem powerUnits_zero : powerUnits 0 = unitsPerOne := by decide +kernel

theorem unitsPerOne_le_powerUnits (power : Nat) : unitsPerOne ≤ powerUnits power :=
  powerUnits_zero.symm.trans_le (powerUnits_mono (Nat.zero_le power))

theorem powerUnits_pos (power : Nat) : 0 < powerUnits power :=
  Nat.lt_of_lt_of_le unitsPerOne_pos (unitsPerOne_le_powerUnits power)

theorem unitsPerOne_lt_powerUnits : unitsPerOne < powerUnits greatestPower := by decide +kernel

/-- An upper bound of the digits that fit 64 bits, in the units of magnitudes. -/
def greatestMagnitude : Nat := 2 ^ (53 + 1085)

theorem greatestMagnitude_pos : 0 < greatestMagnitude := by decide +kernel

theorem nearestUnits_le_greatestMagnitude {digits : Nat} (hfits : digits ≤ greatestWord) :
    nearestUnits digits 1 ≤ greatestMagnitude := by
  refine nearestUnits_le_of_lt (by decide) ?_
  calc digits * unitsPerOne
      ≤ greatestWord * unitsPerOne := Nat.mul_le_mul_right _ hfits
    _ < 2 ^ (53 + 1085) * 1 := by decide +kernel

/-- However often it is divided, a magnitude of 64 bits stays below the greatest number. -/
theorem isSome_divideByPower (negative : Bool) {magnitude : Nat} (power : Nat)
    (hmagnitude : magnitude ≤ greatestMagnitude) :
    (divideByPower negative magnitude power).isSome := by
  fun_induction divideByPower negative magnitude power with
  | case1 magnitude power hpower =>
      have hpos := powerUnits_pos power
      have hlt : magnitude * unitsPerOne < 2 ^ (53 + 1086) * powerUnits power := by
        calc magnitude * unitsPerOne
            ≤ greatestMagnitude * powerUnits power :=
              Nat.mul_le_mul hmagnitude (unitsPerOne_le_powerUnits power)
          _ < 2 ^ (53 + 1086) * powerUnits power :=
              Nat.mul_lt_mul_of_pos_right (by decide +kernel) hpos
      rw [isSome_ofRatio?_iff]
      exact (nearestRank_le_of_lt hpos hlt).trans_lt (by decide)
  | case2 => exact isSome_ofRatio?_zero negative
  | case3 magnitude power _ _ ih =>
      have hlt : magnitude * unitsPerOne < greatestMagnitude * powerUnits greatestPower := by
        calc magnitude * unitsPerOne
            ≤ greatestMagnitude * unitsPerOne := Nat.mul_le_mul_right _ hmagnitude
          _ < greatestMagnitude * powerUnits greatestPower :=
              Nat.mul_lt_mul_of_pos_left unitsPerOne_lt_powerUnits greatestMagnitude_pos
      rw [greatestMagnitude] at ih hlt
      exact ih (nearestUnits_le_of_lt (powerUnits_pos _) hlt)

theorem isSome_real?_of_negative {numeral : Numeral} (hfits : numeral.digits ≤ greatestWord)
    (hscale : numeral.scale < 0) : numeral.real?.isSome := by
  simp only [real?, significand_eq hfits, if_pos hscale]
  exact isSome_divideByPower _ _ (nearestUnits_le_greatestMagnitude hfits)

/-- The rounded product of digits and a power of ten, as a rank. -/
def productRank (digits power : Nat) : Nat :=
  nearestRank (nearestUnits digits 1 * powerUnits power) (unitsPerOne * unitsPerOne)

theorem isSome_real?_of_product {numeral : Numeral} {power : Nat}
    (hfits : numeral.digits ≤ greatestWord) (hscale : numeral.scale = power)
    (hproduct : numeral.digits ≠ 0 →
      power ≤ greatestPower ∧ productRank numeral.digits power < infinityRank) :
    numeral.real?.isSome := by
  simp only [real?, significand_eq hfits, hscale, Int.natAbs_natCast]
  rw [if_neg (by omega)]
  split
  · exact isSome_ofRatio?_zero _
  · rename_i hmagnitude
    have hdigits : numeral.digits ≠ 0 := by
      intro hzero
      rw [hzero] at hmagnitude
      exact hmagnitude (by decide +kernel)
    rw [if_pos (hproduct hdigits).1]
    exact isSome_ofRatio?_iff.mpr (hproduct hdigits).2

/-- With a fraction or an exponent, a numeral is no integer. -/
theorem exists_number?_eq_real {numeral : Numeral}
    (hpart : numeral.fraction.isSome || numeral.exponent.isSome) (hreal : numeral.real?.isSome) :
    ∃ value, numeral.number? = some (.real value) := by
  obtain ⟨value, hvalue⟩ := Option.isSome_iff_exists.mp hreal
  exact ⟨value, by simp only [number?, integer?, if_pos hpart, hvalue, Option.map_some]⟩

def ofInt (value : Int) : Numeral := ⟨decide (value < 0), decimal value.natAbs, none, none⟩

theorem number?_ofInt {value : Int} (hleast : -2 ^ 63 ≤ value) (hgreatest : value ≤ greatestWord) :
    (ofInt value).number? = some (.integer value) := by
  have hinteger : (ofInt value).integer? = some value := by
    simp only [integer?, ofInt, digitsValue_decimal, Option.isSome_none, Bool.or_self,
      Bool.false_eq_true, if_false, decide_eq_true_eq, Bool.and_eq_true]
    have hpower : Nat.pow 2 63 = 2 ^ 63 := rfl
    split
    · rw [if_pos (by omega)]
      congr 1
      omega
    · rw [if_pos (by omega)]
      congr 1
      omega
  rw [number?, hinteger]

end UsageReport.Json.Numeral
