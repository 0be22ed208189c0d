import UsageReport.Binary64.Decimal
import UsageReport.Proofs.NumeralValue

/-!
What is known of the shortest decimal of a number: it rounds to the number and has at most
seventeen digits. So the two roundings of a reader, of the digits and of their product with a power
of ten, do not lead beyond the greatest number. This is close for the greatest number alone: the next
decimal of seventeen digits, which rounds to it as well, is already too large for the reader.
-/

namespace UsageReport.Binary64

open Text
open Json.Numeral (unitsPerOne_pos productRank powerUnits greatestPower powerUnits_mono)

theorem nearestRank_zero (denominator : Nat) : nearestRank 0 denominator = 0 := by
  simp +contextual [nearestRank, nearestQuotient]

/-- The digits of a quotient that is known to be below a power of ten, on a grid of decimals. -/
theorem scaled_div_step_lt {value unit guard length shrink stretch count : Nat} (hunit : 0 < unit)
    (hlength : value * Nat.pow 10 guard / unit < 10 ^ length)
    (hgrid : shrink + length = stretch + guard + count) :
    value * Nat.pow 10 shrink / (Nat.pow 10 stretch * unit) < 10 ^ count := by
  simp only [Nat.pow_eq] at hlength ⊢
  have hpos (power : Nat) : 0 < 10 ^ power := Nat.pow_pos (by decide)
  rw [Nat.div_lt_iff_lt_mul hunit] at hlength
  rw [Nat.div_lt_iff_lt_mul (Nat.mul_pos (hpos _) hunit)]
  refine Nat.lt_of_mul_lt_mul_right (a := 10 ^ guard) ?_
  calc value * 10 ^ shrink * 10 ^ guard
      = value * 10 ^ guard * 10 ^ shrink := Nat.mul_right_comm ..
    _ < 10 ^ length * unit * 10 ^ shrink := Nat.mul_lt_mul_of_pos_right hlength (hpos _)
    _ = 10 ^ (shrink + length) * unit := by rw [Nat.pow_add]; ring
    _ = 10 ^ count * (10 ^ stretch * unit) * 10 ^ guard := by
        rw [hgrid, Nat.pow_add, Nat.pow_add]; ring

theorem digits_below_lt (rank count : Nat) : (below rank count).digits < 10 ^ count := by
  have hlength := lt_pow_length_decimal (units rank * Nat.pow 10 400 / unitsPerOne)
  refine scaled_div_step_lt unitsPerOne_pos hlength ?_
  rw [lastExponent, leadingExponent]
  omega

theorem digits_next_lt {count : Nat} {decimal : Decimal} (hcount : 0 < count)
    (hdigits : decimal.digits < 10 ^ count) : (decimal.next count).digits < 10 ^ count := by
  have hone : 1 < 10 ^ count := Nat.one_lt_pow (by omega) (by decide)
  unfold Decimal.next
  split
  · exact hone
  · rename_i hfull
    exact Nat.lt_of_le_of_ne hdigits hfull

/-- A decimal for a number: it rounds to its rank and has at most so many digits. -/
structure Decimal.Fits (rank count : Nat) (decimal : Decimal) : Prop where
  rank_eq : decimal.rank = rank
  digits_lt : decimal.digits < 10 ^ count

theorem eq_of_pick? {lower upper decimal : Decimal} {lowerFits upperFits upperNearer : Bool}
    (hpick : lower.pick? upper lowerFits upperFits upperNearer = some decimal) :
    (lower = decimal ∧ lowerFits = true) ∨ (upper = decimal ∧ upperFits = true) := by
  cases lowerFits <;> cases upperFits <;> cases upperNearer <;>
    simp_all [Decimal.pick?]

theorem fits_decimalOfLength? {tie : Tie} {rank count : Nat} {decimal : Decimal}
    (hcount : 0 < count) (hdecimal : decimalOfLength? tie rank count = some decimal) :
    decimal.Fits rank count := by
  have hlower := digits_below_lt rank count
  rcases eq_of_pick? hdecimal with ⟨rfl, hrank⟩ | ⟨rfl, hrank⟩
  · exact ⟨beq_iff_eq.mp hrank, hlower⟩
  · exact ⟨beq_iff_eq.mp hrank, digits_next_lt hcount hlower⟩

theorem shortestDecimal_eq_zero_or_fits (tie : Tie) (rank : Nat) :
    shortestDecimal tie rank = ⟨0, 0⟩ ∨ (shortestDecimal tie rank).Fits rank 17 := by
  unfold shortestDecimal
  split
  · exact .inl rfl
  · cases hfound : (List.range 17).findSome? fun count => decimalOfLength? tie rank (count + 1) with
    | none => exact .inl rfl
    | some decimal =>
        obtain ⟨count, hcount, hdecimal⟩ := List.exists_of_findSome?_eq_some hfound
        obtain ⟨hrank, hdigits⟩ := fits_decimalOfLength? (Nat.succ_pos count) hdecimal
        refine .inr ⟨hrank, hdigits.trans_le (Nat.pow_le_pow_right (by decide) ?_)⟩
        exact List.mem_range.mp hcount

theorem productRank_mono {digits digits' power power' : Nat} (hdigits : digits ≤ digits')
    (hpower : power ≤ power') : productRank digits power ≤ productRank digits' power' :=
  nearestRank_mono (by decide +kernel)
    (Nat.mul_le_mul (nearestUnits_mono (by decide) hdigits) (powerUnits_mono hpower))

/-- With so few digits and such a power of ten a reader is far from the greatest number. -/
theorem productRank_lt_of_lt {digits power : Nat} (hdigits : digits ≤ 10 ^ 17)
    (hpower : power ≤ 291) : productRank digits power < infinityRank :=
  (productRank_mono hdigits hpower).trans_lt (by decide +kernel)

/-- The greatest digits that with a power of ten stay below the middle between the two greatest
numbers. -/
def greatestDigits (power : Nat) : Nat := (2 ^ 1024 - 3 * 2 ^ 970) / 10 ^ power

theorem productRank_greatestDigits :
    ∀ extra < 17, productRank (greatestDigits (292 + extra)) (292 + extra) < infinityRank := by
  decide +kernel

theorem le_nearestRank_greatestDigits :
    ∀ extra < 17, infinityRank - 1 ≤
      nearestRank ((greatestDigits (292 + extra) + 1) * Nat.pow 10 (292 + extra)) 1 := by
  decide +kernel

theorem infinityRank_le_nearestRank :
    infinityRank ≤ nearestRank (Nat.pow 10 (greatestPower + 1)) 1 := by
  decide +kernel

theorem shortestDecimal_greatest :
    shortestDecimal .toEven (infinityRank - 1) = ⟨17976931348623157, 292⟩ := by
  decide +kernel

theorem productRank_greatest : productRank 17976931348623157 292 < infinityRank := by
  decide +kernel

theorem rank_of_natCast {digits power : Nat} :
    (⟨digits, power⟩ : Decimal).rank = nearestRank (digits * Nat.pow 10 power) 1 := by
  have hzero : (-(power : Int)).toNat = 0 := by omega
  rw [Decimal.rank, Decimal.numerator, Decimal.denominator, Int.toNat_natCast, hzero]

theorem pow_le_mul_pow {digits least power : Nat} (hdigits : 0 < digits) (hpower : least ≤ power) :
    Nat.pow 10 least ≤ digits * Nat.pow 10 power :=
  (Nat.pow_le_pow_right (by decide) hpower).trans (Nat.le_mul_of_pos_left _ hdigits)

/-- Reading a whole number by its shortest decimal does not lead beyond the greatest number. -/
theorem productRank_shortestDecimal_lt {rank digits power : Nat} (hrank : rank < infinityRank)
    (hdecimal : shortestDecimal .toEven rank = ⟨digits, power⟩) (hdigits : digits ≠ 0) :
    power ≤ greatestPower ∧ productRank digits power < infinityRank := by
  obtain hzero | hfits := shortestDecimal_eq_zero_or_fits .toEven rank
  · rw [hdecimal] at hzero
    cases hzero
    exact absurd rfl hdigits
  rw [hdecimal] at hfits
  obtain ⟨hrounds, hfew⟩ := hfits
  rw [rank_of_natCast] at hrounds
  have hpower : power ≤ greatestPower := by
    by_contra hlarge
    have hnext : greatestPower + 1 ≤ power := by omega
    have hmono := nearestRank_mono Nat.one_pos (pow_le_mul_pow (Nat.pos_of_ne_zero hdigits) hnext)
    have hinfinity := infinityRank_le_nearestRank
    omega
  refine ⟨hpower, ?_⟩
  rcases Nat.lt_or_ge power 292 with hsmall | hlarge
  · exact productRank_lt_of_lt hfew.le (by omega)
  rcases Nat.eq_or_lt_of_le (Nat.le_sub_one_of_lt hrank) with hgreatest | hless
  · rw [hgreatest, shortestDecimal_greatest] at hdecimal
    rw [Decimal.mk.injEq] at hdecimal
    obtain ⟨rfl, hexponent⟩ := hdecimal
    obtain rfl : power = 292 := by omega
    exact productRank_greatest
  · obtain ⟨extra, rfl⟩ := Nat.exists_eq_add_of_le hlarge
    have hextra : extra < 17 := by
      rw [greatestPower] at hpower
      omega
    have hle : digits ≤ greatestDigits (292 + extra) := by
      by_contra hmore
      have hnext : greatestDigits (292 + extra) + 1 ≤ digits := by omega
      have hmono := nearestRank_mono Nat.one_pos
        (Nat.mul_le_mul_right (Nat.pow 10 (292 + extra)) hnext)
      have hbeyond := le_nearestRank_greatestDigits extra hextra
      omega
    exact (productRank_mono hle (Nat.le_refl _)).trans_lt
      (productRank_greatestDigits extra hextra)

end UsageReport.Binary64
