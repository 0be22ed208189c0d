import Mathlib.Algebra.Order.Ring.Nat
import Mathlib.Tactic.Ring
import UsageReport.Binary64.Basic

/-!
Rounding keeps order: a greater quotient has no lesser rank and no lesser magnitude. A quotient
below a power of two rounds to that power at most.
-/

namespace UsageReport.Binary64

theorem nearestQuotient_le_succ (numerator denominator : Nat) :
    nearestQuotient numerator denominator ≤ numerator / denominator + 1 := by
  simp only [nearestQuotient]
  split <;> omega

theorem le_nearestQuotient {numerator denominator least : Nat} (hpos : 0 < denominator)
    (hle : least * denominator ≤ numerator) : least ≤ nearestQuotient numerator denominator := by
  have hdiv : least ≤ numerator / denominator := (Nat.le_div_iff_mul_le hpos).mpr hle
  simp only [nearestQuotient]
  split <;> omega

theorem nearestQuotient_mono {first second denominator : Nat} (hpos : 0 < denominator)
    (hle : first ≤ second) :
    nearestQuotient first denominator ≤ nearestQuotient second denominator := by
  have hdiv : first / denominator ≤ second / denominator := Nat.div_le_div_right hle
  rcases Nat.eq_or_lt_of_le hdiv with hsame | hless
  · -- The quotients are the same, so the remainders are in the same order.
    have hfirst := Nat.div_add_mod first denominator
    have hsecond := Nat.div_add_mod second denominator
    rw [hsame] at hfirst
    have hmod : first % denominator ≤ second % denominator := by omega
    simp only [nearestQuotient, hsame, Bool.or_eq_true, Bool.and_eq_true, beq_iff_eq,
      decide_eq_true_eq]
    split <;> split <;> omega
  · exact (nearestQuotient_le_succ first denominator).trans
      (le_nearestQuotient hpos ((Nat.le_div_iff_mul_le hpos).mp hless))

/-- The power of two by which the neighbours of a quotient are further apart than those of the
smallest ones. -/
def spacing (numerator denominator : Nat) : Nat :=
  (numerator * unitsPerOne / denominator).log2 + 1 - 53

theorem nearestRank_eq (numerator denominator : Nat) :
    nearestRank numerator denominator =
      spacing numerator denominator * binade +
        nearestQuotient (numerator * unitsPerOne) (denominator * 2 ^ spacing numerator denominator) :=
  rfl

theorem two_pow_eq_binade (exponent : Nat) : 2 ^ (52 + exponent) = binade * 2 ^ exponent :=
  Nat.pow_add 2 52 exponent

theorem log2_mono {first second : Nat} (hle : first ≤ second) : first.log2 ≤ second.log2 := by
  rcases Nat.eq_zero_or_pos first with rfl | hpos
  · simp
  · rw [Nat.le_log2 (by omega)]
    exact (Nat.log2_self_le (by omega)).trans hle

section Bounds

variable {numerator denominator : Nat}

theorem spacing_mono {first second : Nat} (hle : first ≤ second) :
    spacing first denominator ≤ spacing second denominator := by
  have hlog := log2_mono (Nat.div_le_div_right (Nat.mul_le_mul_right unitsPerOne hle)
    (c := denominator))
  unfold spacing
  omega

/-- A rounded quotient has at most 53 bits, or is the next power of two. -/
theorem nearestRank_le_spacing :
    nearestRank numerator denominator ≤ (spacing numerator denominator + 2) * binade := by
  have hlog : numerator * unitsPerOne / denominator <
      2 ^ (53 + spacing numerator denominator) := by
    refine Nat.lt_of_lt_of_le Nat.lt_log2_self (Nat.pow_le_pow_right (by omega) ?_)
    unfold spacing
    omega
  have hquotient : numerator * unitsPerOne / (denominator * 2 ^ spacing numerator denominator) <
      2 * binade := by
    rw [← Nat.div_div_eq_div_mul, Nat.div_lt_iff_lt_mul (Nat.two_pow_pos _)]
    exact hlog.trans_eq (Nat.pow_add 2 53 _)
  have hnearest := nearestQuotient_le_succ (numerator * unitsPerOne)
    (denominator * 2 ^ spacing numerator denominator)
  rw [nearestRank_eq, Nat.add_mul]
  omega

/-- A quotient whose neighbours are further apart than the smallest ones has at least 53 bits. -/
theorem le_nearestRank_spacing (hpos : 0 < denominator)
    (hspacing : 0 < spacing numerator denominator) :
    (spacing numerator denominator + 1) * binade ≤ nearestRank numerator denominator := by
  have hlog : 2 ^ (52 + spacing numerator denominator) ≤
      numerator * unitsPerOne / denominator := by
    have hexact : 52 + spacing numerator denominator =
        (numerator * unitsPerOne / denominator).log2 := by
      unfold spacing at hspacing ⊢
      omega
    rw [hexact]
    refine Nat.log2_self_le fun hzero => ?_
    rw [spacing, hzero] at hspacing
    cases hspacing
  have hnearest : binade ≤ nearestQuotient (numerator * unitsPerOne)
      (denominator * 2 ^ spacing numerator denominator) := by
    refine le_nearestQuotient (Nat.mul_pos hpos (Nat.two_pow_pos _)) ?_
    have hmul := (Nat.le_div_iff_mul_le hpos).mp hlog
    rwa [two_pow_eq_binade, Nat.mul_assoc, Nat.mul_comm (2 ^ _)] at hmul
  rw [nearestRank_eq, Nat.add_mul]
  omega

theorem nearestRank_mono {first second : Nat} (hpos : 0 < denominator) (hle : first ≤ second) :
    nearestRank first denominator ≤ nearestRank second denominator := by
  have hspacing : spacing first denominator ≤ spacing second denominator := spacing_mono hle
  rcases Nat.eq_or_lt_of_le hspacing with hsame | hless
  · rw [nearestRank_eq, nearestRank_eq, hsame]
    exact Nat.add_le_add_left (nearestQuotient_mono (Nat.mul_pos hpos (Nat.two_pow_pos _))
      (Nat.mul_le_mul_right _ hle)) _
  · calc nearestRank first denominator
        ≤ (spacing first denominator + 2) * binade := nearestRank_le_spacing
      _ ≤ (spacing second denominator + 1) * binade := Nat.mul_le_mul_right _ (by omega)
      _ ≤ nearestRank second denominator := le_nearestRank_spacing hpos (by omega)

/-- A quotient that is less than a power of two has a rank of at most that power. -/
theorem nearestRank_le_of_lt {exponent : Nat} (hpos : 0 < denominator)
    (hlt : numerator * unitsPerOne < 2 ^ (53 + exponent) * denominator) :
    nearestRank numerator denominator ≤ (exponent + 2) * binade := by
  have hspacing : spacing numerator denominator ≤ exponent := by
    have hdiv : numerator * unitsPerOne / denominator < 2 ^ (53 + exponent) :=
      (Nat.div_lt_iff_lt_mul hpos).mpr hlt
    unfold spacing
    rcases Nat.eq_zero_or_pos (numerator * unitsPerOne / denominator) with hzero | hquotient
    · simp [hzero]
    · have hlog := (Nat.log2_lt (by omega)).mpr hdiv
      omega
  exact (nearestRank_le_spacing).trans (Nat.mul_le_mul_right _ (by omega))

end Bounds

theorem binade_pos : 0 < binade := Nat.two_pow_pos 52

/-- The first rank of a binade is a power of two. -/
theorem units_mul_binade (exponent : Nat) : units ((exponent + 1) * binade) = binade * 2 ^ exponent := by
  have hge : ¬(exponent + 1) * binade < binade := by
    rw [Nat.add_mul]
    omega
  rw [units, if_neg hge, Nat.mul_mod_left, Nat.mul_div_cancel _ binade_pos]
  rfl

theorem units_of_le {rank : Nat} (hle : binade ≤ rank) :
    units rank = (binade + rank % binade) * 2 ^ (rank / binade - 1) :=
  if_neg (by omega)

theorem units_mono {first second : Nat} (hle : first ≤ second) : units first ≤ units second := by
  rcases Nat.lt_or_ge second binade with hsecond | hsecond
  · rw [units, units, if_pos hsecond, if_pos (by omega)]
    exact hle
  rw [units_of_le hsecond]
  rcases Nat.lt_or_ge first binade with hfirst | hfirst
  · rw [units, if_pos hfirst]
    exact (by omega : first ≤ binade + second % binade).trans
      (Nat.le_mul_of_pos_right _ (Nat.two_pow_pos _))
  rw [units_of_le hfirst]
  rcases Nat.eq_or_lt_of_le (Nat.div_le_div_right hle (c := binade)) with hsame | hless
  · have hone := Nat.div_add_mod first binade
    have htwo := Nat.div_add_mod second binade
    rw [hsame] at hone ⊢
    exact Nat.mul_le_mul_right _ (by omega)
  · -- The binade of the first ends where the next one starts.
    have hpos : 0 < first / binade := Nat.div_pos hfirst binade_pos
    have hpower : 2 ^ (first / binade - 1) * 2 ≤ 2 ^ (second / binade - 1) := by
      rw [← Nat.pow_succ]
      exact Nat.pow_le_pow_right (by omega) (by omega)
    have hmod := Nat.mod_lt first binade_pos
    calc (binade + first % binade) * 2 ^ (first / binade - 1)
        ≤ 2 * binade * 2 ^ (first / binade - 1) := Nat.mul_le_mul_right _ (by omega)
      _ = binade * (2 ^ (first / binade - 1) * 2) := by ring
      _ ≤ (binade + second % binade) * 2 ^ (second / binade - 1) :=
          Nat.mul_le_mul (by omega) hpower

theorem nearestUnits_mono {first second denominator : Nat} (hpos : 0 < denominator)
    (hle : first ≤ second) : nearestUnits first denominator ≤ nearestUnits second denominator :=
  units_mono (nearestRank_mono hpos hle)

theorem nearestUnits_le_of_lt {numerator denominator exponent : Nat} (hpos : 0 < denominator)
    (hlt : numerator * unitsPerOne < 2 ^ (53 + exponent) * denominator) :
    nearestUnits numerator denominator ≤ 2 ^ (53 + exponent) := by
  refine (units_mono (nearestRank_le_of_lt hpos hlt)).trans_eq ?_
  rw [units_mul_binade (exponent + 1), ← two_pow_eq_binade]
  congr 1
  omega

end UsageReport.Binary64
