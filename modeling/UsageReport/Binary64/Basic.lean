/-!
Finite binary64 numbers, held by their place on the grid: the non-negative ones are counted from
zero up, so that neighbours have consecutive ranks and the rank is the bit pattern without the
sign.

Magnitudes are measured exactly, in units of `2 ^ -1074`, the distance between the two smallest.
-/

namespace UsageReport.Binary64

/-- So many ranks in a row have neighbours at the same distance. -/
def binade : Nat := Nat.pow 2 52

/-- The rank at which the finite numbers end. -/
def infinityRank : Nat := 2047 * binade

/-- So many units make one. -/
def unitsPerOne : Nat := Nat.pow 2 1074

/-- The magnitude of a rank. The distance between neighbours doubles with every binade after the
second. -/
def units (rank : Nat) : Nat :=
  if rank < binade then rank
  else (binade + rank % binade) * Nat.pow 2 (rank / binade - 1)

/-- The natural number nearest to a quotient; of two equally near ones, the even one. -/
def nearestQuotient (numerator denominator : Nat) : Nat :=
  let quotient := numerator / denominator
  let twice := 2 * (numerator % denominator)
  if twice < denominator || (twice == denominator && quotient % 2 == 0) then quotient
  else quotient + 1

/-- The rank nearest to a quotient, as if there were no greatest number. The spacing is chosen so
that the rounded quotient has at most 53 bits, and a carry into the 54th is the next rank. -/
def nearestRank (numerator denominator : Nat) : Nat :=
  let scaled := numerator * unitsPerOne
  let spacing := (scaled / denominator).log2 + 1 - 53
  spacing * binade + nearestQuotient scaled (denominator * Nat.pow 2 spacing)

end Binary64

/-- A finite binary64 number. -/
structure Binary64 where
  negative : Bool
  rank : Nat
  rank_lt : rank < Binary64.infinityRank
deriving DecidableEq

namespace Binary64

def zero : Binary64 := ⟨false, 0, by decide⟩

instance : Inhabited Binary64 := ⟨zero⟩

/-- The number nearest to a quotient, if the quotient does not round beyond the greatest. -/
def ofRatio? (negative : Bool) (numerator denominator : Nat) : Option Binary64 :=
  let rank := nearestRank numerator denominator
  if h : rank < infinityRank then some ⟨negative, rank, h⟩ else none

/-- The number nearest to a quotient; the greatest number stands for all that lies beyond it. -/
def ofRatio (negative : Bool) (numerator denominator : Nat) : Binary64 :=
  ⟨negative, min (nearestRank numerator denominator) (infinityRank - 1), by
    have : infinityRank - 1 < infinityRank := by decide
    omega⟩

/-- The magnitude nearest to a quotient, in units of `2 ^ -1074`, as if there were no greatest. -/
def nearestUnits (numerator denominator : Nat) : Nat :=
  units (nearestRank numerator denominator)

/-- The product of two magnitudes, both in units of `2 ^ -1074`, rounded. -/
def product (a b : Nat) : Nat := nearestUnits (a * b) (unitsPerOne * unitsPerOne)

/-- The sign bit, eleven bits of exponent and fifty-two of fraction. -/
def bits (x : Binary64) : Nat :=
  (if x.negative then Nat.pow 2 63 else 0) + x.rank

/-- Sixteen hexadecimal digits. -/
def bitsText (x : Binary64) : String :=
  let digits := Nat.toDigits 16 x.bits
  String.ofList (List.replicate (16 - digits.length) '0' ++ digits)

end UsageReport.Binary64
