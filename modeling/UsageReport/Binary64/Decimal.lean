import UsageReport.Binary64.Basic
import UsageReport.Text.Digits

/-!
The shortest decimal that reads back as a given binary64 number, and its two written layouts. Which
decimal is chosen is decided by exact integer arithmetic: among the decimals with the fewest digits
that round to the number, the nearest one.
-/

namespace UsageReport.Binary64

/-- The decimal `digits * 10 ^ exponent`. -/
structure Decimal where
  digits : Nat
  exponent : Int
deriving DecidableEq

namespace Decimal

def numerator (d : Decimal) : Nat := d.digits * Nat.pow 10 d.exponent.toNat

def denominator (d : Decimal) : Nat := Nat.pow 10 (-d.exponent).toNat

/-- The rank of the number that the decimal rounds to. -/
def rank (d : Decimal) : Nat := nearestRank d.numerator d.denominator

/-- The exponent of the leading digit in scientific notation. -/
def leadingExponent (d : Decimal) : Int :=
  d.exponent + (Text.decimal d.digits).length - 1

end Decimal

/-- What becomes of a number halfway between two shortest decimals. -/
inductive Tie where
  | awayFromZero
  | toEven
deriving DecidableEq

/-- The power of ten of the first significant digit. The scaling by `10 ^ 400` brings even the
smallest positive number above one. -/
def leadingExponent (rank : Nat) : Int :=
  ((Text.decimal (units rank * Nat.pow 10 400 / unitsPerOne)).length : Int) - 401

/-- The exponent of the last of so many digits of a number. -/
def lastExponent (rank count : Nat) : Int := leadingExponent rank - count + 1

/-- A number as a whole number of units, on a scale where the grid of so many digits has whole
numbers too. -/
def scaled (rank count : Nat) : Nat := units rank * Nat.pow 10 (-lastExponent rank count).toNat

/-- The distance of neighbours on the grid of so many digits, on the same scale. -/
def gridStep (rank count : Nat) : Nat :=
  Nat.pow 10 (lastExponent rank count).toNat * unitsPerOne

/-- The greatest decimal on the grid of so many digits that is not above a number. -/
def below (rank count : Nat) : Decimal :=
  ⟨scaled rank count / gridStep rank count, lastExponent rank count⟩

/-- The next decimal on the grid of so many digits. -/
def Decimal.next (count : Nat) (d : Decimal) : Decimal :=
  if d.digits + 1 = Nat.pow 10 count then ⟨1, d.exponent + count⟩ else ⟨d.digits + 1, d.exponent⟩

/-- Whether the next decimal on the grid is to be taken for a number, if both will do. -/
def isNextNearer (tie : Tie) (rank count : Nat) : Bool :=
  let digits := (below rank count).digits
  let middle := (2 * digits + 1) * gridStep rank count
  middle < 2 * scaled rank count ||
    (middle == 2 * scaled rank count && (tie == .awayFromZero || digits % 2 == 1))

/-- Of two decimals that enclose a number the one to be taken, if any of them will do. -/
def Decimal.pick? (lower upper : Decimal) (lowerFits upperFits upperNearer : Bool) :
    Option Decimal :=
  match lowerFits, upperFits with
  | true, true => some (if upperNearer then upper else lower)
  | true, false => some lower
  | false, true => some upper
  | false, false => none

/-- The nearest decimal of so many digits that reads back as the rank, if there is one. It is one of
the two that enclose the number on the grid of that many digits. -/
def decimalOfLength? (tie : Tie) (rank count : Nat) : Option Decimal :=
  let lower := below rank count
  let upper := lower.next count
  lower.pick? upper (lower.rank == rank) (upper.rank == rank) (isNextNearer tie rank count)

/-- Seventeen digits always suffice. -/
def shortestDecimal (tie : Tie) (rank : Nat) : Decimal :=
  if rank = 0 then ⟨0, 0⟩
  else ((List.range 17).findSome? fun count => decimalOfLength? tie rank (count + 1)).getD ⟨0, 0⟩

/-- How a number is laid out: the leading exponents written without an exponent (all of them if
absent), what follows a whole number, and how ties between shortest decimals are broken. -/
structure Layout where
  positional : Option (Int × Int)
  wholeEnding : List Char
  tie : Tie

namespace Layout

/-- Never an exponent, and nothing after a whole number. -/
def plain : Layout := ⟨none, [], .awayFromZero⟩

/-- An exponent below `10 ^ -5` and from `10 ^ 16` on, and whole numbers with one decimal place. -/
def json : Layout := ⟨some (-5, 16), ['.', '0'], .toEven⟩

def isPositional (layout : Layout) (leading : Int) : Bool :=
  match layout.positional with
  | none => true
  | some (first, limit) => first ≤ leading && leading < limit

end Layout

/-- Digits with a point after as many of them as `point` says, padded with zeros where there are
none. -/
def positionalText (wholeEnding digits : List Char) (point : Int) : List Char :=
  if digits.length ≤ point then
    digits ++ List.replicate (point.toNat - digits.length) '0' ++ wholeEnding
  else if 0 < point then
    digits.take point.toNat ++ '.' :: digits.drop point.toNat
  else
    ['0', '.'] ++ List.replicate (-point).toNat '0' ++ digits

def scientificText (digits : List Char) (leading : Int) : List Char :=
  digits.take 1 ++ (if digits.length ≤ 1 then [] else '.' :: digits.drop 1) ++
    ['e', if leading < 0 then '-' else '+'] ++ Text.decimal leading.natAbs

def text (layout : Layout) (x : Binary64) : List Char :=
  let decimal := shortestDecimal layout.tie x.rank
  let digits := Text.decimal decimal.digits
  let leading := decimal.leadingExponent
  (if x.negative then ['-'] else []) ++
    if x.rank = 0 || layout.isPositional leading then
      positionalText layout.wholeEnding digits (leading + 1)
    else scientificText digits leading

end UsageReport.Binary64
