import UsageReport.Binary64.Basic
import UsageReport.Json.Failure
import UsageReport.Text.Digits

/-!
The written form of a number and its value.

A numeral without fraction and exponent that fits a 64-bit integer is that integer. Any other is a
binary64 number, reached in two roundings: of the leading digits that fit 64 bits, and of their
product or quotient with a power of ten.
-/

namespace UsageReport.Json

inductive Number where
  | integer (value : Int)
  | real (value : Binary64)
deriving DecidableEq

structure Numeral where
  negative : Bool
  whole : List Char
  fraction : Option (List Char)
  /-- Whether the exponent is negative, and its digits. -/
  exponent : Option (Bool × List Char)
deriving DecidableEq

namespace Numeral

/-- A numeral cut short by the end of the text: a reader who skips it calls it malformed. -/
def cutShort : Fault := ⟨.ended, some .malformed⟩

/-- One or more digits. -/
def scanDigits (text : List Char) : Except Fault (List Char × List Char) :=
  match text.takeWhile Char.isDigit with
  | [] => .error (if text.isEmpty then cutShort else .final .malformed)
  | digits => .ok (digits, text.dropWhile Char.isDigit)

/-- The digits before the point: a zero stands alone. -/
def scanWhole (text : List Char) : Except Fault (List Char × List Char) :=
  match text with
  | '0' :: c :: rest =>
    if c.isDigit then .error (.final .malformed) else .ok (['0'], c :: rest)
  | _ => scanDigits text

def scanFraction (text : List Char) : Except Fault (Option (List Char) × List Char) :=
  match text with
  | '.' :: rest => (scanDigits rest).map fun (digits, rest) => (some digits, rest)
  | _ => .ok (none, text)

/-- Whether a minus sign comes first, and the text after the sign, if there is one. -/
def splitSign : List Char → Bool × List Char
  | '-' :: rest => (true, rest)
  | '+' :: rest => (false, rest)
  | text => (false, text)

def scanExponent (text : List Char) : Except Fault (Option (Bool × List Char) × List Char) :=
  match text with
  | c :: rest =>
    if c == 'e' || c == 'E' then
      (scanDigits (splitSign rest).2).map fun (digits, after) =>
        (some ((splitSign rest).1, digits), after)
    else .ok (none, text)
  | [] => .ok (none, text)

/-- Reads the longest numeral at the start of a text, its sign already taken. -/
def scanUnsigned (negative : Bool) (text : List Char) : Except Fault (Numeral × List Char) := do
  let (whole, rest) ← scanWhole text
  let (fraction, rest) ← scanFraction rest
  let (exponent, rest) ← scanExponent rest
  return (⟨negative, whole, fraction, exponent⟩, rest)

theorem length_scanDigits_lt {text : List Char} {found : List Char × List Char}
    (h : scanDigits text = .ok found) : found.2.length < text.length := by
  unfold scanDigits at h
  split at h
  · cases h
  · rename_i present
    cases h
    have all := congrArg List.length
      (@List.takeWhile_append_dropWhile _ Char.isDigit text)
    have := List.length_pos_iff.mpr present
    rw [List.length_append] at all
    simp only
    omega

theorem length_scanWhole_lt {text : List Char} {found : List Char × List Char}
    (h : scanWhole text = .ok found) : found.2.length < text.length := by
  unfold scanWhole at h
  split at h
  · split at h
    · cases h
    · cases h
      exact Nat.lt_succ_self _
  · exact length_scanDigits_lt h

theorem length_scanFraction_le {text : List Char} {found : Option (List Char) × List Char}
    (h : scanFraction text = .ok found) : found.2.length ≤ text.length := by
  unfold scanFraction at h
  split at h
  · rename_i digits
    cases scanned : scanDigits digits with
    | error fault => simp [scanned, Except.map] at h
    | ok split =>
        simp only [scanned, Except.map, Except.ok.injEq] at h
        have := length_scanDigits_lt scanned
        rw [← h, List.length_cons]
        simp only
        omega
  · cases h
    exact Nat.le_refl _

theorem length_splitSign_le (text : List Char) : (splitSign text).2.length ≤ text.length := by
  unfold splitSign
  split <;> simp

theorem length_scanExponent_le {text : List Char} {found : Option (Bool × List Char) × List Char}
    (h : scanExponent text = .ok found) : found.2.length ≤ text.length := by
  unfold scanExponent at h
  split at h
  · rename_i c after
    split at h
    · have := length_splitSign_le after
      cases scanned : scanDigits (splitSign after).2 with
      | error fault => simp [scanned, Except.map] at h
      | ok split =>
          simp only [scanned, Except.map, Except.ok.injEq] at h
          have := length_scanDigits_lt scanned
          rw [← h, List.length_cons]
          simp only
          omega
    · cases h
      exact Nat.le_refl _
  · cases h
    exact Nat.le_refl _

theorem length_scanUnsigned_lt {negative : Bool} {text : List Char}
    {found : Numeral × List Char} (h : scanUnsigned negative text = .ok found) :
    found.2.length < text.length := by
  simp only [scanUnsigned, bind, Except.bind, pure, Except.pure] at h
  split at h
  · cases h
  · rename_i whole wholeScanned
    split at h
    · cases h
    · rename_i fraction fractionScanned
      split at h
      · cases h
      · rename_i exponent exponentScanned
        cases h
        have := length_scanWhole_lt wholeScanned
        have := length_scanFraction_le fractionScanned
        have := length_scanExponent_le exponentScanned
        simp only
        omega

/-- The value as an integer of 64 bits, with or without a sign bit. Zero has no negative. -/
def integer? (numeral : Numeral) : Option Int :=
  if numeral.fraction.isSome || numeral.exponent.isSome then none
  else
    let value := Text.digitsValue numeral.whole
    if numeral.negative then
      if 0 < value && value ≤ Nat.pow 2 63 then some (-(value : Int)) else none
    else if value ≤ Text.greatestWord then some value else none

/-- Leading digits that fit 64 bits, times a power of ten. -/
structure Significand where
  digits : Nat
  exponent : Int
  full : Bool

namespace Significand

def fits (significand : Significand) (c : Char) : Bool :=
  !significand.full && significand.digits * 10 + Text.digitValue c ≤ Text.greatestWord

/-- A digit before the point that does not fit still counts as a power of ten. -/
def addWhole (significand : Significand) (c : Char) : Significand :=
  if significand.fits c then
    { significand with digits := significand.digits * 10 + Text.digitValue c }
  else { significand with exponent := significand.exponent + 1, full := true }

/-- A digit after the point that does not fit is dropped, and all after it. -/
def addFraction (significand : Significand) (c : Char) : Significand :=
  if significand.fits c then
    ⟨significand.digits * 10 + Text.digitValue c, significand.exponent - 1, false⟩
  else { significand with full := true }

end Significand

def significand (numeral : Numeral) : Significand :=
  let whole := numeral.whole.foldl Significand.addWhole ⟨0, 0, false⟩
  let all := (numeral.fraction.getD []).foldl Significand.addFraction { whole with full := false }
  match numeral.exponent with
  | none => all
  | some (negative, digits) =>
    let shift : Int := Text.digitsValue digits
    { all with exponent := all.exponent + if negative then -shift else shift }

/-- The greatest power of ten that is a binary64 number. -/
def greatestPower : Nat := 308

/-- A power of ten, rounded, in the units of magnitudes. -/
def powerUnits (power : Nat) : Nat := Binary64.nearestUnits (Nat.pow 10 power) 1

/-- Divides a magnitude by a power of ten, by the greatest one first for as long as it takes. -/
def divideByPower (negative : Bool) (magnitude power : Nat) : Option Binary64 :=
  if power ≤ greatestPower then
    Binary64.ofRatio? negative magnitude (powerUnits power)
  else if magnitude = 0 then Binary64.ofRatio? negative 0 1
  else
    divideByPower negative
      (Binary64.nearestUnits magnitude (powerUnits greatestPower))
      (power - greatestPower)
termination_by power
decreasing_by
  simp only [greatestPower] at *
  omega

/-- The value as a binary64 number, if it does not lie beyond them. -/
def real? (numeral : Numeral) : Option Binary64 :=
  let ⟨digits, exponent, _⟩ := numeral.significand
  let magnitude := Binary64.nearestUnits digits 1
  if exponent < 0 then divideByPower numeral.negative magnitude exponent.natAbs
  else if magnitude = 0 then Binary64.ofRatio? numeral.negative 0 1
  else if exponent.natAbs ≤ greatestPower then
    Binary64.ofRatio? numeral.negative
      (magnitude * powerUnits exponent.natAbs) (Binary64.unitsPerOne * Binary64.unitsPerOne)
  else none

def number? (numeral : Numeral) : Option Number :=
  match numeral.integer? with
  | some value => some (.integer value)
  | none => numeral.real?.map .real

end UsageReport.Json.Numeral
