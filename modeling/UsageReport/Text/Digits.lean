/-!
Decimal digits and the natural numbers they write.
-/

namespace UsageReport.Text

/-- The greatest natural number of 64 bits. -/
def greatestWord : Nat := Nat.pow 2 64 - 1

theorem toNat_ofNat {n : Nat} (hfits : n ≤ greatestWord) : (UInt64.ofNat n).toNat = n :=
  UInt64.toNat_ofNat_of_lt' (Nat.lt_of_le_of_lt hfits (by decide))

def digitValue (c : Char) : Nat := c.toNat - '0'.toNat

/-- The value of a run of digits, the empty run being zero. -/
def digitsValue (digits : List Char) : Nat :=
  digits.foldl (fun value c => value * 10 + digitValue c) 0

def decimal (n : Nat) : List Char := Nat.toDigits 10 n

/-- Reads a 64-bit natural number: an optional plus sign and one or more digits, nothing else. -/
def word? (text : List Char) : Option Nat :=
  let digits := match text with
    | '+' :: rest => rest
    | _ => text
  if digits.isEmpty || !digits.all Char.isDigit then none
  else if digitsValue digits ≤ greatestWord then some (digitsValue digits)
  else none

end UsageReport.Text
