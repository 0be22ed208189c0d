import UsageReport.Binary64.Decimal
import UsageReport.Text.Digits
import UsageReport.Text.Quoted

/-!
Durations such as `300ms`, `-1.5h` or `2h45m`: an optional sign, then one or more groups of a
decimal number and a unit. The text `0` needs no unit.

The groups are read from the left and the first one that cannot be accepted decides the error. The
sum is exact; only the fractional part of a group is a product of binary64 numbers, cut to whole
nanoseconds (`fractionNanoseconds`).
-/

namespace UsageReport.Duration

inductive TimeUnit where
  | nanosecond
  | microsecond
  | millisecond
  | second
  | minute
  | hour
deriving DecidableEq

namespace TimeUnit

/-- Both the micro sign and the Greek letter mu are written for a microsecond. -/
def ofText? (text : List Char) : Option TimeUnit :=
  match text with
  | ['n', 's'] => some .nanosecond
  | ['u', 's'] => some .microsecond
  | ['\u00b5', 's'] => some .microsecond
  | ['\u03bc', 's'] => some .microsecond
  | ['m', 's'] => some .millisecond
  | ['s'] => some .second
  | ['m'] => some .minute
  | ['h'] => some .hour
  | _ => none

def nanoseconds : TimeUnit → Nat
  | .nanosecond => 1
  | .microsecond => 1000
  | .millisecond => 1000000
  | .second => 1000000000
  | .minute => 60 * 1000000000
  | .hour => 60 * 60 * 1000000000

end TimeUnit

/-- Why a text is no duration. -/
inductive Fault where
  | malformed
  | missingUnit
  | unknownUnit (unit : List Char)
  | outOfRange
deriving DecidableEq

/-- A fault together with the whole text, its sign included. -/
structure Error where
  fault : Fault
  text : String
deriving DecidableEq

namespace Error

def message (error : Error) : String :=
  let text := Text.quoted error.text
  match error.fault with
  | .malformed => "invalid duration " ++ text
  | .missingUnit => "missing unit in duration " ++ text
  | .unknownUnit unit =>
    "unknown unit " ++ Text.quoted (String.ofList unit) ++ " in duration " ++ text
  | .outOfRange => "invalid duration " ++ text ++ ": value out of range"

end Error

/-- The greatest duration, in nanoseconds. -/
def greatest : Nat := Nat.pow 2 63 - 1

/-- A number and the text that stands where its unit should be. -/
structure Group where
  whole : List Char
  fraction : List Char
  unit : List Char
deriving DecidableEq

def isUnitCharacter (c : Char) : Bool := !(c.isDigit || c == '.')

/-- The digits after a point, if a point comes first, and the rest. -/
def splitFraction : List Char → List Char × List Char
  | '.' :: rest => (rest.takeWhile Char.isDigit, rest.dropWhile Char.isDigit)
  | text => ([], text)

namespace Group

/-- The first group of a text and what follows it. The unit is the longest run of characters that
are neither digits nor points. -/
def split (text : List Char) : Group × List Char :=
  let (fraction, rest) := splitFraction (text.dropWhile Char.isDigit)
  (⟨text.takeWhile Char.isDigit, fraction, rest.takeWhile isUnitCharacter⟩,
    rest.dropWhile isUnitCharacter)

/-- Fraction digits past the eighteenth do not count. -/
def keptDigits : Nat := 18

/-- The fraction of a unit in whole nanoseconds: the digits, and the unit divided by the power of
ten that they count in, are each rounded to binary64, and so is their product before it is cut. -/
def fractionNanoseconds (digits : List Char) (unit : TimeUnit) : Nat :=
  let kept := digits.take keptDigits
  let count := Binary64.nearestUnits (Text.digitsValue kept) 1
  let scale := Binary64.nearestUnits (Nat.pow 10 kept.length) 1
  let step := Binary64.nearestUnits (unit.nanoseconds * Binary64.unitsPerOne) scale
  Binary64.product count step / Binary64.unitsPerOne

def nanoseconds (group : Group) : Except Fault Nat :=
  if group.whole.isEmpty && group.fraction.isEmpty then .error .malformed
  else if group.unit.isEmpty then .error .missingUnit
  else match TimeUnit.ofText? group.unit with
    | none => .error (.unknownUnit group.unit)
    | some unit =>
      let whole := Text.digitsValue group.whole
      let value := whole * unit.nanoseconds +
        if group.fraction.isEmpty then 0 else fractionNanoseconds group.fraction unit
      if Text.greatestWord < whole || Text.greatestWord < value then .error .outOfRange
      else .ok value

end Group

theorem length_dropWhile_le (p : Char → Bool) (text : List Char) :
    (text.dropWhile p).length ≤ text.length :=
  (List.dropWhile_suffix p).length_le

theorem length_splitFraction_le (text : List Char) :
    (splitFraction text).2.length ≤ text.length := by
  unfold splitFraction
  split
  · exact Nat.le_succ_of_le (length_dropWhile_le _ _)
  · exact Nat.le_refl _

/-- A group takes at least one character: a digit, a point or a character of the unit. -/
theorem Group.length_split_lt (c : Char) (text : List Char) :
    (Group.split (c :: text)).2.length < (c :: text).length := by
  have rest_le := length_dropWhile_le isUnitCharacter
  simp only [Group.split]
  by_cases digit : c.isDigit = true
  · have dropped := length_dropWhile_le Char.isDigit text
    have split := length_splitFraction_le (text.dropWhile Char.isDigit)
    have rest := rest_le (splitFraction (text.dropWhile Char.isDigit)).2
    simp only [List.dropWhile_cons, digit, if_true, List.length_cons]
    omega
  · simp only [List.dropWhile_cons, digit, List.length_cons]
    by_cases point : c = '.'
    · subst point
      have dropped := length_dropWhile_le Char.isDigit text
      have rest := rest_le (text.dropWhile Char.isDigit)
      simp only [Bool.false_eq_true, if_false, splitFraction]
      omega
    · have unsplit : splitFraction (c :: text) = ([], c :: text) := by
        unfold splitFraction
        split
        · rename_i equal
          exact absurd (List.cons.inj equal).1 point
        · rfl
      have unit : isUnitCharacter c = true := by simp [isUnitCharacter, digit, point]
      have rest := rest_le text
      simp only [Bool.false_eq_true, if_false, unsplit, List.dropWhile_cons, unit, if_true]
      omega

/-- Adds up the groups of a text, after `sum` nanoseconds from the groups before it. -/
def sumGroups (sum : Nat) : List Char → Except Fault Nat
  | [] => .ok sum
  | c :: text =>
    match (Group.split (c :: text)).1.nanoseconds with
    | .error fault => .error fault
    | .ok value =>
      if greatest < sum + value then .error .outOfRange
      else sumGroups (sum + value) (Group.split (c :: text)).2
termination_by text => text.length
decreasing_by exact Group.length_split_lt c text

/-- Whether the text is negative, and the text without its sign. -/
def splitSign : List Char → Bool × List Char
  | '-' :: rest => (true, rest)
  | '+' :: rest => (false, rest)
  | text => (false, text)

def magnitude : List Char → Except Fault Nat
  | ['0'] => .ok 0
  | [] => .error .malformed
  | text => sumGroups 0 text

/-- The duration in nanoseconds. -/
def parse (text : String) : Except Error Int :=
  let (negative, rest) := splitSign text.toList
  match magnitude rest with
  | .error fault => .error ⟨fault, text⟩
  | .ok value => .ok (if negative then -(value : Int) else value)

/-- A rejected text is told of as it is. -/
theorem text_of_parse_error {text : String} {error : Error} (herror : parse text = .error error) :
    error.text = text := by
  simp only [parse] at herror
  cases hmagnitude : magnitude (splitSign text.toList).2 with
  | error fault =>
      rw [hmagnitude] at herror
      cases herror
      rfl
  | ok value =>
      rw [hmagnitude] at herror
      cases herror

/-- The duration in seconds: whole seconds and the rest of a second are each rounded to binary64,
and so is their sum. -/
def seconds (nanoseconds : Int) : Binary64 :=
  let whole := Binary64.nearestUnits (nanoseconds.natAbs / 1000000000) 1
  let rest := Binary64.nearestUnits (nanoseconds.natAbs % 1000000000) 1000000000
  Binary64.ofRatio (decide (nanoseconds < 0)) (whole + rest) Binary64.unitsPerOne

end UsageReport.Duration
