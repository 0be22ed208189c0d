import UsageReport.Duration
import UsageReport.Text.Bytes

/-!
The reading of a duration in words of 64 bits, one turn of its loop at a time. Each turn cuts a
group off the text, at places counted in bytes, and adds what it comes to.

A product or a sum that does not fit into a word is refused before it is taken. Operations that
have no result for some of their operands are told apart from that: a text is cut inside a
character, a power of ten is no word, or the least signed word is negated.
-/

namespace UsageReport.Duration

open Text

/-- The place at which a text is refused. -/
inductive Site where
  | emptyBody
  | noDigit
  | noUnit
  | unknownUnit (unit : List Char)
  | wholeBeyondWord
  | productBeyondWord
  | unreadFraction
  | valueBeyondWord
  | sumBeyondWord
  | sumBeyondGreatest
deriving DecidableEq

def Site.fault : Site → Fault
  | .emptyBody | .noDigit | .unreadFraction => .malformed
  | .noUnit => .missingUnit
  | .unknownUnit unit => .unknownUnit unit
  | .wholeBeyondWord | .productBeyondWord | .valueBeyondWord | .sumBeyondWord
  | .sumBeyondGreatest => .outOfRange

/-- An operation without a result. -/
inductive Trap where
  | cutInsideCharacter
  | powerBeyondWord
  | negatedLeast
deriving DecidableEq

inductive Stop where
  | refused (site : Site)
  | trapped (trap : Trap)
deriving DecidableEq

def orRefuse {α : Type} (site : Site) : Option α → Except Stop α
  | some value => .ok value
  | none => .error (.refused site)

def cut (place : Nat) (text : List Char) : Except Stop (List Char × List Char) :=
  match cutAt? place text with
  | some parts => .ok parts
  | none => .error (.trapped .cutInsideCharacter)

def addWords? (first second : UInt64) : Option UInt64 :=
  if first.toBitVec.uaddOverflow second.toBitVec then none else some (first + second)

def mulWords? (first second : UInt64) : Option UInt64 :=
  if first.toBitVec.umulOverflow second.toBitVec then none else some (first * second)

/-- The word that one more digit makes of a word. -/
def appendDigit? (word : UInt64) (digit : Char) : Option UInt64 :=
  (mulWords? word 10).bind fun tens => addWords? tens (.ofNat (digitValue digit))

/-- Reads a word digit by digit. There may be a plus sign before the digits. -/
def readWord? (text : List Char) : Option UInt64 :=
  let digits := match text with
    | '+' :: rest => rest
    | _ => text
  if digits.isEmpty || !digits.all Char.isDigit then none else digits.foldlM appendDigit? 0

def powerOfTen (exponent : Nat) : Except Stop UInt64 :=
  if greatestWord < Nat.pow 10 exponent then .error (.trapped .powerBeyondWord)
  else .ok (.ofNat (Nat.pow 10 exponent))

/-- The word that a number of binary64 is cut to. What is too great becomes the greatest word. -/
def cutToWord (units : Nat) : UInt64 :=
  .ofNat (min (units / Binary64.unitsPerOne) greatestWord)

def negateWord (word : Int64) : Except Stop Int64 :=
  if word.toBitVec.negOverflow then .error (.trapped .negatedLeast) else .ok (-word)

def TimeUnit.word (unit : TimeUnit) : UInt64 := .ofNat unit.nanoseconds

def greatestTotal : UInt64 := .ofNat greatest

/-- The digits after a point, if a point comes first, and the rest. -/
def cutFraction (text : List Char) : Except Stop (List Char × List Char) :=
  match text with
  | '.' :: rest => cut (leadingDigits rest) rest
  | _ => .ok ([], text)

def cutUnit (text : List Char) : Except Stop (List Char × List Char) :=
  let place := (bytes (text.takeWhile isUnitCharacter)).length
  if place = 0 then .error (.refused .noUnit) else cut place text

/-- The first group of a text and what follows it. -/
def cutGroup (text : List Char) : Except Stop (Group × List Char) := do
  let (whole, afterWhole) ← cut (leadingDigits text) text
  let (fraction, afterNumber) ← cutFraction afterWhole
  if whole.isEmpty && fraction.isEmpty then .error (.refused .noDigit)
  else do
    let (unit, rest) ← cutUnit afterNumber
    return (⟨whole, fraction, unit⟩, rest)

def Group.keptFraction (digits : List Char) : Except Stop (List Char) := do
  let (kept, _) ← cut (min (bytes digits).length keptDigits) digits
  return kept

/-- The power of ten that fraction digits count in. Their number is passed on in 32 bits. -/
def Group.scale (kept : List Char) : Except Stop UInt64 :=
  powerOfTen (UInt32.ofNat (bytes kept).length).toNat

def Group.fractionWord (digits : List Char) (unit : UInt64) : Except Stop UInt64 := do
  let kept ← keptFraction digits
  let count ← orRefuse .unreadFraction (readWord? kept)
  let scale ← scale kept
  let step := Binary64.nearestUnits (Binary64.nearestUnits unit.toNat 1)
    (Binary64.nearestUnits scale.toNat 1)
  return cutToWord (Binary64.product (Binary64.nearestUnits count.toNat 1) step)

def Group.wholeWord (digits : List Char) : Except Stop UInt64 :=
  if digits.isEmpty then .ok 0 else orRefuse .wholeBeyondWord (readWord? digits)

def Group.word (group : Group) (unit : UInt64) : Except Stop UInt64 := do
  let whole ← wholeWord group.whole
  let product ← orRefuse .productBeyondWord (mulWords? whole unit)
  if group.fraction.isEmpty then return product
  else do
    let fraction ← fractionWord group.fraction unit
    orRefuse .valueBeyondWord (addWords? product fraction)

/-- What the loop has before a turn: the text that is still to be read, and the sum of the groups
before it. -/
structure Head where
  rest : List Char
  total : UInt64
deriving DecidableEq

namespace Head

def start (body : List Char) : Head := ⟨body, 0⟩

def addTotal (head : Head) (value : UInt64) : Except Stop UInt64 := do
  let total ← orRefuse .sumBeyondWord (addWords? head.total value)
  if greatestTotal < total then .error (.refused .sumBeyondGreatest) else return total

/-- One turn of the loop. -/
def turn (head : Head) : Except Stop Head := do
  let (group, rest) ← cutGroup head.rest
  let unit ← orRefuse (.unknownUnit group.unit) (TimeUnit.ofText? group.unit)
  let value ← group.word unit.word
  let total ← head.addTotal value
  return ⟨rest, total⟩

end Head

section Cuts

variable (text : List Char)

theorem cut_leadingDigits : cut (leadingDigits text) text =
    .ok (text.takeWhile Char.isDigit, text.dropWhile Char.isDigit) := by
  rw [cut, cutAt?_leadingDigits]

theorem cut_bytes (first second : List Char) :
    cut (bytes first).length (first ++ second) = .ok (first, second) := by
  rw [cut, cutAt?_bytes]

theorem cutFraction_eq : cutFraction text = .ok (splitFraction text) := by
  by_cases hpoint : ∃ rest, text = '.' :: rest
  · obtain ⟨rest, rfl⟩ := hpoint
    exact cut_leadingDigits rest
  · have hother (rest : List Char) : ¬text = '.' :: rest := not_exists.mp hpoint rest
    rw [cutFraction.eq_2 text hother, splitFraction.eq_2 text hother]

theorem cutUnit_eq : cutUnit text =
    if (text.takeWhile isUnitCharacter).isEmpty then .error (.refused .noUnit)
    else .ok (text.takeWhile isUnitCharacter, text.dropWhile isUnitCharacter) := by
  have hcut := cut_bytes (text.takeWhile isUnitCharacter) (text.dropWhile isUnitCharacter)
  rw [List.takeWhile_append_dropWhile] at hcut
  simp only [cutUnit, hcut, List.length_eq_zero_iff, bytes_eq_nil_iff, List.isEmpty_iff]

/-- Groups are cut off where runs of characters end, so never inside a character. -/
theorem cutGroup_eq : cutGroup text =
    if (Group.split text).1.whole.isEmpty && (Group.split text).1.fraction.isEmpty then
      .error (.refused .noDigit)
    else if (Group.split text).1.unit.isEmpty then .error (.refused .noUnit)
    else .ok (Group.split text) := by
  have hsplit : Group.split text = (⟨text.takeWhile Char.isDigit,
      (splitFraction (text.dropWhile Char.isDigit)).1,
      (splitFraction (text.dropWhile Char.isDigit)).2.takeWhile isUnitCharacter⟩,
      (splitFraction (text.dropWhile Char.isDigit)).2.dropWhile isUnitCharacter) := rfl
  rw [hsplit]
  simp only [cutGroup, cut_leadingDigits, cutFraction_eq, cutUnit_eq, bind, Except.bind, pure,
    Except.pure]
  congr 1
  split <;> rename_i hunit <;> split at hunit <;> cases hunit
  · rw [if_pos ‹_›]
  · rw [if_neg ‹_›]

theorem split_of_cutGroup {text : List Char} {found : Group × List Char}
    (hcut : cutGroup text = .ok found) : Group.split text = found := by
  rw [cutGroup_eq] at hcut
  split at hcut
  · cases hcut
  split at hcut
  · cases hcut
  · exact Except.ok.inj hcut

end Cuts

theorem bind_eq_ok {α β : Type} {attempt : Except Stop α} {next : α → Except Stop β} {value : β}
    (hok : attempt >>= next = .ok value) :
    ∃ found, attempt = .ok found ∧ next found = .ok value := by
  cases attempt with
  | error stop => cases hok
  | ok found => exact ⟨found, rfl, hok⟩

/-- A turn goes on behind the first group. -/
theorem Head.rest_of_turn {head next : Head} (hturn : head.turn = .ok next) :
    next.rest = (Group.split head.rest).2 := by
  obtain ⟨⟨group, rest⟩, hgroup, hunit⟩ := bind_eq_ok hturn
  obtain ⟨unit, -, hvalue⟩ := bind_eq_ok hunit
  obtain ⟨value, -, htotal⟩ := bind_eq_ok hvalue
  obtain ⟨total, -, hnext⟩ := bind_eq_ok htotal
  cases hnext
  rw [split_of_cutGroup hgroup]

theorem Head.length_rest_lt {head next : Head} (hrest : head.rest ≠ [])
    (hturn : head.turn = .ok next) : next.rest.length < head.rest.length := by
  obtain ⟨c, rest, hcons⟩ := List.exists_cons_of_ne_nil hrest
  rw [rest_of_turn hturn, hcons]
  exact Group.length_split_lt c rest

/-- Takes turns while any text is left. -/
def Head.loop (head : Head) : Except Stop UInt64 :=
  if head.rest = [] then .ok head.total
  else match _turned : head.turn with
    | .error stop => .error stop
    | .ok next => next.loop
termination_by head.rest.length
decreasing_by exact Head.length_rest_lt ‹_› _turned

def signed (negative : Bool) (total : UInt64) : Except Stop Int64 :=
  if negative then negateWord total.toInt64 else .ok total.toInt64

/-- The duration in nanoseconds, as a signed word. -/
def readWords (text : String) : Except Stop Int64 :=
  let (negative, body) := splitSign text.toList
  match body with
  | ['0'] => .ok 0
  | [] => .error (.refused .emptyBody)
  | body => do
    let total ← (Head.start body).loop
    signed negative total

end UsageReport.Duration
