import UsageReport.Json.Failure

/-!
Text between quotation marks. A quotation is first cut into pieces, characters and escaped code
units, and then joined: a leading surrogate and the trailing one after it are one character, any
other surrogate is none.
-/

namespace UsageReport.Json.Quotation

inductive Piece where
  | character (c : Char)
  | unit (code : Nat)
deriving DecidableEq

def hexValue? (c : Char) : Option Nat :=
  if c.isDigit then some (c.toNat - '0'.toNat)
  else if 'a' ≤ c ∧ c ≤ 'f' then some (c.toNat - 'a'.toNat + 10)
  else if 'A' ≤ c ∧ c ≤ 'F' then some (c.toNat - 'A'.toNat + 10)
  else none

/-- The value of four hexadecimal digits. -/
def unit? (a b c d : Char) : Option Nat := do
  let a ← hexValue? a
  let b ← hexValue? b
  let c ← hexValue? c
  let d ← hexValue? d
  return ((a * 16 + b) * 16 + c) * 16 + d

/-- The character that a letter after a backslash stands for. -/
def escape? (c : Char) : Option Char :=
  match c with
  | '"' => some '"'
  | '\\' => some '\\'
  | '/' => some '/'
  | 'b' => some '\x08'
  | 'f' => some '\x0c'
  | 'n' => some '\n'
  | 'r' => some '\r'
  | 't' => some '\t'
  | _ => none

/-- The length of a text in UTF-8. -/
def byteCount : List Char → Nat
  | [] => 0
  | c :: rest => c.utf8Size + byteCount rest

/-- Four digits are looked for in the next four bytes: with fewer bytes left the text has ended. -/
def unitFailure (rest : List Char) : Failure :=
  if byteCount (rest.take 4) < 4 then .ended else .malformed

def prepend (piece : Piece) (scanned : List Piece × Except Failure (List Char)) :
    List Piece × Except Failure (List Char) :=
  (piece :: scanned.1, scanned.2)

/-- The pieces up to the closing mark, and what follows it. -/
def scan : List Char → List Piece × Except Failure (List Char)
  | [] => ([], .error .ended)
  | '"' :: rest => ([], .ok rest)
  | ['\\'] => ([], .error .ended)
  | '\\' :: 'u' :: a :: b :: c :: d :: rest =>
    match unit? a b c d with
    | none => ([], .error (unitFailure (a :: b :: c :: d :: rest)))
    | some code => prepend (.unit code) (scan rest)
  | '\\' :: 'u' :: rest => ([], .error (unitFailure rest))
  | '\\' :: c :: rest =>
    match escape? c with
    | none => ([], .error .malformed)
    | some c => prepend (.character c) (scan rest)
  | c :: rest =>
    if c.toNat < 0x20 then ([], .error .malformed)
    else prepend (.character c) (scan rest)

theorem length_scan_lt {text rest : List Char} (h : (scan text).2 = .ok rest) :
    rest.length < text.length := by
  fun_induction scan text with
  | case2 after =>
      injection h with h
      rw [h]
      exact Nat.lt_succ_self _
  | case5 | case8 | case10 =>
      rename_i shorter
      have := shorter h
      simp only [List.length_cons]
      omega
  | _ => simp at h

def isLeading (code : Nat) : Bool := 0xd800 ≤ code && code < 0xdc00

def isTrailing (code : Nat) : Bool := 0xdc00 ≤ code && code < 0xe000

/-- The character of a surrogate pair. -/
def pairCharacter (leading trailing : Nat) : Char :=
  Char.ofNat (0x10000 + (leading - 0xd800) * 0x400 + (trailing - 0xdc00))

/-- The text of the pieces, or none if a surrogate stands alone. -/
def join : List Piece → Option (List Char)
  | [] => some []
  | .character c :: rest => (join rest).map (c :: ·)
  | .unit code :: rest =>
    if isTrailing code then none
    else if isLeading code then
      match rest with
      | .unit next :: rest =>
        if isTrailing next then (join rest).map (pairCharacter code next :: ·) else none
      | _ => none
    else (join rest).map (Char.ofNat code :: ·)

/-- Whether a surrogate is already known to stand alone, though more pieces may follow: a leading
one at the very end may yet find its partner. -/
def hasLoneSurrogate : List Piece → Bool
  | [] => false
  | .character _ :: rest => hasLoneSurrogate rest
  | .unit code :: rest =>
    if isTrailing code then true
    else if isLeading code then
      match rest with
      | [] => false
      | .unit next :: rest => !isTrailing next || hasLoneSurrogate rest
      | .character _ :: _ => true
    else hasLoneSurrogate rest

/-- Reads a quotation, its opening mark already taken: its text and what follows. -/
def read (text : List Char) : Except Fault (Option String × List Char) :=
  let pieces := (scan text).1
  match (scan text).2 with
  | .ok rest => .ok ((join pieces).map String.ofList, rest)
  | .error failure =>
    .error ⟨if hasLoneSurrogate pieces then .malformed else failure, some failure⟩

end UsageReport.Json.Quotation
