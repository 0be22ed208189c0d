import UsageReport.Json.Numeral
import UsageReport.Json.Quotation

/-!
The tokens of a JSON text. A place that holds no token is a token too, and the last one.
-/

namespace UsageReport.Json

inductive Token where
  | openList
  | closeList
  | openRecord
  | closeRecord
  | comma
  | colon
  | null
  | flag (value : Bool)
  /-- No value if the number lies beyond all bounds. -/
  | number (value : Option Number)
  /-- No value if a surrogate stands alone. -/
  | text (value : Option String)
  | brokenText (fault : Fault)
  | broken (fault : Fault)
deriving DecidableEq

namespace Token

/-- Takes a word off the start of a text. -/
def takeWord : List Char → List Char → Except Failure (List Char)
  | [], rest => .ok rest
  | _ :: _, [] => .error .ended
  | letter :: word, c :: rest => if c = letter then takeWord word rest else .error .malformed

def ofWord (token : Token) (word input : List Char) : Token × List Char :=
  match takeWord word input with
  | .ok rest => (token, rest)
  | .error failure => (.broken (.final failure), [])

def ofNumeral (negative : Bool) (text : List Char) : Token × List Char :=
  match Numeral.scanUnsigned negative text with
  | .ok (numeral, rest) => (.number numeral.number?, rest)
  | .error fault => (.broken fault, [])

def ofQuotation (text : List Char) : Token × List Char :=
  match Quotation.read text with
  | .ok (value, rest) => (.text value, rest)
  | .error fault => (.brokenText fault, [])

/-- The token that starts with a character, and the text after it. Nothing comes after a broken
token. -/
def read (c : Char) (rest : List Char) : Token × List Char :=
  match c with
  | '[' => (.openList, rest)
  | ']' => (.closeList, rest)
  | '\x7b' => (.openRecord, rest)
  | '\x7d' => (.closeRecord, rest)
  | ',' => (.comma, rest)
  | ':' => (.colon, rest)
  | '"' => ofQuotation rest
  | 'n' => ofWord .null ['u', 'l', 'l'] rest
  | 't' => ofWord (.flag true) ['r', 'u', 'e'] rest
  | 'f' => ofWord (.flag false) ['a', 'l', 's', 'e'] rest
  | '-' => ofNumeral true rest
  | _ =>
    if c.isDigit then ofNumeral false (c :: rest)
    else (.broken (.final .malformed), [])

/-- The four characters that may stand between tokens. -/
def isSpace (c : Char) : Bool := c == ' ' || c == '\t' || c == '\n' || c == '\r'

theorem length_takeWord_le {word input rest : List Char} (h : takeWord word input = .ok rest) :
    rest.length ≤ input.length := by
  induction word generalizing input with
  | nil => cases h; exact Nat.le_refl _
  | cons letter word ih =>
      cases input with
      | nil => cases h
      | cons c input =>
          simp only [takeWord] at h
          split at h
          · exact Nat.le_succ_of_le (ih h)
          · cases h

theorem length_ofWord_le (token : Token) (word input : List Char) :
    (ofWord token word input).2.length ≤ input.length := by
  unfold ofWord
  split
  · rename_i rest h
    exact length_takeWord_le h
  · exact Nat.zero_le _

theorem length_ofNumeral_le (negative : Bool) (text : List Char) :
    (ofNumeral negative text).2.length ≤ text.length - 1 := by
  unfold ofNumeral
  split
  · rename_i numeral rest h
    have := Numeral.length_scanUnsigned_lt h
    simp only at this ⊢
    omega
  · exact Nat.zero_le _

theorem length_ofQuotation_le (text : List Char) :
    (ofQuotation text).2.length ≤ text.length := by
  unfold ofQuotation
  split
  · rename_i value rest h
    simp only [Quotation.read] at h
    split at h
    · rename_i after scanned
      injection h with h
      injection h with _ h
      subst h
      exact Nat.le_of_lt (Quotation.length_scan_lt scanned)
    · cases h
  · exact Nat.zero_le _

theorem length_read_le (c : Char) (rest : List Char) :
    (read c rest).2.length ≤ rest.length := by
  unfold read
  split <;> try exact Nat.le_refl _
  · exact length_ofQuotation_le rest
  · exact length_ofWord_le _ _ rest
  · exact length_ofWord_le _ _ rest
  · exact length_ofWord_le _ _ rest
  · have := length_ofNumeral_le true rest
    omega
  · split
    · have := length_ofNumeral_le false (c :: rest)
      simpa using this
    · exact Nat.zero_le _

/-- The tokens of a text from the left, up to the first broken one. -/
def scan : List Char → List Token
  | [] => []
  | c :: rest =>
    if isSpace c then scan rest
    else (read c rest).1 :: scan (read c rest).2
termination_by text => text.length
decreasing_by
  · exact Nat.lt_succ_self _
  · exact Nat.lt_succ_of_le (length_read_le c rest)

end UsageReport.Json.Token
