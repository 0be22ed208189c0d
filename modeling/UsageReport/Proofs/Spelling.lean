import Mathlib.Data.List.Chain
import UsageReport.Json.Token
import UsageReport.Proofs.Span

/-!
How the tokens of a JSON text are spelled. A text that spells tokens, with blanks anywhere between
them, has these tokens and no others, as long as a number is not followed by a token that would go
on with it.
-/

namespace UsageReport.Text

theorem Clear.of_imp {p q : Char → Bool} {text : List Char} (hclear : Clear p text)
    (himp : ∀ c, q c = true → p c = true) : Clear q text := by
  intro c hc
  have hp := hclear c hc
  cases hq : q c with
  | false => rfl
  | true => rw [himp c hq] at hp; cases hp

end UsageReport.Text

namespace UsageReport.Json

open Text

namespace Numeral

def IsDigits (text : List Char) : Prop := text ≠ [] ∧ ∀ c ∈ text, c.isDigit = true

/-- Digits that a numeral may have before the point: a zero in front stands alone. -/
def IsWhole (text : List Char) : Prop := IsDigits text ∧ (text.head? = some '0' → text = ['0'])

/-- Whether a numeral may go on with a character. -/
def isPart (c : Char) : Bool := c.isDigit || c == '.' || c == 'e' || c == 'E'

inductive FractionSpelling : Option (List Char) → List Char → Prop
  | none : FractionSpelling none []
  | some {digits : List Char} (hdigits : IsDigits digits) :
      FractionSpelling (some digits) ('.' :: digits)

/-- The sign of an exponent. A positive one may be left out. -/
inductive SignSpelling : Bool → List Char → Prop
  | bare : SignSpelling false []
  | plus : SignSpelling false ['+']
  | minus : SignSpelling true ['-']

inductive ExponentSpelling : Option (Bool × List Char) → List Char → Prop
  | none : ExponentSpelling none []
  | some {mark : Char} {negative : Bool} {sign digits : List Char}
      (hmark : mark = 'e' ∨ mark = 'E') (hsign : SignSpelling negative sign)
      (hdigits : IsDigits digits) :
      ExponentSpelling (some (negative, digits)) (mark :: (sign ++ digits))

inductive UnsignedSpelling (numeral : Numeral) : List Char → Prop
  | intro {fraction exponent : List Char} (hwhole : IsWhole numeral.whole)
      (hfraction : FractionSpelling numeral.fraction fraction)
      (hexponent : ExponentSpelling numeral.exponent exponent) :
      UnsignedSpelling numeral (numeral.whole ++ (fraction ++ exponent))

def minusText (negative : Bool) : List Char := if negative then ['-'] else []

inductive Spelling (numeral : Numeral) : List Char → Prop
  | intro {unsigned : List Char} (hunsigned : UnsignedSpelling numeral unsigned) :
      Spelling numeral (minusText numeral.negative ++ unsigned)

theorem scanDigits_append {digits rest : List Char} (hdigits : IsDigits digits)
    (hrest : Clear Char.isDigit rest) : scanDigits (digits ++ rest) = .ok (digits, rest) := by
  unfold scanDigits
  rw [takeWhile_append_of_clear hdigits.2 hrest, dropWhile_append_of_clear hdigits.2 hrest]
  split
  · exact absurd rfl hdigits.1
  · rfl

theorem scanWhole_append {digits rest : List Char} (hdigits : IsWhole digits)
    (hrest : Clear Char.isDigit rest) : scanWhole (digits ++ rest) = .ok (digits, rest) := by
  unfold scanWhole
  split
  · rename_i c after htext
    -- A zero in front is the whole part, so the next character is the head of the rest.
    have hzero : digits = ['0'] := by
      refine hdigits.2 ?_
      cases digits with
      | nil => exact absurd rfl hdigits.1.1
      | cons first digits =>
          injection htext with hfirst
          rw [List.head?_cons, hfirst]
    subst hzero
    injection htext with _ hafter
    change rest = c :: after at hafter
    subst hafter
    rw [if_neg (by simp [clear_cons.mp hrest])]
  · exact scanDigits_append hdigits.1 hrest

theorem scanFraction_append {fraction : Option (List Char)} {text rest : List Char}
    (hfraction : FractionSpelling fraction text) (hrest : Clear Char.isDigit rest)
    (hpoint : Clear (· == '.') rest) : scanFraction (text ++ rest) = .ok (fraction, rest) := by
  cases hfraction with
  | some hdigits => simp [scanFraction, scanDigits_append hdigits hrest, Except.map]
  | none =>
      unfold scanFraction
      split
      · rename_i htext
        rw [List.nil_append] at htext
        subst htext
        cases clear_cons.mp hpoint
      · rfl

theorem splitSign_of_isDigit {c : Char} {rest : List Char} (hc : c.isDigit = true) :
    splitSign (c :: rest) = (false, c :: rest) := by
  unfold splitSign
  split
  · rename_i htext
    injection htext with hc'
    subst hc'
    cases hc
  · rename_i htext
    injection htext with hc'
    subst hc'
    cases hc
  · rfl

theorem splitSign_append {negative : Bool} {sign digits : List Char} (rest : List Char)
    (hsign : SignSpelling negative sign) (hdigits : IsDigits digits) :
    splitSign (sign ++ digits ++ rest) = (negative, digits ++ rest) := by
  cases hsign with
  | plus | minus => rfl
  | bare =>
      cases digits with
      | nil => exact absurd rfl hdigits.1
      | cons c digits => exact splitSign_of_isDigit (hdigits.2 c List.mem_cons_self)

theorem scanExponent_append {exponent : Option (Bool × List Char)} {text rest : List Char}
    (hexponent : ExponentSpelling exponent text) (hrest : Clear isPart rest) :
    scanExponent (text ++ rest) = .ok (exponent, rest) := by
  cases hexponent with
  | none =>
      cases rest with
      | nil => rfl
      | cons c rest =>
          have hc := clear_cons.mp hrest
          simp only [isPart, Bool.or_eq_false_iff] at hc
          simp [scanExponent, hc.1.2, hc.2]
  | @some mark negative sign digits hmark hsign hdigits =>
      have hmark : (mark == 'e' || mark == 'E') = true := by rcases hmark with rfl | rfl <;> rfl
      have hclear : Clear Char.isDigit rest := hrest.of_imp (by simp +contextual [isPart])
      simp only [List.cons_append, scanExponent, hmark, if_true,
        splitSign_append rest hsign hdigits, scanDigits_append hdigits hclear, Except.map]

/-- An exponent neither goes on with the digits before it nor starts a fraction. -/
theorem clear_exponent {exponent : Option (Bool × List Char)} {text rest : List Char}
    (hexponent : ExponentSpelling exponent text) (hrest : Clear isPart rest) :
    Clear (fun c => c.isDigit || c == '.') (text ++ rest) := by
  cases hexponent with
  | none => exact hrest.of_imp (by simp +contextual [isPart])
  | some hmark hsign hdigits =>
      rw [List.cons_append, clear_cons]
      rcases hmark with rfl | rfl <;> rfl

theorem clear_fraction {fraction : Option (List Char)} {text rest : List Char}
    (hfraction : FractionSpelling fraction text)
    (hrest : Clear (fun c => c.isDigit || c == '.') rest) : Clear Char.isDigit (text ++ rest) := by
  cases hfraction with
  | none => exact hrest.of_imp (by simp +contextual)
  | some => exact clear_cons.mpr rfl

theorem scanUnsigned_append {numeral : Numeral} {text rest : List Char}
    (hspelling : numeral.UnsignedSpelling text) (hrest : Clear isPart rest) :
    scanUnsigned numeral.negative (text ++ rest) = .ok (numeral, rest) := by
  obtain ⟨hwhole, hfraction, hexponent⟩ := hspelling
  have hafter := clear_exponent hexponent hrest
  have hdigits : Clear Char.isDigit _ := hafter.of_imp (by simp +contextual)
  have hpoint : Clear (· == '.') _ := hafter.of_imp (by simp +contextual)
  simp only [scanUnsigned, List.append_assoc,
    scanWhole_append hwhole (clear_fraction hfraction hafter),
    scanFraction_append hfraction hdigits hpoint, scanExponent_append hexponent hrest, bind,
    Except.bind, pure, Except.pure]

/-- A numeral without its sign starts with a digit. -/
theorem UnsignedSpelling.head {numeral : Numeral} {text : List Char}
    (hspelling : numeral.UnsignedSpelling text) :
    ∃ c rest, text = c :: rest ∧ c.isDigit = true := by
  obtain ⟨hwhole, -, -⟩ := hspelling
  cases hdigits : numeral.whole with
  | nil => exact absurd hdigits hwhole.1.1
  | cons c digits =>
      exact ⟨c, _, rfl, hwhole.1.2 c (hdigits ▸ List.mem_cons_self)⟩

end Numeral

namespace Quotation

/-- How the pieces of a quotation are spelled between its marks. -/
inductive Spelling : List Piece → List Char → Prop
  | nil : Spelling [] []
  | plain {c : Char} {pieces : List Piece} {text : List Char} (hvisible : 0x20 ≤ c.toNat)
      (hmark : c ≠ '"') (hescape : c ≠ '\\') (hrest : Spelling pieces text) :
      Spelling (.character c :: pieces) (c :: text)
  | escape {letter c : Char} {pieces : List Piece} {text : List Char}
      (hletter : escape? letter = some c) (hrest : Spelling pieces text) :
      Spelling (.character c :: pieces) ('\\' :: letter :: text)
  | unit {a b c d : Char} {code : Nat} {pieces : List Piece} {text : List Char}
      (hcode : unit? a b c d = some code) (hrest : Spelling pieces text) :
      Spelling (.unit code :: pieces) ('\\' :: 'u' :: a :: b :: c :: d :: text)

theorem Spelling.append {first second : List Piece} {firstText secondText : List Char}
    (hfirst : Spelling first firstText) (hsecond : Spelling second secondText) :
    Spelling (first ++ second) (firstText ++ secondText) := by
  induction hfirst with
  | nil => exact hsecond
  | plain hvisible hmark hescape _ ih => exact .plain hvisible hmark hescape ih
  | escape hletter _ ih => exact .escape hletter ih
  | unit hcode _ ih => exact .unit hcode ih

theorem scan_plain {c : Char} (rest : List Char) (hvisible : 0x20 ≤ c.toNat) (hmark : c ≠ '"')
    (hescape : c ≠ '\\') : scan (c :: rest) = prepend (.character c) (scan rest) := by
  rw [scan, if_neg (by omega)]
  all_goals simp_all

theorem scan_escape {letter c : Char} (rest : List Char) (hletter : escape? letter = some c) :
    scan ('\\' :: letter :: rest) = prepend (.character c) (scan rest) := by
  have hunit : letter ≠ 'u' := by
    rintro rfl
    cases hletter
  rw [scan]
  · simp only [hletter]
  all_goals simp_all

theorem scan_append {pieces : List Piece} {text : List Char} (hspelling : Spelling pieces text)
    (rest : List Char) : scan (text ++ '"' :: rest) = (pieces, .ok rest) := by
  induction hspelling with
  | nil => simp [scan]
  | plain hvisible hmark hescape _ ih =>
      rw [List.cons_append, scan_plain _ hvisible hmark hescape, ih]
      rfl
  | escape hletter _ ih =>
      rw [List.cons_append, List.cons_append, scan_escape _ hletter, ih]
      rfl
  | unit hcode _ ih =>
      simp only [List.cons_append, scan, hcode, ih]
      rfl

theorem read_append {pieces : List Piece} {text : List Char} (hspelling : Spelling pieces text)
    (rest : List Char) :
    read (text ++ '"' :: rest) = .ok ((join pieces).map String.ofList, rest) := by
  simp [read, scan_append hspelling]

end Quotation

namespace Token

inductive Spelling : Token → List Char → Prop
  | openList : Spelling .openList ['[']
  | closeList : Spelling .closeList [']']
  | openRecord : Spelling .openRecord ['\x7b']
  | closeRecord : Spelling .closeRecord ['\x7d']
  | comma : Spelling .comma [',']
  | colon : Spelling .colon [':']
  | null : Spelling .null ['n', 'u', 'l', 'l']
  | trueFlag : Spelling (.flag true) ['t', 'r', 'u', 'e']
  | falseFlag : Spelling (.flag false) ['f', 'a', 'l', 's', 'e']
  | number {numeral : Numeral} {text : List Char} (hnumeral : numeral.Spelling text) :
      Spelling (.number numeral.number?) text
  | text {pieces : List Quotation.Piece} {body : List Char}
      (hbody : Quotation.Spelling pieces body) :
      Spelling (.text ((Quotation.join pieces).map String.ofList)) ('"' :: (body ++ ['"']))

/-- Whether a token would go on with the next one if that started with a digit, a point or an
exponent. -/
def isNumber : Token → Bool
  | .number _ => true
  | _ => false

/-- Whether a token ends a value for good. -/
def isDivider : Token → Bool
  | .comma | .closeList | .closeRecord => true
  | _ => false

theorem takeWord_append (word rest : List Char) : takeWord word (word ++ rest) = .ok rest := by
  induction word with
  | nil => rfl
  | cons letter word ih => rw [List.cons_append, takeWord, if_pos rfl, ih]

theorem ofWord_append (token : Token) (word rest : List Char) :
    ofWord token word (word ++ rest) = (token, rest) := by
  rw [ofWord, takeWord_append]

theorem ofNumeral_append {numeral : Numeral} {text rest : List Char}
    (hspelling : numeral.UnsignedSpelling text) (hrest : Clear Numeral.isPart rest) :
    ofNumeral numeral.negative (text ++ rest) = (.number numeral.number?, rest) := by
  rw [ofNumeral, Numeral.scanUnsigned_append hspelling hrest]

theorem read_of_isDigit {c : Char} (rest : List Char) (hc : c.isDigit = true) :
    read c rest = ofNumeral false (c :: rest) := by
  unfold read
  split <;> first | (rw [if_pos hc]) | (exfalso; revert hc; decide)

/-- A spelled token is read whole, and nothing after it. -/
theorem read_append {token : Token} {spelling rest : List Char}
    (hspelling : Spelling token spelling)
    (hrest : token.isNumber = true → Clear Numeral.isPart rest) :
    ∃ c after, spelling = c :: after ∧ isSpace c = false ∧
      read c (after ++ rest) = (token, rest) := by
  cases hspelling with
  | openList | closeList | openRecord | closeRecord | comma | colon =>
      exact ⟨_, _, rfl, rfl, rfl⟩
  | null => exact ⟨_, _, rfl, rfl, ofWord_append .null ['u', 'l', 'l'] rest⟩
  | trueFlag => exact ⟨_, _, rfl, rfl, ofWord_append (.flag true) ['r', 'u', 'e'] rest⟩
  | falseFlag => exact ⟨_, _, rfl, rfl, ofWord_append (.flag false) ['a', 'l', 's', 'e'] rest⟩
  | @text pieces body hbody =>
      refine ⟨_, _, rfl, rfl, ?_⟩
      change ofQuotation (body ++ ['"'] ++ rest) = _
      rw [ofQuotation, List.append_assoc, List.singleton_append,
        Quotation.read_append hbody rest]
  | @number numeral text hnumeral =>
      obtain ⟨hunsigned⟩ := hnumeral
      have hread := ofNumeral_append hunsigned (hrest rfl)
      cases hnegative : numeral.negative with
      | true =>
          rw [hnegative] at hread
          exact ⟨'-', _, rfl, rfl, hread⟩
      | false =>
          rw [hnegative] at hread
          obtain ⟨c, after, rfl, hc⟩ := hunsigned.head
          refine ⟨c, after, rfl, ?_, ?_⟩
          · cases hspace : isSpace c with
            | false => rfl
            | true =>
                simp only [isSpace, Bool.or_eq_true, beq_iff_eq] at hspace
                rcases hspace with ((rfl | rfl) | rfl) | rfl <;> cases hc
          · rw [read_of_isDigit _ hc]
            exact hread

/-- A text that spells tokens one after the other, with blanks before, between and after them. -/
inductive Spelled : List Token → List Char → Prop
  | nil {blanks : List Char} (hblanks : ∀ c ∈ blanks, isSpace c = true) : Spelled [] blanks
  | cons {token : Token} {tokens : List Token} {blanks spelling text : List Char}
      (hblanks : ∀ c ∈ blanks, isSpace c = true) (hspelling : Spelling token spelling)
      (htext : Spelled tokens text) : Spelled (token :: tokens) (blanks ++ (spelling ++ text))

/-- After every number comes a comma or a closing bracket, if anything. -/
def Punctuated (tokens : List Token) : Prop :=
  tokens.IsChain fun token next => token.isNumber = true → next.isDivider = true

theorem isPart_of_isSpace {c : Char} (hc : isSpace c = true) :
    Numeral.isPart c = false := by
  simp only [isSpace, Bool.or_eq_true, beq_iff_eq] at hc
  rcases hc with ((rfl | rfl) | rfl) | rfl <;> rfl

theorem clear_of_isDivider {token : Token} {spelling : List Char}
    (hspelling : Spelling token spelling) (htoken : token.isDivider = true)
    (rest : List Char) : Clear Numeral.isPart (spelling ++ rest) := by
  cases hspelling <;> first | (exact clear_cons.mpr rfl) | (cases htoken)

theorem clear_of_blanks {blanks rest : List Char} (hblanks : ∀ c ∈ blanks, isSpace c = true)
    (hrest : Clear Numeral.isPart rest) : Clear Numeral.isPart (blanks ++ rest) := by
  cases blanks with
  | nil => exact hrest
  | cons c blanks =>
      exact clear_cons.mpr (isPart_of_isSpace (hblanks c List.mem_cons_self))

/-- Where a number ends, no character follows that would go on with it. -/
theorem Spelled.clear {tokens : List Token} {text : List Char} (hspelled : Spelled tokens text)
    (hdivider : ∀ next ∈ tokens.head?, next.isDivider = true) :
    Clear Numeral.isPart text := by
  cases hspelled with
  | nil hblanks => simpa using clear_of_blanks hblanks (clear_nil _)
  | cons hblanks hspelling _ =>
      exact clear_of_blanks hblanks (clear_of_isDivider hspelling (hdivider _ rfl) _)

theorem scan_of_blanks {blanks : List Char} (rest : List Char)
    (hblanks : ∀ c ∈ blanks, isSpace c = true) : scan (blanks ++ rest) = scan rest := by
  induction blanks with
  | nil => rfl
  | cons c blanks ih =>
      rw [List.forall_mem_cons] at hblanks
      rw [List.cons_append, scan, if_pos hblanks.1, ih hblanks.2]

theorem scan_of_spelled {tokens : List Token} {text : List Char} (hspelled : Spelled tokens text)
    (hpunctuated : Punctuated tokens) : scan text = tokens := by
  induction hspelled with
  | nil hblanks =>
      have hscan := scan_of_blanks [] hblanks
      rwa [List.append_nil, scan] at hscan
  | @cons token tokens blanks spelling text hblanks hspelling htext ih =>
      obtain ⟨hnext, htokens⟩ := List.isChain_cons.mp hpunctuated
      have hrest : token.isNumber = true → Clear Numeral.isPart text :=
        fun hnumber => htext.clear fun next hmem => hnext next hmem hnumber
      obtain ⟨c, after, rfl, hspace, hread⟩ := read_append hspelling hrest
      rw [scan_of_blanks _ hblanks, List.cons_append, scan, if_neg (by simp [hspace]), hread,
        ih htokens]

end Token

end UsageReport.Json
