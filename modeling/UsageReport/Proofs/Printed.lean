import UsageReport.Json.Layout
import UsageReport.Proofs.Grammar
import UsageReport.Proofs.RealText

/-!
What a reader finds in the written form of a value. In either layout the written form spells the
value itself, except that a number may be another after it has been written and read.
-/

namespace UsageReport.Json

namespace Token

theorem spelled_nil : Spelled [] [] := .nil (by simp)

theorem Spelled.blanks_append {tokens : List Token} {blanks text : List Char}
    (hblanks : ∀ c ∈ blanks, isSpace c = true) (htext : Spelled tokens text) :
    Spelled tokens (blanks ++ text) := by
  cases htext with
  | nil hothers => exact .nil (List.forall_mem_append.mpr ⟨hblanks, hothers⟩)
  | cons hothers hspelling hrest =>
      rw [← List.append_assoc]
      exact .cons (List.forall_mem_append.mpr ⟨hblanks, hothers⟩) hspelling hrest

theorem Spelling.spelled_append {token : Token} {tokens : List Token} {spelling text : List Char}
    (hspelling : Spelling token spelling) (htext : Spelled tokens text) :
    Spelled (token :: tokens) (spelling ++ text) :=
  .cons (List.forall_mem_nil _) hspelling htext

theorem Spelling.spelled {token : Token} {spelling : List Char}
    (hspelling : Spelling token spelling) : Spelled [token] spelling := by
  simpa using hspelling.spelled_append spelled_nil

theorem Spelled.append {tokens others : List Token} {text rest : List Char}
    (htext : Spelled tokens text) (hrest : Spelled others rest) :
    Spelled (tokens ++ others) (text ++ rest) := by
  induction htext with
  | nil hblanks => exact hrest.blanks_append hblanks
  | cons hblanks hspelling _ ih =>
      rw [List.append_assoc, List.append_assoc]
      exact .cons hblanks hspelling ih

end Token

section Quotation

open Quotation

/-- A piece that stands for a character, whatever comes after it. -/
def Quotation.StandsFor (piece : Piece) (c : Char) : Prop :=
  ∀ rest, join (piece :: rest) = (join rest).map (c :: ·)

theorem standsFor_character (c : Char) : StandsFor (.character c) c := fun _ => rfl

theorem standsFor_unit {c : Char} (hc : c.toNat < 0x20) : StandsFor (.unit c.toNat) c := by
  intro rest
  have htrailing : isTrailing c.toNat = false := by simp [isTrailing]; omega
  have hleading : isLeading c.toNat = false := by simp [isLeading]; omega
  rcases rest with _ | ⟨_ | _, rest⟩ <;> simp [join, htrailing, hleading]

/-- A control character is written by its code in hexadecimal. -/
theorem unit?_hexDigit :
    ∀ code < 0x20, unit? '0' '0' (hexDigit (code / 16)) (hexDigit (code % 16)) = some code := by
  decide

theorem exists_piece_escaped (c : Char) :
    ∃ piece, StandsFor piece c ∧ Quotation.Spelling [piece] (escaped c) := by
  unfold escaped
  split
  case h_8 =>
    split
    · rename_i hcontrol
      exact ⟨_, standsFor_unit hcontrol, .unit (unit?_hexDigit _ hcontrol) .nil⟩
    · rename_i hmark hescape _ _ _ _ _ hvisible
      exact ⟨_, standsFor_character c, .plain (by omega) hmark hescape .nil⟩
  all_goals exact ⟨_, standsFor_character _, .escape rfl .nil⟩

theorem exists_pieces_escaped (text : List Char) :
    ∃ pieces, join pieces = some text ∧ Quotation.Spelling pieces (text.flatMap escaped) := by
  induction text with
  | nil => exact ⟨[], rfl, .nil⟩
  | cons c text ih =>
      obtain ⟨piece, hpiece, hspelling⟩ := exists_piece_escaped c
      obtain ⟨pieces, hjoin, hrest⟩ := ih
      refine ⟨piece :: pieces, ?_, hspelling.append hrest⟩
      rw [hpiece, hjoin]
      rfl

theorem spelling_quotation (text : String) :
    Token.Spelling (.text (some text)) (quotation text) := by
  obtain ⟨pieces, hjoin, hspelling⟩ := exists_pieces_escaped text.toList
  have htoken := Token.Spelling.text hspelling
  rwa [hjoin, Option.map_some, String.ofList_toList] at htoken

end Quotation

def Number.printed (number : Number) : Tree Fault :=
  (Document.ofText (String.ofList number.text)).root

mutual

/-- What a reader finds where a value has been written. -/
def Tree.printed : Value → Tree Fault
  | .null => .null
  | .flag value => .flag value
  | .number value => value.printed
  | .text value => .text value
  | .fault fault => nomatch fault
  | .list items => .list items.printed
  | .record members => .record members.printed

def Items.printed : Items Empty → Items Fault
  | .close => .close
  | .cut fault => nomatch fault
  | .item value rest => .item value.printed rest.printed

def Members.printed : Members Empty → Members Fault
  | .close => .close
  | .cut fault => nomatch fault
  | .member (.error fault) _ _ => nomatch fault
  | .member (.ok name) value rest => .member (.ok name) value.printed rest.printed

end

namespace Number

theorem spelling_ofInt (value : Int) :
    (Numeral.ofInt value).Spelling (Number.text (.integer value)) := by
  have hunsigned : (Numeral.ofInt value).UnsignedSpelling _ :=
    ⟨Numeral.isWhole_decimal _, .none, .none⟩
  simpa [Number.text, Numeral.ofInt, Numeral.minusText] using Numeral.Spelling.intro hunsigned

theorem exists_numeral (number : Number) : ∃ numeral : Numeral, numeral.Spelling number.text := by
  cases number with
  | integer value => exact ⟨_, spelling_ofInt value⟩
  | real value =>
      obtain ⟨numeral, hspelling, -⟩ := Binary64.exists_numeral_text value
      exact ⟨numeral, hspelling⟩

theorem printed_eq {number : Number} {numeral : Numeral} {tree : Tree Fault}
    (hspelling : numeral.Spelling number.text)
    (htree : Document.scalarOf (.number numeral.number?) = some tree) : number.printed = tree := by
  have hspelled := (Token.Spelling.number hspelling).spelled
  rw [printed, Document.ofText_of_spelled (.scalar htree) (by rwa [String.toList_ofList])]

theorem exists_token (number : Number) :
    ∃ token, Document.scalarOf token = some number.printed ∧ Token.Spelling token number.text := by
  obtain ⟨numeral, hspelling⟩ := number.exists_numeral
  obtain ⟨tree, htree⟩ : ∃ tree, Document.scalarOf (.number numeral.number?) = some tree := by
    cases numeral.number? <;> exact ⟨_, rfl⟩
  exact ⟨_, printed_eq hspelling htree ▸ htree, .number hspelling⟩

/-- An integer of 64 bits is written as a token of its value. -/
theorem spelling_integer {value : Int} (hleast : -2 ^ 63 ≤ value)
    (hgreatest : value ≤ Text.greatestWord) :
    Token.Spelling (.number (some (.integer value))) (Number.text (.integer value)) := by
  rw [← Numeral.number?_ofInt hleast hgreatest]
  exact .number (spelling_ofInt value)

theorem printed_integer {value : Int} (hleast : -2 ^ 63 ≤ value)
    (hgreatest : value ≤ Text.greatestWord) :
    (Number.integer value).printed = .number (.integer value) := by
  refine printed_eq (spelling_ofInt value) ?_
  rw [Numeral.number?_ofInt hleast hgreatest]
  rfl

theorem exists_printed_real (value : Binary64) :
    ∃ found, (Number.real value).printed = .number (.real found) := by
  obtain ⟨numeral, hspelling, found, hfound⟩ := Binary64.exists_numeral_text value
  exact ⟨found, printed_eq hspelling (by rw [hfound]; rfl)⟩

end Number

theorem Layout.isSpace_lineBreak (layout : Layout) (depth : Nat) :
    ∀ c ∈ layout.lineBreak depth, Token.isSpace c = true := by
  cases layout with
  | compact => simp [lineBreak]
  | indented =>
      rw [lineBreak, List.forall_mem_cons]
      refine ⟨rfl, fun c hc => ?_⟩
      rw [List.eq_of_mem_replicate hc]
      rfl

theorem Layout.spelled_colon (layout : Layout) : Token.Spelled [.colon] layout.colon := by
  cases layout with
  | compact => exact Token.Spelling.colon.spelled
  | indented => exact Token.Spelling.colon.spelled_append (.nil (by simp [Token.isSpace]))

theorem nameOf_text (name : String) :
    Document.nameOf (.text (some name)) = some (.ok name) := rfl

section Write

variable (layout : Layout)

/-- A member on a line of its own, and what comes after it. -/
theorem spelled_member (depth : Nat) (name : String) {tokens others : List Token}
    {text rest : List Char} (htext : Token.Spelled tokens text)
    (hrest : Token.Spelled others rest) :
    Token.Spelled (.text (some name) :: .colon :: (tokens ++ others))
      (layout.lineBreak depth ++ (quotation name ++ (layout.colon ++ (text ++ rest)))) :=
  .blanks_append (layout.isSpace_lineBreak depth)
    ((spelling_quotation name).spelled_append (layout.spelled_colon.append (htext.append hrest)))

mutual

/-- In either layout and at any depth, the written form spells what a reader is to find. -/
theorem Tree.spelled_write (depth : Nat) :
    ∀ value : Value, ∃ tokens, value.printed.Spelled tokens ∧
      Token.Spelled tokens (value.write layout depth)
  | .null => ⟨_, .scalar rfl, Token.Spelling.null.spelled⟩
  | .flag true => ⟨_, .scalar rfl, Token.Spelling.trueFlag.spelled⟩
  | .flag false => ⟨_, .scalar rfl, Token.Spelling.falseFlag.spelled⟩
  | .number value => by
      obtain ⟨token, hscalar, hspelling⟩ := value.exists_token
      exact ⟨_, .scalar hscalar, hspelling.spelled⟩
  | .text value => ⟨_, .scalar rfl, (spelling_quotation value).spelled⟩
  | .fault fault => nomatch fault
  | .list .close =>
      ⟨_, .list .close, Token.Spelling.openList.spelled_append Token.Spelling.closeList.spelled⟩
  | .list (.cut fault) => nomatch fault
  | .list (.item value rest) => by
      obtain ⟨tokens, hvalue, htokens⟩ := Tree.spelled_write (depth + 1) value
      obtain ⟨others, hrest, hothers⟩ := Items.spelled_write depth rest
      refine ⟨_, .list (.item hvalue hrest), ?_⟩
      have htext := (htokens.append hothers).blanks_append (layout.isSpace_lineBreak (depth + 1))
      have hall := Token.Spelling.openList.spelled_append htext
      simpa [Tree.write, Token.separation] using hall
  | .record .close =>
      ⟨_, .record .close,
        Token.Spelling.openRecord.spelled_append Token.Spelling.closeRecord.spelled⟩
  | .record (.cut fault) => nomatch fault
  | .record (.member (.error fault) _ _) => nomatch fault
  | .record (.member (.ok name) value rest) => by
      obtain ⟨tokens, hvalue, htokens⟩ := Tree.spelled_write (depth + 1) value
      obtain ⟨others, hrest, hothers⟩ := Members.spelled_write depth rest
      refine ⟨_, .record (.member (nameOf_text name) hvalue hrest), ?_⟩
      have hall := Token.Spelling.openRecord.spelled_append
        (spelled_member layout (depth + 1) name htokens hothers)
      simpa [Tree.write, Token.separation] using hall

theorem Items.spelled_write (depth : Nat) :
    ∀ items : Items Empty, ∃ tokens, items.printed.Spelled false tokens ∧
      Token.Spelled tokens (items.write layout depth)
  | .close => by
      refine ⟨_, .close, ?_⟩
      exact Token.Spelling.closeList.spelled.blanks_append (layout.isSpace_lineBreak depth)
  | .cut fault => nomatch fault
  | .item value rest => by
      obtain ⟨tokens, hvalue, htokens⟩ := Tree.spelled_write (depth + 1) value
      obtain ⟨others, hrest, hothers⟩ := Items.spelled_write depth rest
      refine ⟨_, .item hvalue hrest, ?_⟩
      have htext := (htokens.append hothers).blanks_append (layout.isSpace_lineBreak (depth + 1))
      have hall := Token.Spelling.comma.spelled_append htext
      simpa [Items.write, Token.separation] using hall

theorem Members.spelled_write (depth : Nat) :
    ∀ members : Members Empty, ∃ tokens, members.printed.Spelled false tokens ∧
      Token.Spelled tokens (members.write layout depth)
  | .close => by
      refine ⟨_, .close, ?_⟩
      exact Token.Spelling.closeRecord.spelled.blanks_append (layout.isSpace_lineBreak depth)
  | .cut fault => nomatch fault
  | .member (.error fault) _ _ => nomatch fault
  | .member (.ok name) value rest => by
      obtain ⟨tokens, hvalue, htokens⟩ := Tree.spelled_write (depth + 1) value
      obtain ⟨others, hrest, hothers⟩ := Members.spelled_write depth rest
      refine ⟨_, .member (nameOf_text name) hvalue hrest, ?_⟩
      have hall := Token.Spelling.comma.spelled_append
        (spelled_member layout (depth + 1) name htokens hothers)
      simpa [Members.write, Token.separation] using hall

end

end Write

end UsageReport.Json
