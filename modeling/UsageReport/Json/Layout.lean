import UsageReport.Binary64.Decimal
import UsageReport.Json.Tree

/-!
Written forms of a value: on one line without spaces, or with every item and member on a line of its
own, indented by two spaces a level.
-/

namespace UsageReport.Json

inductive Layout where
  | compact
  | indented
deriving DecidableEq

namespace Layout

/-- What stands before an entry of a list or record of some depth, and before its closing bracket.
-/
def lineBreak (layout : Layout) (depth : Nat) : List Char :=
  match layout with
  | .compact => []
  | .indented => '\n' :: List.replicate (2 * depth) ' '

/-- What stands between a name and its value. -/
def colon : Layout → List Char
  | .compact => [':']
  | .indented => [':', ' ']

end Layout

def hexDigit (n : Nat) : Char := Nat.digitChar n

/-- The written form of a character of a text. -/
def escaped (c : Char) : List Char :=
  match c with
  | '"' => ['\\', '"']
  | '\\' => ['\\', '\\']
  | '\x08' => ['\\', 'b']
  | '\x0c' => ['\\', 'f']
  | '\n' => ['\\', 'n']
  | '\r' => ['\\', 'r']
  | '\t' => ['\\', 't']
  | _ =>
    if c.toNat < 0x20 then
      ['\\', 'u', '0', '0', hexDigit (c.toNat / 16), hexDigit (c.toNat % 16)]
    else [c]

def quotation (text : String) : List Char :=
  '"' :: text.toList.flatMap escaped ++ ['"']

def Number.text : Number → List Char
  | .integer value => (if value < 0 then ['-'] else []) ++ Text.decimal value.natAbs
  | .real value => value.text .json

mutual

def Tree.write (layout : Layout) (depth : Nat) : Value → List Char
  | .null => ['n', 'u', 'l', 'l']
  | .flag true => ['t', 'r', 'u', 'e']
  | .flag false => ['f', 'a', 'l', 's', 'e']
  | .number value => value.text
  | .text value => quotation value
  | .fault fault => nomatch fault
  | .list .close => ['[', ']']
  | .list (.cut fault) => nomatch fault
  | .list (.item value rest) =>
    '[' :: layout.lineBreak (depth + 1) ++ value.write layout (depth + 1) ++
      rest.write layout depth
  | .record .close => ['\x7b', '\x7d']
  | .record (.cut fault) => nomatch fault
  | .record (.member (.error fault) _ _) => nomatch fault
  | .record (.member (.ok name) value rest) =>
    '\x7b' :: layout.lineBreak (depth + 1) ++ quotation name ++ layout.colon ++
      value.write layout (depth + 1) ++ rest.write layout depth

/-- The items after the first, and the closing bracket. -/
def Items.write (layout : Layout) (depth : Nat) : Items Empty → List Char
  | .close => layout.lineBreak depth ++ [']']
  | .cut fault => nomatch fault
  | .item value rest =>
    ',' :: layout.lineBreak (depth + 1) ++ value.write layout (depth + 1) ++
      rest.write layout depth

/-- The members after the first, and the closing brace. -/
def Members.write (layout : Layout) (depth : Nat) : Members Empty → List Char
  | .close => layout.lineBreak depth ++ ['\x7d']
  | .cut fault => nomatch fault
  | .member (.error fault) _ _ => nomatch fault
  | .member (.ok name) value rest =>
    ',' :: layout.lineBreak (depth + 1) ++ quotation name ++ layout.colon ++
      value.write layout (depth + 1) ++ rest.write layout depth

end

def Tree.toText (layout : Layout) (value : Value) : String :=
  String.ofList (value.write layout 0)

end UsageReport.Json
