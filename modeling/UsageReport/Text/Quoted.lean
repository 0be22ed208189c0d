import UsageReport.Text.Unprintable

/-!
Quoted text as error messages show it: between double quotes, with a backslash before what would end
or hide the text, and the code point of a character that has no glyph of its own.
-/

namespace UsageReport.Text

/-- The written form of one character inside the quotes. -/
def quotedCharacter (c : Char) : List Char :=
  if c = '"' then ['\\', '"']
  else if c = '\\' then ['\\', '\\']
  else if c = '\n' then ['\\', 'n']
  else if c = '\r' then ['\\', 'r']
  else if c = '\t' then ['\\', 't']
  else if c = '\x00' then ['\\', '0']
  else if isUnprintable c then
    ['\\', 'u', '\x7b'] ++ Nat.toDigits 16 c.toNat ++ ['\x7d']
  else [c]

def quoted (text : String) : String :=
  String.ofList ('"' :: text.toList.flatMap quotedCharacter ++ ['"'])

end UsageReport.Text
