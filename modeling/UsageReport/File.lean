/-!
Contents of files and of environment variables, and what the system says when it cannot deliver
them.
-/

namespace UsageReport

/-- Bytes that are text in UTF-8, or are not. -/
inductive Content where
  | text (value : String)
  | binary (bytes : List UInt8)
deriving DecidableEq

namespace Content

def ofBytes (bytes : ByteArray) : Content :=
  match String.fromUTF8? bytes with
  | some value => .text value
  | none => .binary bytes.toList

def text? : Content → Option String
  | .text value => some value
  | .binary _ => none

end Content

inductive FileError where
  | missing
  | occupied
  | throughFile
  | directory
  | nameTooLong
  | notText
  /-- Anything else, in the words of the system. -/
  | other (words : String)
deriving DecidableEq

namespace FileError

def words : FileError → String
  | .missing => "No such file or directory (os error 2)"
  | .occupied => "File exists (os error 17)"
  | .throughFile => "Not a directory (os error 20)"
  | .directory => "Is a directory (os error 21)"
  | .nameTooLong => "File name too long (os error 36)"
  | .notText => "stream did not contain valid UTF-8"
  | .other words => words

def message (error : FileError) : String := "IO error: " ++ error.words

end FileError

end UsageReport
