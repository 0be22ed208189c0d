/-!
Why a JSON text cannot be read, decided by the first problem from the left.
-/

namespace UsageReport.Json

inductive Failure where
  /-- The text ended too early. -/
  | ended
  /-- What stands there is no JSON. -/
  | malformed
  /-- A well-formed value of the wrong kind. -/
  | mismatched
deriving DecidableEq

def Failure.category : Failure → String
  | .ended => "eof"
  | .malformed => "syntax"
  | .mismatched => "data"

/-- A place of a text that holds no value: the failure of a reader who wants a value there, and of
one who only skips it. Some places can be skipped, such as a number beyond all bounds. -/
structure Fault where
  wanted : Failure
  skipped : Option Failure
deriving DecidableEq

namespace Fault

/-- A fault that ends the text for every reader. -/
def final (failure : Failure) : Fault := ⟨failure, some failure⟩

/-- A value that only a reader who wants it refuses. -/
def skippable : Fault := ⟨.malformed, none⟩

end Fault

end UsageReport.Json
