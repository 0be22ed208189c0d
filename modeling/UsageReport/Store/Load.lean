import UsageReport.File
import UsageReport.Store.Basic

/-!
Loading a store from the content of its file.
-/

namespace UsageReport.Store

inductive LoadError where
  | file (error : FileError)
  | json (failure : Json.Failure)
deriving DecidableEq

/-- The words of the JSON library, which tell what a JSON failure is and where in the text it lies,
are left out. -/
def LoadError.message : LoadError → String
  | .file error => error.message
  | .json _ => "store snapshot JSON: "

def ofText (text : String) : Except LoadError Store :=
  match shape.decode text with
  | .ok store => .ok store
  | .error failure => .error (.json failure)

def ofContent : Except FileError Content → Except LoadError Store
  | .error error => .error (.file error)
  | .ok (.binary _) => .error (.file .notText)
  | .ok (.text text) => ofText text

end UsageReport.Store
