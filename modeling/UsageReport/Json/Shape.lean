import UsageReport.Json.Document
import UsageReport.Json.Layout

/-!
Shapes: how the values of a type are written in JSON. One shape serves for reading and for
writing.

A record is read from an object or from the list of its fields in order. A lenient record starts
from a blank one and lets fields be absent, a strict record requires them all. Unknown names are
skipped, and a known name may stand only once.
-/

namespace UsageReport.Json

mutual

inductive Shape : Type → Type 1 where
  | text : Shape String
  | flag : Shape Bool
  | natural (greatest : Nat) : Shape Nat
  | integer (least greatest : Int) : Shape Int
  /-- A kind that is written as a signed integer of 64 bits. -/
  | kind {κ : Type} (code : κ → Int) (ofCode : Int → κ) : Shape κ
  | real : Shape Binary64
  | list {α : Type} (item : Shape α) : Shape (List α)
  | optional {α : Type} (value : Shape α) : Shape (Option α)
  | record {ρ : Type} (strict : Bool) (blank : ρ) (fields : Fields ρ) : Shape ρ

/-- The fields of a record in order, each with its name and how it is taken out of a record and put
into one. -/
inductive Fields : Type → Type 1 where
  | none {ρ : Type} : Fields ρ
  | field {ρ α : Type} (name : String) (shape : Shape α) (get : ρ → α) (set : ρ → α → ρ)
      (rest : Fields ρ) : Fields ρ

end

/-- The least integer of 64 bits with a sign. -/
def leastSigned : Int := -9223372036854775808

/-- The greatest integer of 64 bits with a sign. -/
def greatestSigned : Int := 9223372036854775807

/-- The integers of 64 bits with a sign. -/
def Shape.signedWord : Shape Int := .integer leastSigned greatestSigned

/-- The natural numbers of 64 bits. -/
def Shape.word : Shape Nat := .natural Text.greatestWord

/-- The natural numbers of 32 bits. -/
def Shape.halfWord : Shape Nat := .natural (Nat.pow 2 32 - 1)

/-- A field as a reader sees it: its name, and what its value does to the record. -/
structure Slot (ρ : Type) where
  name : String
  read : Tree Fault → Except Failure (ρ → ρ)

namespace Slot

def find? {ρ : Type} (slots : List (Slot ρ)) (name : String) : Option (Slot ρ) :=
  slots.find? fun slot => slot.name == name

end Slot

namespace Tree

/-- The failure of a reader who wanted another kind of value. -/
def refuse {α : Type} : Tree Fault → Except Failure α
  | .fault found => .error found.wanted
  | _ => .error .mismatched

def readText : Tree Fault → Except Failure String
  | .text value => .ok value
  | tree => tree.refuse

def readFlag : Tree Fault → Except Failure Bool
  | .flag value => .ok value
  | tree => tree.refuse

def readInteger (least greatest : Int) : Tree Fault → Except Failure Int
  | .number (.integer value) =>
    if least ≤ value ∧ value ≤ greatest then .ok value else .error .mismatched
  | tree => tree.refuse

/-- Any number will do; an integer is rounded. -/
def readReal : Tree Fault → Except Failure Binary64
  | .number (.integer value) =>
    .ok (Binary64.ofRatio (decide (value < 0)) value.natAbs 1)
  | .number (.real value) => .ok value
  | tree => tree.refuse

end Tree

def Items.read {α : Type} (read : Tree Fault → Except Failure α) :
    Items Fault → Except Failure (List α)
  | .close => .ok []
  | .cut fault => .error fault.wanted
  | .item value rest =>
    match read value with
    | .error failure => .error failure
    | .ok value => (rest.read read).map (value :: ·)

/-- Reads fields in order from a list. An item after the last field is malformed, whatever it is. -/
def Items.readFields {ρ : Type} (strict : Bool) (record : ρ) :
    List (Slot ρ) → Items Fault → Except Failure ρ
  | _, .cut fault => .error fault.wanted
  | [], .close => .ok record
  | _ :: _, .close => if strict then .error .mismatched else .ok record
  | [], .item _ _ => .error .malformed
  | slot :: slots, .item value rest =>
    match slot.read value with
    | .error failure => .error failure
    | .ok update => rest.readFields strict (update record) slots

/-- Reads fields by name. `seen` holds the known names so far, and a second one is a mismatch as
soon as it is read. -/
def Members.readFields {ρ : Type} (strict : Bool) (slots : List (Slot ρ)) (seen : List String)
    (record : ρ) : Members Fault → Except Failure ρ
  | .cut fault => .error fault.wanted
  | .close =>
    if strict && !slots.all (fun slot => seen.contains slot.name) then .error .mismatched
    else .ok record
  | .member (.error fault) _ _ => .error fault.wanted
  | .member (.ok name) value rest =>
    match Slot.find? slots name with
    | none =>
      match value.skip with
      | .error failure => .error failure
      | .ok () => rest.readFields strict slots seen record
    | some slot =>
      if seen.contains name then .error .mismatched
      else
        match slot.read value with
        | .error failure => .error failure
        | .ok update => rest.readFields strict slots (name :: seen) (update record)

namespace Tree

def readList {α : Type} (read : Tree Fault → Except Failure α) :
    Tree Fault → Except Failure (List α)
  | .list items => items.read read
  | tree => tree.refuse

def readOptional {α : Type} (read : Tree Fault → Except Failure α) :
    Tree Fault → Except Failure (Option α)
  | .null => .ok none
  | tree => (read tree).map some

def readRecord {ρ : Type} (strict : Bool) (blank : ρ) (slots : List (Slot ρ)) :
    Tree Fault → Except Failure ρ
  | .list items => items.readFields strict blank slots
  | .record members => members.readFields strict slots [] blank
  | tree => tree.refuse

end Tree

mutual

def Shape.read {α : Type} : Shape α → Tree Fault → Except Failure α
  | .text => Tree.readText
  | .flag => Tree.readFlag
  | .natural greatest => fun tree => (tree.readInteger 0 greatest).map Int.toNat
  | .integer least greatest => Tree.readInteger least greatest
  | .kind _ ofCode => fun tree => (tree.readInteger leastSigned greatestSigned).map ofCode
  | .real => Tree.readReal
  | .list item => Tree.readList item.read
  | .optional value => Tree.readOptional value.read
  | .record strict blank fields => Tree.readRecord strict blank fields.slots

def Fields.slots {ρ : Type} : Fields ρ → List (Slot ρ)
  | .none => []
  | .field name shape _ set rest =>
    ⟨name, fun tree => (shape.read tree).map fun value record => set record value⟩ :: rest.slots

end

mutual

def Shape.write {α : Type} : Shape α → α → Value
  | .text => .text
  | .flag => .flag
  | .natural _ => fun value => .number (.integer value)
  | .integer _ _ => fun value => .number (.integer value)
  | .kind code _ => fun value => .number (.integer (code value))
  | .real => fun value => .number (.real value)
  | .list item => fun values => .list (Items.ofList (values.map item.write))
  | .optional value => fun
    | none => .null
    | some present => value.write present
  | .record _ _ fields => fun record => .record (fields.write record)

def Fields.write {ρ : Type} : Fields ρ → ρ → Members Empty
  | .none, _ => .close
  | .field name shape get _ rest, record =>
    .member (.ok name) (shape.write (get record)) (rest.write record)

end

namespace Shape

/-- Reads a whole text. What is wrong inside the value comes before what is wrong after it. -/
def decode {α : Type} (shape : Shape α) (text : String) : Except Failure α :=
  let document := Document.ofText text
  match shape.read document.root, document.trailing with
  | .error failure, _ => .error failure
  | .ok _, some failure => .error failure
  | .ok value, none => .ok value

def encode {α : Type} (shape : Shape α) (layout : Layout) (value : α) : String :=
  (shape.write value).toText layout

end UsageReport.Json.Shape
