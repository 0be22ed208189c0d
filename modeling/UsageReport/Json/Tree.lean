import UsageReport.Json.Numeral

/-!
Values of a JSON text as trees. A tree may hold faults, places without a value, of a type that the
tree names: a text that is read gives a tree over `Fault`, and a tree over the empty type has none
and is a plain value.
-/

namespace UsageReport.Json

mutual

inductive Tree (φ : Type) where
  | null
  | flag (value : Bool)
  | number (value : Number)
  | text (value : String)
  | fault (fault : φ)
  | list (items : Items φ)
  | record (members : Members φ)

/-- The items of a list, up to its closing bracket or the fault that cuts it. -/
inductive Items (φ : Type) where
  | close
  | cut (fault : φ)
  | item (value : Tree φ) (rest : Items φ)

/-- The members of a record, up to its closing brace or the fault that cuts it. -/
inductive Members (φ : Type) where
  | close
  | cut (fault : φ)
  | member (name : Except φ String) (value : Tree φ) (rest : Members φ)

end

/-- A value without faults. -/
abbrev Value := Tree Empty

namespace Items

def ofList {φ : Type} : List (Tree φ) → Items φ
  | [] => .close
  | value :: rest => .item value (ofList rest)

end Items

mutual

/-- What a reader meets who only skips a value. -/
def Tree.skip : Tree Fault → Except Failure Unit
  | .null | .flag _ | .number _ | .text _ => .ok ()
  | .fault fault =>
    match fault.skipped with
    | none => .ok ()
    | some failure => .error failure
  | .list items => items.skip
  | .record members => members.skip

def Items.skip : Items Fault → Except Failure Unit
  | .close => .ok ()
  | .cut fault => .error (fault.skipped.getD fault.wanted)
  | .item value rest =>
    match value.skip with
    | .error failure => .error failure
    | .ok () => rest.skip

def Members.skip : Members Fault → Except Failure Unit
  | .close => .ok ()
  | .cut fault => .error (fault.skipped.getD fault.wanted)
  | .member _ value rest =>
    match value.skip with
    | .error failure => .error failure
    | .ok () => rest.skip

end

end UsageReport.Json
