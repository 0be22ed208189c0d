import UsageReport.Json.Token
import UsageReport.Json.Tree

/-!
The tree of a JSON text, built from its tokens by a machine that takes them one at a time. The
machine stops at the first token that does not belong where it stands; the lists and records still
open are then cut there.
-/

namespace UsageReport.Json

/-- The tree of a text, and what is wrong after it. -/
structure Document where
  root : Tree Fault
  trailing : Option Failure

namespace Document

/-- A list or record that is still open, its last entry first. -/
inductive Frame where
  | list (items : List (Tree Fault))
  /-- A record between two members. -/
  | record (members : List (Except Fault String × Tree Fault))
  /-- A record with the name of a member whose value is not there yet. -/
  | member (members : List (Except Fault String × Tree Fault)) (name : Except Fault String)

namespace Frame

def closeItems (ending : Items Fault) (items : List (Tree Fault)) : Items Fault :=
  items.foldl (fun rest value => .item value rest) ending

def closeMembers (ending : Members Fault) (members : List (Except Fault String × Tree Fault)) :
    Members Fault :=
  members.foldl (fun rest entry => .member entry.1 entry.2 rest) ending

def add (value : Tree Fault) : Frame → Frame
  | .list items => .list (value :: items)
  | .member members name => .record ((name, value) :: members)
  | .record members => .record members

def close : Frame → Tree Fault
  | .list items => .list (closeItems .close items)
  | .record members | .member members _ => .record (closeMembers .close members)

def cut (fault : Fault) : Frame → Tree Fault
  | .list items => .list (closeItems (.cut fault) items)
  | .record members | .member members _ => .record (closeMembers (.cut fault) members)

end Frame

/-- What may come next. -/
inductive Position where
  /-- A value. -/
  | value
  /-- The first item of a list, or its end. -/
  | firstItem
  /-- The first name of a record, or its end. -/
  | firstName
  | name
  | colon
  /-- A comma, or the end of the innermost list or record. -/
  | separator
deriving DecidableEq

/-- The tree whose last value ends in a fault, all that is open being cut there. -/
def cutAll (fault : Fault) (value : Tree Fault) : List Frame → Tree Fault
  | [] => value
  | frame :: outer => cutAll fault ((frame.add value).cut fault) outer

/-- Stops where a value should be. -/
def stopAtValue (fault : Fault) (frames : List Frame) : Document :=
  ⟨cutAll fault (.fault fault) frames, none⟩

/-- Stops where the innermost list or record should go on. -/
def stopInside (fault : Fault) : List Frame → Document
  | [] => ⟨.fault fault, none⟩
  | frame :: outer => ⟨cutAll fault (frame.cut fault) outer, none⟩

/-- Stops at the end of the tokens. -/
def stopAtEnd : Position → List Frame → Document
  | .value, frames | .colon, frames => stopAtValue (.final .ended) frames
  | _, frames => stopInside (.final .ended) frames

/-- The name that a token gives, if it is a text. -/
def nameOf : Token → Option (Except Fault String)
  | .text (some name) => some (.ok name)
  | .text none => some (.error .skippable)
  | _ => none

/-- The value that a token gives by itself. -/
def scalarOf : Token → Option (Tree Fault)
  | .null => some .null
  | .flag value => some (.flag value)
  | .number (some value) => some (.number value)
  | .number none => some (.fault .skippable)
  | .text (some value) => some (.text value)
  | .text none => some (.fault .skippable)
  | _ => none

/-- The fault of a token that cannot be part of a value. -/
def valueFault : Token → Fault
  | .broken fault => fault
  | .brokenText fault => fault
  | _ => .final .malformed

/-- The fault of a token that is no name. -/
def nameFault : Token → Fault
  | .brokenText fault => fault
  | _ => .final .malformed

/-- How far a text has been read. -/
inductive State where
  | reading (position : Position) (frames : List Frame)
  /-- The whole value is there; nothing may follow. -/
  | complete (root : Tree Fault)
  | stopped (document : Document)

namespace State

def start : State := .reading .value []

/-- A complete value goes into the innermost open list or record, or is the whole. -/
def place (value : Tree Fault) : List Frame → State
  | [] => .complete value
  | frame :: outer => .reading .separator (frame.add value :: outer)

/-- Takes a token where a value may start. -/
def takeValue (frames : List Frame) (token : Token) : State :=
  match token with
  | .openList => .reading .firstItem (.list [] :: frames)
  | .openRecord => .reading .firstName (.record [] :: frames)
  | _ =>
    match scalarOf token with
    | some value => place value frames
    | none => .stopped (stopAtValue (valueFault token) frames)

/-- Takes a token where a name may stand. -/
def takeName (frames : List Frame) (token : Token) : State :=
  match frames, nameOf token with
  | .record members :: outer, some name => .reading .colon (.member members name :: outer)
  | _, _ => .stopped (stopInside (nameFault token) frames)

/-- Takes a token where a comma may stand, or the end of the innermost list or record. -/
def takeSeparator (frames : List Frame) (token : Token) : State :=
  match token, frames with
  | .comma, .list _ :: _ => .reading .value frames
  | .comma, .record _ :: _ => .reading .name frames
  | .closeList, .list items :: outer => place (Frame.list items).close outer
  | .closeRecord, .record members :: outer => place (Frame.record members).close outer
  | _, _ => .stopped (stopInside (.final .malformed) frames)

def step (state : State) (token : Token) : State :=
  match state with
  | .stopped document => .stopped document
  | .complete root => .stopped ⟨root, some .malformed⟩
  | .reading position frames =>
    match position, token with
    | .value, _ => takeValue frames token
    | .firstItem, .closeList => takeSeparator frames token
    | .firstItem, _ => takeValue frames token
    | .firstName, .closeRecord => takeSeparator frames token
    | .firstName, _ | .name, _ => takeName frames token
    | .colon, .colon => .reading .value frames
    | .colon, _ => .stopped (stopAtValue (.final .malformed) frames)
    | .separator, _ => takeSeparator frames token

def finish : State → Document
  | .stopped document => document
  | .complete root => ⟨root, none⟩
  | .reading position frames => stopAtEnd position frames

end State

def ofTokens (tokens : List Token) : Document :=
  (tokens.foldl State.step .start).finish

def ofText (text : String) : Document :=
  ofTokens (Token.scan text.toList)

end UsageReport.Json.Document
