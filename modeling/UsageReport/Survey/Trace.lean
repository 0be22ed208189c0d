import UsageReport.Survey.Event

/-!
Computations that leave a trace: the actions they took, in order, and how they ended. A computation
that fails keeps the actions it took before.
-/

namespace UsageReport

inductive Action where
  | read (bucket : Bucket)
  | log (event : Event)
  /-- Hands an outcome to the destination at some place. -/
  | hand (place : Nat) (outcome : Outcome)
  /-- Puts an outcome into the channel at some place among the destinations. -/
  | send (place : Nat) (outcome : Outcome)
  /-- Writes a report to a file of its own. -/
  | save (report : Report)
  | print (text : String)
deriving DecidableEq

namespace Action

def bucket? : Action → Option Bucket
  | .read bucket => some bucket
  | _ => none

def event? : Action → Option Event
  | .log event => some event
  | _ => none

end Action

/-- How often a bucket was read. -/
def readCount (actions : List Action) (bucket : Bucket) : Nat :=
  (actions.filterMap Action.bucket?).count bucket

def events (actions : List Action) : List Event := actions.filterMap Action.event?

structure Trace (ε α : Type) where
  actions : List Action
  result : Except ε α

namespace Trace

variable {ε α β : Type}

def andThen (trace : Trace ε α) (next : α → Trace ε β) : Trace ε β :=
  match trace.result with
  | .error error => ⟨trace.actions, .error error⟩
  | .ok value => ⟨trace.actions ++ (next value).actions, (next value).result⟩

instance : Monad (Trace ε) where
  pure value := ⟨[], .ok value⟩
  bind := andThen

def take (action : Action) : Trace ε Unit := ⟨[action], .ok ()⟩

def mapError {δ : Type} (f : ε → δ) (trace : Trace ε α) : Trace δ α :=
  ⟨trace.actions, trace.result.mapError f⟩

end Trace

/-- Reads a bucket, whether it can be read or not. -/
def Source.trace (source : Source) (bucket : Bucket) : Trace ReadError bucket.Held :=
  ⟨[.read bucket], source.read bucket⟩

end UsageReport
