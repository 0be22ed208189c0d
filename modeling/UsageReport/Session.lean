import UsageReport.Report.Format
import UsageReport.Store.Load
import UsageReport.Survey.Basic

/-!
Sessions: one report and one source, worked on step by step. A step that fails leaves the report
as it was.
-/

namespace UsageReport

structure Session where
  report : Report := {}
  source : Source := {}
  /-- The buckets read since the source was loaded. -/
  reads : List Bucket := []
deriving DecidableEq

namespace Session

inductive Step where
  | begin (identifier : String)
  | parse (text : String)
  | load (content : Except FileError Content) (unreadable : Option Bucket)
  | compute (part : Section) (host : Survey.Host)
  | survey (host : Survey.Host)
  | countReads
  | render (format : String)
  | classify

inductive Failure where
  | parse (failure : Json.Failure)
  | load (error : Store.LoadError)
  | read (error : ReadError)
  | survey (error : SurveyError)
deriving DecidableEq

inductive Reply where
  | done
  | failed (failure : Failure)
  | reads (count : Bucket → Nat)
  | rendered (text : String)
  | unknownFormat (name : String)
  | classified (count : Nat)

/-- Takes over the result of a computation if it succeeds, and its reads in any case. -/
def absorb {ε : Type} (session : Session) (failure : ε → Failure) (trace : Trace ε Report) :
    Session × Reply :=
  let session := { session with
    reads := session.reads ++ trace.actions.filterMap Action.bucket? }
  match trace.result with
  | .ok report => ({ session with report }, .done)
  | .error error => (session, .failed (failure error))

def step (session : Session) : Step → Session × Reply
  | .begin identifier => ({ session with report := { identifier } }, .done)
  | .parse text =>
    match Report.shape.decode text with
    | .ok report => ({ session with report }, .done)
    | .error failure => (session, .failed (.parse failure))
  | .load content unreadable =>
    match Store.ofContent content with
    | .ok store => ({ session with source := ⟨store, unreadable⟩, reads := [] }, .done)
    | .error error => (session, .failed (.load error))
  | .compute part host =>
    session.absorb .read (Survey.update host session.source session.report part)
  | .survey host => session.absorb .survey (Survey.run host session.source)
  | .countReads => (session, .reads session.reads.count)
  | .render name =>
    match Format.ofName? name with
    | some format => (session, .rendered (session.report.render format))
    | none => (session, .unknownFormat name)
  | .classify => (session, .classified session.report.resourceControl.classified)

/-- The replies to a list of steps, each with the session after it. -/
def play (session : Session) : List Step → List (Session × Reply)
  | [] => []
  | step :: steps =>
    let result := session.step step
    result :: result.1.play steps

end UsageReport.Session
