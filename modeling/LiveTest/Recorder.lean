import LiveTest.Log
import LiveTest.Path
import LiveTest.Position
/-!
Recording what instrumented code reports while it runs: the names and the catalogs of its files,
the expressions it has begun and not finished, the trace of the current unit and its log.
-/

namespace LiveTest

/-- A report of instrumented code. -/
inductive ProbeCall
  /-- The file called `name` goes by `handle`. -/
  | registerFile (handle : FileHandle) (name : Path)
  /-- The file has these spans of code. -/
  | registerCatalog (handle : FileHandle) (spans : List Span)
  /-- The expression at this position begins. -/
  | begins (position : Position)
  /-- The expression at this position is complete. -/
  | completes (position : Position)
  /-- The code enters this span. -/
  | enters (span : Span)
  /-- The code logs a text. -/
  | logs (position : Position) (text : String)
deriving DecidableEq

/-- A text that code logged. -/
structure CodeLog where
  position : Position
  text : String
deriving DecidableEq

structure Recorder where
  files : SortedMap FileHandle Path
  catalog : SortedMap FileHandle (List Span)
  /-- The expressions begun and not finished, the innermost first. -/
  pending : List Position
  trace : List TraceEntry
  logs : List CodeLog
deriving DecidableEq

namespace Recorder

def empty : Recorder := ⟨.empty, .empty, [], [], []⟩

/-- Finish the innermost of the pending expressions at `p`, and all begun after it: they were
abandoned.  Without an expression at `p` nothing changes. -/
def closePending (p : Position) (pending : List Position) : List Position :=
  if p ∈ pending then (pending.dropWhile (· ≠ p)).tail else pending

/-- The state after a report.  A handle keeps the name that it was registered with first. -/
def record (r : Recorder) : ProbeCall → Recorder
  | .registerFile handle name => { r with files := r.files.insertIfNew handle name }
  | .registerCatalog handle spans =>
    { r with catalog := r.catalog.upsert handle fun old => old.getD [] ++ spans }
  | .begins p => { r with pending := p :: r.pending }
  | .completes p =>
    { r with pending := closePending p r.pending, trace := r.trace ++ [.point p] }
  | .enters s => { r with trace := r.trace ++ [.span s] }
  | .logs p text => { r with logs := r.logs ++ [⟨p, text⟩] }

/-- What is worth a warning about a report, before it is recorded. -/
def warning? (r : Recorder) : ProbeCall → Option LogLine
  | .registerFile handle name =>
    match r.files.get? handle with
    | some existing =>
      if Key.same existing name then none
      else some (.warn ("file handle " ++ handle.text ++ " registered as `" ++ name.text ++
        "`, but is already `" ++ existing.text ++ "` (keeping `" ++ existing.text ++ "`)"))
    | none => none
  | .registerCatalog handle _ =>
    if (r.catalog.get? handle).getD [] = [] then none
    else some (.warn ("catalog for file handle " ++ handle.text ++
      " registered more than once, extending it"))
  | _ => none

/-- The innermost expression that has not finished. -/
def innermost? (r : Recorder) : Option Position := r.pending.head?

/-- Forget the pending expressions but the outermost `depth`. -/
def truncatePending (r : Recorder) (depth : Nat) : Recorder :=
  { r with pending := r.pending.drop (r.pending.length - depth) }

def clearTrace (r : Recorder) : Recorder := { r with trace := [] }

end Recorder
end LiveTest
