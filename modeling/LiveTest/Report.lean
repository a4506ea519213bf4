import LiveTest.Run
import LiveTest.SourceMap
/-!
What a run says about the lines of the files: their statuses and labels, the list of failures, and
the details behind each failing line.  The strongest status of a line wins, so the order in which
records are taken in does not matter.
-/

namespace LiveTest

/-- A recorded run that contradicts itself. -/
inductive ReportError
  /-- A handle was used without a name. -/
  | unregisteredFile (handle : FileHandle)
  /-- A span of the catalog ends before it starts. -/
  | malformedSpan (handle : FileHandle) (span : Span)
deriving DecidableEq

def ReportError.message : ReportError → String
  | .unregisteredFile handle =>
    "file handle " ++ handle.text ++ " was used but never registered"
  | .malformedSpan handle span =>
    "catalog span for file handle " ++ handle.text ++ " ends before it starts (starts at " ++
      toString span.start.line ++ ":" ++ toString span.start.col ++ ", ends at " ++
      toString span.endLine ++ ":" ++ toString span.endCol ++ ")"

structure Report where
  statuses : FileStatuses
  labels : FileLabels
  failures : List Location
  notifications : List Notification
  suiteFailed : Bool

/-- Where the names of a run's files lead. -/
structure Project where
  root : Path
  entryPoint : Path

/-- The place in a source that a place in the generated code comes from, if that is known. -/
abbrev SourceLookup := LineColumn → Option SourcePlace

/-- What a source map knows.  Reports look up only places that it can tell in 32 bits: the others
are found before. -/
def SourceMap.lookup (m : SourceMap) : SourceLookup := fun place =>
  match m.locate place with
  | .ok source => source
  | .error _ => none

namespace Report

/-- The path of the file that goes by a handle. -/
def resolve (project : Project) (files : SortedMap FileHandle Path) (handle : FileHandle) :
    Except ReportError Path :=
  match files.get? handle with
  | some name => .ok (project.root.join name)
  | none => .error (.unregisteredFile handle)

/-- The file and the line that an error is shown at.  The sentinel is shown in the first line of
the file with handle zero, or else of the entry point. -/
def resolveSite (project : Project) (files : SortedMap FileHandle Path) :
    ErrorSite → Except ReportError (Path × Nat)
  | .probe p =>
    if p.isSentinel then
      .ok (project.root.join ((files.get? p.file).getD project.entryPoint), 1)
    else (resolve project files p.file).map fun path => (path, p.line)
  | .compiler l => .ok (project.root.join l.file, max l.line 1)

/-- Enter a file without lines unless it is there. -/
def enterFile (statuses : FileStatuses) (path : Path) : FileStatuses :=
  statuses.insertIfNew path .empty

/-- Raise the status of a line. -/
def raiseLine (status : LineStatus) (lines : LineStatuses) (line : Nat) : LineStatuses :=
  lines.upsert line fun old => (old.getD status).join status

/-- Raise the status of some lines of a file. -/
def raiseLines (statuses : FileStatuses) (path : Path) (lines : List Nat) (status : LineStatus) :
    FileStatuses :=
  statuses.upsert path fun old => lines.foldl (raiseLine status) (old.getD .empty)

/-- Enter the lines of a catalog's spans as uncovered. -/
def coverSpans (handle : FileHandle) (path : Path) (statuses : FileStatuses) :
    List Span → Except ReportError FileStatuses
  | [] => .ok statuses
  | span :: rest =>
    if span.WellFormed then
      coverSpans handle path (raiseLines statuses path span.lines .uncovered) rest
    else .error (.malformedSpan handle span)

def coverCatalog (project : Project) (files : SortedMap FileHandle Path)
    (statuses : FileStatuses) : List (FileHandle × List Span) → Except ReportError FileStatuses
  | [] => .ok statuses
  | (handle, spans) :: rest => do
    let path ← resolve project files handle
    let statuses ← coverSpans handle path (enterFile statuses path) spans
    coverCatalog project files statuses rest

/-- Take in the trace of a unit. -/
def traceLines (project : Project) (files : SortedMap FileHandle Path) (status : LineStatus)
    (statuses : FileStatuses) : List TraceEntry → Except ReportError FileStatuses
  | [] => .ok statuses
  | e :: rest => do
    let path ← resolve project files e.file
    traceLines project files status (raiseLines statuses path e.lines status) rest

def traceRecords (project : Project) (files : SortedMap FileHandle Path)
    (statuses : FileStatuses) : List UnitRecord → Except ReportError FileStatuses
  | [] => .ok statuses
  | r :: rest => do
    let statuses ← traceLines project files (.ofFailed r.failed) statuses r.trace
    traceRecords project files statuses rest

/-- An error with the file and line that it is shown at. -/
structure PlacedError where
  file : Path
  line : Nat
  error : ThrownError

def placeErrors (project : Project) (files : SortedMap FileHandle Path) :
    List ThrownError → Except ReportError (List PlacedError)
  | [] => .ok []
  | e :: rest => do
    let (file, line) ← resolveSite project files e.site
    return ⟨file, line, e⟩ :: (← placeErrors project files rest)

/-- Give the line of an error the status of a failure. -/
def failLine (statuses : FileStatuses) (e : PlacedError) : FileStatuses :=
  raiseLines statuses e.file [e.line] .fail

def failure (e : PlacedError) : Location := ⟨e.file, e.line, e.error.message⟩

/-- The errors of every file and line that has some, in the order in which they arose. -/
abbrev ErrorsByLine := SortedMap (Path × Nat) (List ThrownError)

def groupErrors (errors : List PlacedError) : ErrorsByLine :=
  errors.foldl
    (fun m e => m.upsert (e.file, e.line) fun old => old.getD [] ++ [e.error]) .empty

/-- The first lines of the messages, each once. -/
def errorText (errors : List ThrownError) : String :=
  Text.join "; " ((errors.map fun e => Text.firstLine e.message).eraseDups)

def setLabel (labels : FileLabels) (path : Path) (line : Nat) (label : Label) : FileLabels :=
  labels.upsert path fun old => (old.getD .empty).insert line label

def errorLabels (errors : ErrorsByLine) : FileLabels :=
  errors.entries.foldl
    (fun labels e => setLabel labels e.1.1 e.1.2 ⟨errorText e.2, .error⟩) .empty

/-- The source of an error's place; only a place that code reported has one. -/
def sourceOf (lookup : SourceLookup) : ErrorSite → Option SourcePlace
  | .probe p => if p.isSentinel then none else lookup ⟨p.line, p.col⟩
  | .compiler _ => none

def sourceJson (s : SourcePlace) : Json :=
  .object ([("source", .text s.source), ("line", .nat s.line), ("col", .nat s.col)] ++
    (s.name.map fun n => ("name", Json.text n)).toList)

/-- The label of the unit that an error arose in. -/
def unitLabel (o : RunOutcome) (unit : UnitIndex) : String :=
  ((o.record? unit).map UnitRecord.label).getD setupLabel

/-- The details of an error. -/
def detail (o : RunOutcome) (lookup : SourceLookup) (e : ThrownError) : Json :=
  .object ([("message", .text e.message)] ++
    (e.actual.map fun v => ("actual", v)).toList ++
    (e.expected.map fun v => ("expected", v)).toList ++
    [("unit", .text (unitLabel o e.unit)), ("unit-index", .int e.unit.number)] ++
    ((sourceOf lookup e.site).map fun s => ("original", sourceJson s)).toList)

def notification (o : RunOutcome) (lookup : SourceLookup) (file : Path) (line : Nat)
    (errors : List ThrownError) : Notification :=
  ⟨file, line, (Json.array (errors.map (detail o lookup))).pretty⟩

/-- Show a logged text on its line, unless the line shows an error. -/
def logLabel (labels : FileLabels) (path : Path) (log : CodeLog) : FileLabels :=
  let line := log.position.line
  let shown := (labels.get? path).bind fun lines => lines.get? line
  match shown with
  | some ⟨_, .error⟩ => labels
  | _ => setLabel labels path line ⟨Text.firstLine log.text, .normal⟩

def logLabels (project : Project) (files : SortedMap FileHandle Path) (labels : FileLabels) :
    List CodeLog → Except ReportError FileLabels
  | [] => .ok labels
  | log :: rest => do
    let path ← resolve project files log.position.file
    logLabels project files (logLabel labels path log) rest

/-- The report of a run. -/
def ofOutcome (project : Project) (lookup : SourceLookup) (o : RunOutcome) :
    Except ReportError Report := do
  let covered ← coverCatalog project o.files .empty o.catalog.entries
  let traced ← traceRecords project o.files covered o.records
  let errors ← placeErrors project o.files o.errors
  let byLine := groupErrors errors
  let labels ← logLabels project o.files (errorLabels byLine) o.logs
  return {
    statuses := errors.foldl failLine traced
    labels := labels
    failures := errors.map failure
    notifications := byLine.entries.map fun e => notification o lookup e.1.1 e.1.2 e.2
    suiteFailed := !o.stats.isSuccess }

/-- Look up the origin of an error's place, if it has one. -/
def checkOrigin (map : SourceMap) : ErrorSite → Except CoordinateOverflow Unit
  | .probe p => if p.isSentinel then .ok () else (map.locate ⟨p.line, p.col⟩).map fun _ => ()
  | .compiler _ => .ok ()

def checkOrigins (map : SourceMap) : List ThrownError → Except CoordinateOverflow Unit
  | [] => .ok ()
  | e :: rest => do
    checkOrigin map e.site
    checkOrigins map rest

/-- The report of a run with the origins that a source map tells.  An origin that does not fit into
32 bits ends everything, once the errors are placed and before the logs are shown. -/
def ofOutcomeChecked (project : Project) (map : SourceMap) (o : RunOutcome) :
    Except CoordinateOverflow (Except ReportError Report) :=
  let placed := do
    let covered ← coverCatalog project o.files .empty o.catalog.entries
    let _ ← traceRecords project o.files covered o.records
    placeErrors project o.files o.errors
  match placed with
  | .error e => .ok (.error e)
  | .ok _ => (checkOrigins map o.errors).map fun _ => ofOutcome project map.lookup o

end Report
end LiveTest
