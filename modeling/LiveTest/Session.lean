import LiveTest.Editor.State
import LiveTest.Report
/-!
From builds to what the editor shows.  Every build is run, its outcome becomes a report, and the
report is published.  A build that cannot be run or reported leaves the editor as it is.
-/

namespace LiveTest

inductive SessionError
  | run (error : PersistError)
  | report (error : ReportError)
  | editor (error : EditorError)
deriving DecidableEq

def SessionError.message : SessionError → String
  | .run _ => "error running tests"
  | .report _ => "error aggregating run results"
  | .editor _ => "error publishing results to the editor"

/-- The message of the error of a run that could not start. -/
def persistFailure : String := "error persisting instrumented code"

structure Session where
  settings : Settings
  editor : Editor
deriving DecidableEq

namespace Session

def ofSettings (settings : Settings) : Session := ⟨settings, .ofSettings settings.editor⟩

/-- The list that failures are published in. -/
def failuresList : String := "failures"

/-- What a session tells about an event of a run. -/
def eventNote : RunEvent → Option LogLine
  | .setupFinished record _ testCount =>
    if record.failed then
      some (.warn ("setup failed, running " ++ toString testCount ++ " registered " ++
        Text.plural testCount "test"))
    else none
  | .testFinished record errors =>
    if record.failed then
      some (.info ("FAIL `" ++ record.label ++ "`: " ++
        ((errors.head?.map ThrownError.message).getD "")))
    else some (.debug ("PASS `" ++ record.label ++ "`"))
  | _ => none

/-- The log of a run with what the session tells about its events. -/
def runLog (history : List Happening) : List LogLine :=
  history.filterMap fun
    | .logged line => some line
    | .event e => eventNote e

/-- Where the generated code of a build comes from, and what is told about a map that cannot be
read. -/
def sourceLookup (build : Build) : SourceLookup × List LogLine :=
  match build.sourceMap.map SourceMap.parse with
  | none => (fun _ => none, [])
  | some (.ok map) => (map.lookup, [])
  | some (.error e) =>
    (fun _ => none,
      [.warn ("ignoring source map for `" ++ build.entryPoint.text ++ "`: " ++ e.message)])

/-- An aborted run knows only the files with errors. -/
def publishMode : RunState → PublishMode
  | .abort => .overlay
  | .done => .replace

/-- Publish a report. -/
def publish (e : Editor) (o : Outlet) (report : Report) (mode : PublishMode) :
    Editor × Outlet × Except EditorError Unit :=
  match e.applyStatuses o report.statuses mode with
  | (e, o, .error err) => (e, o, .error err)
  | (e, o, .ok ()) =>
    match e.applyLabels o report.labels mode with
    | (e, o, .error err) => (e, o, .error err)
    | (e, o, .ok ()) =>
      match e.publishList o failuresList report.failures true with
      | (o, .error err) => (e, o, .error err)
      | (o, .ok ()) => (e, e.publishDetails o report.notifications)

/-- What is told before publishing. -/
def publishNote (report : Report) : String :=
  "publishing results for " ++ Text.counted report.statuses.size "file" ++ " (" ++
    toString report.failures.length ++ " failures)"

/-- A build, processed. -/
structure Processed where
  session : Session
  outlet : Outlet
  seen : List Observation
  result : Except SessionError Report

/-- Process a build, with `lookup` in place of its source map and `notes` about that. -/
def processWith (s : Session) (o : Outlet) (build : Build) (m : Module)
    (lookup : SourceLookup) (notes : List LogLine) : Processed :=
  let run := execute s.settings.persistDir o.tree build m
  let o := { o with tree := run.tree, log := o.log ++ runLog run.history }
  match run.result with
  | .error e => ⟨s, o, run.seen, .error (.run e)⟩
  | .ok outcome =>
    let o := { o with log := o.log ++ notes }
    match Report.ofOutcome ⟨s.settings.root, build.entryPoint⟩ lookup outcome with
    | .error e => ⟨s, o, run.seen, .error (.report e)⟩
    | .ok report =>
      let (editor, o, result) :=
        publish s.editor (o.note (publishNote report)) report (publishMode outcome.state)
      ⟨{ s with editor := editor }, o, run.seen,
        match result with
        | .error e => .error (.editor e)
        | .ok () => .ok report⟩

/-- Process a build whose origins can all be told. -/
def process (s : Session) (o : Outlet) (build : Build) (m : Module) : Processed :=
  let (lookup, notes) := sourceLookup build
  s.processWith o build m lookup notes

/-- Process a build, unless an origin that a report looks up does not fit into 32 bits. -/
def processChecked (s : Session) (o : Outlet) (build : Build) (m : Module) :
    Except CoordinateOverflow Processed :=
  match build.sourceMap.map SourceMap.parse,
      (execute s.settings.persistDir o.tree build m).result with
  | some (.ok map), .ok outcome =>
    (Report.ofOutcomeChecked ⟨s.settings.root, build.entryPoint⟩ map outcome).map fun _ =>
      s.process o build m
  | _, _ => .ok (s.process o build m)

end Session
end LiveTest
