import LiveTest.Attribution
import LiveTest.FileTree
import LiveTest.Offsets
import LiveTest.Registry
/-!
Running a build.  The code is loaded, which registers tests, and then the tests run one at a time
in the order of their registration.  Loading and every test are units: each has a trace of its
own, and a failure is charged to the unit in which it arose.  A build with errors is not run.
-/

namespace LiveTest

/-- One thing that the top-level code of a module does. -/
inductive SetupAction
  | run (action : Action)
  | register (test : RegisteredTest)
  | disable (label : String)
  /-- Ask for the line and column of an offset in the code. -/
  | resolve (offset : Nat)
  /-- Look at everything that loading offers. -/
  | inspect

/-- A module as what its top-level code does. -/
abbrev Module := List SetupAction

/-- What top-level code learned by asking. -/
inductive Observation
  | resolved (place : LineColumn)
  | inspected (code : String) (codePath : Option Path) (lineCount : Nat) (registry : Registry)

/-- The record of a unit. -/
structure UnitRecord where
  unit : UnitIndex
  label : String
  trace : List TraceEntry
  failed : Bool

structure RunStats where
  initialRunCount : Nat
  finishedCount : Nat
  passed : Nat
  failed : Nat
  setupFailed : Bool
deriving DecidableEq

namespace RunStats

def zero : RunStats := ⟨0, 0, 0, 0, false⟩

/-- A failed setup counts only if no test finished. -/
def anyFailed (s : RunStats) : Bool := 0 < s.failed || (s.setupFailed && s.finishedCount == 0)

def isSuccess (s : RunStats) : Bool := s.initialRunCount ≤ s.finishedCount && !s.anyFailed

def afterTest (s : RunStats) (failed : Bool) : RunStats :=
  if failed then { s with finishedCount := s.finishedCount + 1, failed := s.failed + 1 }
  else { s with finishedCount := s.finishedCount + 1, passed := s.passed + 1 }

end RunStats

/-- How a run ended. -/
inductive RunState
  | done
  | abort
deriving DecidableEq

def RunState.name : RunState → String
  | .done => "done"
  | .abort => "abort"

/-- Everything that a run recorded. -/
structure RunOutcome where
  state : RunState
  records : List UnitRecord
  errors : List ThrownError
  files : SortedMap FileHandle Path
  catalog : SortedMap FileHandle (List Span)
  logs : List CodeLog
  stats : RunStats
  codePath : Option Path

/-- The record of a unit. -/
def RunOutcome.record? (o : RunOutcome) (unit : UnitIndex) : Option UnitRecord :=
  o.records.find? fun r => r.unit = unit

inductive RunEvent
  | runStarted (entryPoint : Path)
  | setupFinished (record : UnitRecord) (errors : List ThrownError) (testCount : Nat)
  | testStarted (index : Nat) (label : String)
  | testFinished (record : UnitRecord) (errors : List ThrownError)
  | runFinished (state : RunState) (stats : RunStats)

/-- What happens during a run, as an observer sees it. -/
inductive Happening
  | logged (line : LogLine)
  | event (event : RunEvent)

def debugNote (text : String) : Happening := .logged (.debug text)

def setupLabel : String := "(setup)"

/-- What playing code leads to. -/
structure Played where
  recorder : Recorder
  /-- The failure that ended the code, if one did. -/
  failure : Option Failure
  log : List LogLine

/-- Play one action. -/
def Action.play (r : Recorder) : Action → Played
  | .call c => ⟨r.record c, none, (r.warning? c).toList⟩
  | .check c => ⟨r, c.failure?, []⟩
  | .fail f => ⟨r, some f, []⟩
  | .panic text => ⟨r, some (.ofPanic text), []⟩
  | .pause => ⟨r, none, []⟩

/-- Play actions until one fails. -/
def playAll (r : Recorder) : List Action → Played
  | [] => ⟨r, none, []⟩
  | a :: rest =>
    let first := a.play r
    match first.failure with
    | some f => ⟨first.recorder, some f, first.log⟩
    | none =>
      let later := playAll first.recorder rest
      { later with log := first.log ++ later.log }

/-- A unit after its end. -/
structure FinishedUnit where
  record : UnitRecord
  errors : List ThrownError
  recorder : Recorder
  log : List LogLine

/-- Close a unit that started with `depth` pending expressions.  A failed unit leaves no more of
them behind than there were at its start. -/
def finishUnit (unit : UnitIndex) (label : String) (depth : Nat) (played : Played) :
    FinishedUnit :=
  let r := played.recorder
  match played.failure with
  | none => ⟨⟨unit, label, r.trace, false⟩, [], r.clearTrace, []⟩
  | some f =>
    ⟨⟨unit, label, r.trace, true⟩, f.charge unit r.innermost? r.trace,
      r.clearTrace.truncatePending depth,
      [.debug (unit.text ++ " `" ++ label ++ "` failed: " ++ f.summary)]⟩

/-- What top-level code works with. -/
structure LoadState where
  recorder : Recorder
  registry : Registry
  seen : List Observation
  failure : Option Failure
  log : List LogLine

/-- Play one top-level action. -/
def SetupAction.play (code : String) (codePath : Option Path) (index : OffsetIndex)
    (s : LoadState) : SetupAction → LoadState
  | .run action =>
    let played := action.play s.recorder
    { s with
      recorder := played.recorder, failure := played.failure, log := s.log ++ played.log }
  | .register test => { s with registry := s.registry.register test }
  | .disable label =>
    { s with registry := s.registry.disable, log := s.log ++ [Registry.disabledNote label] }
  | .resolve offset =>
    match index.resolve? offset with
    | some place => { s with seen := s.seen ++ [.resolved place] }
    | none => { s with failure := some (.ofPanic (some "attempt to add with overflow")) }
  | .inspect =>
    { s with seen := s.seen ++ [.inspected code codePath index.lineCount s.registry] }

/-- Play top-level actions until one fails. -/
def loadAll (code : String) (codePath : Option Path) (index : OffsetIndex) (s : LoadState) :
    Module → LoadState
  | [] => s
  | a :: rest =>
    let next := a.play code codePath index s
    if next.failure.isSome then next else loadAll code codePath index next rest

/-- Load a module. -/
def load (code : String) (codePath : Option Path) (m : Module) : LoadState :=
  loadAll code codePath (.ofText code) ⟨.empty, .empty, [], none, []⟩ m

/-- What the tests so far led to. -/
structure TestsRun where
  records : List UnitRecord
  errors : List ThrownError
  recorder : Recorder
  stats : RunStats
  history : List Happening

/-- Run one test as the unit `index`. -/
def runTest (r : Recorder) (index : Nat) (test : RegisteredTest) : FinishedUnit :=
  let started := r.clearTrace
  let played := playAll started test.body
  let finished := finishUnit (.test index) test.label started.pending.length played
  { finished with log := played.log ++ finished.log }

/-- Run the tests in order, the first as the unit `index`. -/
def runTests (r : Recorder) (stats : RunStats) (index : Nat) : List RegisteredTest → TestsRun
  | [] => ⟨[], [], r, stats, []⟩
  | test :: rest =>
    let finished := runTest r index test
    let later :=
      runTests finished.recorder (stats.afterTest finished.record.failed) (index + 1) rest
    { later with
      records := finished.record :: later.records
      errors := finished.errors ++ later.errors
      history :=
        .event (.testStarted index test.label) ::
          (finished.log.map Happening.logged ++
            .event (.testFinished finished.record finished.errors) :: later.history) }

/-- Why code could not be written out before running it. -/
inductive PersistError
  | createDirectory (dir : Path)
  | write (path : Path)
deriving DecidableEq

def PersistError.message : PersistError → String
  | .createDirectory dir => "failed to create directory `" ++ dir.text ++ "`"
  | .write path => "failed to write instrumented code to `" ++ path.text ++ "`"

/-- Where the code of a build is written: under the name of its entry point. -/
def codePathIn (dir : Path) (build : Build) : Path :=
  let stem := (build.entryPoint.fileStem?.map String.ofList).getD "bundle"
  dir.join ⟨stem ++ ".kiwi.js"⟩

/-- Write the code of a build into a directory. -/
def persistCode (tree : FileTree) (dir : Path) (build : Build) :
    FileTree × Except PersistError Path :=
  match tree.createDirectory dir with
  | none => (tree, .error (.createDirectory dir))
  | some tree =>
    let path := codePathIn dir build
    match tree.write path build.code with
    | none => (tree, .error (.write path))
    | some tree => (tree, .ok path)

/-- A run, with all that it showed and changed. -/
structure Execution where
  result : Except PersistError RunOutcome
  history : List Happening
  seen : List Observation
  tree : FileTree

/-- The outcome of a build with errors: its first error, as an error of the setup. -/
def abortOutcome (errors : List CompileError) : RunOutcome where
  state := .abort
  records := []
  errors := errors.head?.toList.map fun e =>
    (Failure.ofMessage e.message).at .setup (.compiler e.location)
  files := .empty
  catalog := .empty
  logs := []
  stats := { RunStats.zero with setupFailed := true }
  codePath := none

/-- What is told about a build with errors. -/
def abortNotes (errors : List CompileError) : List Happening :=
  debugNote "entering state state=abort" ::
    errors.head?.toList.map fun e =>
      .logged (.warn ("build reported " ++ toString errors.length ++
        " error(s), not running tests (first: " ++ e.location.text ++ ": " ++ e.message ++ ")"))

/-- What is told at the end of a run. -/
def closingNotes (o : RunOutcome) : List Happening :=
  [.logged (.info ("ran " ++ Text.counted o.stats.finishedCount "test" ++ ": " ++
      toString o.stats.passed ++ " passed, " ++ toString o.stats.failed ++ " failed" ++
      (if o.stats.setupFailed then " (setup failed)" else ""))),
    .event (.runFinished o.state o.stats)]

/-- Load a module and run its tests: what the run recorded, what happened and what the code
learned. -/
def runLoaded (build : Build) (codePath : Option Path) (m : Module) :
    RunOutcome × List Happening × List Observation :=
  let loaded := load build.code codePath m
  let setup := finishUnit .setup setupLabel 0 ⟨loaded.recorder, loaded.failure, []⟩
  let tests := loaded.registry.selected
  let stats :=
    { RunStats.zero with initialRunCount := tests.length, setupFailed := setup.record.failed }
  let run := runTests setup.recorder stats 0 tests
  let outcome : RunOutcome := {
    state := .done
    records := setup.record :: run.records
    errors := setup.errors ++ run.errors
    files := run.recorder.files
    catalog := run.recorder.catalog
    logs := run.recorder.logs
    stats := run.stats
    codePath := codePath }
  let history :=
    debugNote "entering state state=setup" ::
      ((loaded.log ++ setup.log).map Happening.logged ++
        .event (.setupFinished setup.record setup.errors tests.length) ::
        debugNote ("entering state with " ++ Text.counted tests.length "test" ++
          " state=run-tests") ::
        (run.history ++ [debugNote "entering state state=done"]))
  (outcome, history, loaded.seen)

/-- Run a build whose module does what `m` says, writing its code into `persistDir` first if
there is one. -/
def execute (persistDir : Option Path) (tree : FileTree) (build : Build) (m : Module) :
    Execution :=
  let started := Happening.event (.runStarted build.entryPoint)
  let loading := debugNote "entering state state=load"
  let finish (notes : List Happening) (codePath : Option Path) (tree : FileTree) : Execution :=
    let (outcome, history, seen) := runLoaded build codePath m
    ⟨.ok outcome, started :: loading :: (notes ++ history ++ closingNotes outcome), seen, tree⟩
  if build.hasErrors then
    let outcome := abortOutcome build.errors
    ⟨.ok outcome, started :: (abortNotes build.errors ++ closingNotes outcome), [], tree⟩
  else match persistDir with
    | none => finish [] none tree
    | some dir =>
      match persistCode tree dir build with
      | (tree, .error e) => ⟨.error e, [started, loading], [], tree⟩
      | (tree, .ok path) =>
        finish [debugNote ("persisted instrumented code to `" ++ path.text ++ "`")]
          (some path) tree

/-- The log lines among what happened. -/
def logLines (history : List Happening) : List LogLine :=
  history.filterMap fun
    | .logged line => some line
    | .event _ => none

/-- The events among what happened. -/
def runEvents (history : List Happening) : List RunEvent :=
  history.filterMap fun
    | .logged _ => none
    | .event e => some e

end LiveTest
