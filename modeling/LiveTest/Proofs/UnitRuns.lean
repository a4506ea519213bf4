import LiveTest.Proofs.UnitRecords
import Mathlib.Data.List.Basic
/-!
The units of a run, one after the other.  A unit comes with the calls that it made, the failure that
ended it, the recorder that it started with and what was made of it at its end.  Its errors and what
it leaves pending depend on its own calls and on what was pending when it started, and on nothing
else; the records and errors of a run are those of its units, each of which starts with what the
one before it left.
-/

namespace LiveTest

/-- What is pending after a call. -/
def ProbeCall.pendingAfter (pending : List Position) : ProbeCall → List Position
  | .begins p => p :: pending
  | .completes p => Recorder.closePending p pending
  | _ => pending

theorem Recorder.pending_record (r : Recorder) (c : ProbeCall) :
    (r.record c).pending = c.pendingAfter r.pending := by
  cases c <;> rfl

theorem Recorder.pending_recordAll (r : Recorder) (calls : List ProbeCall) :
    (r.recordAll calls).pending = calls.foldl ProbeCall.pendingAfter r.pending := by
  induction calls generalizing r with
  | nil => rfl
  | cons c rest ih => rw [recordAll_cons, ih, pending_record, List.foldl_cons]

structure UnitRun where
  unit : UnitIndex
  label : String
  calls : List ProbeCall
  /-- The failure that ended the unit, if one did. -/
  failure : Option Failure
  /-- The recorder before the unit. -/
  start : Recorder
  finished : FinishedUnit

namespace UnitRun

def trace (u : UnitRun) : List TraceEntry := u.calls.filterMap ProbeCall.entry?

/-- The expressions pending when the unit ended, the innermost first. -/
def pending (u : UnitRun) : List Position :=
  u.calls.foldl ProbeCall.pendingAfter u.start.pending

/-- The errors of the unit if this expression is the innermost that is pending: its failure is
charged there and to the other files of its trace. -/
def errorsAt (u : UnitRun) (innermost : Option Position) : List ThrownError :=
  match u.failure with
  | none => []
  | some f => f.charge u.unit innermost u.trace

def errors (u : UnitRun) : List ThrownError := u.errorsAt u.pending.head?

/-- What the unit leaves pending: everything if it passed, and after a failure the outermost
expressions, as many as there were when it started. -/
def left (u : UnitRun) : List Position :=
  match u.failure with
  | none => u.pending
  | some _ => u.pending.drop (u.pending.length - u.start.pending.length)

/-- What was made of the unit fits what it did. -/
structure Closed (u : UnitRun) : Prop where
  record : u.finished.record = ⟨u.unit, u.label, u.trace, u.failure.isSome⟩
  errors : u.finished.errors = u.errors
  pending : u.finished.recorder.pending = u.left

/-- A unit is closed by what its calls recorded once the trace was cleared.  Its log does not
matter. -/
theorem closed_finishUnit (unit : UnitIndex) (label : String) (calls : List ProbeCall)
    (start : Recorder) (played : Played) (log : List LogLine)
    (hplayed : played.recorder = start.clearTrace.recordAll calls) :
    Closed ⟨unit, label, calls, played.failure, start,
      { finishUnit unit label start.pending.length played with log := log }⟩ := by
  have htrace : played.recorder.trace = calls.filterMap ProbeCall.entry? := by
    rw [hplayed, Recorder.trace_recordAll]
    rfl
  have hpending : played.recorder.pending =
      calls.foldl ProbeCall.pendingAfter start.pending := by
    rw [hplayed, Recorder.pending_recordAll]
    rfl
  constructor
  · simp only [finishUnit_record, htrace, trace]
  · cases hfailure : played.failure with
    | none => simp only [finishUnit, hfailure, UnitRun.errors, errorsAt]
    | some f =>
        simp only [finishUnit, hfailure, UnitRun.errors, errorsAt, UnitRun.pending, trace,
          Recorder.innermost?, htrace, hpending]
  · cases hfailure : played.failure with
    | none => simp only [finishUnit, hfailure, left, UnitRun.pending, Recorder.clearTrace, hpending]
    | some f =>
        simp only [finishUnit, hfailure, left, UnitRun.pending, Recorder.truncatePending,
          Recorder.clearTrace, hpending]

end UnitRun

/-- The tests as units, the first of them with this recorder and this index. -/
def testUnits (r : Recorder) (index : Nat) : List RegisteredTest → List UnitRun
  | [] => []
  | test :: rest =>
    let finished := runTest r index test
    ⟨.test index, test.label, callsOf test.body, failureOf test.body, r, finished⟩ ::
      testUnits finished.recorder (index + 1) rest

namespace Module

/-- The top-level code as a unit. -/
def setupUnit (index : OffsetIndex) (m : Module) : UnitRun where
  unit := .setup
  label := "(setup)"
  calls := m.calls index
  failure := m.failure? index
  start := .empty
  finished := finishUnit .setup setupLabel 0
    ⟨Recorder.empty.recordAll (m.calls index), m.failure? index, []⟩

/-- The units of a run: the top-level code, then the tests. -/
def units (index : OffsetIndex) (m : Module) : List UnitRun :=
  m.setupUnit index ::
    testUnits (m.setupUnit index).finished.recorder 0 (m.selected index)

theorem closed_setupUnit (index : OffsetIndex) (m : Module) : (m.setupUnit index).Closed :=
  UnitRun.closed_finishUnit .setup setupLabel (m.calls index) .empty
    ⟨Recorder.empty.recordAll (m.calls index), m.failure? index, []⟩ _ rfl

end Module

theorem closed_runTest (r : Recorder) (index : Nat) (test : RegisteredTest) :
    UnitRun.Closed ⟨.test index, test.label, callsOf test.body, failureOf test.body, r,
      runTest r index test⟩ := by
  rw [← playAll_failure r.clearTrace test.body]
  exact UnitRun.closed_finishUnit (.test index) test.label (callsOf test.body) r _ _
    (playAll_recorder r.clearTrace test.body)

/-- Units that follow one another: each is closed, and starts with the recorder that the one before
it left. -/
def Linked (r : Recorder) : List UnitRun → Prop
  | [] => True
  | u :: rest => u.start = r ∧ u.Closed ∧ Linked u.finished.recorder rest

theorem linked_testUnits (r : Recorder) (index : Nat) (tests : List RegisteredTest) :
    Linked r (testUnits r index tests) := by
  induction tests generalizing r index with
  | nil => trivial
  | cons test rest ih => exact ⟨rfl, closed_runTest r index test, ih _ _⟩

theorem Module.linked_units (index : OffsetIndex) (m : Module) :
    Linked .empty (m.units index) :=
  ⟨rfl, m.closed_setupUnit index, linked_testUnits _ _ _⟩

theorem Linked.closed {r : Recorder} {units : List UnitRun} (h : Linked r units) :
    ∀ u ∈ units, u.Closed := by
  induction units generalizing r with
  | nil => simp
  | cons u rest ih =>
      obtain ⟨-, hclosed, hrest⟩ := h
      exact List.forall_mem_cons.2 ⟨hclosed, ih hrest⟩

theorem exists_index_of_mem_testUnits {r : Recorder} {index : Nat}
    {tests : List RegisteredTest} {u : UnitRun} (hu : u ∈ testUnits r index tests) :
    ∃ i, index ≤ i ∧ u.unit = .test i := by
  induction tests generalizing r index with
  | nil => cases hu
  | cons test rest ih =>
      rcases List.mem_cons.1 hu with rfl | hu
      · exact ⟨index, Nat.le_refl index, rfl⟩
      · obtain ⟨i, hi, hunit⟩ := ih hu
        exact ⟨i, Nat.le_of_succ_le hi, hunit⟩

theorem pairwise_testUnits (r : Recorder) (index : Nat) (tests : List RegisteredTest) :
    (testUnits r index tests).Pairwise fun u v => u.unit ≠ v.unit := by
  induction tests generalizing r index with
  | nil => exact .nil
  | cons test rest ih =>
      refine .cons (fun v hv heq => ?_) (ih _ _)
      obtain ⟨i, hi, hunit⟩ := exists_index_of_mem_testUnits hv
      rw [hunit] at heq
      cases heq
      exact absurd hi (Nat.not_succ_le_self index)

/-- No two units of a run have the same index. -/
theorem Module.pairwise_units (index : OffsetIndex) (m : Module) :
    (m.units index).Pairwise fun u v => u.unit ≠ v.unit := by
  refine .cons (fun v hv heq => ?_) (pairwise_testUnits _ _ _)
  obtain ⟨i, -, hunit⟩ := exists_index_of_mem_testUnits hv
  rw [hunit] at heq
  cases heq

theorem runTests_eq_testUnits (r : Recorder) (stats : RunStats) (index : Nat)
    (tests : List RegisteredTest) :
    (runTests r stats index tests).records =
        (testUnits r index tests).map (fun u => u.finished.record) ∧
      (runTests r stats index tests).errors =
        (testUnits r index tests).flatMap fun u => u.finished.errors := by
  induction tests generalizing r stats index with
  | nil => exact ⟨rfl, rfl⟩
  | cons test rest ih =>
      obtain ⟨hrecords, herrors⟩ := ih (runTest r index test).recorder
        (stats.afterTest (runTest r index test).record.failed) (index + 1)
      refine ⟨?_, ?_⟩
      · rw [testUnits, List.map_cons, ← hrecords]
        rfl
      · rw [testUnits, List.flatMap_cons, ← herrors]
        rfl

theorem finishedSetup_eq (code : String) (codePath : Option Path) (m : Module) :
    finishedSetup code codePath m = (m.setupUnit (.ofText code)).finished := by
  obtain ⟨hrecorder, -, hfailure⟩ := load_spec code codePath m
  rw [finishedSetup, hrecorder, hfailure]
  rfl

/-- A run that is loaded records and charges what its units do. -/
theorem runLoaded_units (build : Build) (codePath : Option Path) (m : Module) :
    (runLoaded build codePath m).1.records =
        (m.units (.ofText build.code)).map (fun u => u.finished.record) ∧
      (runLoaded build codePath m).1.errors =
        (m.units (.ofText build.code)).flatMap UnitRun.errors := by
  obtain ⟨stats, run, hrun, houtcome⟩ := runLoaded_eq build codePath m
  obtain ⟨hrecords, herrors⟩ := runTests_eq_testUnits
    (finishedSetup build.code codePath m).recorder stats 0 (m.selected (.ofText build.code))
  have hclosed := (m.linked_units (.ofText build.code)).closed
  rw [houtcome, hrun, hrecords, herrors, finishedSetup_eq]
  refine ⟨rfl, ?_⟩
  rw [← List.flatMap_congr fun u hu => (hclosed u hu).errors]
  rfl

end LiveTest
