import LiveTest.Proofs.Execution
import LiveTest.Proofs.UnitBehaviour
/-!
What a run records, unit by unit.  Every unit starts with an empty trace and leaves none behind,
so that its record holds the entries of its own calls; files, catalog and log go on from unit to
unit.  Both are carried through the tests by one induction each, with what the earlier units
reported as the invariant.
-/

namespace LiveTest

theorem finishUnit_record (unit : UnitIndex) (label : String) (depth : Nat) (played : Played) :
    (finishUnit unit label depth played).record =
      ⟨unit, label, played.recorder.trace, played.failure.isSome⟩ := by
  cases hfailure : played.failure <;> simp [finishUnit, hfailure]

theorem heard_finishUnit {played : Played} {calls : List ProbeCall}
    (hplayed : played.recorder.Heard calls) (unit : UnitIndex) (label : String)
    (depth : Nat) : (finishUnit unit label depth played).recorder.Heard calls := by
  cases hfailure : played.failure with
  | none =>
      simp only [finishUnit, hfailure]
      exact hplayed.clearTrace
  | some f =>
      simp only [finishUnit, hfailure]
      exact hplayed.clearTrace.truncatePending depth

/-- The record of a test: what its body calls, and whether it fails. -/
def RegisteredTest.recordAt (index : Nat) (test : RegisteredTest) : UnitRecord :=
  ⟨.test index, test.label, (callsOf test.body).filterMap ProbeCall.entry?,
    (failureOf test.body).isSome⟩

/-- The record of the top-level code. -/
def Module.setupRecord (index : OffsetIndex) (m : Module) : UnitRecord :=
  ⟨.setup, setupLabel, (m.calls index).filterMap ProbeCall.entry?, (m.failure? index).isSome⟩

theorem runTest_record (r : Recorder) (index : Nat) (test : RegisteredTest) :
    (runTest r index test).record = test.recordAt index := by
  rw [runTest, finishUnit_record, playAll_failure, playAll_recorder,
    Recorder.trace_recordAll]
  rfl

theorem heard_runTest {r : Recorder} {earlier : List ProbeCall} (hr : r.Heard earlier)
    (index : Nat) (test : RegisteredTest) :
    (runTest r index test).recorder.Heard (earlier ++ callsOf test.body) := by
  apply heard_finishUnit
  rw [playAll_recorder]
  exact hr.clearTrace.recordAll _

theorem runTests_records (r : Recorder) (stats : RunStats) (index : Nat)
    (tests : List RegisteredTest) :
    (runTests r stats index tests).records =
      (tests.zipIdx index).map fun t => t.1.recordAt t.2 := by
  induction tests generalizing r stats index with
  | nil => rfl
  | cons test rest ih =>
      rw [runTests, List.zipIdx_cons, List.map_cons, ← ih, runTest_record]

theorem heard_runTests {r : Recorder} {earlier : List ProbeCall} (hr : r.Heard earlier)
    (stats : RunStats) (index : Nat) (tests : List RegisteredTest) :
    (runTests r stats index tests).recorder.Heard
      (earlier ++ tests.flatMap fun test => callsOf test.body) := by
  induction tests generalizing r earlier stats index with
  | nil => simpa [runTests] using hr
  | cons test rest ih =>
      rw [runTests, List.flatMap_cons, ← List.append_assoc]
      exact ih (heard_runTest hr index test) _ _

/-- The traces of the tests, one after another, are the entries of their calls. -/
theorem flatMap_trace_zipIdx (index : Nat) (tests : List RegisteredTest) :
    ((tests.zipIdx index).map fun t => t.1.recordAt t.2).flatMap UnitRecord.trace =
      (tests.flatMap fun test => callsOf test.body).filterMap ProbeCall.entry? := by
  induction tests generalizing index with
  | nil => rfl
  | cons test rest ih =>
      rw [List.zipIdx_cons, List.map_cons, List.flatMap_cons, ih, List.flatMap_cons,
        List.filterMap_append]
      rfl

theorem Registry.selected_eq (r : Registry) :
    r.selected =
      if ∃ test ∈ r.tests, test.focused = true then r.tests.filter RegisteredTest.focused
      else r.tests := by
  by_cases hfocused : r.hasFocused = true
  · rw [selected, if_pos hfocused, if_pos (List.any_eq_true.1 hfocused)]
  · rw [selected, if_neg hfocused, if_neg fun htest => hfocused (List.any_eq_true.2 htest)]

/-- What the run of a module has recorded about it. -/
structure RunRecorded (code : String) (m : Module) (o : RunOutcome) : Prop where
  records : o.records = m.setupRecord (.ofText code) ::
    (m.selected (.ofText code)).mapIdx RegisteredTest.recordAt
  /-- No entry is lost, made twice or moved to another unit. -/
  traces : o.records.flatMap UnitRecord.trace =
    (m.runCalls (.ofText code)).filterMap ProbeCall.entry?
  files : ∀ handle, o.files.get? handle =
    (m.runCalls (.ofText code)).findSome? (ProbeCall.name? handle)
  catalog : ∀ handle, o.catalog.get? handle = catalogOf handle (m.runCalls (.ofText code))
  logs : o.logs = (m.runCalls (.ofText code)).filterMap ProbeCall.log?

theorem load_spec (code : String) (codePath : Option Path) (m : Module) :
    (load code codePath m).recorder = Recorder.empty.recordAll (m.calls (.ofText code)) ∧
      (load code codePath m).registry.selected = m.selected (.ofText code) ∧
      (load code codePath m).failure = m.failure? (.ofText code) := by
  obtain ⟨hrecorder, htests, hfailure⟩ :=
    loadAll_spec code codePath (.ofText code) m (s := ⟨.empty, .empty, [], none, []⟩) rfl
  refine ⟨hrecorder, ?_, hfailure⟩
  rw [Registry.selected_eq, load, htests]
  rfl

/-- The top-level code as a unit that has ended. -/
def finishedSetup (code : String) (codePath : Option Path) (m : Module) : FinishedUnit :=
  let loaded := load code codePath m
  finishUnit .setup setupLabel 0 ⟨loaded.recorder, loaded.failure, []⟩

theorem finishedSetup_record (code : String) (codePath : Option Path) (m : Module) :
    (finishedSetup code codePath m).record = m.setupRecord (.ofText code) := by
  obtain ⟨hrecorder, -, hfailure⟩ := load_spec code codePath m
  rw [finishedSetup, finishUnit_record, hrecorder, hfailure, Recorder.trace_recordAll]
  rfl

theorem heard_finishedSetup (code : String) (codePath : Option Path) (m : Module) :
    (finishedSetup code codePath m).recorder.Heard (m.calls (.ofText code)) := by
  apply heard_finishUnit
  rw [(load_spec code codePath m).1]
  exact Recorder.heard_empty.recordAll _

/-- After the top-level code a run is the run of the tests that it selected. -/
theorem runLoaded_eq (build : Build) (codePath : Option Path) (m : Module) :
    ∃ stats run, run = runTests (finishedSetup build.code codePath m).recorder stats 0
        (m.selected (.ofText build.code)) ∧
      (runLoaded build codePath m).1 = {
        state := .done
        records := (finishedSetup build.code codePath m).record :: run.records
        errors := (finishedSetup build.code codePath m).errors ++ run.errors
        files := run.recorder.files
        catalog := run.recorder.catalog
        logs := run.recorder.logs
        stats := run.stats
        codePath := codePath } := by
  rw [← (load_spec build.code codePath m).2.1]
  exact ⟨_, _, rfl, rfl⟩

theorem runLoaded_recorded (build : Build) (codePath : Option Path) (m : Module) :
    (runLoaded build codePath m).1.state = .done ∧
      RunRecorded build.code m (runLoaded build codePath m).1 := by
  obtain ⟨stats, run, hrun, houtcome⟩ := runLoaded_eq build codePath m
  have hrecords : run.records =
      ((m.selected (.ofText build.code)).zipIdx 0).map fun t => t.1.recordAt t.2 := by
    rw [hrun, runTests_records]
  have hheard : run.recorder.Heard (m.runCalls (.ofText build.code)) := by
    rw [hrun]
    exact heard_runTests (heard_finishedSetup build.code codePath m) _ _ _
  rw [houtcome, finishedSetup_record, hrecords]
  refine ⟨rfl, ?_, ?_, hheard.files, hheard.catalog, hheard.logs⟩
  · rw [List.mapIdx_eq_zipIdx_map]
  · rw [List.flatMap_cons, flatMap_trace_zipIdx, Module.runCalls, List.filterMap_append]
    rfl

/-- Whenever a build without errors can be run, its run ends and has recorded what its units did,
whether they failed or not. -/
theorem execute_recorded {persistDir : Option Path} {tree : FileTree} {build : Build}
    (m : Module) (hbuild : build.hasErrors = false)
    (hpersist : ∀ dir ∈ persistDir, ∃ path, (persistCode tree dir build).2 = .ok path) :
    ∃ o, (execute persistDir tree build m).result = .ok o ∧ o.state = .done ∧
      RunRecorded build.code m o := by
  have herrors : build.errors = [] := by simpa [Build.hasErrors] using hbuild
  rcases execute_of_no_errors herrors with ⟨err, ⟨dir, hdir, herror⟩, -⟩ | ⟨codePath, hrun⟩
  · obtain ⟨path, hpath⟩ := hpersist dir hdir
    rw [hpath] at herror
    cases herror
  · exact ⟨_, hrun, runLoaded_recorded build codePath m⟩

namespace UnitRecordsWitness

def build : Build := ⟨"first();\nsecond();", none, [], ⟨"t.ts"⟩⟩

/-- The focused test panics before its last call; the other test does not run. -/
def twoTests : Module :=
  [.run (.call (.registerFile ⟨0⟩ ⟨"t.ts"⟩)), .run (.call (.completes ⟨⟨0⟩, 1, 1⟩)),
    .register ⟨"skipped", false, []⟩,
    .register ⟨"panics", true, [.call (.completes ⟨⟨0⟩, 2, 1⟩), .panic none,
      .call (.completes ⟨⟨0⟩, 3, 1⟩)]⟩]

theorem execute_recorded_persisted :
    ∃ o, (execute (some ⟨"out"⟩) .empty build twoTests).result = .ok o ∧
      o.records = [⟨.setup, "(setup)", [.point ⟨⟨0⟩, 1, 1⟩], false⟩,
        ⟨.test 0, "panics", [.point ⟨⟨0⟩, 2, 1⟩], true⟩] := by
  have hpersist : ∀ dir ∈ some (⟨"out"⟩ : Path),
      ∃ path, (persistCode .empty dir build).2 = .ok path := by
    intro dir hdir
    cases hdir
    exact ⟨_, rfl⟩
  obtain ⟨o, hresult, -, hrecorded⟩ := execute_recorded twoTests rfl hpersist
  exact ⟨o, hresult, hrecorded.records⟩

end UnitRecordsWitness

end LiveTest
