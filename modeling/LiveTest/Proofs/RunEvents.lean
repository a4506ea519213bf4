import LiveTest.Proofs.RunFailures
/-!
The events of a run.  Whoever follows the events learns the outcome before it is there: the events
of a unit carry its record and its errors, one unit after the other, and together these are the
records and the errors of the outcome.  A build that is not loaded has no events of units.
-/

namespace LiveTest

@[simp] theorem runEvents_nil : runEvents [] = [] := rfl

@[simp] theorem runEvents_event (e : RunEvent) (rest : List Happening) :
    runEvents (.event e :: rest) = e :: runEvents rest := rfl

@[simp] theorem runEvents_logged (line : LogLine) (rest : List Happening) :
    runEvents (.logged line :: rest) = runEvents rest := rfl

@[simp] theorem runEvents_debugNote (text : String) (rest : List Happening) :
    runEvents (debugNote text :: rest) = runEvents rest := rfl

@[simp] theorem runEvents_append (earlier later : List Happening) :
    runEvents (earlier ++ later) = runEvents earlier ++ runEvents later :=
  List.filterMap_append

@[simp] theorem runEvents_map_logged (lines : List LogLine) :
    runEvents (lines.map Happening.logged) = [] := by
  induction lines with
  | nil => rfl
  | cons line rest ih => rw [List.map_cons, runEvents_logged, ih]

@[simp] theorem runEvents_abortNotes (errors : List CompileError) :
    runEvents (abortNotes errors) = [] := by
  cases errors <;> rfl

@[simp] theorem runEvents_closingNotes (o : RunOutcome) :
    runEvents (closingNotes o) = [.runFinished o.state o.stats] := rfl

/-- A unit as it is told: its record and the errors that go with it. -/
structure ToldUnit where
  record : UnitRecord
  errors : List ThrownError

/-- The errors are those of the unit, and it has some exactly if it failed. -/
structure ToldUnit.Consistent (t : ToldUnit) : Prop where
  own : ∀ e ∈ t.errors, e.unit = t.record.unit
  failed : t.errors ≠ [] ↔ t.record.failed = true

/-- The events of tests, the first of them with this index. -/
def testEvents (index : Nat) : List ToldUnit → List RunEvent
  | [] => []
  | t :: rest =>
    .testStarted index t.record.label :: .testFinished t.record t.errors ::
      testEvents (index + 1) rest

namespace UnitRun

def told (u : UnitRun) : ToldUnit := ⟨u.finished.record, u.finished.errors⟩

theorem errors_ne_nil_iff (u : UnitRun) : u.errors ≠ [] ↔ u.failure.isSome = true := by
  rw [errors, errorsAt]
  cases u.failure with
  | none => simp
  | some f => simp [Failure.charge]

theorem Closed.consistent {u : UnitRun} (hclosed : u.Closed) : u.told.Consistent := by
  constructor
  · intro e he
    rw [told, hclosed.errors] at he
    rw [told, hclosed.record]
    obtain ⟨f, hf⟩ :=
      Option.isSome_iff_exists.1 ((errors_ne_nil_iff u).1 (List.ne_nil_of_mem he))
    exact (of_mem_errors hf he).2
  · rw [told, hclosed.errors, hclosed.record]
    exact errors_ne_nil_iff u

end UnitRun

theorem length_testUnits (r : Recorder) (index : Nat) (tests : List RegisteredTest) :
    (testUnits r index tests).length = tests.length := by
  induction tests generalizing r index with
  | nil => rfl
  | cons test rest ih => rw [testUnits, List.length_cons, ih, List.length_cons]

/-- Each test is told when it starts and when it ends, with nothing in between. -/
theorem runEvents_runTests (r : Recorder) (stats : RunStats) (index : Nat)
    (tests : List RegisteredTest) :
    runEvents (runTests r stats index tests).history =
      testEvents index ((testUnits r index tests).map UnitRun.told) := by
  induction tests generalizing r stats index with
  | nil => rfl
  | cons test rest ih =>
      have hlabel : (runTest r index test).record.label = test.label := by
        rw [runTest_record]
        rfl
      rw [runTests, runEvents_event, runEvents_append, runEvents_map_logged, List.nil_append,
        runEvents_event, ih, testUnits, List.map_cons, testEvents]
      simp only [UnitRun.told, hlabel]

theorem runEvents_runLoaded (build : Build) (codePath : Option Path) (m : Module) :
    ∃ stats, runEvents (runLoaded build codePath m).2.1 =
      .setupFinished (finishedSetup build.code codePath m).record
          (finishedSetup build.code codePath m).errors
          (m.selected (.ofText build.code)).length ::
        runEvents (runTests (finishedSetup build.code codePath m).recorder stats 0
          (m.selected (.ofText build.code))).history := by
  rw [← (load_spec build.code codePath m).2.1]
  refine ⟨{ RunStats.zero with
    initialRunCount := (load build.code codePath m).registry.selected.length
    setupFailed := (finishedSetup build.code codePath m).record.failed }, ?_⟩
  simp only [runLoaded, runEvents_debugNote, runEvents_append, runEvents_map_logged,
    List.nil_append, runEvents_event, runEvents_nil, List.append_nil]
  rfl

/-- The events of a run that is loaded, between its start and its end, are those of its units. -/
theorem runEvents_units (build : Build) (codePath : Option Path) (m : Module) :
    ∃ setup tests, m.units (.ofText build.code) = setup :: tests ∧
      tests.length = (m.selected (.ofText build.code)).length ∧
      runEvents (runLoaded build codePath m).2.1 =
        .setupFinished setup.told.record setup.told.errors tests.length ::
          testEvents 0 (tests.map UnitRun.told) := by
  obtain ⟨stats, hevents⟩ := runEvents_runLoaded build codePath m
  refine ⟨_, _, rfl, length_testUnits _ _ _, ?_⟩
  rw [hevents, runEvents_runTests, finishedSetup_eq, length_testUnits, UnitRun.told]

/-- The code of a build is not loaded: whatever its module does, all is the same. -/
def Unloaded (persistDir : Option Path) (tree : FileTree) (build : Build) (m : Module) : Prop :=
  ∀ m', execute persistDir tree build m' = execute persistDir tree build m

/-- The events of a run tell its outcome: they carry the records of the outcome one by one, and of
its errors each time those of the unit. -/
def TellsOutcome (build : Build) (n : Nat) (run : Execution) : Prop :=
  ∃ (o : RunOutcome) (setup : ToldUnit) (tests : List ToldUnit),
    run.result = .ok o ∧
    o.records = setup.record :: tests.map ToldUnit.record ∧
    o.errors = setup.errors ++ tests.flatMap ToldUnit.errors ∧
    (∀ t ∈ setup :: tests, t.Consistent) ∧
    tests.length = n ∧
    runEvents run.history =
      .runStarted build.entryPoint :: .setupFinished setup.record setup.errors n ::
        (testEvents 0 tests ++ [.runFinished .done o.stats])

section

variable {persistDir : Option Path} {tree : FileTree} {build : Build} {m : Module}

theorem events_of_errors (hbuild : build.hasErrors = true) :
    (∃ o, (execute persistDir tree build m).result = .ok o ∧ o.state = .abort ∧
        runEvents (execute persistDir tree build m).history =
          [.runStarted build.entryPoint, .runFinished .abort o.stats]) ∧
      (execute persistDir tree build m).tree = tree ∧ Unloaded persistDir tree build m := by
  have hexecute : ∀ m', execute persistDir tree build m' = _ :=
    fun m' => execute_eq_of_errors hbuild
  refine ⟨⟨abortOutcome build.errors, ?_, rfl, ?_⟩, ?_, ?_⟩
  · rw [hexecute]
  · simp only [hexecute, runEvents_event, runEvents_append, runEvents_abortNotes,
      runEvents_closingNotes, List.nil_append]
    rfl
  · rw [hexecute]
  · intro m'
    rw [hexecute, hexecute]

theorem events_of_unwritten {err : PersistError} (hbuild : build.hasErrors = false)
    (hfailed : Unwritten persistDir tree build err) :
    (execute persistDir tree build m).result = .error err ∧
      runEvents (execute persistDir tree build m).history = [.runStarted build.entryPoint] ∧
      Unloaded persistDir tree build m := by
  have hexecute : ∀ m', execute persistDir tree build m' = _ :=
    fun m' => execute_eq_of_unwritten hbuild hfailed
  refine ⟨?_, ?_, ?_⟩
  · rw [hexecute]
  · rw [hexecute]
    rfl
  · intro m'
    rw [hexecute, hexecute]

theorem tellsOutcome_of_written (hbuild : build.hasErrors = false)
    (hwritten : ∀ err, ¬Unwritten persistDir tree build err) :
    TellsOutcome build (m.selected (.ofText build.code)).length
      (execute persistDir tree build m) := by
  obtain ⟨notes, hnotes, hexecute⟩ := execute_eq_of_written (m := m) hbuild hwritten
  obtain ⟨setup, tests, hunits, hlength, hevents⟩ :=
    runEvents_units build (writtenPath persistDir build) m
  obtain ⟨hrecords, herrors⟩ := runLoaded_units build (writtenPath persistDir build) m
  have hclosed := (m.linked_units (.ofText build.code)).closed
  rw [← List.flatMap_congr fun u hu => (hclosed u hu).errors, hunits] at herrors
  rw [hunits] at hrecords hclosed
  refine ⟨(loadedRun persistDir build m).1, setup.told, tests.map UnitRun.told, ?_, ?_, ?_, ?_,
    ?_, ?_⟩
  · rw [hexecute]
  · rw [List.map_map]
    exact hrecords
  · rw [List.flatMap_map]
    exact herrors
  · rw [← List.map_cons]
    intro t ht
    obtain ⟨u, hu, rfl⟩ := List.mem_map.1 ht
    exact (hclosed u hu).consistent
  · rw [List.length_map, hlength]
  · rw [hexecute, ← hlength]
    simp only [runEvents_event, runEvents_append, loadingNote, runEvents_debugNote, hnotes,
      List.cons_append, loadedRun, hevents, runEvents_closingNotes, List.nil_append]
    rfl

end

/-- What is told of executing a build.  A build with errors is told to be aborted and a build whose
code cannot be written is told to have started, and neither is loaded.  Any other build is loaded
and its outcome is told. -/
theorem events_of_execute (persistDir : Option Path) (tree : FileTree) (build : Build)
    (m : Module) :
    (build.hasErrors = true →
      (∃ o, (execute persistDir tree build m).result = .ok o ∧ o.state = .abort ∧
        runEvents (execute persistDir tree build m).history =
          [.runStarted build.entryPoint, .runFinished .abort o.stats]) ∧
      (execute persistDir tree build m).tree = tree ∧ Unloaded persistDir tree build m) ∧
    (build.hasErrors = false → ∀ err, Unwritten persistDir tree build err →
      (execute persistDir tree build m).result = .error err ∧
      runEvents (execute persistDir tree build m).history = [.runStarted build.entryPoint] ∧
      Unloaded persistDir tree build m) ∧
    (build.hasErrors = false → (∀ err, ¬Unwritten persistDir tree build err) →
      TellsOutcome build (m.selected (.ofText build.code)).length
        (execute persistDir tree build m)) :=
  ⟨events_of_errors, fun hbuild _ hfailed => events_of_unwritten hbuild hfailed,
    tellsOutcome_of_written⟩

namespace RunEventsWitness

def build : Build := ⟨"code", none, [], ⟨"t.ts"⟩⟩

def broken : Build := { build with errors := [⟨⟨⟨"b.ts"⟩, 1, 1⟩, "no such name"⟩] }

/-- The first test fails and the second one passes.  Then the setup fails, too. -/
def mixed : Module :=
  [.register ⟨"fails", false, [.call (.begins ⟨⟨0⟩, 1, 1⟩), .panic none]⟩,
    .register ⟨"passes", false, []⟩, .run (.fail (.ofMessage "thrown"))]

/-- There is a file where the directory for the code is to be. -/
def occupied : FileTree := ⟨⟨[("out", .file "")]⟩⟩

theorem events_of_execute_three_ways :
    runEvents (execute (some ⟨"out"⟩) occupied broken mixed).history =
        [.runStarted ⟨"t.ts"⟩, .runFinished .abort ⟨0, 0, 0, 0, true⟩] ∧
      Unloaded (some ⟨"out"⟩) occupied build mixed ∧
      TellsOutcome build 2 (execute none occupied build mixed) := by
  obtain ⟨haborted, -, -⟩ := events_of_execute (some ⟨"out"⟩) occupied broken mixed
  obtain ⟨-, hunwritten, -⟩ := events_of_execute (some ⟨"out"⟩) occupied build mixed
  obtain ⟨-, -, hloaded⟩ := events_of_execute none occupied build mixed
  refine ⟨?_, ?_, ?_⟩
  · obtain ⟨⟨o, hrun, -, hevents⟩, -, -⟩ := haborted rfl
    cases hrun
    exact hevents
  · have hfailed : Unwritten (some ⟨"out"⟩) occupied build (.createDirectory ⟨"out"⟩) :=
      ⟨⟨"out"⟩, rfl, rfl⟩
    exact (hunwritten rfl _ hfailed).2.2
  · apply hloaded rfl
    rintro err ⟨dir, hdir, -⟩
    cases hdir

end RunEventsWitness

end LiveTest
