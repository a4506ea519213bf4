import LiveTest.Run
/-!
The three ways that executing a build goes: a build with errors is aborted, a build whose code
cannot be written is not run, and any other build is loaded and run.
-/

namespace LiveTest

variable {persistDir : Option Path} {tree : FileTree} {build : Build} {m : Module}

/-- The code of a build cannot be written. -/
def Unwritten (persistDir : Option Path) (tree : FileTree) (build : Build)
    (err : PersistError) : Prop :=
  ∃ dir, persistDir = some dir ∧ (persistCode tree dir build).2 = .error err

/-- Where the code of a build is written to. -/
def writtenPath (persistDir : Option Path) (build : Build) : Option Path :=
  persistDir.map fun dir => codePathIn dir build

/-- What loading and running a build comes to.  This does not depend on the files that are there. -/
def loadedRun (persistDir : Option Path) (build : Build) (m : Module) :
    RunOutcome × List Happening × List Observation :=
  runLoaded build (writtenPath persistDir build) m

/-- The files after writing out the code of a build, or as much of it as could be written. -/
def writtenTree (persistDir : Option Path) (tree : FileTree) (build : Build) : FileTree :=
  match persistDir with
  | none => tree
  | some dir => (persistCode tree dir build).1

theorem path_of_persistCode {dir path : Path} (h : (persistCode tree dir build).2 = .ok path) :
    path = codePathIn dir build := by
  rw [persistCode] at h
  split at h
  · cases h
  · dsimp only at h
    split at h
    · cases h
    · exact (Except.ok.inj h).symm

/-- What is told when a build is about to be loaded. -/
def loadingNote : Happening := debugNote "entering state state=load"

theorem execute_eq_of_errors (hbuild : build.hasErrors = true) :
    execute persistDir tree build m =
      ⟨.ok (abortOutcome build.errors),
        .event (.runStarted build.entryPoint) ::
          (abortNotes build.errors ++ closingNotes (abortOutcome build.errors)), [], tree⟩ := by
  simp [execute, hbuild]

theorem execute_eq_of_unwritten {err : PersistError} (hbuild : build.hasErrors = false)
    (hfailed : Unwritten persistDir tree build err) :
    execute persistDir tree build m =
      ⟨.error err, [.event (.runStarted build.entryPoint), loadingNote], [],
        writtenTree persistDir tree build⟩ := by
  obtain ⟨dir, rfl, herr⟩ := hfailed
  rcases hwritten : persistCode tree dir build with ⟨written, result⟩
  rw [hwritten] at herr
  obtain rfl : result = .error err := herr
  simp [execute, hbuild, hwritten, writtenTree, loadingNote]

/-- A build that is loaded: the run and, around it, what tells of its start and of its end. -/
theorem execute_eq_of_written (hbuild : build.hasErrors = false)
    (hwritten : ∀ err, ¬Unwritten persistDir tree build err) :
    ∃ notes, runEvents notes = [] ∧
      execute persistDir tree build m =
        ⟨.ok (loadedRun persistDir build m).1,
          .event (.runStarted build.entryPoint) :: (loadingNote :: notes ++
            (loadedRun persistDir build m).2.1 ++ closingNotes (loadedRun persistDir build m).1),
          (loadedRun persistDir build m).2.2, writtenTree persistDir tree build⟩ := by
  cases persistDir with
  | none =>
      refine ⟨[], rfl, ?_⟩
      simp [execute, hbuild, loadedRun, writtenPath, writtenTree, loadingNote]
  | some dir =>
      rcases hpersist : persistCode tree dir build with ⟨written, err | path⟩
      · exact absurd ⟨dir, rfl, by rw [hpersist]⟩ (hwritten err)
      · have hok : (persistCode tree dir build).2 = .ok path := by rw [hpersist]
        have hpath : path = codePathIn dir build := path_of_persistCode hok
        subst hpath
        refine ⟨[debugNote ("persisted instrumented code to `" ++
          (codePathIn dir build).text ++ "`")], rfl, ?_⟩
        simp [execute, hbuild, hpersist, loadedRun, writtenPath, writtenTree, loadingNote]

/-- A build without errors is either not run or loaded. -/
theorem execute_cases (hbuild : build.hasErrors = false) :
    (∃ err, Unwritten persistDir tree build err ∧
      execute persistDir tree build m =
        ⟨.error err, [.event (.runStarted build.entryPoint), loadingNote], [],
          writtenTree persistDir tree build⟩) ∨
    ∃ notes, runEvents notes = [] ∧
      execute persistDir tree build m =
        ⟨.ok (loadedRun persistDir build m).1,
          .event (.runStarted build.entryPoint) :: (loadingNote :: notes ++
            (loadedRun persistDir build m).2.1 ++ closingNotes (loadedRun persistDir build m).1),
          (loadedRun persistDir build m).2.2, writtenTree persistDir tree build⟩ := by
  by_cases hwritten : ∃ err, Unwritten persistDir tree build err
  · obtain ⟨err, hfailed⟩ := hwritten
    exact Or.inl ⟨err, hfailed, execute_eq_of_unwritten hbuild hfailed⟩
  · exact Or.inr (execute_eq_of_written hbuild fun err hfailed => hwritten ⟨err, hfailed⟩)

theorem execute_abort {e : CompileError} {others : List CompileError}
    (hbuild : build.errors = e :: others) :
    (execute persistDir tree build m).result = .ok (abortOutcome (e :: others)) := by
  simp [execute, Build.hasErrors, hbuild]

theorem execute_of_no_errors (hbuild : build.errors = []) :
    (∃ err, Unwritten persistDir tree build err ∧
        (execute persistDir tree build m).result = .error err) ∨
      ∃ codePath, (execute persistDir tree build m).result =
        .ok (runLoaded build codePath m).1 := by
  have herrors : build.hasErrors = false := by simp [Build.hasErrors, hbuild]
  rcases execute_cases (m := m) herrors with ⟨err, hfailed, hexecute⟩ | ⟨notes, -, hexecute⟩
  · exact Or.inl ⟨err, hfailed, by rw [hexecute]⟩
  · refine Or.inr ⟨writtenPath persistDir build, ?_⟩
    rw [hexecute]
    rfl

/-- If a build without errors has an outcome then it was loaded. -/
theorem exists_loaded_of_execute {outcome : RunOutcome} (hbuild : build.errors = [])
    (hrun : (execute persistDir tree build m).result = .ok outcome) :
    ∃ codePath, outcome = (runLoaded build codePath m).1 := by
  rcases execute_of_no_errors hbuild with ⟨err, -, herror⟩ | ⟨codePath, hfinished⟩
  · rw [herror] at hrun
    cases hrun
  · rw [hfinished] at hrun
    exact ⟨codePath, (Except.ok.inj hrun).symm⟩

/-- A build without errors finishes if it is run at all. -/
theorem state_of_execute {outcome : RunOutcome} (hbuild : build.errors = [])
    (hrun : (execute persistDir tree build m).result = .ok outcome) :
    outcome.state = .done := by
  obtain ⟨codePath, rfl⟩ := exists_loaded_of_execute hbuild hrun
  rfl

/-- The outcome of a build, if there is one. -/
def knownOutcome (persistDir : Option Path) (build : Build) (m : Module) : RunOutcome :=
  if build.hasErrors then abortOutcome build.errors else (loadedRun persistDir build m).1

/-- Whether there is an outcome may depend on the files, but not what it is. -/
theorem eq_knownOutcome {outcome : RunOutcome}
    (hrun : (execute persistDir tree build m).result = .ok outcome) :
    outcome = knownOutcome persistDir build m := by
  rw [knownOutcome]
  cases hbuild : build.hasErrors with
  | true =>
      rw [execute_eq_of_errors hbuild] at hrun
      exact (Except.ok.inj hrun).symm
  | false =>
      rcases execute_cases hbuild with ⟨err, -, hexecute⟩ | ⟨notes, -, hexecute⟩
      · rw [hexecute] at hrun
        cases hrun
      · rw [hexecute] at hrun
        exact (Except.ok.inj hrun).symm

/-- A build without errors leaves the files as writing out its code does. -/
theorem tree_execute (hbuild : build.hasErrors = false) :
    (execute persistDir tree build m).tree = writtenTree persistDir tree build := by
  rcases execute_cases hbuild with ⟨err, -, hexecute⟩ | ⟨notes, -, hexecute⟩
  · rw [hexecute]
  · rw [hexecute]

end LiveTest
