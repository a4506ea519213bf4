import LiveTest.Proofs.Execution
import LiveTest.Proofs.ShownErrors
import LiveTest.Proofs.UnitRuns
import Mathlib.Data.Finset.Card
import Mathlib.Data.List.Forall2
/-!
What the failures of a run come to.  A failed unit has one error at its first place and one in every
other file that it went through, a passing unit has none, and an aborted build counts as a setup
that failed with its first error.  The list of failures is the errors of the units, one unit after
the other, and every entry of it is shown at its line in all three ways.
-/

namespace LiveTest

theorem mem_files_freshFiles_iff {seen : List FileHandle} {trace : List TraceEntry}
    {file : FileHandle} :
    file ∈ (freshFiles seen trace).map TraceEntry.file ↔
      file ∈ trace.map TraceEntry.file ∧ file ∉ seen := by
  induction trace generalizing seen with
  | nil => simp [freshFiles]
  | cons e rest ih =>
      by_cases hseen : e.file ∈ seen
      · rw [freshFiles, if_pos hseen, ih, List.map_cons, List.mem_cons]
        constructor
        · rintro ⟨hmem, hnot⟩
          exact ⟨Or.inr hmem, hnot⟩
        · rintro ⟨rfl | hmem, hnot⟩
          · exact absurd hseen hnot
          · exact ⟨hmem, hnot⟩
      · rw [freshFiles, if_neg hseen, List.map_cons, List.mem_cons, ih, List.map_cons,
          List.mem_cons, List.mem_cons]
        by_cases heq : file = e.file
        · simp [heq, hseen]
        · simp [heq]

theorem nodup_files_freshFiles (seen : List FileHandle) (trace : List TraceEntry) :
    ((freshFiles seen trace).map TraceEntry.file).Nodup := by
  induction trace generalizing seen with
  | nil => exact .nil
  | cons e rest ih =>
      rw [freshFiles]
      split
      · exact ih seen
      · rw [List.map_cons, List.nodup_cons, mem_files_freshFiles_iff]
        exact ⟨fun hmem => hmem.2 List.mem_cons_self, ih _⟩

/-- The first error accounts for the file: it stands at a pending expression in it, and not at the
sentinel. -/
def AccountedFor (pending : Option Position) (file : FileHandle) : Prop :=
  ∃ p, pending = some p ∧ p ≠ .sentinel ∧ p.file = file

instance (pending : Option Position) (file : FileHandle) :
    Decidable (AccountedFor pending file) :=
  decidable_of_iff (∃ p ∈ pending, p ≠ .sentinel ∧ p.file = file) Iff.rfl

theorem mem_file?_primarySite_iff {f : Failure} {pending : Option Position}
    {file : FileHandle} :
    file ∈ (primarySite f pending).file?.toList ↔ AccountedFor pending file := by
  rw [Option.mem_toList, AccountedFor]
  cases pending with
  | some p =>
      by_cases hsentinel : p = .sentinel
      · simp [primarySite, ErrorSite.file?, Position.isSentinel, hsentinel]
      · simp [primarySite, ErrorSite.file?, Position.isSentinel, hsentinel]
  | none =>
      have hnone : (primarySite f none).file? = none := by
        cases hlocation : f.location with
        | some l => simp [primarySite, hlocation, ErrorSite.file?]
        | none => simp [primarySite, hlocation, ErrorSite.file?, Position.isSentinel]
      simp [hnone]

namespace UnitRun

/-- The files of the trace besides the one that the first error accounts for. -/
def otherFiles (u : UnitRun) : Finset FileHandle :=
  (u.trace.map TraceEntry.file).toFinset.filter fun file => ¬ AccountedFor u.pending.head? file

theorem length_charge (f : Failure) (unit : UnitIndex) (pending : Option Position)
    (trace : List TraceEntry) :
    (f.charge unit pending trace).length =
      1 + ((trace.map TraceEntry.file).toFinset.filter fun file =>
        ¬ AccountedFor pending file).card := by
  rw [Failure.charge_eq, List.length_cons, List.length_map, Nat.add_comm,
    ← List.length_map (f := TraceEntry.file),
    ← List.toFinset_card_of_nodup (nodup_files_freshFiles _ _)]
  congr 2
  ext file
  rw [List.mem_toFinset, mem_files_freshFiles_iff, Finset.mem_filter, List.mem_toFinset,
    List.map_reverse, List.mem_reverse, mem_file?_primarySite_iff]

theorem length_errors {u : UnitRun} {f : Failure} (hf : u.failure = some f) :
    u.errors.length = 1 + u.otherFiles.card := by
  rw [errors, errorsAt, hf]
  exact length_charge f u.unit u.pending.head? u.trace

/-- The errors of a failed unit are all of its failure. -/
theorem of_mem_errors {u : UnitRun} {f : Failure} (hf : u.failure = some f) {e : ThrownError}
    (he : e ∈ u.errors) : e.message = f.message ∧ e.unit = u.unit := by
  rw [errors, errorsAt, hf] at he
  rcases List.mem_cons.1 he with rfl | he
  · exact ⟨rfl, rfl⟩
  · obtain ⟨entry, -, rfl⟩ := List.mem_map.1 he
    exact ⟨rfl, rfl⟩

end UnitRun

/-- An aborted build as a unit: a setup that called nothing and failed where the compiler says. -/
def CompileError.unit (e : CompileError) : UnitRun where
  unit := .setup
  label := "(setup)"
  calls := []
  failure := some { Failure.ofMessage e.message with location := some e.location }
  start := .empty
  finished := finishUnit .setup setupLabel 0
    ⟨.empty, some { Failure.ofMessage e.message with location := some e.location }, []⟩

/-- The units of a build: those of its run, or that of its first error. -/
def Build.units (build : Build) (m : Module) : List UnitRun :=
  match build.errors with
  | [] => m.units (.ofText build.code)
  | e :: _ => [e.unit]

section Runs

variable {persistDir : Option Path} {tree : FileTree} {build : Build} {m : Module}
  {o : RunOutcome}

theorem find?_record_of_mem {units : List UnitRun} (hclosed : ∀ u ∈ units, u.Closed)
    (hpairwise : units.Pairwise fun u v => u.unit ≠ v.unit) {u : UnitRun} (hu : u ∈ units) :
    (units.map fun u => u.finished.record).find? (fun r => r.unit = u.unit) =
      some u.finished.record := by
  induction units with
  | nil => cases hu
  | cons head tail ih =>
      obtain ⟨hhead, htail⟩ := List.forall_mem_cons.1 hclosed
      obtain ⟨hne, hrest⟩ := List.pairwise_cons.1 hpairwise
      rw [List.map_cons, List.find?_cons]
      rcases List.mem_cons.1 hu with rfl | hu
      · simp [hhead.record]
      · have hother : head.unit ≠ u.unit := hne u hu
        simp only [hhead.record, hother, decide_false]
        exact ih htail hrest hu

/-- The label under which a run knows a unit. -/
theorem unitLabel_of_mem_units {index : OffsetIndex}
    (hrecords : o.records = (m.units index).map fun u => u.finished.record) {u : UnitRun}
    (hu : u ∈ m.units index) : Report.unitLabel o u.unit = u.label := by
  have hclosed := (m.linked_units index).closed
  rw [Report.unitLabel, RunOutcome.record?, hrecords,
    find?_record_of_mem hclosed (m.pairwise_units index) hu, Option.map_some, Option.getD_some,
    (hclosed u hu).record]

/-- The errors of a run are those of its units, each of which goes by its own label. -/
theorem execute_units (hrun : (execute persistDir tree build m).result = .ok o) :
    o.errors = (build.units m).flatMap UnitRun.errors ∧
      ∀ u ∈ build.units m, Report.unitLabel o u.unit = u.label := by
  cases hbuild : build.errors with
  | nil =>
      rw [Build.units, hbuild]
      obtain ⟨codePath, rfl⟩ := exists_loaded_of_execute hbuild hrun
      obtain ⟨hrecords, herrors⟩ := runLoaded_units build codePath m
      exact ⟨herrors, fun u hu => unitLabel_of_mem_units hrecords hu⟩
  | cons e others =>
      rw [execute_abort hbuild] at hrun
      cases hrun
      rw [Build.units, hbuild]
      refine ⟨rfl, fun u hu => ?_⟩
      rw [List.mem_singleton.1 hu]
      rfl

end Runs

/-- An entry of the list of failures tells the failure of a unit, and its line shows it. -/
structure Shown (r : Report) (u : UnitRun) (f : Failure) (l : Location) : Prop where
  message : l.message = f.message
  status : Report.statusAt r.statuses l.file l.line = some .fail
  label : ∃ pieces, Report.labelAt r.labels l.file l.line =
      some ⟨Text.join "; " pieces, .error⟩ ∧ Text.firstLine f.message ∈ pieces
  details : ∃ n ∈ r.notifications, Key.same l.file n.file = true ∧ n.line = l.line ∧
    ∃ items, n.json = (Json.array items).pretty ∧ ∃ item ∈ items,
      item.member? "message" = some (.text f.message) ∧ Report.NamesUnit u.unit u.label item

/-- These are the entries of a unit: none if it passed, and otherwise one for the first place of its
failure and one for every other file. -/
def EntriesOf (r : Report) (u : UnitRun) (entries : List Location) : Prop :=
  match u.failure with
  | none => entries = []
  | some f => entries.length = 1 + u.otherFiles.card ∧ ∀ l ∈ entries, Shown r u f l

theorem entriesOf_of_passed {r : Report} {u : UnitRun} {entries : List Location}
    (hpassed : u.failure = none) : EntriesOf r u entries ↔ entries = [] := by
  rw [EntriesOf, hpassed]

theorem entriesOf_of_failed {r : Report} {u : UnitRun} {f : Failure} {entries : List Location}
    (hf : u.failure = some f) : EntriesOf r u entries ↔
      entries.length = 1 + u.otherFiles.card ∧ ∀ l ∈ entries, Shown r u f l := by
  rw [EntriesOf, hf]

section Entries

variable {project : Project} {lookup : SourceLookup} {o : RunOutcome} {r : Report}

theorem shown_failure (stages : Report.Stages project lookup o r) {u : UnitRun} {f : Failure}
    (hf : u.failure = some f) (hlabel : Report.unitLabel o u.unit = u.label)
    {e : Report.PlacedError} (he : e ∈ stages.placed) (herror : e.error ∈ u.errors) :
    Shown r u f (Report.failure e) := by
  obtain ⟨hmessage, hunit⟩ := UnitRun.of_mem_errors hf herror
  obtain ⟨hstatus, hshown, n, hn, hfile, hline, hjson⟩ := Report.shown_of_mem_placed stages he
  have hmem : e.error ∈ Report.errorsAt stages.placed e.file e.line := Report.mem_errorsAt he
  refine ⟨hmessage, hstatus, ⟨_, hshown, ?_⟩, n, hn, hfile, hline, _, hjson, ?_⟩
  · rw [List.mem_eraseDups, ← hmessage]
    exact List.mem_map_of_mem hmem
  · have hnames := Report.namesUnit_detail o lookup e.error
    rw [hunit] at hnames
    refine ⟨_, List.mem_map_of_mem hmem, ?_, hlabel ▸ hnames⟩
    rw [← hmessage]
    exact Report.message_detail o lookup e.error

theorem entriesOf_failures (stages : Report.Stages project lookup o r) {u : UnitRun}
    (hlabel : Report.unitLabel o u.unit = u.label) {part : List Report.PlacedError}
    (hplaced : ∀ e ∈ part, e ∈ stages.placed)
    (hpart : part.map Report.PlacedError.error = u.errors) :
    EntriesOf r u (part.map Report.failure) := by
  cases hf : u.failure with
  | none =>
      have hnil : u.errors = [] := by rw [UnitRun.errors, UnitRun.errorsAt, hf]
      rw [hnil, List.map_eq_nil_iff] at hpart
      rw [entriesOf_of_passed hf, hpart, List.map_nil]
  | some f =>
      rw [entriesOf_of_failed hf]
      constructor
      · rw [List.length_map, ← UnitRun.length_errors hf, ← hpart, List.length_map]
      · intro l hl
        obtain ⟨e, he, rfl⟩ := List.mem_map.1 hl
        have herror : e.error ∈ u.errors := hpart ▸ List.mem_map_of_mem he
        exact shown_failure stages hf hlabel (hplaced e he) herror

/-- The errors of some units, placed one by one, fall into the parts of the units. -/
theorem exists_parts {placed : List Report.PlacedError} {units : List UnitRun}
    {entries : UnitRun → List Location → Prop}
    (hplaced : placed.map Report.PlacedError.error = units.flatMap UnitRun.errors)
    (hentries : ∀ u ∈ units, ∀ part : List Report.PlacedError, (∀ e ∈ part, e ∈ placed) →
      part.map Report.PlacedError.error = u.errors → entries u (part.map Report.failure)) :
    ∃ parts, placed.map Report.failure = parts.flatten ∧ List.Forall₂ entries units parts := by
  induction units generalizing placed with
  | nil =>
      rw [List.flatMap_nil, List.map_eq_nil_iff] at hplaced
      exact ⟨[], by rw [hplaced]; rfl, .nil⟩
  | cons u rest ih =>
      rw [List.flatMap_cons] at hplaced
      obtain ⟨part, later, rfl, hpart, hlater⟩ := List.map_eq_append_iff.1 hplaced
      obtain ⟨parts, hparts, hrest⟩ := ih hlater fun v hv part hmem =>
        hentries v (List.mem_cons_of_mem u hv) part fun e he =>
          List.mem_append_right _ (hmem e he)
      refine ⟨part.map Report.failure :: parts, ?_, .cons ?_ hrest⟩
      · rw [List.map_append, hparts, List.flatten_cons]
      · exact hentries u List.mem_cons_self part (fun e he => List.mem_append_left _ he) hpart

end Entries

theorem runTests_stats (r : Recorder) (stats : RunStats) (index : Nat)
    (tests : List RegisteredTest) :
    (runTests r stats index tests).stats =
      { stats with
        finishedCount := stats.finishedCount + tests.length
        passed := stats.passed + tests.countP fun test => (failureOf test.body).isNone
        failed := stats.failed + tests.countP fun test => (failureOf test.body).isSome } := by
  induction tests generalizing r stats index with
  | nil => rfl
  | cons test rest ih =>
      rw [runTests, ih, runTest_record, RegisteredTest.recordAt]
      cases hfailure : failureOf test.body with
      | none => simp [RunStats.afterTest, hfailure, Nat.add_assoc, Nat.add_comm 1]
      | some f => simp [RunStats.afterTest, hfailure, Nat.add_assoc, Nat.add_comm 1]

theorem runLoaded_stats (build : Build) (codePath : Option Path) (m : Module) :
    (runLoaded build codePath m).1.stats =
      let tests := m.selected (.ofText build.code)
      ⟨tests.length, tests.length, tests.countP fun test => (failureOf test.body).isNone,
        tests.countP fun test => (failureOf test.body).isSome,
        (m.failure? (.ofText build.code)).isSome⟩ := by
  have hrun : (runLoaded build codePath m).1.stats =
      (runTests (finishedSetup build.code codePath m).recorder
        { RunStats.zero with
          initialRunCount := (load build.code codePath m).registry.selected.length
          setupFailed := (finishedSetup build.code codePath m).record.failed }
        0 (load build.code codePath m).registry.selected).stats := rfl
  rw [hrun, runTests_stats, (load_spec build.code codePath m).2.1, finishedSetup_record]
  simp [RunStats.zero, Module.setupRecord]

/-- A run fails as a whole if its build was aborted, if a test failed, or if the setup failed and
there was no test. -/
theorem isSuccess_eq_false_iff {persistDir : Option Path} {tree : FileTree} {build : Build}
    {m : Module} {o : RunOutcome} (hrun : (execute persistDir tree build m).result = .ok o) :
    o.stats.isSuccess = false ↔
      build.hasErrors = true ∨
        (∃ test ∈ m.selected (.ofText build.code), (failureOf test.body).isSome = true) ∨
        ((m.failure? (.ofText build.code)).isSome = true ∧
          m.selected (.ofText build.code) = []) := by
  cases hbuild : build.errors with
  | nil =>
      obtain ⟨codePath, rfl⟩ := exists_loaded_of_execute hbuild hrun
      have hnoErrors : build.hasErrors = false := by simp [Build.hasErrors, hbuild]
      rw [runLoaded_stats, hnoErrors]
      generalize m.selected (.ofText build.code) = tests
      have hcount : 0 < tests.countP (fun test => (failureOf test.body).isSome) ↔
          ∃ test ∈ tests, (failureOf test.body).isSome = true := List.countP_pos_iff
      rw [← hcount, ← List.length_eq_zero_iff]
      simp [RunStats.isSuccess, RunStats.anyFailed, -List.countP_eq_zero,
        -List.length_eq_zero_iff, -List.countP_pos_iff]
      rw [imp_iff_not_or, ← ne_eq, ← Nat.pos_iff_ne_zero]
  | cons e others =>
      rw [execute_abort hbuild] at hrun
      cases hrun
      simp [Build.hasErrors, hbuild, abortOutcome, RunStats.isSuccess, RunStats.anyFailed,
        RunStats.zero]

/-- The list of failures is made of the entries of the units in their order, each of them shown at
its line, and the suite fails exactly if the run as a whole does. -/
theorem failures_of_run {persistDir : Option Path} {tree : FileTree} {build : Build} {m : Module}
    {o : RunOutcome} {project : Project} {lookup : SourceLookup} {r : Report}
    (hrun : (execute persistDir tree build m).result = .ok o)
    (hreport : Report.ofOutcome project lookup o = .ok r) :
    (∃ parts, r.failures = parts.flatten ∧
      List.Forall₂ (EntriesOf r) (build.units m) parts) ∧
    (r.suiteFailed = true ↔
      build.hasErrors = true ∨
        (∃ test ∈ m.selected (.ofText build.code), (failureOf test.body).isSome = true) ∨
        ((m.failure? (.ofText build.code)).isSome = true ∧
          m.selected (.ofText build.code) = [])) := by
  obtain ⟨stages⟩ := Report.stages_of_ofOutcome hreport
  obtain ⟨herrors, hlabels⟩ := execute_units hrun
  have hplaced : stages.placed.map Report.PlacedError.error =
      (build.units m).flatMap UnitRun.errors := by
    rw [Report.placed_errors stages.placed_eq, herrors]
  constructor
  · rw [stages.failures_eq]
    exact exists_parts hplaced fun u hu part hmem hpart =>
      entriesOf_failures stages (hlabels u hu) hmem hpart
  · rw [stages.suiteFailed_eq, Bool.not_eq_true', isSuccess_eq_false_iff hrun]

namespace RunFailuresWitness

def build : Build := ⟨"code", none, [], ⟨"t.ts"⟩⟩

def place : Project := ⟨⟨"/p"⟩, ⟨"t.ts"⟩⟩

def thrown : Failure := .ofMessage "first\nsecond"

/-- The first test goes through two files and fails in an expression of the first one, after one in
the other that it had called; the second test passes. -/
def across : Module :=
  [.run (.call (.registerFile ⟨0⟩ ⟨"a.ts"⟩)), .run (.call (.registerFile ⟨1⟩ ⟨"b.ts"⟩)),
    .register ⟨"across", false, [.call (.begins ⟨⟨0⟩, 3, 1⟩), .call (.completes ⟨⟨0⟩, 3, 1⟩),
      .call (.begins ⟨⟨0⟩, 1, 1⟩), .call (.begins ⟨⟨1⟩, 2, 1⟩),
      .call (.completes ⟨⟨1⟩, 2, 1⟩), .fail thrown]⟩,
    .register ⟨"passes", false, []⟩]

/-- What the details of both places say. -/
def details : String :=
  "[\n  \x7b\n    \"message\": \"first\\nsecond\",\n    \"unit\": \"across\",\n" ++
    "    \"unit-index\": 0\n  \x7d\n]"

theorem exists_units : ∃ setup failed passed, build.units across = [setup, failed, passed] ∧
    setup.failure = none ∧ failed.failure = some thrown ∧ failed.otherFiles.card = 1 ∧
      passed.failure = none :=
  ⟨_, _, _, rfl, rfl, rfl, by decide, rfl⟩

/-- The failing test has an entry in each of its files, and its line there tells of it. -/
theorem failures_of_run_across :
    ∃ o r, (execute none .empty build across).result = .ok o ∧
      Report.ofOutcome place (fun _ => none) o = .ok r ∧
      r.failures.length = 2 ∧ (∀ l ∈ r.failures, Shown r (build.units across)[1] thrown l) ∧
      r.suiteFailed = true ∧
      r.failures.map (fun l => (l.file.text, l.line, Report.labelAt r.labels l.file l.line)) =
        [("/p/a.ts", 1, some ⟨"first", .error⟩), ("/p/b.ts", 2, some ⟨"first", .error⟩)] ∧
      r.notifications.map Notification.json = [details, details] := by
  obtain ⟨o, r, hrun, hreport, hlabels, hdetails⟩ : ∃ o r,
      (execute none .empty build across).result = .ok o ∧
      Report.ofOutcome place (fun _ => none) o = .ok r ∧
      r.failures.map (fun l => (l.file.text, l.line, Report.labelAt r.labels l.file l.line)) =
        [("/p/a.ts", 1, some ⟨"first", .error⟩), ("/p/b.ts", 2, some ⟨"first", .error⟩)] ∧
      r.notifications.map Notification.json = [details, details] :=
    ⟨_, _, rfl, rfl, by decide +kernel, by decide +kernel⟩
  obtain ⟨⟨parts, hfailures, hparts⟩, hfails⟩ := failures_of_run hrun hreport
  obtain ⟨setup, failed, passed, hunits, hsetup, hfailed, hcard, hpassed⟩ := exists_units
  simp only [hunits] at hparts ⊢
  rcases hparts with _ | @⟨_, first, _, _, hfirst, _ | @⟨_, second, _, _, hsecond,
    _ | @⟨_, third, _, _, hthird, ⟨⟩⟩⟩⟩
  rw [entriesOf_of_passed hsetup] at hfirst
  rw [entriesOf_of_failed hfailed, hcard] at hsecond
  rw [entriesOf_of_passed hpassed] at hthird
  have hentries : r.failures = second := by simp [hfailures, hfirst, hthird]
  rw [← hentries] at hsecond
  exact ⟨o, r, hrun, hreport, hsecond.1, hsecond.2,
    hfails.2 (Or.inr (Or.inl ⟨_, List.mem_cons_self, rfl⟩)), hlabels, hdetails⟩

end RunFailuresWitness

end LiveTest
