import LiveTest.Proofs.SessionDisplay
import LiveTest.Proofs.Stages
/-!
Builds that cannot be processed.  A build that cannot be run or reported leaves the session as it
was, and all later builds are processed as if it had never been.  If publishing a report fails then
the commands that arrived are the first of those that the report is published with.
-/

namespace LiveTest

namespace Session

open Outlet

-- A build with errors is always reported.
section

variable {persistDir : Option Path} {tree : FileTree} {build : Build} {m : Module}

theorem hasErrors_of_not_run {err : PersistError}
    (hrun : (execute persistDir tree build m).result = .error err) : build.hasErrors = false := by
  cases hbuild : build.hasErrors with
  | false => rfl
  | true =>
      rw [execute_eq_of_errors hbuild] at hrun
      cases hrun

theorem hasErrors_of_not_reported {project : Project} {lookup : SourceLookup}
    {outcome : RunOutcome} {err : ReportError}
    (hrun : (execute persistDir tree build m).result = .ok outcome)
    (hreport : Report.ofOutcome project lookup outcome = .error err) :
    build.hasErrors = false := by
  rcases herrors : build.errors with _ | ⟨e, others⟩
  · simp [Build.hasErrors, herrors]
  · rw [execute_abort herrors] at hrun
    obtain ⟨report, hok, -⟩ := Report.ofOutcome_abort project lookup e others
    rw [← Except.ok.inj hrun, hok] at hreport
    cases hreport

end

section

variable (s : Session) (o : Outlet) (build : Build) (m : Module)

/-- The report that a build comes to, with the mode that it is published in. -/
def Reports (tree : FileTree) (report : Report) (mode : PublishMode) : Prop :=
  ∃ outcome, (execute s.settings.persistDir tree build m).result = .ok outcome ∧
    Report.ofOutcome ⟨s.settings.root, build.entryPoint⟩ (sourceLookup build).1 outcome =
      .ok report ∧
    mode = publishMode outcome.state

/-- A build has one report at most, whatever the files are. -/
theorem Reports.unique {s : Session} {build : Build} {m : Module} {tree tree' : FileTree}
    {report report' : Report} {mode mode' : PublishMode}
    (h : s.Reports build m tree report mode) (h' : s.Reports build m tree' report' mode') :
    report = report' ∧ mode = mode' := by
  obtain ⟨outcome, hrun, hreport, rfl⟩ := h
  obtain ⟨outcome', hrun', hreport', rfl⟩ := h'
  obtain rfl : outcome = outcome' := (eq_knownOutcome hrun).trans (eq_knownOutcome hrun').symm
  rw [hreport] at hreport'
  exact ⟨Except.ok.inj hreport', rfl⟩

/-- The places of the errors of a build. -/
def placing : Except ReportError (List Report.PlacedError) :=
  Report.placeErrors ⟨s.settings.root, build.entryPoint⟩
    (knownOutcome s.settings.persistDir build m).files
    (knownOutcome s.settings.persistDir build m).errors

/-- The outlet after the build of a session has been run, with some log. -/
def afterRun (log : List LogLine) : Outlet :=
  { o with tree := (execute s.settings.persistDir o.tree build m).tree, log := log }

/-- Everything that processing a build can do: it cannot be run, or not reported, or its report is
published. -/
theorem process_cases :
    (∃ err log, (execute s.settings.persistDir o.tree build m).result = .error err ∧
      s.process o build m = ⟨s, s.afterRun o build m log,
        (execute s.settings.persistDir o.tree build m).seen, .error (.run err)⟩) ∨
    (∃ err log, build.hasErrors = false ∧
      s.process o build m = ⟨s, s.afterRun o build m log,
        (execute s.settings.persistDir o.tree build m).seen, .error (.report err)⟩) ∨
    ∃ report mode log, s.Reports build m o.tree report mode ∧
      s.process o build m =
        ⟨{ s with editor := (publish s.editor (s.afterRun o build m log) report mode).1 },
          (publish s.editor (s.afterRun o build m log) report mode).2.1,
          (execute s.settings.persistDir o.tree build m).seen,
          match (publish s.editor (s.afterRun o build m log) report mode).2.2 with
          | .error e => .error (.editor e)
          | .ok () => .ok report⟩ := by
  simp only [process, processWith]
  split
  · next err hrun => exact Or.inl ⟨err, _, hrun, rfl⟩
  · next outcome hrun =>
      apply Or.inr
      split
      · next err hreport => exact Or.inl ⟨err, _, hasErrors_of_not_reported hrun hreport, rfl⟩
      · next report hreport =>
          exact Or.inr ⟨report, _, _, ⟨outcome, hrun, hreport, rfl⟩, rfl⟩

end

/-- A build, processed, but for the log. -/
def Processed.unlogged (p : Processed) : Processed := { p with outlet := p.outlet.unlogged }

theorem Processed.unlogged_eq_iff {p q : Processed} :
    p.unlogged = q.unlogged ↔ p.session = q.session ∧
      p.outlet.unlogged = q.outlet.unlogged ∧ p.seen = q.seen ∧ p.result = q.result := by
  simp only [Processed.unlogged, Processed.mk.injEq]

/-- Process one attempt after another, each with the files that are there by then. -/
def attemptAll (s : Session) (o : Outlet) : List Attempt → List Processed
  | [] => []
  | a :: rest =>
    s.attempt o a :: attemptAll (s.attempt o a).session (s.attempt o a).outlet rest

theorem unlogged_process_congr (s : Session) {o o' : Outlet} (build : Build) (m : Module)
    (halike : o.unlogged = o'.unlogged) :
    (s.process o build m).unlogged = (s.process o' build m).unlogged := by
  obtain ⟨htree, haccepts, htried, harrived⟩ := unlogged_eq_iff.1 halike
  simp only [process, processWith, htree]
  rcases (execute s.settings.persistDir o'.tree build m).result with err | outcome
  · exact Processed.unlogged_eq_iff.2
      ⟨rfl, unlogged_eq_iff.2 ⟨rfl, haccepts, htried, harrived⟩, rfl, rfl⟩
  · dsimp only
    rcases Report.ofOutcome _ _ _ with err | report
    · exact Processed.unlogged_eq_iff.2
        ⟨rfl, unlogged_eq_iff.2 ⟨rfl, haccepts, htried, harrived⟩, rfl, rfl⟩
    · dsimp only
      generalize hp : Outlet.note _ _ = p
      generalize hq : Outlet.note _ _ = q
      have hstart : p.unlogged = q.unlogged := by
        rw [← hp, ← hq]
        exact unlogged_eq_iff.2 ⟨rfl, haccepts, htried, harrived⟩
      have heditor := editor_publish_congr s.editor report (publishMode outcome.state) hstart
      have hstage := logBlind_publish s.editor report (publishMode outcome.state) p q hstart
      obtain ⟨houtlet, hresult⟩ := Stage.unlogged_eq_iff.1 hstage
      rw [heditor, hresult]
      exact Processed.unlogged_eq_iff.2 ⟨rfl, houtlet, rfl, rfl⟩

/-- Later builds do not depend on the log, nor on the files from before. -/
theorem unlogged_attemptAll_congr (s : Session) {o o' : Outlet} (haccepts : o.accepts = o'.accepts)
    (htried : o.tried = o'.tried) (harrived : o.arrived = o'.arrived) (attempts : List Attempt) :
    (s.attemptAll o attempts).map Processed.unlogged =
      (s.attemptAll o' attempts).map Processed.unlogged := by
  induction attempts generalizing s o o' with
  | nil => rfl
  | cons a rest ih =>
      have hfirst : (s.attempt o a).unlogged = (s.attempt o' a).unlogged :=
        unlogged_process_congr s a.build a.program
          (unlogged_eq_iff.2 ⟨rfl, haccepts, htried, harrived⟩)
      obtain ⟨hsession, houtlet, -, -⟩ := Processed.unlogged_eq_iff.1 hfirst
      obtain ⟨-, haccepts', htried', harrived'⟩ := unlogged_eq_iff.1 houtlet
      rw [attemptAll, attemptAll, List.map_cons, List.map_cons, hfirst, hsession,
        ih _ haccepts' htried' harrived']

/-- A build that changed nothing but the files that its code was written to.  No command was sent,
and later builds are processed as if this one had never been. -/
structure Untouched (s : Session) (o : Outlet) (build : Build) (after : Processed) : Prop where
  session : after.session = s
  outlet : after.outlet =
    { o with
      tree := writtenTree s.settings.persistDir o.tree build
      log := after.outlet.log }
  later : ∀ attempts : List Attempt,
    (after.session.attemptAll after.outlet attempts).map Processed.unlogged =
      (s.attemptAll o attempts).map Processed.unlogged

/-- Some of the commands that a report is published with arrived, in their order, but not all.  If
the same build is published without a failure, at whatever time, then all of them arrive. -/
def CutShort (s : Session) (o : Outlet) (build : Build) (m : Module) (after : Processed) : Prop :=
  ∃ report mode, s.Reports build m o.tree report mode ∧
    (∃ k < 4, after.outlet.arrived = o.arrived ++ (commands s.editor report mode).take k) ∧
    ∀ (o' : Outlet) (report' : Report), (s.process o' build m).result = .ok report' →
      report' = report ∧
      (s.process o' build m).outlet.arrived = o'.arrived ++ commands s.editor report mode

section

variable {s : Session} {o : Outlet} {build : Build} {m : Module}

theorem untouched_of_afterRun (hbuild : build.hasErrors = false) (log : List LogLine)
    (seen : List Observation) (result : Except SessionError Report) :
    s.Untouched o build ⟨s, s.afterRun o build m log, seen, result⟩ where
  session := rfl
  outlet := by rw [afterRun, tree_execute hbuild]
  later attempts := by
    apply unlogged_attemptAll_congr
    · rfl
    · rfl
    · rfl

/-- A build that comes out well is reported, and its report is published in full. -/
theorem publish_of_process_ok {report : Report}
    (hok : (s.process o build m).result = .ok report) :
    ∃ mode log, s.Reports build m o.tree report mode ∧
      (publish s.editor (s.afterRun o build m log) report mode).2.2 = .ok () ∧
      (s.process o build m).outlet =
        (publish s.editor (s.afterRun o build m log) report mode).2.1 := by
  rcases process_cases s o build m with ⟨err, log, -, hprocess⟩ | ⟨err, log, -, hprocess⟩ |
    ⟨report', mode, log, hreports, hprocess⟩
  · rw [hprocess] at hok
    cases hok
  · rw [hprocess] at hok
    cases hok
  · rw [hprocess] at hok ⊢
    dsimp only at hok
    split at hok
    · cases hok
    · next hpublished =>
        cases hok
        exact ⟨mode, log, hreports, hpublished, rfl⟩

/-- What publishing the report of a build delivers. -/
theorem arrived_of_process_ok {report : Report}
    (hok : (s.process o build m).result = .ok report) :
    ∃ mode, s.Reports build m o.tree report mode ∧
      (s.process o build m).outlet.arrived = o.arrived ++ commands s.editor report mode := by
  obtain ⟨mode, log, hreports, hpublished, houtlet⟩ := publish_of_process_ok hok
  refine ⟨mode, hreports, ?_⟩
  rw [houtlet]
  exact (delivers_publish s.editor report mode).all _ hpublished

theorem untouched_of_error
    (hresult : (∃ err, (s.process o build m).result = .error (.run err)) ∨
      ∃ err, (s.process o build m).result = .error (.report err)) :
    s.Untouched o build (s.process o build m) := by
  rcases process_cases s o build m with ⟨err, log, hrun, hprocess⟩ |
    ⟨err, log, hbuild, hprocess⟩ | ⟨report, mode, log, hreports, hprocess⟩
  · rw [hprocess]
    exact untouched_of_afterRun (hasErrors_of_not_run hrun) log _ _
  · rw [hprocess]
    exact untouched_of_afterRun hbuild log _ _
  · rw [hprocess] at hresult
    dsimp only at hresult
    split at hresult
    · rcases hresult with ⟨err, herr⟩ | ⟨err, herr⟩ <;> cases herr
    · rcases hresult with ⟨err, herr⟩ | ⟨err, herr⟩ <;> cases herr

theorem cutShort_of_error {err : EditorError}
    (hresult : (s.process o build m).result = .error (.editor err)) :
    s.CutShort o build m (s.process o build m) := by
  rcases process_cases s o build m with ⟨err, log, hrun, hprocess⟩ |
    ⟨err, log, hbuild, hprocess⟩ | ⟨report, mode, log, hreports, hprocess⟩
  · rw [hprocess] at hresult
    cases hresult
  · rw [hprocess] at hresult
    cases hresult
  · refine ⟨report, mode, hreports, ?_, ?_⟩
    · rw [hprocess] at hresult ⊢
      dsimp only at hresult
      split at hresult
      · next failed hpublished =>
          exact (delivers_publish s.editor report mode).some _ failed hpublished
      · cases hresult
    · intro o' report' hok
      obtain ⟨mode', hreports', harrived⟩ := arrived_of_process_ok hok
      obtain ⟨rfl, rfl⟩ := hreports'.unique hreports
      exact ⟨rfl, harrived⟩

end

/-- A build that cannot be run or reported leaves the editor alone, and a failure of the editor
cuts the commands short without confusing them. -/
theorem process_fails_cleanly (s : Session) (o : Outlet) (build : Build) (m : Module) :
    ((∃ err, (s.process o build m).result = .error (.run err)) ∨
        (∃ err, (s.process o build m).result = .error (.report err)) →
      s.Untouched o build (s.process o build m)) ∧
    ∀ err, (s.process o build m).result = .error (.editor err) →
      s.CutShort o build m (s.process o build m) :=
  ⟨untouched_of_error, fun _ hresult => cutShort_of_error hresult⟩

namespace FailedBuildsWitness

def session : Session := .ofSettings ⟨⟨"/p"⟩, none, .standard⟩

def build : Build := ⟨"a();", none, [], ⟨"t.ts"⟩⟩

/-- The code goes through a file that it never names. -/
def unnamed : Module := [.run (.call (.completes ⟨⟨0⟩, 2, 1⟩))]

def named : Module :=
  [.run (.call (.registerFile ⟨0⟩ ⟨"a.ts"⟩)), .run (.call (.completes ⟨⟨0⟩, 2, 1⟩))]

/-- Only the first command arrives. -/
def outlet : Outlet := .ofTree .empty fun tried => tried == 0

theorem process_fails_cleanly_twice :
    (session.process outlet build unnamed).result =
        .error (.report (.unregisteredFile ⟨0⟩)) ∧
      session.Untouched outlet build (session.process outlet build unnamed) ∧
      (session.process outlet build named).result =
        .error (.editor (.sendCommand Outlet.silentSession)) ∧
      (session.process outlet build named).outlet.arrived.length = 1 ∧
      session.CutShort outlet build named (session.process outlet build named) := by
  have hreport : (session.process outlet build unnamed).result =
      .error (.report (.unregisteredFile ⟨0⟩)) := rfl
  have heditor : (session.process outlet build named).result =
      .error (.editor (.sendCommand Outlet.silentSession)) := rfl
  have huntouched := (process_fails_cleanly session outlet build unnamed).1 (Or.inr ⟨_, hreport⟩)
  have hcutShort := (process_fails_cleanly session outlet build named).2 _ heditor
  exact ⟨hreport, huntouched, heditor, rfl, hcutShort⟩

end FailedBuildsWitness

end Session
end LiveTest
