import LiveTest.Proofs.Display
import LiveTest.Proofs.Execution
import LiveTest.Session
/-!
What the editor shows after some builds.  The display of a session is the report of the last build
that finished, with the first error of each aborted build since laid over it.  One build is a step
of the display and keeps both boards tracked; the runs of a session follow by induction.
-/

namespace LiveTest

/-- Where a compile error is shown. -/
def CompileError.file (root : Path) (e : CompileError) : Path := root.join e.location.file

def CompileError.line (e : CompileError) : Nat := max e.location.line 1

/-- The display with one file that shows nothing but a compile error. -/
def Display.blame (root : Path) (d : Display) (e : CompileError) : Display where
  statuses path :=
    if Key.same path (e.file root) then ⟨[(e.line, .fail)]⟩ else d.statuses path
  labels path :=
    if Key.same path (e.file root) then ⟨[(e.line, ⟨Text.firstLine e.message, .error⟩)]⟩
    else d.labels path

/-- The display of a report and of nothing else. -/
def Display.ofReport (r : Report) : Display := ⟨onlyFiles r.statuses, onlyFiles r.labels⟩

/-- The report of an aborted build is its first error, on one line. -/
theorem Report.ofOutcome_abort (project : Project) (lookup : SourceLookup) (e : CompileError)
    (others : List CompileError) :
    ∃ r, ofOutcome project lookup (abortOutcome (e :: others)) = .ok r ∧
      r.statuses = ⟨[(e.file project.root, ⟨[(e.line, .fail)]⟩)]⟩ ∧
      r.labels = ⟨[(e.file project.root,
        ⟨[(e.line, ⟨Text.firstLine e.message, .error⟩)]⟩)]⟩ :=
  ⟨_, rfl, rfl, rfl⟩

theorem overwrite_singleton {α : Type} (shown : Path → SortedMap Nat α) (file path : Path)
    (lines : SortedMap Nat α) :
    overwrite shown ⟨[(file, lines)]⟩ path =
      if Key.same path file then lines else shown path := by
  change (if Key.same path file then some lines else none).getD (shown path) = _
  split <;> rfl

/-- A report that is published in full, on both boards. -/
theorem boards_publish {e e' : Editor} {o o' : Outlet} {report : Report} {mode : PublishMode}
    (hpublish : Session.publish e o report mode = (e', o', .ok ())) :
    e'.statusBoard o' = (e.statusBoard o).publish report.statuses mode true ∧
      e'.labelBoard o' = (e.labelBoard o).publish report.labels mode true := by
  rw [Session.publish] at hpublish
  split at hpublish
  · cases hpublish
  · next e₁ o₁ hstatuses =>
      split at hpublish
      · cases hpublish
      · next e₂ o₂ hlabels =>
          split at hpublish
          · cases hpublish
          · next o₃ hlist =>
              obtain ⟨hstatusBoard, hotherBoard⟩ := Editor.boards_applyStatuses_ok _ _ _ hstatuses
              obtain ⟨hlabelBoard, hkeptBoard⟩ := Editor.boards_applyLabels_ok _ _ _ hlabels
              have hlisted := Editor.display_publishList e₂ o₂ Session.failuresList
                report.failures true
              have hdetailed := Editor.display_publishDetails e₂ o₃ report.notifications
              rw [hlist] at hlisted
              simp only [Prod.mk.injEq] at hpublish
              obtain ⟨rfl, hdetails⟩ := hpublish
              rw [hdetails] at hdetailed
              have hdisplay : o'.display = o₂.display := hdetailed.trans hlisted
              constructor
              · rw [← hstatusBoard, ← hkeptBoard, Editor.statusBoard, hdisplay]
                rfl
              · rw [← hotherBoard, ← hlabelBoard, Editor.labelBoard, hdisplay]
                rfl

/-- The display of a report, and what an overlay keeps. -/
def Display.published (d : Display) (report : Report) : PublishMode → Display
  | .replace => .ofReport report
  | .overlay => ⟨overwrite d.statuses report.statuses, overwrite d.labels report.labels⟩

theorem display_publish {e e' : Editor} {o o' : Outlet} {report : Report} {mode : PublishMode}
    (htracked : e.Tracked o)
    (hpublish : Session.publish e o report mode = (e', o', .ok ())) :
    e'.Tracked o' ∧ o'.display = o.display.published report mode := by
  obtain ⟨hstatuses, hlabels⟩ := boards_publish hpublish
  refine ⟨⟨?_, ?_⟩, ?_⟩
  · rw [hstatuses]
    exact htracked.1.publish _ _
  · rw [hlabels]
    exact htracked.2.publish _ _
  · have hshown : o'.display = ⟨(e'.statusBoard o').shown, (e'.labelBoard o').shown⟩ := rfl
    rw [hshown, hstatuses, hlabels]
    cases mode with
    | replace =>
        rw [htracked.1.shown_publish_replace, htracked.2.shown_publish_replace]
        rfl
    | overlay => rfl

/-- A build to process, what its module does, and the files that are there. -/
structure Attempt where
  build : Build
  program : Module
  tree : FileTree

namespace Attempt

/-- The report of a build that runs to its end. -/
def report? (settings : Settings) (a : Attempt) : Option Report :=
  match a.build.errors, (execute settings.persistDir a.tree a.build a.program).result with
  | [], .ok outcome =>
    (Report.ofOutcome ⟨settings.root, a.build.entryPoint⟩ (Session.sourceLookup a.build).1
      outcome).toOption
  | _, _ => none

/-- The error that a build is aborted with. -/
def error? (a : Attempt) : Option CompileError := a.build.errors.head?

theorem errors_of_error? {a : Attempt} {e : CompileError} (herror : a.error? = some e) :
    ∃ others, a.build.errors = e :: others :=
  List.head?_eq_some_iff.1 herror

theorem report?_of_error {settings : Settings} {a : Attempt} {e : CompileError}
    (herror : a.error? = some e) : a.report? settings = none := by
  obtain ⟨others, hbuild⟩ := errors_of_error? herror
  simp [report?, hbuild]

theorem errors_of_not_error? {a : Attempt} (herror : a.error? = none) : a.build.errors = [] :=
  List.head?_eq_none_iff.1 herror

end Attempt

/-- What an attempt makes of a display: a build with errors shows the first of them, and any other
build shows its report, if it has one. -/
def Display.afterAttempt (settings : Settings) (d : Display) (a : Attempt) : Display :=
  match a.error?, a.report? settings with
  | some e, _ => d.blame settings.root e
  | none, some report => .ofReport report
  | none, none => d

theorem published_overlay_abort (d : Display) {root : Path} {e : CompileError} {r : Report}
    (hstatuses : r.statuses = ⟨[(e.file root, ⟨[(e.line, .fail)]⟩)]⟩)
    (hlabels : r.labels =
      ⟨[(e.file root, ⟨[(e.line, ⟨Text.firstLine e.message, .error⟩)]⟩)]⟩) :
    d.published r .overlay = d.blame root e := by
  rw [Display.published, hstatuses, hlabels, Display.blame, Display.mk.injEq]
  exact ⟨funext fun path => overwrite_singleton _ _ _ _,
    funext fun path => overwrite_singleton _ _ _ _⟩

section

variable {settings : Settings} {a : Attempt} {outcome : RunOutcome}

/-- A build with errors has a report, and with the mode of its run the report shows the first. -/
theorem report_of_abort {project : Project} {lookup : SourceLookup} {e : CompileError}
    (herror : a.error? = some e)
    (hrun : (execute settings.persistDir a.tree a.build a.program).result = .ok outcome) :
    outcome.state = .abort ∧ ∃ r, Report.ofOutcome project lookup outcome = .ok r ∧
      ∀ d : Display, d.published r .overlay = d.blame project.root e := by
  obtain ⟨others, hbuild⟩ := a.errors_of_error? herror
  rw [execute_abort hbuild] at hrun
  cases hrun
  obtain ⟨r, hr, hstatuses, hlabels⟩ := Report.ofOutcome_abort project lookup e others
  exact ⟨rfl, r, hr, fun d => published_overlay_abort d hstatuses hlabels⟩

/-- A build that is not run changes nothing. -/
theorem afterAttempt_of_not_run {err : PersistError} (d : Display)
    (hrun : (execute settings.persistDir a.tree a.build a.program).result = .error err) :
    d.afterAttempt settings a = d := by
  rw [Display.afterAttempt]
  cases herror : a.error? with
  | some e =>
      obtain ⟨others, hbuild⟩ := a.errors_of_error? herror
      rw [execute_abort hbuild] at hrun
      cases hrun
  | none =>
      have hreport : a.report? settings = none := by
        simp [Attempt.report?, a.errors_of_not_error? herror, hrun]
      rw [hreport]

/-- A run without a report changes nothing. -/
theorem afterAttempt_of_not_reported {err : ReportError} (d : Display)
    (hrun : (execute settings.persistDir a.tree a.build a.program).result = .ok outcome)
    (hreport : Report.ofOutcome ⟨settings.root, a.build.entryPoint⟩
      (Session.sourceLookup a.build).1 outcome = .error err) :
    d.afterAttempt settings a = d := by
  rw [Display.afterAttempt]
  cases herror : a.error? with
  | some e =>
      obtain ⟨-, r, hr, -⟩ := report_of_abort herror hrun
      rw [hr] at hreport
      cases hreport
  | none =>
      have hnone : a.report? settings = none := by
        simp [Attempt.report?, a.errors_of_not_error? herror, hrun, hreport, Except.toOption]
      rw [hnone]

/-- What is published of a run is what its attempt shows. -/
theorem afterAttempt_of_reported {report : Report} (d : Display)
    (hrun : (execute settings.persistDir a.tree a.build a.program).result = .ok outcome)
    (hreport : Report.ofOutcome ⟨settings.root, a.build.entryPoint⟩
      (Session.sourceLookup a.build).1 outcome = .ok report) :
    d.afterAttempt settings a = d.published report (Session.publishMode outcome.state) := by
  rw [Display.afterAttempt]
  cases herror : a.error? with
  | some e =>
      obtain ⟨hstate, r, hr, hshown⟩ := report_of_abort herror hrun
      rw [hr] at hreport
      cases hreport
      rw [hstate]
      exact (hshown d).symm
  | none =>
      have hsome : a.report? settings = some report := by
        simp [Attempt.report?, a.errors_of_not_error? herror, hrun, hreport, Except.toOption]
      rw [hsome, state_of_execute (a.errors_of_not_error? herror) hrun]
      rfl

end

namespace Session

/-- Process the build of an attempt, with its files. -/
def attempt (s : Session) (o : Outlet) (a : Attempt) : Processed :=
  s.process { o with tree := a.tree } a.build a.program

/-- One attempt is one step of the display, unless something sent did not arrive. -/
theorem attempt_step {s : Session} {o : Outlet} {a : Attempt} (htracked : s.editor.Tracked o)
    (hsent : ∀ err, (s.attempt o a).result ≠ .error (.editor err)) :
    (s.attempt o a).session.settings = s.settings ∧
      (s.attempt o a).session.editor.Tracked (s.attempt o a).outlet ∧
      (s.attempt o a).outlet.display = o.display.afterAttempt s.settings a := by
  generalize hattempt : s.attempt o a = processed at hsent ⊢
  simp only [attempt, process, processWith] at hattempt
  split at hattempt
  · next err hrun =>
      subst hattempt
      exact ⟨rfl, htracked, (afterAttempt_of_not_run o.display hrun).symm⟩
  · next outcome hrun =>
      split at hattempt
      · next err hreport =>
          subst hattempt
          exact ⟨rfl, htracked, (afterAttempt_of_not_reported o.display hrun hreport).symm⟩
      · next report hreport =>
          generalize hpublish : publish _ _ _ _ = published at hattempt
          rcases published with ⟨editor, o', err | _⟩
          · subst hattempt
            exact absurd rfl (hsent err)
          · subst hattempt
            obtain ⟨hafter, hdisplay⟩ := display_publish (by exact htracked) hpublish
            refine ⟨rfl, hafter, ?_⟩
            rw [afterAttempt_of_reported o.display hrun hreport]
            exact hdisplay

end Session

/-- What is to be shown after some attempts, the last of them first: the last report of a build
that finished, and over it the first errors of the builds aborted since, in their order. -/
def Display.ofAttempts (settings : Settings) (attempts : List Attempt) : Display :=
  let later := attempts.takeWhile fun a => (a.report? settings).isNone
  (later.filterMap Attempt.error?).foldr (fun e d => d.blame settings.root e)
    (match attempts.findSome? (Attempt.report? settings) with
      | some report => .ofReport report
      | none => .blank)

theorem Display.ofAttempts_cons (settings : Settings) (a : Attempt) (earlier : List Attempt) :
    ofAttempts settings (a :: earlier) =
      (ofAttempts settings earlier).afterAttempt settings a := by
  rw [afterAttempt]
  cases herror : a.error? with
  | some e => simp [ofAttempts, herror, a.report?_of_error herror]
  | none =>
      cases hreport : a.report? settings with
      | some report => simp [ofAttempts, hreport]
      | none => simp [ofAttempts, hreport, herror]

namespace Session

/-- A session after some attempts, the last of them first.  Everything that it sent has arrived. -/
inductive Ran (settings : Settings) : List Attempt → Session → Outlet → Prop
  | start {o : Outlet} (hblank : o.display = .blank) : Ran settings [] (.ofSettings settings) o
  | attempt {earlier : List Attempt} {s : Session} {o : Outlet} (hran : Ran settings earlier s o)
      (a : Attempt) (hsent : ∀ err, (s.attempt o a).result ≠ .error (.editor err)) :
      Ran settings (a :: earlier) (s.attempt o a).session (s.attempt o a).outlet

theorem Ran.invariant {settings : Settings} {attempts : List Attempt} {s : Session}
    {o : Outlet} (hran : Ran settings attempts s o) :
    s.settings = settings ∧ s.editor.Tracked o ∧
      o.display = .ofAttempts settings attempts := by
  induction hran with
  | start hblank => exact ⟨rfl, Editor.tracked_of_display_blank _ hblank, hblank⟩
  | attempt hran a hsent ih =>
      obtain ⟨hsettings, htracked, hdisplay⟩ := ih
      obtain ⟨hkept, hafter, hstep⟩ := attempt_step htracked hsent
      refine ⟨hkept.trans hsettings, hafter, ?_⟩
      rw [hstep, hsettings, Display.ofAttempts_cons, hdisplay]

/-- What the editor shows after any number of builds, as long as everything sent to it arrives. -/
theorem display_of_ran {settings : Settings} {attempts : List Attempt} {s : Session}
    {o : Outlet} (hran : Ran settings attempts s o) :
    o.display = .ofAttempts settings attempts :=
  hran.invariant.2.2

end Session

namespace SessionDisplayWitness

def settings : Settings := ⟨⟨"/p"⟩, none, .standard⟩

/-- A build that finishes, having gone through one line. -/
def finishing : Attempt where
  build := ⟨"a();", none, [], ⟨"t.ts"⟩⟩
  program :=
    [.run (.call (.registerFile ⟨0⟩ ⟨"a.ts"⟩)), .run (.call (.completes ⟨⟨0⟩, 2, 1⟩))]
  tree := .empty

def aborting : Attempt where
  build := ⟨"", none, [⟨⟨⟨"b.ts"⟩, 0, 1⟩, "no such name\nin b.ts"⟩], ⟨"t.ts"⟩⟩
  program := []
  tree := .empty

def first : Session.Processed :=
  (Session.ofSettings settings).attempt (.ofTree .empty fun _ => true) finishing

def second : Session.Processed := first.session.attempt first.outlet aborting

theorem ne_error_of_isOk {result : Except SessionError Report} (hok : result.isOk = true)
    (err : EditorError) : result ≠ .error (.editor err) := by
  rintro rfl
  cases hok

/-- The file of the aborted build is shown next to the one from before. -/
theorem display_of_ran_aborted :
    Session.Ran settings [aborting, finishing] second.session second.outlet ∧
      second.outlet.display.statuses ⟨"/p/a.ts"⟩ = ⟨[(2, .success)]⟩ ∧
      second.outlet.display.statuses ⟨"/p/b.ts"⟩ = ⟨[(1, .fail)]⟩ ∧
      second.outlet.display.labels ⟨"/p/b.ts"⟩ = ⟨[(1, ⟨"no such name", .error⟩)]⟩ := by
  have hstart : Session.Ran settings [] (.ofSettings settings)
      (.ofTree .empty fun _ => true) := .start rfl
  have hfirst : Session.Ran settings [finishing] first.session first.outlet :=
    hstart.attempt finishing (ne_error_of_isOk (by decide +kernel))
  have hsecond : Session.Ran settings [aborting, finishing] second.session second.outlet :=
    hfirst.attempt aborting (ne_error_of_isOk (by decide +kernel))
  refine ⟨hsecond, ?_, ?_, ?_⟩
  · rw [Session.display_of_ran hsecond]
    decide +kernel
  · rw [Session.display_of_ran hsecond]
    decide +kernel
  · rw [Session.display_of_ran hsecond]
    decide +kernel

end SessionDisplayWitness

end LiveTest
