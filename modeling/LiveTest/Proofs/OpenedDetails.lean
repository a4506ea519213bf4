import LiveTest.Proofs.CommandTexts
import LiveTest.Proofs.FailedBuilds
import LiveTest.Proofs.ShownErrors
import LiveTest.Proofs.WrittenFiles
/-!
Opening the details of a shown error.  Labels stay when another file's build is aborted, but the
command that opens details always knows those of the last report only.  So after a build that
finished every error on display opens, with its own details, if its file goes by the spelling that
the first error of its line has, and after an aborted build the one error of that build opens and
no other.
-/

namespace LiveTest

/-- A case of the command that opens details: the hash of a line, and the file to open. -/
structure Arm where
  hash : String
  path : Path

namespace Commands

/-- The name of the file that holds the details of a line. -/
def detailsName (file : Path) (line : Nat) : String :=
  "notification_" ++ detailsHash file line ++ ".json"

/-- The case of a line. -/
def arm (tempDir : Path) (n : Notification) : Arm :=
  ⟨detailsHash n.file n.line, detailsPath tempDir n.file n.line⟩

/-- The file of a line's details has a plain name. -/
theorem isPlain_detailsName (file : Path) (line : Nat) :
    Path.IsPlain (detailsName file line).toList where
  noSlash := by
    rw [detailsName, String.toList_append, String.toList_append]
    intro hmem
    rcases List.mem_append.1 hmem with hmem | hmem
    · rcases List.mem_append.1 hmem with hmem | hmem
      · revert hmem
        decide
      · obtain ⟨n, hn⟩ := Sha256.exists_digitChar_of_mem_hash hmem
        exact Nat.digitChar_ne '/' (by decide) hn.symm
    · revert hmem
      decide
  ne_nil := by simp [detailsName]
  ne_here := by simp [detailsName]
  ne_up := by simp [detailsName]

/-- Names are as different as the hashes. -/
theorem detailsName_inj {file file' : Path} {line line' : Nat} :
    detailsName file line = detailsName file' line' ↔
      detailsHash file line = detailsHash file' line' := by
  rw [detailsName, detailsName, String.append_left_inj, String.append_right_inj]

end Commands

/-- The cases of a command that opens details. -/
def Command.openTable? : Command → Option (List Arm)
  | .openDetails tempDir notifications => some (notifications.map (Commands.arm tempDir))
  | _ => none

namespace Outlet

/-- The cases of the last command to open details that arrived. -/
def openTable (o : Outlet) : List Arm := (o.arrived.reverse.findSome? Command.openTable?).getD []

/-- The case that is taken on a line: the first one with the hash of the file and the line. -/
def arm? (o : Outlet) (file : Path) (line : Nat) : Option Arm :=
  o.openTable.find? fun a => a.hash == Commands.detailsHash file line

end Outlet

/-- The label that a line shows. -/
def Display.labelAt (d : Display) (file : Path) (line : Nat) : Option Label :=
  (d.labels file).get? line

/-- No two of these texts have one hash. -/
def HashesApart (texts : List String) : Prop :=
  ∀ a ∈ texts, ∀ b ∈ texts, Sha256.hash a = Sha256.hash b → a = b

instance (texts : List String) : Decidable (HashesApart texts) :=
  inferInstanceAs (Decidable (∀ a ∈ texts, ∀ b ∈ texts, Sha256.hash a = Sha256.hash b → a = b))

/-- The key of the line that a notification is about. -/
def Notification.key (n : Notification) : String := placeKey n.file n.line

namespace Editor

variable {e : Editor} {o : Outlet}

open Commands Outlet

/-- The details of a line, written before those of the other lines. -/
theorem writeDetails_cons_eq_ok {n : Notification} {rest : List Notification}
    (hok : (e.writeDetails o (n :: rest)).2 = .ok ()) :
    ∃ made o', o.tree.createDirectory e.settings.tempDir = some made ∧
      made.write (e.settings.tempDir.join ⟨detailsName n.file n.line⟩) n.json = some o'.tree ∧
      (e.writeDetails o' rest).2 = .ok () ∧
      (e.writeDetails o (n :: rest)).1 = (e.writeDetails o' rest).1 := by
  have hcons : e.writeDetails o (n :: rest) = Stage.andThen
      (o.writeFile e.settings.tempDir (detailsPath e.settings.tempDir n.file n.line) n.json)
      fun o => e.writeDetails o rest := rfl
  rw [hcons] at hok ⊢
  obtain ⟨hwritten, hrest⟩ := Stage.andThen_eq_ok.1 hok
  obtain ⟨made, hmade, hwrite⟩ := writeFile_eq_ok hwritten
  exact ⟨made, _, hmade, hwrite, hrest, congrArg Prod.fst (Stage.andThen_of_ok hwritten _)⟩

/-- Writing the details of other lines leaves a file as it is. -/
theorem holds_writeDetails_of_ne {notifications : List Notification} {name text : String}
    (hok : (e.writeDetails o notifications).2 = .ok ())
    (hne : ∀ n ∈ notifications, name ≠ detailsName n.file n.line)
    (hholds : o.tree.Holds e.settings.tempDir name text) :
    (e.writeDetails o notifications).1.tree.Holds e.settings.tempDir name text := by
  induction notifications generalizing o with
  | nil => exact hholds
  | cons n rest ih =>
      obtain ⟨made, o', hmade, hwrite, hrest, hafter⟩ := writeDetails_cons_eq_ok hok
      rw [hafter]
      apply ih hrest
      · intro n' hn'
        exact hne n' (List.mem_cons_of_mem n hn')
      · have hmadeHolds := hholds.extends (FileTree.extends_createDirectory hmade)
        exact hmadeHolds.write (isPlain_detailsName n.file n.line) (hne n List.mem_cons_self) hwrite

/-- All details that are written can be read. -/
theorem read?_writeDetails {notifications : List Notification}
    (hok : (e.writeDetails o notifications).2 = .ok ())
    (hnames : notifications.Pairwise fun n n' =>
      detailsName n.file n.line ≠ detailsName n'.file n'.line) :
    ∀ n ∈ notifications, (e.writeDetails o notifications).1.tree.read?
      (detailsPath e.settings.tempDir n.file n.line) = some n.json := by
  induction notifications generalizing o with
  | nil =>
      intro n hn
      cases hn
  | cons head rest ih =>
      obtain ⟨hhead, htail⟩ := List.pairwise_cons.1 hnames
      obtain ⟨made, o', hmade, hwrite, hrest, hafter⟩ := writeDetails_cons_eq_ok hok
      have hplain := isPlain_detailsName head.file head.line
      rw [hafter]
      intro n hn
      rcases List.mem_cons.1 hn with rfl | hn
      · have hholds := holds_writeDetails_of_ne hrest hhead
          (FileTree.holds_of_write hplain hwrite)
        exact hholds.read? hplain (FileTree.write_join_eq_some hplain hwrite).1
      · exact ih hrest htail n hn

end Editor

section

variable {notifications : List Notification}

/-- Of keys whose hashes are apart, two with one hash are those of one line. -/
theorem HashesApart.eq_of_detailsHash {texts : List String} (h : HashesApart texts)
    {file file' : Path} {line line' : Nat} (hmem : placeKey file line ∈ texts)
    (hmem' : placeKey file' line' ∈ texts)
    (hhash : Commands.detailsHash file line = Commands.detailsHash file' line') :
    file = file' ∧ line = line' :=
  placeKey_inj.1 (h _ hmem _ hmem' hhash)

theorem HashesApart.pairwise_detailsName
    (h : HashesApart (notifications.map Notification.key))
    (hlines : notifications.Pairwise fun n n' => ¬(n.file = n'.file ∧ n.line = n'.line)) :
    notifications.Pairwise fun n n' =>
      Commands.detailsName n.file n.line ≠ Commands.detailsName n'.file n'.line := by
  refine List.Pairwise.imp_of_mem ?_ hlines
  intro n n' hn hn' hline hname
  exact hline (h.eq_of_detailsHash (List.mem_map_of_mem hn) (List.mem_map_of_mem hn')
    (Commands.detailsName_inj.1 hname))

variable {o : Outlet} {tempDir file : Path} {line : Nat}
  (htable : o.openTable = notifications.map (Commands.arm tempDir))
  (hapart : HashesApart (placeKey file line :: notifications.map Notification.key))

include htable hapart

/-- The case that is taken on a line is the one of its notification. -/
theorem Outlet.exists_of_arm? {arm : Arm} (harm : o.arm? file line = some arm) :
    ∃ n ∈ notifications, n.file = file ∧ n.line = line ∧ arm = Commands.arm tempDir n := by
  rw [arm?, htable, List.find?_eq_some_iff_append] at harm
  obtain ⟨hhash, before, after, hsplit, -⟩ := harm
  have hmem : arm ∈ notifications.map (Commands.arm tempDir) :=
    hsplit ▸ List.mem_append_right before List.mem_cons_self
  obtain ⟨n, hn, rfl⟩ := List.mem_map.1 hmem
  obtain ⟨hfile, hline⟩ := hapart.eq_of_detailsHash
    (List.mem_cons_of_mem _ (List.mem_map_of_mem hn)) List.mem_cons_self (eq_of_beq hhash)
  exact ⟨n, hn, hfile, hline, rfl⟩

/-- A line opens if and only if there is a notification about it. -/
theorem Outlet.isSome_arm?_iff :
    (o.arm? file line).isSome = true ↔ ∃ n ∈ notifications, n.file = file ∧ n.line = line := by
  constructor
  · intro hsome
    obtain ⟨arm, harm⟩ := Option.isSome_iff_exists.1 hsome
    obtain ⟨n, hn, hfile, hline, -⟩ := exists_of_arm? htable hapart harm
    exact ⟨n, hn, hfile, hline⟩
  · rintro ⟨n, hn, rfl, rfl⟩
    rw [arm?, htable, List.find?_isSome]
    exact ⟨Commands.arm tempDir n, List.mem_map_of_mem hn, beq_self_eq_true _⟩

end

section

variable {file : Path} {line : Nat}

theorem Display.labelAt_ofReport (report : Report) :
    (ofReport report).labelAt file line = Report.labelAt report.labels file line := by
  change ((report.labels.get? file).getD .empty).get? line = _
  rw [Report.labelAt]
  cases report.labels.get? file <;> rfl

/-- What a report labels is shown as soon as it is published. -/
theorem Display.labelAt_published {report : Report} {label : Label}
    (h : Report.labelAt report.labels file line = some label) (d : Display) (mode : PublishMode) :
    (d.published report mode).labelAt file line = some label := by
  cases mode with
  | replace => rwa [published, labelAt_ofReport]
  | overlay =>
      rw [Report.labelAt, Option.bind_eq_some_iff] at h
      obtain ⟨lines, hlines, hlabel⟩ := h
      change ((report.labels.get? file).getD (d.labels file)).get? line = _
      rw [hlines]
      exact hlabel

end

namespace Session

open Outlet

variable {e : Editor} {o : Outlet} {report : Report} {mode : PublishMode}

/-- Publishing ends with writing the details, as far as the files go. -/
theorem tree_publish (hok : (publish e o report mode).2.2 = .ok ()) :
    ∃ o', (e.writeDetails o' report.notifications).2 = .ok () ∧
      (publish e o report mode).2.1.tree = (e.writeDetails o' report.notifications).1.tree := by
  rw [publish_eq_andThen] at hok ⊢
  obtain ⟨hstatuses, hok⟩ := Stage.andThen_eq_ok.1 hok
  rw [Stage.andThen_of_ok hstatuses]
  obtain ⟨hlabels, hok⟩ := Stage.andThen_eq_ok.1 hok
  rw [Stage.andThen_of_ok hlabels]
  obtain ⟨hlist, hok⟩ := Stage.andThen_eq_ok.1 hok
  rw [Stage.andThen_of_ok hlist]
  rw [Editor.publishDetails_eq_andThen] at hok ⊢
  obtain ⟨hwritten, -⟩ := Stage.andThen_eq_ok.1 hok
  rw [Stage.andThen_of_ok hwritten, tree_send]
  exact ⟨_, hwritten, rfl⟩

theorem openTable_of_arrived {before : List Command}
    (harrived : o.arrived = before ++ commands e report mode) :
    o.openTable = report.notifications.map (Commands.arm e.settings.tempDir) := by
  rw [openTable, harrived, List.reverse_append]
  rfl

/-- An aborted build places its one error. -/
theorem placed_of_abort {project : Project} {outcome : RunOutcome} {c : CompileError}
    {others : List CompileError} (habort : outcome = abortOutcome (c :: others))
    {placed : List Report.PlacedError}
    (hplaced : Report.placeErrors project outcome.files outcome.errors = .ok placed) :
    ∃ error, placed = [error] ∧ error.file = c.file project.root ∧ error.line = c.line := by
  subst habort
  cases hplaced
  exact ⟨_, rfl, rfl, rfl⟩

/-- A build whose report is published: what is shown, what opens and what is written. -/
structure Publication (s : Session) (o : Outlet) (a : Attempt) (report : Report) where
  outcome : RunOutcome
  stages : Report.Stages ⟨s.settings.root, a.build.entryPoint⟩ (sourceLookup a.build).1 outcome
    report
  run_eq : (execute s.settings.persistDir a.tree a.build a.program).result = .ok outcome
  display_eq : (s.attempt o a).outlet.display =
    o.display.published report (publishMode outcome.state)
  openTable_eq : (s.attempt o a).outlet.openTable =
    report.notifications.map (Commands.arm s.editor.settings.tempDir)
  written : ∃ o', (s.editor.writeDetails o' report.notifications).2 = .ok () ∧
    (s.attempt o a).outlet.tree = (s.editor.writeDetails o' report.notifications).1.tree

section

variable {s : Session} {a : Attempt}

theorem publication_of_ok (htracked : s.editor.Tracked o)
    (hok : (s.attempt o a).result = .ok report) : Nonempty (s.Publication o a report) := by
  obtain ⟨mode, log, ⟨outcome, hrun, hreport, rfl⟩, hpublish, houtlet⟩ :=
    publish_of_process_ok hok
  obtain ⟨mode, -, harrived⟩ := arrived_of_process_ok hok
  obtain ⟨stages⟩ := Report.stages_of_ofOutcome hreport
  have hsent : ∀ err, (s.attempt o a).result ≠ .error (.editor err) := by
    intro err herr
    rw [hok] at herr
    cases herr
  have hdisplay : (s.attempt o a).outlet.display =
      o.display.published report (publishMode outcome.state) :=
    (attempt_step htracked hsent).2.2.trans (afterAttempt_of_reported o.display hrun hreport)
  obtain ⟨o', hwritten, htree⟩ := tree_publish hpublish
  exact ⟨⟨outcome, stages, hrun, hdisplay, openTable_of_arrived harrived,
    ⟨o', hwritten, (congrArg Outlet.tree houtlet).trans htree⟩⟩⟩

namespace Publication

variable {file : Path} {line : Nat} {text : String} (p : s.Publication o a report)

theorem placing_eq : s.placing a.build a.program = .ok p.stages.placed := by
  rw [placing, ← eq_knownOutcome p.run_eq]
  exact p.stages.placed_eq

theorem opens_iff
    (hapart : HashesApart (placeKey file line :: report.notifications.map Notification.key)) :
    ((s.attempt o a).outlet.arm? file line).isSome = true ↔
      ∃ first, Report.firstAt p.stages.placed file line = some first ∧ first.file = file :=
  (isSome_arm?_iff p.openTable_eq hapart).trans (Report.exists_notification_iff p.stages)

/-- A build that finished shows only errors of its own. -/
theorem exists_firstAt (hfinished : a.error? = none)
    (hshown : (s.attempt o a).outlet.display.labelAt file line = some ⟨text, .error⟩) :
    ∃ first, Report.firstAt p.stages.placed file line = some first := by
  rw [p.display_eq, state_of_execute (a.errors_of_not_error? hfinished) p.run_eq] at hshown
  have hlabel : Report.labelAt report.labels file line = some ⟨text, .error⟩ :=
    (Display.labelAt_ofReport report).symm.trans hshown
  exact Report.exists_firstAt_of_labelAt p.stages hlabel

/-- The one error of an aborted build is the first of its line. -/
theorem firstAt_of_abort {c : CompileError} (hc : a.error? = some c) :
    (∃ first, Report.firstAt p.stages.placed file line = some first ∧ first.file = file) ↔
      file = c.file s.settings.root ∧ line = c.line := by
  obtain ⟨others, hbuild⟩ := a.errors_of_error? hc
  have habort : p.outcome = abortOutcome (c :: others) :=
    Except.ok.inj (p.run_eq.symm.trans (execute_abort hbuild))
  obtain ⟨error, hone, hfile, hline⟩ := placed_of_abort habort p.stages.placed_eq
  rw [hone]
  constructor
  · rintro ⟨first, hfirst, rfl⟩
    obtain ⟨hmem, hsame⟩ := Report.of_firstAt hfirst
    obtain rfl := List.mem_singleton.1 hmem
    exact ⟨hfile, (Key.same_nat_iff.1 (Key.same_prod_iff.1 hsame).2).trans hline⟩
  · rintro ⟨rfl, rfl⟩
    rw [← hfile, ← hline]
    exact ⟨error, List.find?_cons_of_pos (Key.same_self (error.file, error.line)), rfl⟩

/-- The label and the details of a line that opens. -/
theorem details_of_arm?
    (hshown : (s.attempt o a).outlet.display.labelAt file line = some ⟨text, .error⟩)
    (hapart : HashesApart (placeKey file line :: report.notifications.map Notification.key))
    {arm : Arm} (harm : (s.attempt o a).outlet.arm? file line = some arm) :
    text = Report.errorText (Report.errorsAt p.stages.placed file line) ∧
      (s.attempt o a).outlet.tree.read? arm.path =
        some (Report.notification p.outcome (sourceLookup a.build).1 file line
          (Report.errorsAt p.stages.placed file line)).json := by
  obtain ⟨first, hfirst, -⟩ := (p.opens_iff hapart).1 (harm ▸ rfl)
  obtain ⟨n, hn, rfl, rfl, rfl⟩ := exists_of_arm? p.openTable_eq hapart harm
  constructor
  · -- Both modes show what the report labels, so this holds of aborted builds as well.
    have hlabel := Display.labelAt_published (Report.labelAt_of_firstAt p.stages hfirst) o.display
      (publishMode p.outcome.state)
    rw [← p.display_eq, hshown] at hlabel
    exact congrArg Label.text (Option.some.inj hlabel)
  · obtain ⟨o', hwritten, htree⟩ := p.written
    have hothers : HashesApart (report.notifications.map Notification.key) := by
      intro x hx y hy
      exact hapart x (List.mem_cons_of_mem _ hx) y (List.mem_cons_of_mem _ hy)
    have hnames := hothers.pairwise_detailsName (Report.pairwise_notifications p.stages)
    rw [htree, ← Report.eq_notification_of_mem p.stages hn]
    exact Editor.read?_writeDetails hwritten hnames n hn

end Publication

end

/-- Whether a shown error opens.  After a build that finished, it does if and only if the first
error of its line spells the file as the editor does.  After an aborted build, it does if and only if
it is the error of that build.  What opens are the details of the errors of the label. -/
theorem shown_error_opens_iff {settings : Settings} {earlier : List Attempt} {s : Session}
    {o : Outlet} (hran : Ran settings earlier s o) {a : Attempt} {report : Report}
    (hok : (s.attempt o a).result = .ok report) {file : Path} {line : Nat} {text : String}
    (hshown : (s.attempt o a).outlet.display.labelAt file line = some ⟨text, .error⟩)
    (hapart : HashesApart (placeKey file line :: report.notifications.map Notification.key)) :
    ∃ placed, s.placing a.build a.program = .ok placed ∧
      (a.error? = none → ∃ first, Report.firstAt placed file line = some first ∧
        (((s.attempt o a).outlet.arm? file line).isSome = true ↔ first.file = file)) ∧
      (∀ c, a.error? = some c →
        (((s.attempt o a).outlet.arm? file line).isSome = true ↔
          file = c.file settings.root ∧ line = c.line)) ∧
      ∀ arm, (s.attempt o a).outlet.arm? file line = some arm →
        text = Report.errorText (Report.errorsAt placed file line) ∧
        (s.attempt o a).outlet.tree.read? arm.path =
          some (Report.notification (knownOutcome s.settings.persistDir a.build a.program)
            (sourceLookup a.build).1 file line (Report.errorsAt placed file line)).json := by
  obtain ⟨rfl, htracked, -⟩ := hran.invariant
  obtain ⟨p⟩ := publication_of_ok htracked hok
  refine ⟨p.stages.placed, p.placing_eq, ?_, ?_, ?_⟩
  · intro hfinished
    obtain ⟨first, hfirst⟩ := p.exists_firstAt hfinished hshown
    refine ⟨first, hfirst, ?_⟩
    rw [p.opens_iff hapart, hfirst]
    simp
  · intro c hc
    rw [p.opens_iff hapart, p.firstAt_of_abort hc]
  · intro arm harm
    rw [← eq_knownOutcome p.run_eq]
    exact p.details_of_arm? hshown hapart harm

end Session

namespace OpenedDetailsWitness

open Session (shown_error_opens_iff)

def settings : Settings := ⟨⟨"/p"⟩, none, .standard⟩

/-- A build that finishes, with an error in its second line. -/
def failing : Attempt where
  build := ⟨"a();", none, [], ⟨"t.ts"⟩⟩
  program :=
    [.run (.call (.registerFile ⟨0⟩ ⟨"a.ts"⟩)), .run (.call (.begins ⟨⟨0⟩, 2, 1⟩)),
      .run (.fail (.ofMessage "first"))]
  tree := .empty

def aborting : Attempt where
  build := ⟨"", none, [⟨⟨⟨"b.ts"⟩, 0, 1⟩, "no such name"⟩], ⟨"t.ts"⟩⟩
  program := []
  tree := .empty

def first : Session.Processed :=
  (Session.ofSettings settings).attempt (.ofTree .empty fun _ => true) failing

def second : Session.Processed := first.session.attempt first.outlet aborting

/-- What the two builds show and open. -/
theorem course_of_builds :
    first.result.isOk = true ∧
      (second.result.map fun r => r.notifications.map Notification.key) = .ok ["/p/b.ts:1"] ∧
      (first.outlet.display.labelAt ⟨"/p/a.ts"⟩ 2 = some ⟨"first", .error⟩ ∧
        (first.outlet.arm? ⟨"/p/a.ts"⟩ 2).isSome = true) ∧
      (second.outlet.display.labelAt ⟨"/p/a.ts"⟩ 2 = some ⟨"first", .error⟩ ∧
        (second.outlet.arm? ⟨"/p/a.ts"⟩ 2).isSome = false) ∧
      second.outlet.display.labelAt ⟨"/p/b.ts"⟩ 1 = some ⟨"no such name", .error⟩ ∧
      HashesApart ["/p/a.ts:2", "/p/b.ts:1"] := by
  decide +kernel

/-- The error of the first build opens until another file's build is aborted, although it is shown
all the time. -/
theorem shown_error_without_case :
    first.result.isOk = true ∧ second.result.isOk = true ∧
      (first.outlet.display.labelAt ⟨"/p/a.ts"⟩ 2 = some ⟨"first", .error⟩ ∧
        (first.outlet.arm? ⟨"/p/a.ts"⟩ 2).isSome = true) ∧
      second.outlet.display.labelAt ⟨"/p/a.ts"⟩ 2 = some ⟨"first", .error⟩ ∧
      (second.outlet.arm? ⟨"/p/a.ts"⟩ 2).isSome = false := by
  obtain ⟨hfirst, hkeys, hopen, hshown, -⟩ := course_of_builds
  obtain ⟨report, hsecond, -⟩ := map_eq_ok.1 hkeys
  exact ⟨hfirst, congrArg Except.isOk hsecond, hopen, hshown⟩

/-- After the aborted build its own error opens, and the one from before does not. -/
theorem shown_error_opens_iff_aborted :
    Session.Ran settings [failing] first.session first.outlet ∧
      second.outlet.display.labelAt ⟨"/p/b.ts"⟩ 1 = some ⟨"no such name", .error⟩ ∧
      (second.outlet.arm? ⟨"/p/b.ts"⟩ 1).isSome = true ∧
      second.outlet.display.labelAt ⟨"/p/a.ts"⟩ 2 = some ⟨"first", .error⟩ ∧
      ¬(second.outlet.arm? ⟨"/p/a.ts"⟩ 2).isSome = true := by
  obtain ⟨hok, hkeys, -, ⟨hother, -⟩, hshown, hapart⟩ := course_of_builds
  have hstart : Session.Ran settings [] (.ofSettings settings) (.ofTree .empty fun _ => true) :=
    .start rfl
  have hfirst : Session.Ran settings [failing] first.session first.outlet := by
    refine hstart.attempt failing ?_
    intro err herr
    rw [first, herr] at hok
    cases hok
  obtain ⟨report, hsecond, hnotifications⟩ := map_eq_ok.1 hkeys
  have hsame : HashesApart ["/p/b.ts:1", "/p/b.ts:1"] := by simp [HashesApart]
  obtain ⟨_, -, -, hown, -⟩ := shown_error_opens_iff hfirst hsecond hshown
    (hnotifications.symm ▸ hsame)
  obtain ⟨_, -, -, hearlier, -⟩ := shown_error_opens_iff hfirst hsecond hother
    (hnotifications.symm ▸ hapart)
  refine ⟨hfirst, hshown, (hown _ rfl).2 ⟨rfl, rfl⟩, hother, ?_⟩
  intro hsome
  cases ((hearlier _ rfl).1 hsome).2

end OpenedDetailsWitness

end LiveTest
