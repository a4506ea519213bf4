import LiveTest.Session
/-!
Publishing as a sequence of stages.  A stage writes files or sends commands, and the first stage
that fails ends the sequence.  Two things hold of every stage and pass on to the sequence: what it
does does not depend on the log, and the commands that it got through are the first of those that
it is to send.
-/

namespace LiveTest

namespace Outlet

/-- The outlet after a stage, and the error that ended the stage if one did. -/
abbrev Stage := Outlet × Except EditorError Unit

/-- Go on with `next` unless the stage failed. -/
def Stage.andThen (stage : Stage) (next : Outlet → Stage) : Stage :=
  match stage with
  | (o, .error err) => (o, .error err)
  | (o, .ok ()) => next o

theorem Stage.andThen_of_ok {stage : Stage} (hok : stage.2 = .ok ()) (next : Outlet → Stage) :
    stage.andThen next = next stage.1 := by
  obtain ⟨o, result⟩ := stage
  obtain rfl : result = .ok () := hok
  rfl

theorem Stage.andThen_of_error {stage : Stage} {err : EditorError} (herr : stage.2 = .error err)
    (next : Outlet → Stage) : stage.andThen next = stage := by
  obtain ⟨o, result⟩ := stage
  obtain rfl : result = .error err := herr
  rfl

theorem Stage.andThen_eq_ok {stage : Stage} {next : Outlet → Stage} :
    (stage.andThen next).2 = .ok () ↔ stage.2 = .ok () ∧ (next stage.1).2 = .ok () := by
  rcases hended : stage.2 with err | _
  · rw [Stage.andThen_of_error hended, hended]
    simp
  · rw [Stage.andThen_of_ok hended]
    simp

/-- Change the files, if this is possible. -/
def changeFiles (change : FileTree → Option FileTree) (err : EditorError) (o : Outlet) : Stage :=
  match change o.tree with
  | some tree => ({ o with tree := tree }, .ok ())
  | none => (o, .error err)

theorem changeFiles_eq_ok {o : Outlet} {change : FileTree → Option FileTree} {err : EditorError}
    (hok : (o.changeFiles change err).2 = .ok ()) :
    change o.tree = some (o.changeFiles change err).1.tree := by
  rw [changeFiles] at hok ⊢
  split at hok
  · next hchanged => rw [hchanged]
  · cases hok

theorem createDirectory_eq (o : Outlet) (dir : Path) :
    o.createDirectory dir =
      o.changeFiles (fun tree => tree.createDirectory dir) (.createDirectory dir) :=
  rfl

theorem writeFile_eq (o : Outlet) (tempDir path : Path) (text : String) :
    o.writeFile tempDir path text =
      Stage.andThen (o.createDirectory tempDir)
        (changeFiles (fun tree => tree.write path text) (.writeFile path)) :=
  rfl

/-- A file that is written: the directory is made first. -/
theorem writeFile_eq_ok {o : Outlet} {tempDir path : Path} {text : String}
    (hok : (o.writeFile tempDir path text).2 = .ok ()) :
    ∃ made, o.tree.createDirectory tempDir = some made ∧
      made.write path text = some (o.writeFile tempDir path text).1.tree := by
  rw [writeFile_eq, createDirectory_eq] at hok ⊢
  obtain ⟨hcreated, hwritten⟩ := Stage.andThen_eq_ok.1 hok
  rw [Stage.andThen_of_ok hcreated]
  exact ⟨_, changeFiles_eq_ok hcreated, changeFiles_eq_ok hwritten⟩

theorem tree_send (o : Outlet) (command : Command) : (o.send command).1.tree = o.tree := by
  rw [send]
  split <;> rfl

/-- The outlet with its log left out. -/
def unlogged (o : Outlet) : Outlet := { o with log := [] }

def Stage.unlogged (stage : Stage) : Stage := (stage.1.unlogged, stage.2)

/-- But for the log itself, what a stage does does not depend on the log. -/
def LogBlind (stage : Outlet → Stage) : Prop :=
  ∀ o o' : Outlet, o.unlogged = o'.unlogged → (stage o).unlogged = (stage o').unlogged

theorem unlogged_eq_iff {o o' : Outlet} :
    o.unlogged = o'.unlogged ↔
      o.tree = o'.tree ∧ o.accepts = o'.accepts ∧ o.tried = o'.tried ∧ o.arrived = o'.arrived := by
  simp [unlogged]

theorem Stage.unlogged_eq_iff {stage stage' : Stage} :
    stage.unlogged = stage'.unlogged ↔
      stage.1.unlogged = stage'.1.unlogged ∧ stage.2 = stage'.2 := by
  rw [Stage.unlogged, Stage.unlogged, Prod.mk.injEq]

theorem LogBlind.andThen {first next : Outlet → Stage} (hfirst : LogBlind first)
    (hnext : LogBlind next) : LogBlind fun o => (first o).andThen next := by
  intro o o' halike
  have hstage := hfirst o o' halike
  obtain ⟨houtlet, hresult⟩ := Stage.unlogged_eq_iff.1 hstage
  dsimp only
  rcases hended : (first o').2 with err | _
  · rw [Stage.andThen_of_error (hresult.trans hended), Stage.andThen_of_error hended]
    exact hstage
  · rw [Stage.andThen_of_ok (hresult.trans hended), Stage.andThen_of_ok hended]
    exact hnext _ _ houtlet

theorem logBlind_send (command : Command) : LogBlind fun o => o.send command := by
  intro o o' halike
  obtain ⟨htree, haccepts, htried, harrived⟩ := unlogged_eq_iff.1 halike
  simp only [send, haccepts, htried]
  split
  · exact Stage.unlogged_eq_iff.2 ⟨unlogged_eq_iff.2 ⟨htree, rfl, rfl, by rw [harrived]⟩, rfl⟩
  · exact Stage.unlogged_eq_iff.2 ⟨unlogged_eq_iff.2 ⟨htree, rfl, rfl, harrived⟩, rfl⟩

theorem logBlind_changeFiles (change : FileTree → Option FileTree) (err : EditorError) :
    LogBlind (changeFiles change err) := by
  intro o o' halike
  obtain ⟨htree, haccepts, htried, harrived⟩ := unlogged_eq_iff.1 halike
  simp only [changeFiles, htree]
  split
  · exact Stage.unlogged_eq_iff.2 ⟨unlogged_eq_iff.2 ⟨rfl, haccepts, htried, harrived⟩, rfl⟩
  · exact Stage.unlogged_eq_iff.2 ⟨halike, rfl⟩

theorem logBlind_writeFile (tempDir path : Path) (text : String) :
    LogBlind fun o => o.writeFile tempDir path text := by
  simp only [writeFile_eq, createDirectory_eq]
  exact (logBlind_changeFiles _ _).andThen (logBlind_changeFiles _ _)

/-- Nothing arrives in a stage. -/
def Sendless (stage : Outlet → Stage) : Prop := ∀ o, (stage o).1.arrived = o.arrived

/-- The commands that arrive in a stage are `commands` if it goes well, and the first of them but
not all if it fails. -/
structure Delivers (commands : List Command) (stage : Outlet → Stage) : Prop where
  all : ∀ o, (stage o).2 = .ok () → (stage o).1.arrived = o.arrived ++ commands
  some : ∀ o err, (stage o).2 = .error err →
    ∃ k < commands.length, (stage o).1.arrived = o.arrived ++ commands.take k

theorem Sendless.andThen {first next : Outlet → Stage} (hfirst : Sendless first)
    (hnext : Sendless next) : Sendless fun o => (first o).andThen next := by
  intro o
  dsimp only
  rcases hended : (first o).2 with err | _
  · rw [Stage.andThen_of_error hended]
    exact hfirst o
  · rw [Stage.andThen_of_ok hended]
    exact (hnext _).trans (hfirst o)

theorem sendless_changeFiles (change : FileTree → Option FileTree) (err : EditorError) :
    Sendless (changeFiles change err) := by
  intro o
  rw [changeFiles]
  split <;> rfl

theorem sendless_writeFile (tempDir path : Path) (text : String) :
    Sendless fun o => o.writeFile tempDir path text := by
  simp only [writeFile_eq, createDirectory_eq]
  exact (sendless_changeFiles _ _).andThen (sendless_changeFiles _ _)

theorem delivers_send (command : Command) : Delivers [command] fun o => o.send command where
  all o hok := by
    simp only [send] at hok ⊢
    split at hok
    · next haccepts => rw [if_pos haccepts]
    · cases hok
  some o err herr := by
    simp only [send] at herr ⊢
    split at herr
    · cases herr
    · next haccepts =>
        rw [if_neg haccepts]
        exact ⟨0, Nat.one_pos, (List.append_nil _).symm⟩

section

variable {first next : Outlet → Stage} {earlier later : List Command}

/-- Files that are written first change nothing about what arrives. -/
theorem Delivers.after_files (hnext : Delivers later next) (hfirst : Sendless first)
    (hlater : 0 < later.length) : Delivers later fun o => (first o).andThen next where
  all o hok := by
    obtain ⟨hended, hrest⟩ := Stage.andThen_eq_ok.1 hok
    rw [Stage.andThen_of_ok hended, ← hfirst o]
    exact hnext.all _ hrest
  some o err herr := by
    rcases hended : (first o).2 with failed | _
    · rw [Stage.andThen_of_error hended]
      exact ⟨0, hlater, (hfirst o).trans (List.append_nil _).symm⟩
    · rw [Stage.andThen_of_ok hended] at herr ⊢
      rw [← hfirst o]
      exact hnext.some _ err herr

/-- Two stages deliver what the first delivers and then what the second does. -/
theorem Delivers.andThen (hfirst : Delivers earlier first) (hnext : Delivers later next) :
    Delivers (earlier ++ later) fun o => (first o).andThen next where
  all o hok := by
    obtain ⟨hended, hrest⟩ := Stage.andThen_eq_ok.1 hok
    rw [Stage.andThen_of_ok hended, ← List.append_assoc, ← hfirst.all o hended]
    exact hnext.all _ hrest
  some o err herr := by
    rcases hended : (first o).2 with failed | _
    · obtain ⟨k, hk, harrived⟩ := hfirst.some o failed hended
      refine ⟨k, by rw [List.length_append]; omega, ?_⟩
      rw [Stage.andThen_of_error hended, List.take_append_of_le_length (Nat.le_of_lt hk)]
      exact harrived
    · rw [Stage.andThen_of_ok hended] at herr ⊢
      obtain ⟨k, hk, harrived⟩ := hnext.some _ err herr
      refine ⟨earlier.length + k, by rw [List.length_append]; omega, ?_⟩
      rw [List.take_length_add_append, ← List.append_assoc, ← hfirst.all o hended]
      exact harrived

end

end Outlet

namespace Editor

open Outlet

variable (e : Editor)

/-- The command that shows the statuses of files. -/
def statusesCommand (files : FileStatuses) (mode : PublishMode) : Command :=
  .statuses (mode.toSend e.statusFiles files) e.settings

/-- The command that shows the labels of files. -/
def labelsCommand (files : FileLabels) (mode : PublishMode) : Command :=
  .labels (mode.toSend e.labelFiles files) e.settings

/-- The command that makes a list ready to open. -/
def listCommand (name : String) (locations : List Location) (selectCurrentLine : Bool) :
    Command :=
  .openList name (e.settings.tempDir.join ⟨name⟩) locations selectCurrentLine

/-- The command that makes details ready to open. -/
def detailsCommand (notifications : List Notification) : Command :=
  .openDetails e.settings.tempDir notifications

theorem logBlind_applyStatuses (files : FileStatuses) (mode : PublishMode) :
    LogBlind fun o => (e.applyStatuses o files mode).2 :=
  fun o o' halike => logBlind_send _ (o.note _) (o'.note _) halike

theorem logBlind_applyLabels (files : FileLabels) (mode : PublishMode) :
    LogBlind fun o => (e.applyLabels o files mode).2 :=
  fun o o' halike => logBlind_send _ (o.note _) (o'.note _) halike

theorem delivers_applyStatuses (files : FileStatuses) (mode : PublishMode) :
    Delivers [e.statusesCommand files mode] fun o => (e.applyStatuses o files mode).2 where
  all o hok := (delivers_send _).all (o.note _) hok
  some o err herr := (delivers_send _).some (o.note _) err herr

theorem delivers_applyLabels (files : FileLabels) (mode : PublishMode) :
    Delivers [e.labelsCommand files mode] fun o => (e.applyLabels o files mode).2 where
  all o hok := (delivers_send _).all (o.note _) hok
  some o err herr := (delivers_send _).some (o.note _) err herr

section

variable (name : String) (locations : List Location) (selectCurrentLine : Bool)

theorem logBlind_publishList :
    LogBlind fun o => e.publishList o name locations selectCurrentLine :=
  (logBlind_writeFile _ _ _).andThen (logBlind_send _)

theorem delivers_publishList :
    Delivers [e.listCommand name locations selectCurrentLine]
      fun o => e.publishList o name locations selectCurrentLine :=
  (delivers_send _).after_files (sendless_writeFile _ _ _) Nat.one_pos

end

theorem logBlind_writeDetails (notifications : List Notification) :
    LogBlind fun o => e.writeDetails o notifications := by
  induction notifications with
  | nil =>
      intro o o' halike
      exact congrArg (fun o => (o, Except.ok ())) halike
  | cons n rest ih => exact (logBlind_writeFile _ _ _).andThen ih

theorem sendless_writeDetails (notifications : List Notification) :
    Sendless fun o => e.writeDetails o notifications := by
  induction notifications with
  | nil =>
      intro o
      rfl
  | cons n rest ih => exact (sendless_writeFile _ _ _).andThen ih

theorem publishDetails_eq_andThen (o : Outlet) (notifications : List Notification) :
    e.publishDetails o notifications =
      Stage.andThen (e.writeDetails o notifications)
        fun o => o.send (e.detailsCommand notifications) :=
  rfl

theorem logBlind_publishDetails (notifications : List Notification) :
    LogBlind fun o => e.publishDetails o notifications :=
  (logBlind_writeDetails e notifications).andThen (logBlind_send _)

theorem delivers_publishDetails (notifications : List Notification) :
    Delivers [e.detailsCommand notifications] fun o => e.publishDetails o notifications :=
  (delivers_send _).after_files (sendless_writeDetails e notifications) Nat.one_pos

-- What an editor remembers is not needed after the statuses and the labels.
section

variable {e : Editor} {e' : Editor} (o : Outlet)

theorem publishList_congr (hsettings : e.settings = e'.settings) (name : String)
    (locations : List Location) (selectCurrentLine : Bool) :
    e.publishList o name locations selectCurrentLine =
      e'.publishList o name locations selectCurrentLine := by
  simp only [publishList, hsettings]

theorem writeDetails_congr (hsettings : e.settings = e'.settings)
    (notifications : List Notification) :
    e.writeDetails o notifications = e'.writeDetails o notifications := by
  induction notifications generalizing o with
  | nil => rfl
  | cons n rest ih => simp only [writeDetails, hsettings, ih]

theorem publishDetails_congr (hsettings : e.settings = e'.settings)
    (notifications : List Notification) :
    e.publishDetails o notifications = e'.publishDetails o notifications := by
  simp only [publishDetails, writeDetails_congr o hsettings, hsettings]

end

end Editor

namespace Session

open Outlet

variable (e : Editor) (report : Report) (mode : PublishMode)

/-- The commands that publishing a report sends. -/
def commands : List Command :=
  [e.statusesCommand report.statuses mode, e.labelsCommand report.labels mode,
    e.listCommand failuresList report.failures true, e.detailsCommand report.notifications]

/-- The editor that remembers the files of a report. -/
def remembering : Editor where
  settings := e.settings
  statusFiles := mode.published e.statusFiles report.statuses
  labelFiles := mode.published e.labelFiles report.labels

/-- The outlet of publishing is that of its four stages. -/
theorem publish_eq_andThen (o : Outlet) :
    (publish e o report mode).2 =
      Stage.andThen (e.applyStatuses o report.statuses mode).2 fun o =>
        Stage.andThen (e.applyLabels o report.labels mode).2 fun o =>
          Stage.andThen (e.publishList o failuresList report.failures true) fun o =>
            e.publishDetails o report.notifications := by
  simp only [publish, Editor.applyStatuses, Editor.applyLabels]
  generalize Outlet.send _ _ = first
  rcases first with ⟨o₁, err | _⟩
  · rfl
  · simp only [Stage.andThen]
    generalize Outlet.send _ _ = second
    rcases second with ⟨o₂, err | _⟩
    · rfl
    · have hsettings : (remembering e report mode).settings = e.settings := rfl
      have hlist : (remembering e report mode).publishList o₂ failuresList report.failures true =
          e.publishList o₂ failuresList report.failures true :=
        Editor.publishList_congr o₂ hsettings _ _ _
      have hdetails : ∀ o, (remembering e report mode).publishDetails o report.notifications =
          e.publishDetails o report.notifications :=
        fun o => Editor.publishDetails_congr o hsettings _
      simp only [remembering] at hlist hdetails
      simp only [hlist, hdetails]
      generalize e.publishList _ _ _ _ = third
      rcases third with ⟨o₃, err | _⟩
      · rfl
      · rfl

/-- The editor remembers the files of a report that it publishes.  If the statuses do not arrive
then the labels are not sent and those of the report are not remembered. -/
theorem editor_publish (o : Outlet) :
    (publish e o report mode).1 =
      match (e.applyStatuses o report.statuses mode).2.2 with
      | .error _ => (e.applyStatuses o report.statuses mode).1
      | .ok () => remembering e report mode := by
  simp only [publish, Editor.applyStatuses, Editor.applyLabels]
  generalize Outlet.send _ _ = first
  rcases first with ⟨o₁, err | _⟩
  · rfl
  · dsimp only
    generalize Outlet.send _ _ = second
    rcases second with ⟨o₂, err | _⟩
    · rfl
    · dsimp only
      generalize Editor.publishList _ _ _ _ _ = third
      rcases third with ⟨o₃, err | _⟩
      · rfl
      · rfl

theorem editor_publish_congr {o o' : Outlet} (halike : o.unlogged = o'.unlogged) :
    (publish e o report mode).1 = (publish e o' report mode).1 := by
  have hstage := Editor.logBlind_applyStatuses e report.statuses mode o o' halike
  have hresult : (e.applyStatuses o report.statuses mode).2.2 =
      (e.applyStatuses o' report.statuses mode).2.2 :=
    (Stage.unlogged_eq_iff.1 hstage).2
  rw [editor_publish, editor_publish, hresult]
  rfl

theorem logBlind_publish : LogBlind fun o => (publish e o report mode).2 := by
  simp only [publish_eq_andThen]
  apply (Editor.logBlind_applyStatuses e report.statuses mode).andThen
  apply (Editor.logBlind_applyLabels e report.labels mode).andThen
  apply (Editor.logBlind_publishList e failuresList report.failures true).andThen
  exact Editor.logBlind_publishDetails e report.notifications

theorem delivers_publish :
    Delivers (commands e report mode) fun o => (publish e o report mode).2 := by
  simp only [publish_eq_andThen]
  apply (Editor.delivers_applyStatuses e report.statuses mode).andThen
  apply (Editor.delivers_applyLabels e report.labels mode).andThen
  apply (Editor.delivers_publishList e failuresList report.failures true).andThen
  exact Editor.delivers_publishDetails e report.notifications

end Session

end LiveTest
