import LiveTest.Editor.State
import LiveTest.Proofs.Lookup
/-!
What an editor shows, as the commands that arrived have left it, next to what is remembered about
it.  Statuses and labels are two boards of one kind: a board remembers a set of files, and each
call publishes files on it and may or may not arrive.  All laws are laws of a board; the editor is
tied to its two boards once.
-/

namespace LiveTest

section

variable {α : Type}

/-- What is shown in every file after a command that lists some of them. -/
def overwrite (shown : Path → SortedMap Nat α) (files : SortedMap Path (SortedMap Nat α)) :
    Path → SortedMap Nat α :=
  fun path => (files.get? path).getD (shown path)

/-- Just these files, each with its lines. -/
def onlyFiles (files : SortedMap Path (SortedMap Nat α)) : Path → SortedMap Nat α :=
  fun path => (files.get? path).getD .empty

end

/-- The lines that show a status or a label, by file.  A file without any is empty. -/
structure Display where
  statuses : Path → LineStatuses
  labels : Path → LineLabels

namespace Display

def blank : Display := ⟨fun _ => .empty, fun _ => .empty⟩

/-- What is shown after a command has arrived. -/
def after (d : Display) : Command → Display
  | .statuses files _ => { d with statuses := overwrite d.statuses files }
  | .labels files _ => { d with labels := overwrite d.labels files }
  | _ => d

end Display

/-- What the commands that arrived have left. -/
def Outlet.display (o : Outlet) : Display := o.arrived.foldl Display.after .blank

namespace Outlet

theorem display_send (o : Outlet) (command : Command) :
    (o.send command).1.display =
      if o.accepts o.tried then o.display.after command else o.display := by
  rw [send]
  split
  · exact List.foldl_append
  · rfl

theorem send_ok_iff (o : Outlet) (command : Command) :
    (o.send command).2 = .ok () ↔ o.accepts o.tried = true := by
  rw [send]
  split
  · next haccepts => simp [haccepts]
  · next haccepts => simp [haccepts]

theorem accepts_send (o : Outlet) (command : Command) :
    (o.send command).1.accepts = o.accepts := by
  rw [send]
  split <;> rfl

theorem tried_send (o : Outlet) (command : Command) :
    (o.send command).1.tried = o.tried + 1 := by
  rw [send]
  split <;> rfl

theorem display_createDirectory (o : Outlet) (dir : Path) :
    (o.createDirectory dir).1.display = o.display := by
  rw [createDirectory]
  split <;> rfl

theorem display_writeFile (o : Outlet) (tempDir path : Path) (text : String) :
    (o.writeFile tempDir path text).1.display = o.display := by
  have hcreate := display_createDirectory o tempDir
  rw [writeFile]
  split
  · next hmade => rwa [hmade] at hcreate
  · next hmade =>
      rw [hmade] at hcreate
      split
      · exact hcreate
      · exact hcreate

end Outlet

/-- The files remembered as showing something, and what is shown. -/
structure Board (α : Type) where
  remembered : PathSet
  shown : Path → SortedMap Nat α

namespace Board

variable {α : Type}

/-- The board after a call, whose command may or may not arrive. -/
def publish (b : Board α) (files : SortedMap Path (SortedMap Nat α)) (mode : PublishMode)
    (arrives : Bool) : Board α where
  remembered := mode.published b.remembered files
  shown := if arrives then overwrite b.shown (mode.toSend b.remembered files) else b.shown

/-- Every file that shows something is remembered. -/
def Tracked (b : Board α) : Prop :=
  ∀ path, b.shown path ≠ .empty → b.remembered.contains path = true

theorem tracked_blank : (⟨.empty, fun _ => .empty⟩ : Board α).Tracked :=
  fun _ hshown => absurd rfl hshown

theorem contains_pathsOf (files : SortedMap Path (SortedMap Nat α)) (path : Path) :
    (pathsOf files).contains path = files.contains path := by
  rw [SortedMap.contains, pathsOf, SortedMap.get?_mapValues, Option.isSome_map]
  rfl

/-- The keys of a map are where looking up finds something. -/
theorem any_keys_same {β : Type} (m : SortedMap Path β) (path : Path) :
    m.keys.any (Key.same path) = m.contains path := by
  rw [Bool.eq_iff_iff, SortedMap.contains_iff_exists_mem, List.any_eq_true]
  simp [SortedMap.keys]

theorem get?_withCleared (remembered : PathSet) (files : SortedMap Path (SortedMap Nat α))
    (path : Path) :
    (withCleared remembered files).get? path =
      (files.get? path).or (if remembered.contains path then some .empty else none) := by
  rw [withCleared, SortedMap.get?_foldl_insertIfNew, any_keys_same]

/-- What a call remembers: its files, and after an overlay those remembered before as well. -/
theorem contains_published_iff (mode : PublishMode) (remembered : PathSet)
    (files : SortedMap Path (SortedMap Nat α)) (path : Path) :
    (mode.published remembered files).contains path = true ↔
      files.contains path = true ∨
        mode = .overlay ∧ remembered.contains path = true := by
  cases mode with
  | replace =>
      rw [PublishMode.published, contains_pathsOf]
      simp
  | overlay =>
      rw [SortedMap.contains, PublishMode.published, SortedMap.get?_foldl_insertIfNew,
        any_keys_same]
      cases hfiles : files.contains path
      · simp [SortedMap.contains]
      · simp

/-- What a file shows after a replacing call that arrives. -/
theorem shown_publish_replace (b : Board α) (files : SortedMap Path (SortedMap Nat α))
    (path : Path) :
    (b.publish files .replace true).shown path =
      if files.contains path = true ∨ b.remembered.contains path = true
      then onlyFiles files path else b.shown path := by
  change ((withCleared b.remembered files).get? path).getD (b.shown path) = _
  have hcontains : files.contains path = (files.get? path).isSome := rfl
  rw [get?_withCleared, onlyFiles, hcontains]
  cases hfiles : files.get? path with
  | some lines => simp
  | none =>
      cases hremembered : b.remembered.contains path
      · simp
      · simp

/-- A replacing call that arrives shows exactly its files if and only if every file that shows
something is among them or is remembered. -/
theorem shown_publish_replace_iff (b : Board α) (files : SortedMap Path (SortedMap Nat α)) :
    (∀ path, (b.publish files .replace true).shown path = onlyFiles files path) ↔
      ∀ path, b.shown path ≠ .empty →
        files.contains path = true ∨ b.remembered.contains path = true := by
  apply forall_congr'
  intro path
  rw [shown_publish_replace]
  by_cases hknown : files.contains path = true ∨ b.remembered.contains path = true
  · simp [hknown]
  · have hfiles : onlyFiles files path = .empty := by
      rw [onlyFiles, SortedMap.get?_eq_none_of_not_contains fun h => hknown (Or.inl h)]
      rfl
    rw [if_neg hknown, hfiles]
    simp [hknown]

/-- On a tracked board a replacing call leaves nothing of what was shown. -/
theorem Tracked.shown_publish_replace {b : Board α} (hb : b.Tracked)
    (files : SortedMap Path (SortedMap Nat α)) :
    (b.publish files .replace true).shown = onlyFiles files :=
  funext ((shown_publish_replace_iff b files).2 fun path hshown => Or.inr (hb path hshown))

/-- Calls that arrive keep the board tracked. -/
theorem Tracked.publish {b : Board α} (hb : b.Tracked)
    (files : SortedMap Path (SortedMap Nat α)) (mode : PublishMode) :
    (b.publish files mode true).Tracked := by
  intro path hshown
  rw [Board.publish, contains_published_iff]
  have hcontains : files.contains path = (files.get? path).isSome := rfl
  cases hfiles : files.get? path with
  | some lines => exact Or.inl (by rw [hcontains, hfiles]; rfl)
  | none =>
      cases mode with
      | replace =>
          rw [hb.shown_publish_replace, onlyFiles, hfiles] at hshown
          exact absurd rfl hshown
      | overlay =>
          change (files.get? path).getD (b.shown path) ≠ .empty at hshown
          rw [hfiles] at hshown
          exact Or.inr ⟨rfl, hb path hshown⟩

end Board

namespace Editor

def statusBoard (e : Editor) (o : Outlet) : Board LineStatus :=
  ⟨e.statusFiles, o.display.statuses⟩

def labelBoard (e : Editor) (o : Outlet) : Board Label :=
  ⟨e.labelFiles, o.display.labels⟩

/-- Everything that is shown is remembered, on both boards. -/
def Tracked (e : Editor) (o : Outlet) : Prop :=
  (e.statusBoard o).Tracked ∧ (e.labelBoard o).Tracked

theorem tracked_of_display_blank (settings : EditorSettings) {o : Outlet}
    (hblank : o.display = .blank) : Tracked (.ofSettings settings) o := by
  rw [Tracked, statusBoard, labelBoard, hblank]
  exact ⟨Board.tracked_blank, Board.tracked_blank⟩

section

variable (e : Editor) (o : Outlet) (mode : PublishMode)

theorem applyStatuses_ok_iff (files : FileStatuses) :
    (e.applyStatuses o files mode).2.2 = .ok () ↔ o.accepts o.tried = true :=
  Outlet.send_ok_iff _ _

theorem applyLabels_ok_iff (files : FileLabels) :
    (e.applyLabels o files mode).2.2 = .ok () ↔ o.accepts o.tried = true :=
  Outlet.send_ok_iff _ _

theorem display_applyStatuses (files : FileStatuses) :
    (e.applyStatuses o files mode).2.1.display =
      if o.accepts o.tried then
        { o.display with
          statuses := overwrite o.display.statuses (mode.toSend e.statusFiles files) }
      else o.display :=
  Outlet.display_send _ _

theorem display_applyLabels (files : FileLabels) :
    (e.applyLabels o files mode).2.1.display =
      if o.accepts o.tried then
        { o.display with
          labels := overwrite o.display.labels (mode.toSend e.labelFiles files) }
      else o.display :=
  Outlet.display_send _ _

/-- A call that shows statuses publishes on the board of the statuses alone. -/
theorem boards_applyStatuses (files : FileStatuses) :
    (e.applyStatuses o files mode).1.statusBoard (e.applyStatuses o files mode).2.1 =
        (e.statusBoard o).publish files mode (o.accepts o.tried) ∧
      (e.applyStatuses o files mode).1.labelBoard (e.applyStatuses o files mode).2.1 =
        e.labelBoard o := by
  rw [statusBoard, labelBoard, display_applyStatuses]
  cases haccepts : o.accepts o.tried
  · exact ⟨rfl, rfl⟩
  · exact ⟨rfl, rfl⟩

/-- A call that shows labels publishes on the board of the labels alone. -/
theorem boards_applyLabels (files : FileLabels) :
    (e.applyLabels o files mode).1.labelBoard (e.applyLabels o files mode).2.1 =
        (e.labelBoard o).publish files mode (o.accepts o.tried) ∧
      (e.applyLabels o files mode).1.statusBoard (e.applyLabels o files mode).2.1 =
        e.statusBoard o := by
  rw [statusBoard, labelBoard, display_applyLabels]
  cases haccepts : o.accepts o.tried
  · exact ⟨rfl, rfl⟩
  · exact ⟨rfl, rfl⟩

/-- A call that shows statuses and succeeds, on both boards. -/
theorem boards_applyStatuses_ok {files : FileStatuses} {e' : Editor} {o' : Outlet}
    (hok : e.applyStatuses o files mode = (e', o', .ok ())) :
    e'.statusBoard o' = (e.statusBoard o).publish files mode true ∧
      e'.labelBoard o' = e.labelBoard o := by
  have hboards := boards_applyStatuses e o mode files
  have harrives := (applyStatuses_ok_iff e o mode files).1 (by rw [hok])
  rwa [hok, harrives] at hboards

/-- A call that shows labels and succeeds, on both boards. -/
theorem boards_applyLabels_ok {files : FileLabels} {e' : Editor} {o' : Outlet}
    (hok : e.applyLabels o files mode = (e', o', .ok ())) :
    e'.labelBoard o' = (e.labelBoard o).publish files mode true ∧
      e'.statusBoard o' = e.statusBoard o := by
  have hboards := boards_applyLabels e o mode files
  have harrives := (applyLabels_ok_iff e o mode files).1 (by rw [hok])
  rwa [hok, harrives] at hboards

theorem display_publishList (name : String) (locations : List Location)
    (selectCurrentLine : Bool) :
    (e.publishList o name locations selectCurrentLine).1.display = o.display := by
  have hwrite := Outlet.display_writeFile o e.settings.tempDir
    (e.settings.tempDir.join ⟨name⟩) (Commands.listText locations)
  rw [publishList]
  split
  · next hfailed => rwa [hfailed] at hwrite
  · next hwritten =>
      rw [hwritten] at hwrite
      rw [Outlet.display_send, ← hwrite]
      split <;> rfl

theorem display_writeDetails (notifications : List Notification) :
    (e.writeDetails o notifications).1.display = o.display := by
  induction notifications generalizing o with
  | nil => rfl
  | cons n rest ih =>
      have hwrite := Outlet.display_writeFile o e.settings.tempDir
        (Commands.detailsPath e.settings.tempDir n.file n.line) n.json
      rw [writeDetails]
      split
      · next hfailed => rwa [hfailed] at hwrite
      · next hwritten =>
          rw [hwritten] at hwrite
          rw [ih, hwrite]

theorem display_publishDetails (notifications : List Notification) :
    (e.publishDetails o notifications).1.display = o.display := by
  have hwrite := display_writeDetails e o notifications
  rw [publishDetails]
  split
  · next hfailed => rwa [hfailed] at hwrite
  · next hwritten =>
      rw [hwritten] at hwrite
      rw [Outlet.display_send, ← hwrite]
      split <;> rfl

end

end Editor

end LiveTest
