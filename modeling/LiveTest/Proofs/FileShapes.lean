import LiveTest.Proofs.Lookup
import LiveTest.Proofs.Stages
/-!
Files without their texts.  Whether directories can be made and files written depends on what is
where, and never on the texts of the files.  So two outlets with the same outline, which is all but
the texts of the files and the log, take the same commands and fail at the same points, as long as
they are sent texts of the same files.
-/

namespace LiveTest

def Node.blank : Node → Node
  | .directory => .directory
  | .file _ => .file ""

namespace FileTree

/-- What is where, with every text left out. -/
def shape (t : FileTree) : FileTree := ⟨t.nodes.mapValues Node.blank⟩

variable (t : FileTree)

theorem node?_shape (p : Place) : t.shape.node? p = (t.node? p).map Node.blank := by
  rw [node?, node?]
  split
  · rfl
  · exact SortedMap.get?_mapValues _ _ _

theorem isDirectory_shape (p : Place) : t.shape.isDirectory p = t.isDirectory p := by
  rw [isDirectory, isDirectory, node?_shape]
  rcases t.node? p with _ | _ | text <;> rfl

theorem walk_shape (p : Place) (components : List Path.Component) :
    t.shape.walk p components = t.walk p components := by
  induction components generalizing p with
  | nil => rfl
  | cons c rest ih =>
      cases c with
      | root => exact ih _
      | here => exact ih _
      | up => simp only [walk, isDirectory_shape, ih]
      | normal name => simp only [walk, isDirectory_shape, ih]

theorem hasDirectory_shape (path : Path) : t.shape.hasDirectory path = t.hasDirectory path := by
  have hdirectory : t.shape.isDirectory = t.isDirectory := funext t.isDirectory_shape
  rw [hasDirectory, hasDirectory, walk_shape, hdirectory]

theorem shape_insert (place : String) (node : Node) :
    shape ⟨t.nodes.insert place node⟩ = ⟨t.shape.nodes.insert place node.blank⟩ :=
  congrArg FileTree.mk (SortedMap.insert_mapValues _ _ _ _)

theorem makeDirectories_shape (p : Place) (components : List Path.Component) :
    t.shape.makeDirectories p components = (t.makeDirectories p components).map shape := by
  induction components generalizing t p with
  | nil => rfl
  | cons c rest ih =>
      cases c with
      | root => exact ih _ _
      | here => exact ih _ _
      | up => exact ih _ _
      | normal name =>
          simp only [makeDirectories, node?_shape]
          rcases t.node? (p.child (String.ofList name)) with _ | _ | text
          · dsimp only [Option.map_none]
            split
            · rw [← ih, shape_insert]
              rfl
            · rfl
          · exact ih _ _
          · rfl

theorem createDirectory_shape (dir : Path) :
    t.shape.createDirectory dir = (t.createDirectory dir).map shape := by
  rw [createDirectory, createDirectory, hasDirectory_shape, makeDirectories_shape]
  split <;> rfl

/-- Whether a file can be written does not depend on the text. -/
theorem write_shape (path : Path) (text : String) :
    t.shape.write path "" = (t.write path text).map shape := by
  rw [write, write, walk_shape]
  split
  · rfl
  · rcases t.walk .here path.components with _ | place
    · rfl
    · dsimp only
      rw [node?_shape]
      rcases t.node? place with _ | _ | old
      · exact congrArg some (shape_insert t place.text (.file text)).symm
      · rfl
      · exact congrArg some (shape_insert t place.text (.file text)).symm

end FileTree

/-- All that an outlet is but the texts of the files and the log. -/
structure Outline where
  tree : FileTree
  accepts : Nat → Bool
  tried : Nat
  sent : List String

namespace Outlet

def outline (o : Outlet) : Outline := ⟨o.tree.shape, o.accepts, o.tried, o.sent⟩

def Stage.outline (stage : Stage) : Outline × Except EditorError Unit :=
  (stage.1.outline, stage.2)

/-- Two stages that have the same outline wherever they start from one. -/
def SameOutline (stage stage' : Outlet → Stage) : Prop :=
  ∀ o o' : Outlet, o.outline = o'.outline → (stage o).outline = (stage' o').outline

theorem outline_eq_iff {o o' : Outlet} :
    o.outline = o'.outline ↔ o.tree.shape = o'.tree.shape ∧ o.accepts = o'.accepts ∧
      o.tried = o'.tried ∧ o.sent = o'.sent := by
  rw [outline, outline, Outline.mk.injEq]

theorem Stage.outline_eq_iff {stage stage' : Stage} :
    stage.outline = stage'.outline ↔
      stage.1.outline = stage'.1.outline ∧ stage.2 = stage'.2 := by
  rw [Stage.outline, Stage.outline, Prod.mk.injEq]

section

variable {first first' next next' : Outlet → Stage}

theorem SameOutline.andThen (hfirst : SameOutline first first')
    (hnext : SameOutline next next') :
    SameOutline (fun o => (first o).andThen next) fun o => (first' o).andThen next' := by
  intro o o' halike
  have hstage := hfirst o o' halike
  obtain ⟨houtlet, hresult⟩ := Stage.outline_eq_iff.1 hstage
  dsimp only
  rcases hended : (first' o').2 with err | _
  · rw [Stage.andThen_of_error (hresult.trans hended), Stage.andThen_of_error hended]
    exact hstage
  · rw [Stage.andThen_of_ok (hresult.trans hended), Stage.andThen_of_ok hended]
    exact hnext _ _ houtlet

end

theorem sameOutline_send {command command' : Command}
    (hscript : command.script = command'.script) :
    SameOutline (fun o => o.send command) fun o => o.send command' := by
  intro o o' halike
  obtain ⟨htree, haccepts, htried, hsent⟩ := outline_eq_iff.1 halike
  simp only [send, haccepts, htried]
  split
  · refine Stage.outline_eq_iff.2 ⟨outline_eq_iff.2 ⟨htree, rfl, rfl, ?_⟩, rfl⟩
    rw [sent] at hsent ⊢
    rw [sent] at hsent ⊢
    rw [List.map_append, List.map_append, hsent, List.map_singleton, List.map_singleton, hscript]
  · exact Stage.outline_eq_iff.2 ⟨outline_eq_iff.2 ⟨htree, rfl, rfl, hsent⟩, rfl⟩

theorem sameOutline_changeFiles {change change' : FileTree → Option FileTree}
    (hchange : ∀ tree tree' : FileTree, tree.shape = tree'.shape →
      (change tree).map FileTree.shape = (change' tree').map FileTree.shape)
    (err : EditorError) : SameOutline (changeFiles change err) (changeFiles change' err) := by
  intro o o' halike
  obtain ⟨htree, haccepts, htried, hsent⟩ := outline_eq_iff.1 halike
  have hafter := hchange _ _ htree
  rw [changeFiles, changeFiles]
  cases hone : change o.tree with
  | none =>
      rw [hone, Option.map_none, eq_comm, Option.map_eq_none_iff] at hafter
      rw [hafter]
      exact Stage.outline_eq_iff.2 ⟨halike, rfl⟩
  | some tree =>
      rw [hone, Option.map_some, eq_comm, Option.map_eq_some_iff] at hafter
      obtain ⟨tree', hother, hshape⟩ := hafter
      rw [hother]
      exact Stage.outline_eq_iff.2
        ⟨outline_eq_iff.2 ⟨hshape.symm, haccepts, htried, hsent⟩, rfl⟩

theorem sameOutline_writeFile (tempDir path : Path) (text text' : String) :
    SameOutline (fun o => o.writeFile tempDir path text)
      fun o => o.writeFile tempDir path text' := by
  simp only [writeFile_eq, createDirectory_eq]
  apply (sameOutline_changeFiles ?_ _).andThen (sameOutline_changeFiles ?_ _)
  · intro tree tree' hshape
    rw [← FileTree.createDirectory_shape, hshape, FileTree.createDirectory_shape]
  · intro tree tree' hshape
    rw [← FileTree.write_shape, hshape, FileTree.write_shape]

end Outlet

/-- The line that a notification is about. -/
def Notification.place (n : Notification) : Path × Nat := (n.file, n.line)

/-- The command that opens details names the places, and the details stand in the files. -/
theorem Commands.openDetails_congr (tempDir : Path)
    {notifications notifications' : List Notification}
    (hplaces : notifications.map Notification.place = notifications'.map Notification.place) :
    openDetails tempDir notifications = openDetails tempDir notifications' := by
  have hempty : ∀ ns : List Notification,
      ns.isEmpty = (ns.map Notification.place).isEmpty := by
    intro ns
    rw [List.isEmpty_map]
  have hcases : ∀ ns : List Notification, ns.flatMap (detailsCase tempDir) =
      (ns.map Notification.place).flatMap fun place => detailsCase tempDir ⟨place.1, place.2, ""⟩ := by
    intro ns
    rw [List.flatMap_map]
    rfl
  rw [openDetails, openDetails, detailsCases, detailsCases, hempty, hcases, hplaces, ← hempty,
    ← hcases]

namespace Editor

open Outlet

variable (e : Editor)

theorem sameOutline_writeDetails {notifications notifications' : List Notification}
    (hplaces : notifications.map Notification.place = notifications'.map Notification.place) :
    SameOutline (fun o => e.writeDetails o notifications)
      fun o => e.writeDetails o notifications' := by
  induction notifications generalizing notifications' with
  | nil =>
      obtain rfl : notifications' = [] := List.map_eq_nil_iff.1 hplaces.symm
      intro o o' halike
      exact Stage.outline_eq_iff.2 ⟨halike, rfl⟩
  | cons n rest ih =>
      obtain ⟨n', rest', rfl, hplace, hrest⟩ := List.map_eq_cons_iff.1 hplaces.symm
      obtain ⟨file, line, json⟩ := n
      obtain ⟨file', line', json'⟩ := n'
      obtain ⟨rfl, rfl⟩ := Prod.mk.inj hplace
      exact (sameOutline_writeFile _ _ _ _).andThen (ih hrest.symm)

theorem sameOutline_publishDetails {notifications notifications' : List Notification}
    (hplaces : notifications.map Notification.place = notifications'.map Notification.place) :
    SameOutline (fun o => e.publishDetails o notifications)
      fun o => e.publishDetails o notifications' :=
  (sameOutline_writeDetails e hplaces).andThen
    (sameOutline_send (Commands.openDetails_congr _ hplaces))

theorem sameOutline_publishList (name : String) (locations : List Location)
    (selectCurrentLine : Bool) :
    SameOutline (fun o => e.publishList o name locations selectCurrentLine)
      fun o => e.publishList o name locations selectCurrentLine :=
  (sameOutline_writeFile _ _ _ _).andThen (sameOutline_send rfl)

theorem sameOutline_applyStatuses (files : FileStatuses) (mode : PublishMode) :
    SameOutline (fun o => (e.applyStatuses o files mode).2)
      fun o => (e.applyStatuses o files mode).2 :=
  fun o o' halike => sameOutline_send rfl (o.note _) (o'.note _) halike

theorem sameOutline_applyLabels (files : FileLabels) (mode : PublishMode) :
    SameOutline (fun o => (e.applyLabels o files mode).2)
      fun o => (e.applyLabels o files mode).2 :=
  fun o o' halike => sameOutline_send rfl (o.note _) (o'.note _) halike

end Editor

end LiveTest
