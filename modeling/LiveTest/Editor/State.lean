import LiveTest.Editor.Commands
import LiveTest.FileTree
import LiveTest.Log
/-!
Publishing to an editor.  The editor remembers which files show something, so that files that no
longer do are cleared.  A command that cannot be sent, or a file that cannot be written, ends what
was being published.
-/

namespace LiveTest

inductive EditorError
  | listSessions
  | sendCommand (session : String)
  | createDirectory (dir : Path)
  | writeFile (path : Path)
deriving DecidableEq

def EditorError.message : EditorError → String
  | .listSessions => "failed to list running editor sessions"
  | .sendCommand session => "failed to send command to editor session `" ++ session ++ "`"
  | .createDirectory dir => "failed to create directory `" ++ dir.text ++ "`"
  | .writeFile path => "failed to write `" ++ path.text ++ "`"

/-- A command, as what it shows or makes ready. -/
inductive Command
  | start
  | statuses (files : FileStatuses) (settings : EditorSettings)
  | labels (files : FileLabels) (settings : EditorSettings)
  | openList (name : String) (listPath : Path) (locations : List Location)
      (selectCurrentLine : Bool)
  | openDetails (tempDir : Path) (notifications : List Notification)
  | jump (file : Path) (line : Nat)

/-- The wording of a command. -/
def Command.script : Command → Script
  | .start => Commands.start
  | .statuses files settings => Commands.statuses files settings
  | .labels files settings => Commands.labels files settings
  | .openList name listPath locations selectCurrentLine =>
    Commands.openList name listPath locations selectCurrentLine
  | .openDetails tempDir notifications => Commands.openDetails tempDir notifications
  | .jump file line => Commands.jump file line

/-- What publishing changes: the files on disk, the commands that arrived and the log.  `accepts`
says which of the commands arrive, counted from the first one tried. -/
structure Outlet where
  tree : FileTree
  accepts : Nat → Bool
  tried : Nat
  arrived : List Command
  log : List LogLine

namespace Outlet

/-- An outlet with nothing sent so far. -/
def ofTree (tree : FileTree) (accepts : Nat → Bool) : Outlet := ⟨tree, accepts, 0, [], []⟩

/-- The texts of the commands that arrived. -/
def sent (o : Outlet) : List String := o.arrived.map fun command => command.script.render

def note (o : Outlet) (text : String) : Outlet := { o with log := o.log ++ [.debug text] }

/-- The session named when a command does not arrive. -/
def silentSession : String := "s"

/-- Send a command. -/
def send (o : Outlet) (command : Command) : Outlet × Except EditorError Unit :=
  if o.accepts o.tried then
    ({ o with tried := o.tried + 1, arrived := o.arrived ++ [command] }, .ok ())
  else ({ o with tried := o.tried + 1 }, .error (.sendCommand silentSession))

def createDirectory (o : Outlet) (dir : Path) : Outlet × Except EditorError Unit :=
  match o.tree.createDirectory dir with
  | some tree => ({ o with tree := tree }, .ok ())
  | none => (o, .error (.createDirectory dir))

/-- Write a file of the temporary directory, which is made if it is missing. -/
def writeFile (o : Outlet) (tempDir path : Path) (text : String) :
    Outlet × Except EditorError Unit :=
  match o.createDirectory tempDir with
  | (o, .error e) => (o, .error e)
  | (o, .ok ()) =>
    match o.tree.write path text with
    | some tree => ({ o with tree := tree }, .ok ())
    | none => (o, .error (.writeFile path))

end Outlet

/-- How new results meet what is shown. -/
inductive PublishMode
  /-- They are all there is to show. -/
  | replace
  /-- Files that they do not name keep what they show. -/
  | overlay
deriving DecidableEq

def PublishMode.name : PublishMode → String
  | .replace => "Replace"
  | .overlay => "Overlay"

/-- A set of paths. -/
abbrev PathSet := SortedMap Path Unit

def pathsOf {α : Type} (files : SortedMap Path α) : PathSet := files.mapValues fun _ => ()

/-- Add the files that show something and have nothing to show any more, as empty. -/
def withCleared {α : Type} (published : PathSet) (files : SortedMap Path (SortedMap Nat α)) :
    SortedMap Path (SortedMap Nat α) :=
  published.keys.foldl (fun m path => m.insertIfNew path .empty) files

/-- The files to send. -/
def PublishMode.toSend {α : Type} (mode : PublishMode) (published : PathSet)
    (files : SortedMap Path (SortedMap Nat α)) : SortedMap Path (SortedMap Nat α) :=
  match mode with
  | .replace => withCleared published files
  | .overlay => files

/-- The files that show something afterwards. -/
def PublishMode.published {α : Type} (mode : PublishMode) (published : PathSet)
    (files : SortedMap Path (SortedMap Nat α)) : PathSet :=
  match mode with
  | .replace => pathsOf files
  | .overlay => files.keys.foldl (fun m path => m.insertIfNew path ()) published

structure Editor where
  settings : EditorSettings
  /-- The files that show statuses. -/
  statusFiles : PathSet
  /-- The files that show labels. -/
  labelFiles : PathSet
deriving DecidableEq

namespace Editor

def ofSettings (settings : EditorSettings) : Editor := ⟨settings, .empty, .empty⟩

/-- Make the temporary directory and declare what all commands use. -/
def start (e : Editor) (o : Outlet) : Outlet × Except EditorError Unit :=
  match o.createDirectory e.settings.tempDir with
  | (o, .error err) => (o, .error err)
  | (o, .ok ()) => o.send .start

def applyNote {α : Type} (what : String) (files : SortedMap Path α) (mode : PublishMode) :
    String :=
  "applying " ++ what ++ " file_count=" ++ toString files.size ++ " mode=" ++ mode.name

/-- Show the statuses of files.  The files count as shown even if the command does not arrive. -/
def applyStatuses (e : Editor) (o : Outlet) (files : FileStatuses) (mode : PublishMode) :
    Editor × Outlet × Except EditorError Unit :=
  let sent := mode.toSend e.statusFiles files
  let e := { e with statusFiles := mode.published e.statusFiles files }
  (e, (o.note (applyNote "line statuses" sent mode)).send (.statuses sent e.settings))

/-- Show the labels of files. -/
def applyLabels (e : Editor) (o : Outlet) (files : FileLabels) (mode : PublishMode) :
    Editor × Outlet × Except EditorError Unit :=
  let sent := mode.toSend e.labelFiles files
  let e := { e with labelFiles := mode.published e.labelFiles files }
  (e, (o.note (applyNote "line notifications" sent mode)).send (.labels sent e.settings))

/-- Publish a list of places under a name. -/
def publishList (e : Editor) (o : Outlet) (name : String) (locations : List Location)
    (selectCurrentLine : Bool) : Outlet × Except EditorError Unit :=
  let path := e.settings.tempDir.join ⟨name⟩
  match o.writeFile e.settings.tempDir path (Commands.listText locations) with
  | (o, .error err) => (o, .error err)
  | (o, .ok ()) => o.send (.openList name path locations selectCurrentLine)

/-- Write the details of lines. -/
def writeDetails (e : Editor) (o : Outlet) :
    List Notification → Outlet × Except EditorError Unit
  | [] => (o, .ok ())
  | n :: rest =>
    match o.writeFile e.settings.tempDir (Commands.detailsPath e.settings.tempDir n.file n.line)
        n.json with
    | (o, .error err) => (o, .error err)
    | (o, .ok ()) => writeDetails e o rest

/-- Write the details of lines and make them ready to open. -/
def publishDetails (e : Editor) (o : Outlet) (notifications : List Notification) :
    Outlet × Except EditorError Unit :=
  match e.writeDetails o notifications with
  | (o, .error err) => (o, .error err)
  | (o, .ok ()) => o.send (.openDetails e.settings.tempDir notifications)

/-- Move the cursor to a line of a file. -/
def jumpTo (_e : Editor) (o : Outlet) (file : Path) (line : Nat) :
    Outlet × Except EditorError Unit :=
  o.send (.jump file line)

end Editor
end LiveTest
