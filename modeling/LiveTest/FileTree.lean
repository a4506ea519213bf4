import LiveTest.Path
/-!
Directories and files as far as the program sees them: it makes directories, writes whole files
and reads whole files.  Relative paths start at the working directory.
-/

namespace LiveTest

/-- A place in the tree: names below the root, below the working directory, or below one of the
directories that hold the working directory. -/
structure Place where
  absolute : Bool
  /-- How far above the working directory the names start. -/
  ups : Nat
  names : List String
deriving DecidableEq, Inhabited

namespace Place

/-- The place as a text; the working directory itself is the empty text. -/
def text (p : Place) : String :=
  if p.absolute then "/" ++ Text.join "/" p.names
  else Text.join "/" (List.replicate p.ups ".." ++ p.names)

def child (p : Place) (name : String) : Place := { p with names := p.names ++ [name] }

def parent (p : Place) : Place :=
  if p.names = [] then (if p.absolute then p else { p with ups := p.ups + 1 })
  else { p with names := p.names.dropLast }

/-- The working directory. -/
def here : Place := ⟨false, 0, []⟩

end Place

inductive Node
  | directory
  | file (text : String)
deriving DecidableEq

/-- What is there, by the texts of the places.  The starting points are always directories. -/
structure FileTree where
  nodes : SortedMap String Node
deriving DecidableEq, Inhabited

namespace FileTree

def empty : FileTree := ⟨.empty⟩

def node? (t : FileTree) (p : Place) : Option Node :=
  if p.names = [] then some .directory else t.nodes.get? p.text

def isDirectory (t : FileTree) (p : Place) : Bool := t.node? p == some .directory

/-- The place that components lead to.  Every place on the way must be a directory. -/
def walk (t : FileTree) : Place → List Path.Component → Option Place
  | p, [] => some p
  | p, c :: rest =>
    match c with
    | .root => t.walk ⟨true, 0, []⟩ rest
    | .here => t.walk p rest
    | .up => if t.isDirectory p then t.walk p.parent rest else none
    | .normal name => if t.isDirectory p then t.walk (p.child (String.ofList name)) rest else none

/-- A path that ends in a slash or a single point can only name a directory. -/
def namesDirectory (path : Path) : Bool :=
  match (Text.splitAll '/' path.text.toList).getLast? with
  | some piece => piece = [] || piece = ['.']
  | none => true

/-- A name that a file or directory can have: it has 255 bytes at most and no null character. -/
def isName (name : List Char) : Bool := Text.byteCount name ≤ 255 && name.all (· ≠ '\x00')

/-- A path that can be used at all has at most 4095 bytes. -/
def isUsable (path : Path) : Bool := Text.byteCount path.text.toList ≤ 4095

/-- The text of the file at a path. -/
def read? (t : FileTree) (path : Path) : Option String :=
  if !isUsable path || namesDirectory path then none
  else match (t.walk .here path.components).bind t.node? with
    | some (.file text) => some text
    | _ => none

/-- Make every directory on a way that is missing; none if a file stands in the way or a name
cannot be given. -/
def makeDirectories (t : FileTree) : Place → List Path.Component → Option FileTree
  | _, [] => some t
  | p, c :: rest =>
    match c with
    | .root => t.makeDirectories ⟨true, 0, []⟩ rest
    | .here => t.makeDirectories p rest
    | .up => t.makeDirectories p.parent rest
    | .normal name =>
      let q := p.child (String.ofList name)
      match t.node? q with
      | some .directory => t.makeDirectories q rest
      | some (.file _) => none
      | none =>
        if isName name then makeDirectories ⟨t.nodes.insert q.text .directory⟩ q rest else none

/-- A directory is at the path. -/
def hasDirectory (t : FileTree) (path : Path) : Bool :=
  ((t.walk .here path.components).map t.isDirectory).getD false

/-- A path that ends in a single point names a directory that must be there already. -/
def endsInPoint (path : Path) : Bool :=
  ((Text.splitAll '/' path.text.toList).filter (· ≠ [])).getLast? == some ['.']

/-- Make the directory at a path, and those that hold it. -/
def createDirectory (t : FileTree) (path : Path) : Option FileTree :=
  if !isUsable path || endsInPoint path && !t.hasDirectory path then none
  else t.makeDirectories .here path.components

/-- Write a file in full, under the last name of a path.  The directory must be there, and no
directory may have the name of the file. -/
def write (t : FileTree) (path : Path) (text : String) : Option FileTree :=
  if !isUsable path || !path.fileName?.any isName then none
  else match t.walk .here path.components with
    | none => none
    | some place =>
      match t.node? place with
      | some .directory => none
      | _ => some ⟨t.nodes.insert place.text (.file text)⟩

/-- The directory part of a path. -/
def parentPath (path : Path) : Path :=
  ⟨String.ofList ((path.text.toList.reverse.dropWhile (· ≠ '/')).tail.reverse)⟩

/-- A tree with these directories and files, the files with the directories that hold them. -/
def populate (directories : List Path) (files : List (Path × String)) : FileTree :=
  let t := directories.foldl (fun t d => (t.createDirectory d).getD t) empty
  files.foldl (fun t f =>
    let t := (t.createDirectory (parentPath f.1)).getD t
    (t.write f.1 f.2).getD t) t

/-- A text that names a place below the working directory. -/
def isBelowHere (place : String) : Bool :=
  match place.toList with
  | '/' :: _ => false
  | '.' :: '.' :: '/' :: _ => false
  | _ => true

/-- The files below the working directory that are new or changed since `before`, in the order of
their paths. -/
def changesSince (now before : FileTree) : List (String × String) :=
  now.nodes.entries.filterMap fun e =>
    match e.2 with
    | .file text =>
      if isBelowHere e.1 && before.nodes.get? e.1 != some (.file text) then some (e.1, text)
      else none
    | .directory => none

end FileTree
end LiveTest
