import LiveTest.SortedMap
import LiveTest.Text
/-!
File paths.  A path is a text; two paths are compared by their components, so that empty
components and inner single points make no difference.  A path keeps its own spelling.
-/

namespace LiveTest

structure Path where
  text : String
deriving DecidableEq, Inhabited

namespace Path

/-- A part of a path between slashes. -/
inductive Component
  | root
  | here
  | up
  | normal (name : List Char)
deriving DecidableEq

/-- The rank of a kind of component. -/
def Component.rank : Component → Nat
  | .root => 0
  | .here => 1
  | .up => 2
  | .normal _ => 3

/-- Components are ordered by kind first, and names by their characters. -/
def Component.order : Component → Component → Ordering
  | .normal a, .normal b => orderChars a b
  | a, b => orderNat a.rank b.rank

def orderComponents : List Component → List Component → Ordering
  | [], [] => .eq
  | [], _ :: _ => .lt
  | _ :: _, [] => .gt
  | a :: as, b :: bs => (a.order b).then (orderComponents as bs)

/-- A path that starts at the root. -/
def isAbsolute (p : Path) : Bool := p.text.toList.head? == some '/'

/-- The components after the start of a path: empty pieces and single points vanish. -/
def innerComponents (pieces : List (List Char)) : List Component :=
  pieces.filterMap fun piece =>
    if piece = [] ∨ piece = ['.'] then none
    else if piece = ['.', '.'] then some .up
    else some (.normal piece)

/-- The components of a path.  A single point counts only where a relative path starts with it. -/
def components (p : Path) : List Component :=
  let pieces := Text.splitAll '/' p.text.toList
  let start :=
    if p.isAbsolute then [.root] else if pieces.head? = some ['.'] then [.here] else []
  start ++ innerComponents pieces

instance : Key Path := ⟨fun a b => orderComponents a.components b.components⟩

/-- The path as `path` names it from the directory `base`. -/
def join (base path : Path) : Path :=
  if path.isAbsolute then path
  else match base.text.toList.getLast? with
    | none => path
    | some c => if c = '/' then ⟨base.text ++ path.text⟩ else ⟨base.text ++ "/" ++ path.text⟩

/-- The last component, if it is a name. -/
def fileName? (p : Path) : Option (List Char) :=
  match p.components.getLast? with
  | some (.normal name) => some name
  | _ => none

/-- A file name up to its last point; a point at the very start separates nothing. -/
def stemOf (name : List Char) : List Char :=
  match (name.reverse.dropWhile (· ≠ '.')).tail.reverse with
  | [] => name
  | stem => stem

def fileStem? (p : Path) : Option (List Char) := p.fileName?.map stemOf

/-- What follows the point after the stem of the file name, if there is such a point. -/
def extension? (p : Path) : Option (List Char) :=
  p.fileName?.bind fun name =>
    match name.drop (stemOf name).length with
    | [] => none
    | _ :: extension => some extension

/-- The text before the file name of a path that has one: what follows the file name, empty pieces
and single points, is left out too. -/
def beforeFileName (p : Path) : List Char :=
  let pieces := (Text.splitAll '/' p.text.toList).reverse
  match pieces.dropWhile fun piece => piece = [] || piece = ['.'] with
  | [] => []
  | _ :: before => before.reverse.flatMap fun piece => piece ++ ['/']

/-- The path up to the stem of its file name, with this extension.  A path without a file name
stays as it is. -/
def withExtension (p : Path) (extension : String) : Path :=
  match p.fileStem? with
  | none => p
  | some stem => ⟨String.ofList (p.beforeFileName ++ stem) ++ "." ++ extension⟩

end Path
end LiveTest
