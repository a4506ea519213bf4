import LiveTest.Config.Settings
import LiveTest.Toml.Basic
/-!
Layers of settings.  A later layer goes over an earlier one table by table; what is no table
replaces what was there.  The names of a layer's top level are paths, such as `editor.client`.
-/

namespace LiveTest

/-- A value among the settings.  Lists and tables know whether they stand in a file as they are. -/
inductive Setting
  | none
  | text (s : String)
  | int (n : Int)
  | float (x : Double)
  | bool (b : Bool)
  | list (inFile : Bool) (items : List Setting)
  | table (inFile : Bool) (entries : List (String × Setting))
deriving Inhabited

namespace Setting

abbrev Entries := List (String × Setting)

mutual

/-- A value of a file. -/
def ofToml : TomlValue → Setting
  | .text s => .text s
  | .int n => .int n
  | .float x => .float x
  | .bool b => .bool b
  | .datetime s => .text s
  | .array items => .list true (itemsOfToml items)
  | .table entries => .table true (entriesOfToml entries)

def itemsOfToml : List TomlValue → List Setting
  | [] => []
  | v :: rest => ofToml v :: itemsOfToml rest

def entriesOfToml : List (String × TomlValue) → List (String × Setting)
  | [] => []
  | (name, v) :: rest => (name, ofToml v) :: entriesOfToml rest

end

def find? (name : String) (entries : Entries) : Option Setting :=
  (entries.find? fun e => e.1 == name).map Prod.snd

/-- Replace the value of a name in its place, or add the name at the end. -/
def put (name : String) (value : Setting) (entries : Entries) : Entries :=
  if entries.any fun e => e.1 == name then
    entries.map fun e => if e.1 == name then (name, value) else e
  else entries ++ [(name, value)]

/-- Change the value of a name in its place, or add the name at the end. -/
def update (name : String) (change : Setting → Setting) (entries : Entries) : Entries :=
  put name (change ((find? name entries).getD .none)) entries

mutual

/-- Lay a value over another. -/
def laidOver (below : Setting) : Setting → Setting
  | .table _ entries =>
    match below with
    | .table inFile old => .table inFile (entriesOver old entries)
    | _ => .table false (entriesOver [] entries)
  | value => value

/-- Lay entries over others, one by one. -/
def entriesOver (below : Entries) : List (String × Setting) → Entries
  | [] => below
  | (name, value) :: rest =>
    entriesOver (put name (laidOver ((find? name below).getD .none) value) below) rest

end

/-- A step of a path after its first name. -/
inductive Step
  | name (name : String)
  | index (i : Int)

def isNameChar (c : Char) : Bool := c.isAlphanum || c = '_' || c = '-'

def skipBlanks (cs : List Char) : List Char := cs.dropWhile fun c => c = ' ' || c = '\t'

/-- An index at the start of a text, and the rest.  Indices have 64 bits with a sign. -/
def index? (cs : List Char) : Option (Int × List Char) :=
  let (negative, ds) := match cs with
    | '-' :: ds => (true, ds)
    | _ => (false, cs)
  match ds.takeWhile Char.isDigit with
  | [] => Option.none
  | digits =>
    let n : Int := digits.foldl (fun n c => 10 * n + (c.toNat - '0'.toNat)) 0
    let i := if negative then -n else n
    if -0x8000000000000000 ≤ i ∧ i < 0x8000000000000000 then
      some (i, ds.dropWhile Char.isDigit)
    else Option.none

/-- The steps that a text spells out, `fuel` of them at most.  Blanks may surround an index. -/
def steps? : Nat → List Char → Option (List Step)
  | _, [] => some []
  | 0, _ => Option.none
  | fuel + 1, '.' :: rest =>
    match rest.takeWhile isNameChar with
    | [] => Option.none
    | name =>
      (steps? fuel (rest.dropWhile isNameChar)).map (.name (String.ofList name) :: ·)
  | fuel + 1, '[' :: rest =>
    match index? (skipBlanks rest) with
    | some (i, rest) =>
      match skipBlanks rest with
      | ']' :: rest => (steps? fuel rest).map (.index i :: ·)
      | _ => Option.none
    | Option.none => Option.none
  | _, _ => Option.none

/-- A top-level name as a path.  A text that spells out no path is one name. -/
def pathOf (name : String) : String × List Step :=
  let cs := name.toList
  match cs.takeWhile isNameChar with
  | [] => (name, [])
  | first =>
    match steps? cs.length (cs.dropWhile isNameChar) with
    | some steps => (String.ofList first, steps)
    | Option.none => (name, [])

/-- Change an item of a list, counted from the end if the index is negative.  Missing items are
filled in. -/
def updateItem (change : Setting → Setting) (index : Int) (items : List Setting) : List Setting :=
  let place := if index < 0 then index + items.length else index
  if place < 0 then
    change .none :: (List.replicate ((-place).toNat - 1) .none ++ items)
  else
    let i := place.toNat
    let filled := items ++ List.replicate (i + 1 - items.length) .none
    filled.take i ++ change (filled.getD i .none) :: filled.drop (i + 1)

/-- Change the value that steps lead to.  What stands in the way becomes a table or a list. -/
def atSteps (change : Setting → Setting) : List Step → Setting → Setting
  | [], s => change s
  | .name name :: rest, s =>
    match s with
    | .table inFile entries => .table inFile (update name (atSteps change rest) entries)
    | _ => .table false (update name (atSteps change rest) [])
  | .index i :: rest, s =>
    match s with
    | .list inFile items => .list inFile (updateItem (atSteps change rest) i items)
    | _ => .list false (updateItem (atSteps change rest) i [])

/-- Lay a layer over the settings so far. -/
def layer (below : Entries) (entries : Entries) : Entries :=
  entries.foldl (fun acc e =>
    let (first, steps) := pathOf e.1
    update first (atSteps (fun old => old.laidOver e.2) steps) acc) below

/-- The first layer: what holds unless a file says otherwise. -/
def standard : Entries :=
  let s := EditorSettings.standard
  [("runner", .table false []),
    ("editor", .table false [
      ("client", .text s.client),
      ("max-notification-length", .int s.labelWidth),
      ("status-chars", .text s.statusChars),
      ("colors", .table false [
        ("uncovered", .text s.colors.uncovered),
        ("fail", .text s.colors.fail),
        ("success", .text s.colors.success),
        ("normal-notification", .text s.colors.normalLabel),
        ("error-notification", .text s.colors.errorLabel)])])]

end Setting
end LiveTest
