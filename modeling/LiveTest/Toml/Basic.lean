import LiveTest.Decimal.Double
/-!
TOML values, and documents as they are put together: every table remembers how it came about,
because that decides whether more may be added to it.
-/

namespace LiveTest

inductive TomlValue
  | text (s : String)
  | int (n : Int)
  | float (x : Double)
  | bool (b : Bool)
  /-- A date, a time or both, in its normal form. -/
  | datetime (s : String)
  | array (items : List TomlValue)
  | table (entries : List (String × TomlValue))
deriving Inhabited

namespace Toml

/-- How a table came about. -/
inductive TableKind
  /-- By a header of its own. -/
  | header
  /-- By a header of a table inside it, and no other way so far. -/
  | super
  /-- By a dotted key. -/
  | dotted
deriving DecidableEq

/-- A part of a document. -/
inductive Node
  | value (v : TomlValue)
  | table (kind : TableKind) (entries : List (String × Node))
  /-- The tables of an array, the last one first. -/
  | tables (elements : List (List (String × Node)))
deriving Inhabited

abbrev Entries := List (String × Node)

def find? (key : String) (entries : Entries) : Option Node :=
  (entries.find? fun e => e.1 == key).map Prod.snd

/-- Replace the entry of a key, or add it at the end. -/
def put (key : String) (node : Node) (entries : Entries) : Entries :=
  if entries.any fun e => e.1 == key then
    entries.map fun e => if e.1 == key then (key, node) else e
  else entries ++ [(key, node)]

/-- Leave out the entry of a key. -/
def erase (key : String) (entries : Entries) : Entries := entries.filter fun e => e.1 != key

/-- Change the table at the end of a header's path.  Tables on the way are made as needed; of an
array the last table counts. -/
def atHeader (change : Entries → Option Entries) : List String → Entries → Option Entries
  | [], entries => change entries
  | key :: path, entries =>
    match find? key entries with
    | none => (atHeader change path []).map fun inner => put key (.table .super inner) entries
    | some (.value _) => none
    | some (.tables []) => none
    | some (.tables (last :: others)) =>
      (atHeader change path last).map fun inner => put key (.tables (inner :: others)) entries
    | some (.table kind inner) =>
      (atHeader change path inner).map fun inner => put key (.table kind inner) entries

/-- Add a value under a dotted key.  Tables on the way must not have a header of their own; from
now on they count as made by dotted keys, so that they cannot get one.  A table of an array has a
header, so that a dotted key may lead through it but not end in it. -/
def addValue (value : TomlValue) : List String → Entries → Option Entries
  | [], _ => none
  | [key], entries =>
    if (find? key entries).isSome then none else some (put key (.value value) entries)
  | key :: path, entries =>
    match find? key entries with
    | none => (addValue value path []).map fun inner => put key (.table .dotted inner) entries
    | some (.table kind inner) =>
      if kind = .header then none
      else (addValue value path inner).map fun inner => put key (.table .dotted inner) entries
    | some (.tables (last :: others)) =>
      if path.length = 1 then none
      else (addValue value path last).map fun inner => put key (.tables (inner :: others)) entries
    | some _ => none

/-- Begin the table of a header.  A table has one header at most, and stands where its header
does, also if a header of a table inside it came first. -/
def openTable (key : String) (entries : Entries) : Option Entries :=
  match find? key entries with
  | none => some (put key (.table .header []) entries)
  | some (.table .super inner) => some (erase key entries ++ [(key, .table .header inner)])
  | some _ => none

/-- Begin another table of an array. -/
def openElement (key : String) (entries : Entries) : Option Entries :=
  match find? key entries with
  | none => some (put key (.tables [[]]) entries)
  | some (.tables elements) => some (put key (.tables ([] :: elements)) entries)
  | some _ => none

mutual

/-- The value of a part of a document. -/
def Node.toValue : Node → TomlValue
  | .value v => v
  | .table _ entries => .table (entriesToValues entries)
  | .tables elements => .array (elementsToValues elements).reverse

def entriesToValues : List (String × Node) → List (String × TomlValue)
  | [] => []
  | (key, node) :: rest => (key, node.toValue) :: entriesToValues rest

def elementsToValues : List (List (String × Node)) → List TomlValue
  | [] => []
  | entries :: rest => .table (entriesToValues entries) :: elementsToValues rest

end

end Toml
end LiveTest
