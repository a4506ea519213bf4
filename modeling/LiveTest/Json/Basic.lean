import LiveTest.Decimal.Double
import LiveTest.SortedMap
/-!
JSON values.  An object that was read has its members in ascending order of their names, each name
once; an object that is to be written has them in the order they are given in.
-/

namespace LiveTest

/-- A whole number stays one if it fits 64 bits; any other number is a double. -/
inductive JsonNumber
  | int (n : Int)
  | float (x : Double)
deriving DecidableEq

inductive Json
  | null
  | bool (b : Bool)
  | number (n : JsonNumber)
  | text (s : String)
  | array (items : List Json)
  | object (members : List (String × Json))
deriving Inhabited

namespace Json

def int (n : Int) : Json := .number (.int n)

def nat (n : Nat) : Json := .number (.int n)

/-- The object with these members; of an equal name the last value stays. -/
def ofMembers (members : List (String × Json)) : Json :=
  .object (SortedMap.ofList members).entries

/-- The member called `name`. -/
def member? (name : String) : Json → Option Json
  | .object members => (members.find? fun m => m.1 == name).map Prod.snd
  | _ => none

end Json
end LiveTest
