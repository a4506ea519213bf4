import LiveTest.Decimal.Shortest
import LiveTest.Failure
import LiveTest.Text.Quoted
/-!
Comparing two values of one type.  When they differ, the failure shows both as text and captures
both as JSON, as far as they can be captured.
-/

namespace LiveTest

/-- A value that code under test compares. -/
inductive Operand
  | int (n : Int)
  | bool (b : Bool)
  | text (s : String)
  | ints (ns : List Int)
  | texts (ss : List String)
  | option (n : Option Int)
  | pair (n : Int) (s : String)
  | float (x : Double)
  /-- A whole number of up to 128 bits, which is captured only if it fits 64. -/
  | wide (n : Nat)
  /-- A value that is never captured. -/
  | sealed (s : String)

namespace Operand

/-- Doubles in messages have an exponent below `1e-4` and from `1e16` on. -/
def floatStyle : Double.Style where
  tiesUp := true
  positional e := -4 ≤ e ∧ e ≤ 15
  plusSign := false
  pointZero := true

def listText (items : List String) : String := "[" ++ Text.join ", " items ++ "]"

/-- The value as a message shows it. -/
def inspect : Operand → String
  | .int n => toString n
  | .bool b => if b then "true" else "false"
  | .text s => Text.quoted s
  | .ints ns => listText (ns.map toString)
  | .texts ss => listText (ss.map Text.quoted)
  | .option none => "None"
  | .option (some n) => "Some(" ++ toString n ++ ")"
  | .pair n s => "(" ++ toString n ++ ", " ++ Text.quoted s ++ ")"
  | .float x => floatStyle.render x
  | .wide n => toString n
  | .sealed s => "Opaque(" ++ Text.quoted s ++ ")"

/-- The value as JSON, where it has a form in JSON. -/
def capture : Operand → Option Json
  | .int n => some (.int n)
  | .bool b => some (.bool b)
  | .text s => some (.text s)
  | .ints ns => some (.array (ns.map Json.int))
  | .texts ss => some (.array (ss.map Json.text))
  | .option none => some .null
  | .option (some n) => some (.int n)
  | .pair n s => some (.array [.int n, .text s])
  | .float x => some (if x.isFinite then .number (.float x) else .null)
  | .wide n => if n < 0x10000000000000000 then some (.nat n) else none
  | .sealed _ => none

/-- Equality of two values; those of different types are never equal. -/
def equal : Operand → Operand → Bool
  | .int a, .int b => a == b
  | .bool a, .bool b => a == b
  | .text a, .text b => a == b
  | .ints a, .ints b => a == b
  | .texts a, .texts b => a == b
  | .option a, .option b => a == b
  | .pair a s, .pair b t => a == b && s == t
  | .float a, .float b => a.equal b
  | .wide a, .wide b => a == b
  | .sealed a, .sealed b => a == b
  | _, _ => false

end Operand

/-- A check that two values are equal. -/
structure Comparison where
  actual : Operand
  expected : Operand

/-- The failure of a comparison, if its values differ. -/
def Comparison.failure? (c : Comparison) : Option Failure :=
  if c.actual.equal c.expected then none
  else some {
    message := "expected " ++ c.actual.inspect ++ " to equal " ++ c.expected.inspect
    actual := c.actual.capture
    expected := c.expected.capture
    location := none }

end LiveTest
