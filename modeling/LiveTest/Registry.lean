import LiveTest.Comparison
import LiveTest.Recorder
/-!
Code under test as what it does, and the tests that it registers.
-/

namespace LiveTest

/-- One thing that code under test does. -/
inductive Action
  | call (call : ProbeCall)
  /-- Compare two values, and fail if they differ. -/
  | check (comparison : Comparison)
  | fail (failure : Failure)
  /-- Panic, with a text or with something else. -/
  | panic (text : Option String)
  /-- Let others run for a moment. -/
  | pause

/-- A test as it was registered. -/
structure RegisteredTest where
  label : String
  focused : Bool
  body : List Action

structure Registry where
  /-- The tests in the order of their registration. -/
  tests : List RegisteredTest
  /-- How many tests were registered as disabled. -/
  disabled : Nat

namespace Registry

def empty : Registry := ⟨[], 0⟩

def register (r : Registry) (test : RegisteredTest) : Registry :=
  { r with tests := r.tests ++ [test] }

/-- Count a test that is not to run. -/
def disable (r : Registry) : Registry := { r with disabled := r.disabled + 1 }

/-- What is told about a disabled test. -/
def disabledNote (label : String) : LogLine := .debug ("skipping disabled test `" ++ label ++ "`")

def hasFocused (r : Registry) : Bool := r.tests.any RegisteredTest.focused

/-- The tests to run: only the focused ones if there are any. -/
def selected (r : Registry) : List RegisteredTest :=
  if r.hasFocused then r.tests.filter RegisteredTest.focused else r.tests

def boolText (b : Bool) : String := if b then "true" else "false"

/-- A test as text, without its body. -/
def testText (t : RegisteredTest) : String :=
  "RegisteredTest \x7b label: " ++ Text.quoted t.label ++ ", focused: " ++ boolText t.focused ++
    ", .. \x7d"

/-- The registry as text. -/
def text (r : Registry) : String :=
  "TestRegistry \x7b tests: [" ++ Text.join ", " (r.tests.map testText) ++ "], disabled: " ++
    toString r.disabled ++ " \x7d"

end Registry
end LiveTest
