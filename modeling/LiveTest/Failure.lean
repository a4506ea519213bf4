import LiveTest.Json.Basic
import LiveTest.Status
/-!
What code under test throws: a message, the values it compared, and a place if it knows one.
-/

namespace LiveTest

structure Failure where
  message : String
  /-- The value found, if one was captured. -/
  actual : Option Json
  /-- The value wanted, if one was captured. -/
  expected : Option Json
  location : Option SourceLocation

namespace Failure

def ofMessage (message : String) : Failure := ⟨message, none, none, none⟩

/-- The failure of code that panicked, with the text it panicked with, if that was a text. -/
def ofPanic (text : Option String) : Failure :=
  ofMessage (text.getD "panicked with a non-string payload")

/-- The first line of the message. -/
def summary (f : Failure) : String := Text.firstLine f.message

end Failure
end LiveTest
