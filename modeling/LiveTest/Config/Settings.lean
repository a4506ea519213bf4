import LiveTest.Status
/-!
The settings that the program works with.
-/

namespace LiveTest

/-- The colours of statuses and labels, as the editor names them. -/
structure Colors where
  uncovered : String
  fail : String
  success : String
  normalLabel : String
  errorLabel : String
deriving DecidableEq

namespace Colors

def ofStatus (c : Colors) : LineStatus → String
  | .uncovered => c.uncovered
  | .success => c.success
  | .fail => c.fail

def ofSeverity (c : Colors) : Severity → String
  | .normal => c.normalLabel
  | .error => c.errorLabel

end Colors

structure EditorSettings where
  /-- The client of the editor in which commands are evaluated. -/
  client : String
  /-- The width that labels are fitted into. -/
  labelWidth : Nat
  /-- The characters that show the status of a line. -/
  statusChars : String
  /-- The directory of the files that the editor opens. -/
  tempDir : Path
  colors : Colors
deriving DecidableEq

structure Settings where
  root : Path
  /-- The directory that code is written to before it runs. -/
  persistDir : Option Path
  editor : EditorSettings
deriving DecidableEq

/-- What the editor does unless the settings say otherwise. -/
def EditorSettings.standard : EditorSettings where
  client := "client0"
  labelWidth := 30
  statusChars := "██"
  tempDir := ⟨"/tmp/kiwi"⟩
  colors := {
    uncovered := "rgb:434343"
    fail := "rgb:ab4434"
    success := "rgb:a1b56b"
    normalLabel := "Default"
    errorLabel := "rgb:ffffff,rgb:ab4434" }

end LiveTest
