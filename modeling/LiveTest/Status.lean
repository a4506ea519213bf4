import LiveTest.Path
/-!
What is shown for a line of a file: its status, its label, and the entries that lead to it.
-/

namespace LiveTest

/-- The status of a line after a run. -/
inductive LineStatus
  | uncovered
  | success
  | fail
deriving DecidableEq, Inhabited

namespace LineStatus

/-- All statuses, the weakest first. -/
def all : List LineStatus := [.uncovered, .success, .fail]

/-- The status that a unit gives to the lines it touches. -/
def ofFailed (failed : Bool) : LineStatus := if failed then .fail else .success

def name : LineStatus → String
  | .uncovered => "uncovered"
  | .success => "success"
  | .fail => "fail"

/-- A higher rank wins over a lower one. -/
def rank : LineStatus → Nat
  | .uncovered => 0
  | .success => 1
  | .fail => 2

def order (a b : LineStatus) : Ordering := orderNat a.rank b.rank

/-- The stronger of two statuses. -/
def join (a b : LineStatus) : LineStatus := if a.rank < b.rank then b else a

end LineStatus

/-- How a label is displayed. -/
inductive Severity
  | normal
  | error
deriving DecidableEq, Inhabited

def Severity.name : Severity → String
  | .normal => "normal"
  | .error => "error"

/-- Text shown inline on a line. -/
structure Label where
  text : String
  severity : Severity
deriving DecidableEq, Inhabited

abbrev LineStatuses := SortedMap Nat LineStatus
abbrev FileStatuses := SortedMap Path LineStatuses
abbrev LineLabels := SortedMap Nat Label
abbrev FileLabels := SortedMap Path LineLabels

/-- An entry of a list of places, such as the list of failures. -/
structure Location where
  file : Path
  line : Nat
  message : String
deriving DecidableEq

/-- The key under which an editor finds the entries of a line. -/
def placeKey (file : Path) (line : Nat) : String := file.text ++ ":" ++ toString line

/-- The details behind a label, as a JSON text. -/
structure Notification where
  file : Path
  line : Nat
  json : String
deriving DecidableEq

/-- A place that a compiler or a module loader names. -/
structure SourceLocation where
  file : Path
  line : Nat
  column : Nat
deriving DecidableEq

def SourceLocation.text (l : SourceLocation) : String :=
  l.file.text ++ ":" ++ toString l.line ++ ":" ++ toString l.column

/-- An error that the compiler reported. -/
structure CompileError where
  location : SourceLocation
  message : String
deriving DecidableEq

/-- The result of one build. -/
structure Build where
  code : String
  sourceMap : Option String
  errors : List CompileError
  entryPoint : Path
deriving DecidableEq

/-- A build with errors is not run. -/
def Build.hasErrors (b : Build) : Bool := !b.errors.isEmpty

end LiveTest
