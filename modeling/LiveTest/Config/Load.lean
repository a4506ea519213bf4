import LiveTest.Config.Layers
import LiveTest.Decimal.Reader
import LiveTest.Decimal.Shortest
import LiveTest.FileTree
import LiveTest.Log
import LiveTest.Text.Quoted
import LiveTest.Toml.Document
/-!
Loading the settings of a project: the standard ones with a file laid over them.  Names that mean
nothing are reported, and a value of the wrong kind is an error that names its place.
-/

namespace LiveTest

/-- A value of the wrong kind among the settings. -/
structure SettingMismatch where
  /-- The place of the value. -/
  path : String
  message : String
deriving DecidableEq

/-- Settings that cannot be loaded; without a mismatch the file is missing or no TOML. -/
structure ConfigError where
  file : Path
  mismatch : Option SettingMismatch
deriving DecidableEq

def ConfigError.message (e : ConfigError) : String :=
  "failed to parse kiwi config at `" ++ e.file.text ++ "`"

/-- Names in a file that mean nothing, in the order of their bytes. -/
structure UnknownKeys where
  file : Path
  keys : List String

namespace UnknownKeys

/-- The warning about the names, if there are any. -/
def warning? (u : UnknownKeys) : Option LogLine :=
  let start := "in config file " ++ u.file.text ++ ", ignoring unknown configuration "
  match u.keys with
  | [] => none
  | [key] => some (.warn (start ++ "key: " ++ key))
  | keys => some (.warn (start ++ "keys:\n" ++ Text.concat (keys.map fun k => "\n  - " ++ k)))

end UnknownKeys

namespace Setting

/-- A place among the settings, the innermost step first. -/
abbrev Trail := List Step

/-- The place as a path. -/
def trailText (trail : Trail) : String :=
  trail.reverse.foldl (fun text step =>
    match step with
    | .name name => if text = "" then name else text ++ "." ++ name
    | .index i => text ++ "[" ++ toString i ++ "]") ""

/-- The place as the name of a setting: nothing separates a name from an index before it. -/
def keyText (trail : Trail) : String :=
  (trail.reverse.foldl (fun (acc : String × Bool) step =>
    match step with
    | .name name => (if acc.2 then acc.1 ++ "." ++ name else acc.1 ++ name, true)
    | .index i => (acc.1 ++ "[" ++ toString i ++ "]", false)) ("", false)).1

/-- Doubles as values of settings: never with an exponent. -/
def floatStyle : Double.Style where
  tiesUp := true
  positional _ := true
  plusSign := false
  pointZero := false

/-- Doubles in messages about structures. -/
def messageFloatStyle : Double.Style := { floatStyle with pointZero := true }

/-- What stands where a single value is wanted. -/
def describe : Setting → String
  | .none => "unit value"
  | .text s => "string " ++ Text.quoted s
  | .int n => "64-bit integer `" ++ toString n ++ "`"
  | .float x => "floating point `" ++ floatStyle.render x ++ "`"
  | .bool b => "boolean `" ++ (if b then "true" else "false") ++ "`"
  | .list _ _ => "sequence"
  | .table _ _ => "map"

/-- What stands where a structure is wanted. -/
def describeForStructure : Setting → String
  | .int n => "integer `" ++ toString n ++ "`"
  | .float x => "floating point `" ++ messageFloatStyle.render x ++ "`"
  | s => s.describe

/-- The value stands in a file as it is. -/
def isInFile : Setting → Bool
  | .none => false
  | .list inFile _ => inFile
  | .table inFile _ => inFile
  | _ => true

/-- Where settings are read from: the name of the file for messages. -/
structure Source where
  fileName : String

abbrev Read := Except SettingMismatch

/-- The error of a value where `expected` is wanted. -/
def wrongType {α : Type} (src : Source) (trail : Trail) (s : Setting) (expected : String) :
    Read α :=
  .error ⟨trailText trail,
    "invalid type: " ++ s.describe ++ ", expected " ++ expected ++ " for key `" ++
      keyText trail ++ "`" ++ (if s.isInFile then " in " ++ src.fileName else "")⟩

/-- A text; numbers and truth values count as their texts. -/
def readText (src : Source) (trail : Trail) : Setting → Read String
  | .text s => .ok s
  | .int n => .ok (toString n)
  | .float x => .ok (floatStyle.render x)
  | .bool b => .ok (if b then "true" else "false")
  | s => wrongType src trail s "a string"

/-- The largest number of 64 bits. -/
def natLimit : Nat := 0xffffffffffffffff

/-- A decimal number of 64 bits with an optional plus sign. -/
def natText? (s : String) : Option Nat :=
  let ds := match s.toList with
    | '+' :: rest => rest
    | cs => cs
  if ds ≠ [] && ds.all Double.isDigit then
    let n := Double.digitsToNat ds
    if n ≤ natLimit then some n else Option.none
  else Option.none

/-- The nearest number of 64 bits, a half away from zero. -/
def natOfFloat (x : Double) : Nat :=
  if x.isNan || x.isNegative then 0
  else if x.isInfinite then natLimit
  else min x.roundHalfUp natLimit

/-- A number of 64 bits; truth values and words for them count as zero and one. -/
def readNat (src : Source) (trail : Trail) (s : Setting) : Read Nat :=
  match s with
  | .int n =>
    if 0 ≤ n then .ok n.toNat
    else wrongType src trail s "an unsigned 64 bit or less integer"
  | .bool b => .ok (if b then 1 else 0)
  | .float x => .ok (natOfFloat x)
  | .text t =>
    let word := String.ofList (t.toList.map Char.toLower)
    if word = "true" ∨ word = "on" ∨ word = "yes" then .ok 1
    else if word = "false" ∨ word = "off" ∨ word = "no" then .ok 0
    else match natText? t with
      | some n => .ok n
      | Option.none => wrongType src trail s "an integer"
  | _ => wrongType src trail s "an integer"

/-- A field of a structure. -/
structure Field where
  name : String
  required : Bool
  /-- Check the value, and tell the names in it that mean nothing. -/
  check : Trail → Setting → Read (List Trail)

/-- A field with a single value. -/
def plainField {α : Type} (name : String) (required : Bool)
    (read : Trail → Setting → Read α) : Field :=
  ⟨name, required, fun trail s => (read trail s).map fun _ => []⟩

/-- Check the entries of a table in their order. -/
def checkEntries (fields : List Field) (trail : Trail) : Entries → Read (List Trail)
  | [] => .ok []
  | (name, value) :: rest => do
    let here := Step.name name :: trail
    let unknown ← match fields.find? fun f => f.name == name with
      | some f => f.check here value
      | Option.none => .ok [here]
    return unknown ++ (← checkEntries fields trail rest)

/-- Check the items of a list that stand for the fields in order. -/
def checkItems (tooShort : Nat → SettingMismatch) (trail : Trail) (count : Nat) :
    List Field → List Setting → Read (List Trail)
  | [], _ => .ok []
  | f :: fields, [] =>
    if f.required then .error (tooShort count)
    else checkItems tooShort trail (count + 1) fields []
  | f :: fields, item :: rest => do
    let unknown ← f.check (.index count :: trail) item
    return unknown ++ (← checkItems tooShort trail (count + 1) fields rest)

/-- Check a structure. -/
def checkStructure (name : String) (fields : List Field) (trail : Trail) (s : Setting) :
    Read (List Trail) :=
  let mismatch (message : String) : SettingMismatch := ⟨trailText trail, message⟩
  match s with
  | .table _ entries => do
    let unknown ← checkEntries fields trail entries
    match fields.find? fun f => f.required && (find? f.name entries).isNone with
    | some f => .error (mismatch ("missing configuration field " ++
        Text.quoted (keyText (.name f.name :: trail))))
    | Option.none => return unknown
  | .list _ items =>
    checkItems (fun count => mismatch ("invalid length " ++ toString count ++
      ", expected struct " ++ name ++ " with " ++ Text.counted fields.length "element"))
      trail 0 fields items
  | s =>
    .error (mismatch ("invalid type: " ++ s.describeForStructure ++ ", expected struct " ++ name))

/-- The value of a field, by its name in a table or its place in a list. -/
def fieldValue? (fields : List Field) (name : String) : Setting → Option Setting
  | .table _ entries => find? name entries
  | .list _ items => items[fields.findIdx fun f => f.name == name]?
  | _ => Option.none

def colorFields (src : Source) : List Field :=
  ["uncovered", "fail", "success", "normal-notification", "error-notification"].map fun name =>
    plainField name true (readText src)

def colorsField (src : Source) : Field :=
  ⟨"colors", true, checkStructure "EditorColors" (colorFields src)⟩

/-- A text that may be left out. -/
def readOptionalText (src : Source) (trail : Trail) : Setting → Read (Option String)
  | .none => .ok Option.none
  | s => (readText src trail s).map some

def editorFields (src : Source) : List Field :=
  [plainField "client" true (readText src),
    plainField "max-notification-length" true (readNat src),
    plainField "status-chars" true (readText src),
    plainField "temp-dir" false (readOptionalText src),
    colorsField src]

def runnerFields (src : Source) : List Field :=
  [plainField "persist-dir" false (readOptionalText src)]

def rootFields (src : Source) : List Field :=
  [⟨"runner", false, checkStructure "RunnerConfigDeserialize" (runnerFields src)⟩,
    ⟨"editor", true, checkStructure "EditorConfigDeserialize" (editorFields src)⟩]

/-- The field of a structure that was checked. -/
def textField (src : Source) (fields : List Field) (s : Setting) (name : String) : String :=
  match fieldValue? fields name s with
  | some v => (readText src [] v).toOption.getD ""
  | Option.none => ""

def pathField? (src : Source) (root : Path) (fields : List Field) (s : Setting) (name : String) :
    Option Path :=
  ((fieldValue? fields name s).bind fun v => (readOptionalText src [] v).toOption.join).map
    fun text => root.join ⟨text⟩

/-- The settings of entries that were checked.  Paths start at the root of the project. -/
def toSettings (src : Source) (root : Path) (entries : Entries) : Settings :=
  let runner := (find? "runner" entries).getD .none
  let editor := (find? "editor" entries).getD .none
  let colors := (fieldValue? (editorFields src) "colors" editor).getD .none
  let color := textField src (colorFields src) colors
  { root := root
    persistDir := pathField? src root (runnerFields src) runner "persist-dir"
    editor := {
      client := textField src (editorFields src) editor "client"
      labelWidth :=
        match fieldValue? (editorFields src) "max-notification-length" editor with
        | some v => (readNat src [] v).toOption.getD 0
        | Option.none => 0
      statusChars := textField src (editorFields src) editor "status-chars"
      tempDir := (pathField? src root (editorFields src) editor "temp-dir").getD
        EditorSettings.standard.tempDir
      colors := {
        uncovered := color "uncovered"
        fail := color "fail"
        success := color "success"
        normalLabel := color "normal-notification"
        errorLabel := color "error-notification" } } }

/-- A place as the name of an unknown setting. -/
def unknownText (trail : Trail) : String :=
  Text.join "." (trail.reverse.map fun
    | .name name => name
    | .index i => toString i)

/-- Texts in order, each once. -/
def sortedTexts (texts : List String) : List String :=
  (SortedMap.ofList (texts.map fun t => (t, ()))).keys

end Setting

namespace Settings

/-- The settings of a project without a file. -/
def standard (root : Path) : Settings := ⟨root, none, EditorSettings.standard⟩

/-- Where the file of a project is, unless another is named. -/
def filePath (root : Path) : Path := root.join ⟨".config/kiwi.toml"⟩

/-- A path without empty pieces and single points, as messages show the name of a file. -/
def plainName (p : Path) : String :=
  let names := p.components.filterMap fun
    | .normal name => some (String.ofList name)
    | .up => some ".."
    | _ => none
  (if p.isAbsolute then "/" else "") ++ Text.join "/" names

/-- The path with the ending of a settings file after its file name.  A placeholder keeps an
extension that is there from being replaced; in that case it goes to the very end of the text, so
that a slash or a point at the end makes it a file name of its own. -/
def withEnding (p : Path) : Path :=
  let marked : Path := match p.extension? with
    | some _ => ⟨p.text ++ ".placeholder"⟩
    | none => p.withExtension "placeholder"
  marked.withExtension "toml"

/-- The file at a path or, failing that, at the path with an ending added: its name and text. -/
def findFile (tree : FileTree) (p : Path) : Option (Setting.Source × String) :=
  match tree.read? p with
  | some text => some (⟨plainName p⟩, text)
  | none =>
    (tree.read? (withEnding p)).map fun text => (⟨plainName (withEnding p)⟩, text)

/-- The settings that a file's text asks for, and the names in it that mean nothing.  A byte order
mark may stand before the document, which may have one of its own. -/
def ofText (file root : Path) (src : Setting.Source) (text : String) :
    Except ConfigError (Settings × UnknownKeys) :=
  match Toml.parse (String.ofList (Toml.dropMark text.toList)) with
  | none => .error ⟨file, none⟩
  | some entries =>
    let all := Setting.layer Setting.standard (Setting.entriesOfToml entries)
    match Setting.checkEntries (Setting.rootFields src) [] all with
    | .error m => .error ⟨file, some m⟩
    | .ok unknown =>
      .ok (Setting.toSettings src root all,
        ⟨file, Setting.sortedTexts (unknown.map Setting.unknownText)⟩)

/-- Load the settings of the project at `root`, from the file that is named or else from the
project's own file if there is one. -/
def load (tree : FileTree) (root : Path) (named : Option Path) :
    Except ConfigError (Settings × UnknownKeys) :=
  let file := named.getD (filePath root)
  match findFile tree file with
  | some (src, text) => ofText file root src text
  | none =>
    if named.isSome then .error ⟨file, none⟩
    else .ok (standard root, ⟨file, []⟩)

end Settings
end LiveTest
