import LiveTest.Json.Reader
import LiveTest.Position
import LiveTest.Status
/-!
The JSON form of what instrumented code, the bundler and the editor exchange.
-/

namespace LiveTest.Wire

open Reader (field optionalField structure?)

def fileHandle : Reader FileHandle := fun d => (Reader.nat32 d).map FileHandle.mk

def path : Reader Path := fun d => (Reader.textWanted "a UTF-8 path string" d).map Path.mk

def positionFields : List Reader.Field :=
  [field "file" fileHandle, field "line" Reader.nat32, field "col" Reader.nat32]

def positionFrom (origin : Reader.Origin) : Reader Position := fun d => do
  let fs ← structure? origin "Position" positionFields d
  return ⟨← fs.get "file" fileHandle, ← fs.get "line" Reader.nat32, ← fs.get "col" Reader.nat32⟩

def position : Reader Position := positionFrom .stream

def spanFrom (origin : Reader.Origin) : Reader Span := fun d => do
  let fs ← structure? origin "PositionRange"
    [field "start" (positionFrom origin), field "end_line" Reader.nat32,
      field "end_col" Reader.nat32] d
  return ⟨← fs.get "start" (positionFrom origin), ← fs.get "end_line" Reader.nat32,
    ← fs.get "end_col" Reader.nat32⟩

def span : Reader Span := spanFrom .stream

/-- The kinds of trace entries. -/
inductive EntryKind
  | point
  | range

def entryKinds : List (String × EntryKind) := [("point", .point), ("range", .range)]

/-- The kind of an entry among its members, and the other members, which must be readable. -/
def splitKind (close : Close) (kind : Option EntryKind) (others : List (Draft.Name × Draft)) :
    List (Draft.Name × Draft) → Except ReadError (EntryKind × List (Draft.Name × Draft))
  | [] =>
    match close, kind with
    | .broken f _, _ => .error (.fault f)
    | .closed, none => .error (.mismatch (.missingField "kind"))
    | .closed, some k => .ok (k, others)
  | (name, value) :: rest => do
    if (← Reader.textName name) = "kind" then
      match kind with
      | some _ => .error (.mismatch (.duplicateField "kind"))
      | none => do
        let k ← Reader.variantName entryKinds value
        splitKind close (some k) others rest
    else do
      let _ ← Reader.anythingWithin 1 value
      splitKind close kind (others ++ [(name, value)]) rest

def entryOfKind (content : Draft) : EntryKind → Except ReadError TraceEntry
  | .point => (positionFrom .value content).map TraceEntry.point
  | .range => (spanFrom .value content).map TraceEntry.span

/-- A trace entry names its kind, as a member anywhere or as the first item of a list. -/
def traceEntry : Reader TraceEntry
  | .record ms close => do
    let (kind, others) ← splitKind close none [] ms
    entryOfKind (.record others .closed) kind
  | .list [] close =>
    match close with
    | .closed => .error (.mismatch (.missingField "kind"))
    | .broken f _ => .error (.fault f)
  | .list (item :: rest) close => do
    let kind ← Reader.variantName entryKinds item
    let _ ← Reader.readItems (Reader.anythingWithin 1) close rest
    entryOfKind (.list rest .closed) kind
  | d => Reader.wrongType "internally tagged enum TraceEntry" d

def lineStatus : Reader LineStatus :=
  Reader.variant (LineStatus.all.map fun s => (s.name, s))

def severity : Reader Severity :=
  Reader.variant ([Severity.normal, .error].map fun s => (s.name, s))

def label : Reader Label := fun d => do
  let fs ← structure? .stream "LineLabel" [field "text" Reader.text, field "severity" severity] d
  return ⟨← fs.get "text" Reader.text, ← fs.get "severity" severity⟩

def location : Reader Location := fun d => do
  let fs ← structure? .stream "Location"
    [field "file" path, field "line" Reader.nat32, field "message" Reader.text] d
  return ⟨← fs.get "file" path, ← fs.get "line" Reader.nat32, ← fs.get "message" Reader.text⟩

def notification : Reader Notification := fun d => do
  let fs ← structure? .stream "FullNotification"
    [field "file" path, field "line" Reader.nat32, field "json" Reader.text] d
  return ⟨← fs.get "file" path, ← fs.get "line" Reader.nat32, ← fs.get "json" Reader.text⟩

def sourceLocation : Reader SourceLocation := fun d => do
  let fs ← structure? .stream "SourceLocation"
    [field "file" path, field "line" Reader.nat32, field "column" Reader.nat32] d
  return ⟨← fs.get "file" path, ← fs.get "line" Reader.nat32, ← fs.get "column" Reader.nat32⟩

def compileError : Reader CompileError := fun d => do
  let fs ← structure? .stream "CompileError"
    [field "file" path, field "line" Reader.nat32, field "column" Reader.nat32,
      field "message" Reader.text] d
  return ⟨⟨← fs.get "file" path, ← fs.get "line" Reader.nat32, ← fs.get "column" Reader.nat32⟩,
    ← fs.get "message" Reader.text⟩

/-- A build; the source map and the errors may be absent. -/
def build : Reader Build := fun d => do
  let fs ← structure? .stream "BuildOutput"
    [field "output-code" Reader.text, optionalField "source-map" (Reader.optional Reader.text),
      optionalField "errors" (Reader.list compileError), field "entry-point" path] d
  return {
    code := ← fs.get "output-code" Reader.text
    sourceMap := (← fs.get? "source-map" (Reader.optional Reader.text)).join
    errors := (← fs.get? "errors" (Reader.list compileError)).getD []
    entryPoint := ← fs.get "entry-point" path }

/-- Lines by their numbers, files by their paths. -/
def fileMap {α : Type} (read : Reader α) : Reader (SortedMap Path (SortedMap Nat α)) := fun d => do
  let lines : Reader (SortedMap Nat α) := fun d =>
    (Reader.members Reader.nat32Name read d).map SortedMap.ofList
  let path : Reader.NameReader Path := fun name => (Reader.textName name).map Path.mk
  return .ofList (← Reader.members path lines d)

def fileStatuses : Reader FileStatuses := fileMap lineStatus

def fileLabels : Reader FileLabels := fileMap label

def positionMembers (p : Position) : List (String × Json) :=
  [("file", .nat p.file.id), ("line", .nat p.line), ("col", .nat p.col)]

def positionJson (p : Position) : Json := .object (positionMembers p)

def spanMembers (s : Span) : List (String × Json) :=
  [("start", positionJson s.start), ("end_line", .nat s.endLine), ("end_col", .nat s.endCol)]

def spanJson (s : Span) : Json := .object (spanMembers s)

def traceEntryJson : TraceEntry → Json
  | .point p => .object (("kind", .text "point") :: positionMembers p)
  | .span s => .object (("kind", .text "range") :: spanMembers s)

def labelJson (l : Label) : Json :=
  .object [("text", .text l.text), ("severity", .text l.severity.name)]

def locationJson (l : Location) : Json :=
  .object [("file", .text l.file.text), ("line", .nat l.line), ("message", .text l.message)]

def notificationJson (n : Notification) : Json :=
  .object [("file", .text n.file.text), ("line", .nat n.line), ("json", .text n.json)]

def sourceLocationMembers (l : SourceLocation) : List (String × Json) :=
  [("file", .text l.file.text), ("line", .nat l.line), ("column", .nat l.column)]

def sourceLocationJson (l : SourceLocation) : Json := .object (sourceLocationMembers l)

def compileErrorJson (e : CompileError) : Json :=
  .object (sourceLocationMembers e.location ++ [("message", .text e.message)])

def buildJson (b : Build) : Json :=
  .object [("output-code", .text b.code),
    ("source-map", (b.sourceMap.map Json.text).getD .null),
    ("errors", .array (b.errors.map compileErrorJson)),
    ("entry-point", .text b.entryPoint.text)]

def fileMapJson {α : Type} (write : α → Json) (m : SortedMap Path (SortedMap Nat α)) : Json :=
  .object (m.entries.map fun file =>
    (file.1.text, .object (file.2.entries.map fun line => (toString line.1, write line.2))))

def fileStatusesJson : FileStatuses → Json := fileMapJson fun s => .text s.name

def fileLabelsJson : FileLabels → Json := fileMapJson labelJson

end LiveTest.Wire
