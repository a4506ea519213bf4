import LiveTest.Json.Reader
import LiveTest.Offsets
/-!
Source maps: where the pieces of generated code come from.  A map is a list of tokens, each of
which says that the code from its place on comes from a place in a source.  The tokens are written
as differences between neighbours, in digits of base 64.
-/

namespace LiveTest

/-- A place in a source, with the name that stands there if there is one.  Lines and columns count
from one. -/
structure SourcePlace where
  source : String
  line : Nat
  col : Nat
  name : Option String
deriving DecidableEq

/-- The source that a token points into; all of it counts from zero. -/
structure TokenSource where
  source : Nat
  line : Nat
  col : Nat
  name : Option Nat
deriving DecidableEq

/-- The code from this line and column on, counted from zero, up to the next token. -/
structure SourceToken where
  line : Nat
  col : Nat
  target : Option TokenSource
  /-- The columns after the token count on in the source too. -/
  isRange : Bool
deriving DecidableEq

/-- Where the code of a token starts. -/
def SourceToken.place (t : SourceToken) : Nat × Nat := (t.line, t.col)

structure SourceMap where
  sources : List String
  names : List String
  /-- In the order of their places; tokens of one place in the order of the map. -/
  tokens : List SourceToken
deriving DecidableEq

/-- A text that is not a source map. -/
inductive SourceMapError
  | unreadable
deriving DecidableEq

def SourceMapError.message : SourceMapError → String
  | .unreadable => "failed to parse source map"

/-- A coordinate that has no number of 32 bits. -/
inductive CoordinateOverflow
  | overflow
deriving DecidableEq

namespace SourceMap

/-- The first number of more than 32 bits. -/
def wordLimit : Nat := 0x100000000

/-- The remainder of a number in 32 bits. -/
def wrap (n : Int) : Nat := (n % (wordLimit : Int)).toNat

/-- The value of a digit of base 64. -/
def digit? (c : Char) : Option Nat :=
  if 'A' ≤ c && c ≤ 'Z' then some (c.toNat - 'A'.toNat)
  else if 'a' ≤ c && c ≤ 'z' then some (c.toNat - 'a'.toNat + 26)
  else if '0' ≤ c && c ≤ '9' then some (c.toNat - '0'.toNat + 52)
  else if c = '+' then some 62
  else if c = '/' then some 63
  else none

/-- The digits of a text.  A byte that is no digit counts as the highest one, but the delete
character as the one below. -/
def digits (cs : List Char) : List Nat :=
  cs.flatMap fun c =>
    match digit? c with
    | some d => [d]
    | none => if c.toNat = 0x7F then [62] else List.replicate c.utf8Size 63

/-- A sum of shifted digits as a number of 64 bits with a sign. -/
def signed64 (n : Nat) : Int := Int.bmod n 0x10000000000000000

/-- The number that the bits `n` stand for: the last bit is the sign. -/
def unzigzag (n : Int) : Int := if n % 2 = 0 then n / 2 else -(n / 2)

/-- The numbers of a segment.  Each digit has five bits of a number, the lowest first, and one
that says whether more follow.  None for an unfinished number, one of more than thirteen digits,
or no number at all. -/
def numbersFrom (acc place : Nat) : List Nat → Option (List Int)
  | [] => if place = 0 then some [] else none
  | d :: rest =>
    if 13 ≤ place then none
    else
      let acc := acc + (d % 32) * Nat.pow 32 place
      if 32 ≤ d then numbersFrom acc (place + 1) rest
      else (numbersFrom 0 0 rest).map fun ns => unzigzag (signed64 acc) :: ns

def numbers? (segment : List Char) : Option (List Int) :=
  match numbersFrom 0 0 (digits segment) with
  | some [] => none
  | ns => ns

/-- The marks of the segments of a line: six to a digit, the lowest bit first. -/
def marks? (cs : List Char) : Option (List Bool) :=
  (cs.mapM digit?).map fun ds =>
    ds.flatMap fun d => [1, 2, 4, 8, 16, 32].map fun place => d / place % 2 = 1

/-- The numbers that run on from token to token. -/
structure Running where
  source : Nat
  line : Nat
  col : Nat
  name : Nat

/-- The token of a segment, and the numbers and the column to go on from.  None if it points to a
source or a name that is not there, or has two, three or more than five numbers. -/
def token? (sourceCount nameCount line : Nat) (isRange : Bool) (col : Nat) (r : Running)
    (ns : List Int) : Option (SourceToken × Nat × Running) :=
  match ns with
  | [c] =>
    let col := wrap (col + c)
    some (⟨line, col, none, isRange⟩, col, r)
  | c :: s :: l :: sc :: rest =>
    let col := wrap (col + c)
    let r := { r with
      source := wrap (r.source + s), line := wrap (r.line + l), col := wrap (r.col + sc) }
    if sourceCount ≤ r.source then none
    else match rest with
      | [] => some (⟨line, col, some ⟨r.source, r.line, r.col, none⟩, isRange⟩, col, r)
      | [n] =>
        let r := { r with name := wrap (r.name + n) }
        if nameCount ≤ r.name then none
        else some (⟨line, col, some ⟨r.source, r.line, r.col, some r.name⟩, isRange⟩, col, r)
      | _ => none
  | _ => none

/-- The tokens of the segments of a line. -/
def lineTokens? (sourceCount nameCount line : Nat) :
    List Bool → Nat → Running → List (List Char) → Option (List SourceToken × Running)
  | _, _, r, [] => some ([], r)
  | marks, col, r, segment :: rest =>
    if segment = [] then lineTokens? sourceCount nameCount line marks.tail col r rest
    else do
      let ns ← numbers? segment
      let (token, col, r) ← token? sourceCount nameCount line (marks.headD false) col r ns
      let (tokens, r) ← lineTokens? sourceCount nameCount line marks.tail col r rest
      return (token :: tokens, r)

/-- The tokens of all lines, the first of which is `line`. -/
def allTokens? (sourceCount nameCount : Nat) :
    Nat → Running → List (List Char) → List (List Char) → Option (List SourceToken)
  | _, _, [], _ => some []
  | line, r, text :: rest, marks =>
    if text = [] then allTokens? sourceCount nameCount (line + 1) r rest marks.tail
    else do
      let bits ← marks? (marks.headD [])
      let (tokens, r) ←
        lineTokens? sourceCount nameCount line bits 0 r (Text.splitAll ',' text)
      let later ← allTokens? sourceCount nameCount (line + 1) r rest marks.tail
      return tokens ++ later

/-- The first place is not after the second. -/
def placeLe (a b : Nat × Nat) : Bool := a.1 < b.1 || (a.1 == b.1 && a.2 ≤ b.2)

/-- The tokens that a map writes as `mappings`, in the order of their places. -/
def tokens? (sourceCount nameCount : Nat) (mappings rangeMappings : List Char) :
    Option (List SourceToken) :=
  (allTokens? sourceCount nameCount 0 ⟨0, 0, 0, 0⟩ (Text.splitAll ';' mappings)
    (Text.splitAll ';' rangeMappings)).map fun ts =>
      ts.mergeSort fun a b => placeLe a.place b.place

/-- A character of the line that may stand before a map to keep it from being run as code. -/
def isGuard (c : Char) : Bool := c = ')' || c = ']' || c = '\x7d' || c = '\x27'

/-- What follows the guard line.  A carriage return in it must end it. -/
def afterGuard : List Char → Option (List Char)
  | [] => some []
  | c :: rest =>
    if c = '\n' then some (c :: rest)
    else if c = '\r' then
      match rest with
      | [] => some []
      | d :: _ => if d = '\n' then some rest else none
    else afterGuard rest

def dropGuard (cs : List Char) : Option (List Char) :=
  match cs with
  | [] => some []
  | c :: _ => if isGuard c then afterGuard cs else some cs

def isHex (cs : List Char) : Bool := cs.all fun c => (Draft.hexValue? c).isSome

/-- At least one hexadecimal digit, with an optional plus sign before. -/
def isHexNumber (cs : List Char) : Bool :=
  let ds := match cs with
    | '+' :: ds => ds
    | _ => cs
  isHex ds && ds ≠ []

/-- Hexadecimal digits in five groups. -/
def isGroupedHex (cs : List Char) : Bool :=
  let groups := Text.splitAll '-' cs
  groups.map List.length == [8, 4, 4, 4, 12] && groups.all isHex

/-- An identifier of a build.  A short one is a stamp of eight hexadecimal digits and an age of at
most eight more; a long one is thirty-two digits, alone or with an age, of which eight digits
count and the rest is passed over.  With a hyphen after the eighth digit the thirty-two digits
stand in groups and a hyphen comes before an age; without it there is no hyphen at all. -/
def isDebugId (s : String) : Bool :=
  let cs := s.toList
  let hyphens : Bool := cs[8]? = some '-'
  let age := cs.drop (if hyphens then 9 else 8)
  if cs.any fun c => 0x7F < c.toNat then false
  else if 8 < cs.length && age.length ≤ 8 then isHexNumber (cs.take 8) && isHexNumber age
  else
    let length := if hyphens then 36 else 32
    let body := cs.take length
    let isBody : Bool := if hyphens then isGroupedHex body else body.length == 32 && isHex body
    isBody &&
      match cs.drop length, hyphens with
      | [], _ => true
      | '-' :: age, true => isHexNumber (age.take 8)
      | _ :: _, true => false
      | age, false => isHexNumber (age.take 8)

def debugId : Reader Unit := fun d => do
  let s ← Reader.text d
  if isDebugId s then return () else .error (.fault .malformed)

/-- Nothing but null. -/
def nothing : Reader Unit
  | .null => .ok ()
  | _ => .error (.fault .malformed)

def texts : Reader (Option (List (Option String))) :=
  Reader.optional (Reader.list (Reader.optional Reader.text))

def values : Reader (Option (List Json)) :=
  Reader.optional (Reader.list (Reader.anythingWithin 2))

def someText : Reader (Option String) := Reader.optional Reader.text

open Reader (optionalField) in
def fields : List Reader.Field := [
  optionalField "version" (Reader.optional Reader.nat32),
  optionalField "file" (Reader.optional (Reader.anythingWithin 1)),
  optionalField "sources" texts,
  optionalField "sourceRoot" someText,
  optionalField "sourcesContent" texts,
  optionalField "sections" nothing,
  optionalField "names" values,
  optionalField "rangeMappings" someText,
  optionalField "mappings" someText,
  optionalField "ignoreList" (Reader.optional (Reader.list Reader.nat32)),
  optionalField "x_facebook_offsets"
    (Reader.optional (Reader.list (Reader.optional Reader.nat32))),
  optionalField "x_metro_module_paths" (Reader.optional (Reader.list Reader.text)),
  optionalField "x_facebook_sources" nothing,
  optionalField "debugId" (Reader.optional debugId),
  optionalField "debug_id" (Reader.optional debugId)]

/-- A name is a text or a number; whatever else stands there is an empty name. -/
def nameText : Json → String
  | .text s => s
  | .number n => String.ofList (Json.numberText n)
  | _ => ""

/-- A source as it is found from the root of the sources. -/
def withRoot (root source : String) : String :=
  let starts (start : String) : Bool := start.toList.isPrefixOf source.toList
  if root = "" || starts "/" || starts "http:" || starts "https:" then source
  else
    let cs := root.toList
    let bare := if cs.getLast? = some '/' then cs.dropLast else cs
    String.ofList bare ++ "/" ++ source

/-- A map from an object.  The values of fields that mean nothing must be readable too. -/
def read : Reader SourceMap
  | .record ms close => do
    let readable (d : Draft) : Except Fault Unit :=
      (d.toJson (Draft.depthLimit - 1)).map fun _ => ()
    let fs ← Reader.collectFields readable fields close [] ms
    let sources := ((← fs.get? "sources" texts).join.getD []).map fun s => s.getD ""
    let names := ((← fs.get? "names" values).join.getD []).map nameText
    let mappings := (← fs.get? "mappings" someText).join.getD ""
    let rangeMappings := (← fs.get? "rangeMappings" someText).join.getD ""
    let root := (← fs.get? "sourceRoot" someText).join.getD ""
    match tokens? sources.length names.length mappings.toList rangeMappings.toList with
    | some tokens => return ⟨sources.map (withRoot root), names, tokens⟩
    | none => .error (.fault .malformed)
  | _ => .error (.fault .malformed)

/-- Read a source map. -/
def parse (text : String) : Except SourceMapError SourceMap :=
  match dropGuard text.toList with
  | none => .error .unreadable
  | some cs =>
    match Reader.run read (String.ofList cs) with
    | .ok m => .ok m
    | .error _ => .error .unreadable

/-- The last token before a place, or the first one exactly there. -/
def findToken (place : Nat × Nat) (best : Option SourceToken) :
    List SourceToken → Option SourceToken
  | [] => best
  | t :: rest =>
    if t.place = place then some t
    else if placeLe t.place place then findToken place (some t) rest
    else best

/-- A sum of 32 bits. -/
def sum32 (a b : Nat) : Except CoordinateOverflow Nat :=
  if a + b < wordLimit then .ok (a + b) else .error .overflow

/-- A difference that is not negative. -/
def difference32 (a b : Nat) : Except CoordinateOverflow Nat :=
  if b ≤ a then .ok (a - b) else .error .overflow

/-- Where the code at a line and column, counted from one, comes from.  A line without tokens
belongs to the last token before it. -/
def locate (m : SourceMap) (generated : LineColumn) :
    Except CoordinateOverflow (Option SourcePlace) :=
  if generated.line = 0 then .ok none
  else
    let line := generated.line - 1
    let col := generated.col - 1
    match findToken (line, col) none m.tokens with
    | none => .ok none
    | some token => do
      let distance ← if token.isRange then difference32 col token.col else .ok 0
      match token.target with
      | none => return none
      | some target =>
        let sourceLine ← sum32 target.line 1
        let sourceCol ← sum32 (min (target.col + distance) (wordLimit - 1)) 1
        return (m.sources[target.source]?).map fun source =>
          ⟨source, sourceLine, sourceCol, target.name.bind fun n => m.names[n]?⟩

/-- The map as text: how much there is of it. -/
def text (m : SourceMap) : String :=
  "OriginalMapper \x7b sources: " ++ toString m.sources.length ++ ", tokens: " ++
    toString m.tokens.length ++ " \x7d"

end SourceMap
end LiveTest
