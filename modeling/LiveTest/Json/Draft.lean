import LiveTest.Json.Number
import LiveTest.Text
/-!
A JSON text as far as it can be read.  A draft holds the values of the text in their order, and
each fault at the place where it stands, so that whoever looks for something particular meets a
wrong value and a fault of the text in the order of the text.
-/

namespace LiveTest

/-- How a list of items or members ends. -/
inductive Close
  /-- By its closing bracket. -/
  | closed
  /-- By a fault, which may come after a comma. -/
  | broken (fault : Fault) (afterComma : Bool)
deriving DecidableEq, Inhabited

/-- The name of a member: its text, or the fault of its first unpaired surrogate; `source` is the
text from the character after the opening quote on. -/
structure Draft.Name where
  text : Except Fault String
  source : List Char

inductive Draft
  | null
  | bool (b : Bool)
  /-- A number, or none if it is out of range. -/
  | number (n : Option JsonNumber)
  /-- A string, or the fault of its first unpaired surrogate. -/
  | text (s : Except Fault String)
  | list (items : List Draft) (close : Close)
  | record (members : List (Draft.Name × Draft)) (close : Close)
  /-- A number starts here and goes wrong. -/
  | brokenNumber (fault : Fault)
  /-- What stands here is no value. -/
  | broken (fault : Fault)
  /-- The text ends before the value. -/
  | absent
deriving Inhabited

namespace Draft

/-- The blanks of JSON. -/
def isBlank (c : Char) : Bool := c = ' ' || c = '\n' || c = '\t' || c = '\r'

def skipBlanks (cs : List Char) : List Char := cs.dropWhile isBlank

def hexValue? (c : Char) : Option Nat :=
  if '0' ≤ c && c ≤ '9' then some (c.toNat - '0'.toNat)
  else if 'a' ≤ c && c ≤ 'f' then some (c.toNat - 'a'.toNat + 10)
  else if 'A' ≤ c && c ≤ 'F' then some (c.toNat - 'A'.toNat + 10)
  else none

/-- The four hexadecimal digits at the start of a text.  Fewer than four bytes are too few. -/
def hexFour (cs : List Char) : Except Fault Nat :=
  match cs.take 4 with
  | [a, b, c, d] =>
    match hexValue? a, hexValue? b, hexValue? c, hexValue? d with
    | some a, some b, some c, some d => .ok (((a * 16 + b) * 16 + c) * 16 + d)
    | _, _, _, _ => .error .malformed
  | few => .error (if Text.byteCount few < 4 then .truncated else .malformed)

/-- The character that a backslash and `c` stand for. -/
def escape? (c : Char) : Option Char :=
  if c = '"' ∨ c = '\\' ∨ c = '/' then some c
  else if c = 'b' then some '\x08'
  else if c = 'f' then some '\x0c'
  else if c = 'n' then some '\n'
  else if c = 'r' then some '\r'
  else if c = 't' then some '\t'
  else none

def isHighSurrogate (n : Nat) : Bool := 0xD800 ≤ n && n ≤ 0xDBFF

def isLowSurrogate (n : Nat) : Bool := 0xDC00 ≤ n && n ≤ 0xDFFF

/-- The low surrogate that has to follow a high one. -/
def lowSurrogate (cs : List Char) : Except Fault Nat :=
  match cs with
  | [] => .error .truncated
  | '\\' :: [] => .error .truncated
  | '\\' :: 'u' :: rest =>
    (hexFour rest).bind fun n => if isLowSurrogate n then .ok n else .error .malformed
  | _ => .error .malformed

/-- Read a string from after its opening quote: its text, and what follows its closing quote. -/
def scanText (cs : List Char) : Except Fault (List Char) × Except Fault (List Char) :=
  match cs with
  | [] => (.error .truncated, .error .truncated)
  | c :: rest =>
    if c = '"' then (.ok [], .ok rest)
    else if c = '\\' then
      match rest with
      | [] => (.error .truncated, .error .truncated)
      | e :: rest =>
        if e = 'u' then
          match hexFour rest with
          | .error f => (.error f, .error f)
          | .ok n =>
            if isLowSurrogate n then (.error .malformed, (scanText (rest.drop 4)).2)
            else if isHighSurrogate n then
              match lowSurrogate (rest.drop 4) with
              | .error f => (.error f, (scanText (rest.drop 4)).2)
              | .ok low =>
                let c := Char.ofNat (0x10000 + (n - 0xD800) * 0x400 + (low - 0xDC00))
                let (value, after) := scanText ((rest.drop 4).drop 6)
                (value.map (c :: ·), after)
            else
              let (value, after) := scanText (rest.drop 4)
              (value.map (Char.ofNat n :: ·), after)
        else match escape? e with
          | none => (.error .malformed, .error .malformed)
          | some c =>
            let (value, after) := scanText rest
            (value.map (c :: ·), after)
    else if c.toNat < 0x20 then (.error .malformed, .error .malformed)
    else
      let (value, after) := scanText rest
      (value.map (c :: ·), after)
termination_by cs.length
decreasing_by all_goals simp_wf <;> omega

/-- The rest of a word such as `null` after its first letter. -/
def expectWord : List Char → List Char → Except Fault (List Char)
  | [], cs => .ok cs
  | _ :: _, [] => .error .truncated
  | w :: ws, c :: cs => if w = c then expectWord ws cs else .error .malformed

/-- A word that stands for a value. -/
def word (value : Draft) (letters cs : List Char) : Draft × Except Fault (List Char) :=
  match expectWord letters cs with
  | .ok rest => (value, .ok rest)
  | .error f => (.broken f, .error f)

mutual

/-- The value at the start of a text, and what follows it or the fault that ends the reading.
Every call reads a character or ends, so that a fuel of a few times the length is enough. -/
def readValue : Nat → List Char → Draft × Except Fault (List Char)
  | 0, _ => (.broken .malformed, .error .malformed)
  | fuel + 1, cs =>
    match skipBlanks cs with
    | [] => (.absent, .error .truncated)
    | c :: rest =>
      if c = 'n' then word .null ['u', 'l', 'l'] rest
      else if c = 't' then word (.bool true) ['r', 'u', 'e'] rest
      else if c = 'f' then word (.bool false) ['a', 'l', 's', 'e'] rest
      else if c = '"' then
        let (value, after) := scanText rest
        (.text (value.map String.ofList), after)
      else if c = '[' then
        let (items, close, after) := readItems fuel rest true
        (.list items close, after)
      else if c = '\x7b' then
        let (members, close, after) := readMembers fuel rest true
        (.record members close, after)
      else if c = '-' || Json.isDigit c then
        match Json.readNumber (c :: rest) with
        | .ok (n, rest) => (.number n, .ok rest)
        | .error f => (.brokenNumber f, .error f)
      else (.broken .malformed, .error .malformed)

/-- The items of a list from after its opening bracket, or from after an item. -/
def readItems : Nat → List Char → Bool → List Draft × Close × Except Fault (List Char)
  | 0, _, _ => ([], .broken .malformed false, .error .malformed)
  | fuel + 1, cs, first =>
    match skipBlanks cs with
    | [] => ([], .broken .truncated false, .error .truncated)
    | c :: rest =>
      if c = ']' then ([], .closed, .ok rest)
      else if first then readItem fuel (c :: rest)
      else if c = ',' then
        match skipBlanks rest with
        | [] => ([], .broken .truncated true, .error .truncated)
        | d :: rest =>
          if d = ']' then ([], .broken .malformed true, .error .malformed)
          else readItem fuel (d :: rest)
      else ([], .broken .malformed false, .error .malformed)

/-- One item of a list and those after it. -/
def readItem : Nat → List Char → List Draft × Close × Except Fault (List Char)
  | 0, _ => ([], .broken .malformed false, .error .malformed)
  | fuel + 1, cs =>
    match readValue fuel cs with
    | (item, .error f) => ([item], .broken f false, .error f)
    | (item, .ok rest) =>
      let (items, close, after) := readItems fuel rest false
      (item :: items, close, after)

/-- The members of an object from after its opening brace, or from after a member. -/
def readMembers : Nat → List Char → Bool → List (Name × Draft) × Close × Except Fault (List Char)
  | 0, _, _ => ([], .broken .malformed false, .error .malformed)
  | fuel + 1, cs, first =>
    match skipBlanks cs with
    | [] => ([], .broken .truncated false, .error .truncated)
    | c :: rest =>
      if c = '\x7d' then ([], .closed, .ok rest)
      else if first then
        if c = '"' then readMember fuel rest
        else ([], .broken .malformed false, .error .malformed)
      else if c = ',' then
        match skipBlanks rest with
        | [] => ([], .broken .truncated true, .error .truncated)
        | d :: rest =>
          if d = '"' then readMember fuel rest
          else ([], .broken .malformed true, .error .malformed)
      else ([], .broken .malformed false, .error .malformed)

/-- One member of an object, from after the opening quote of its name, and those after it. -/
def readMember : Nat → List Char → List (Name × Draft) × Close × Except Fault (List Char)
  | 0, _ => ([], .broken .malformed false, .error .malformed)
  | fuel + 1, cs =>
    let (value, after) := scanText cs
    let name : Name := ⟨value.map String.ofList, cs⟩
    match after with
    | .error f => ([(name, .broken f)], .broken f false, .error f)
    | .ok rest =>
      match skipBlanks rest with
      | [] => ([(name, .absent)], .broken .truncated false, .error .truncated)
      | c :: rest =>
        if c = ':' then
          match readValue fuel rest with
          | (value, .error f) => ([(name, value)], .broken f false, .error f)
          | (value, .ok rest) =>
            let (members, close, after) := readMembers fuel rest false
            ((name, value) :: members, close, after)
        else ([(name, .broken .malformed)], .broken .malformed false, .error .malformed)

end

/-- The draft of a whole text, and the fault of what follows the value. -/
def ofChars (cs : List Char) : Draft × Except Fault Unit :=
  match readValue (4 * cs.length + 4) cs with
  | (draft, .error f) => (draft, .error f)
  | (draft, .ok rest) => (draft, if skipBlanks rest = [] then .ok () else .error .malformed)

/-- Lists and objects nest less deep than this. -/
def depthLimit : Nat := 128

mutual

/-- The value of a draft without faults that nests less than `depth` deep. -/
def toJson (depth : Nat) : Draft → Except Fault Json
  | .null => .ok .null
  | .bool b => .ok (.bool b)
  | .number none => .error .malformed
  | .number (some n) => .ok (.number n)
  | .text s => s.map Json.text
  | .list items close =>
    if depth ≤ 1 then .error .malformed
    else (itemsToJson (depth - 1) close items).map Json.array
  | .record members close =>
    if depth ≤ 1 then .error .malformed
    else (membersToJson (depth - 1) close members).map Json.ofMembers
  | .brokenNumber f => .error f
  | .broken f => .error f
  | .absent => .error .truncated

def itemsToJson (depth : Nat) (close : Close) : List Draft → Except Fault (List Json)
  | [] => match close with
    | .closed => .ok []
    | .broken f _ => .error f
  | item :: rest =>
    (toJson depth item).bind fun v => (itemsToJson depth close rest).map (v :: ·)

def membersToJson (depth : Nat) (close : Close) :
    List (Name × Draft) → Except Fault (List (String × Json))
  | [] => match close with
    | .closed => .ok []
    | .broken f _ => .error f
  | (name, value) :: rest =>
    name.text.bind fun name => (toJson depth value).bind fun v =>
      (membersToJson depth close rest).map ((name, v) :: ·)

end

end Draft

/-- Read a JSON text. -/
def Json.parse (s : String) : Except Fault Json :=
  match Draft.ofChars s.toList with
  | (draft, .ok ()) => draft.toJson Draft.depthLimit
  | (draft, .error f) => (draft.toJson Draft.depthLimit).bind fun _ => .error f

end LiveTest
