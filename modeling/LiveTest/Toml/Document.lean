import LiveTest.Toml.Scalar
/-!
Reading TOML documents.  Every reader takes a text and gives what it read and the rest; none means
that the text is no TOML, whatever the reason.
-/

namespace LiveTest.Toml

abbrev Scan (α : Type) := List Char → Option (α × List Char)

def isBlank (c : Char) : Bool := c = ' ' || c = '\t'

def skipBlanks (cs : List Char) : List Char := cs.dropWhile isBlank

/-- Control characters other than the tab stand nowhere but in ends of lines. -/
def isControl (c : Char) : Bool := (c.toNat < 0x20 && c ≠ '\t') || c.toNat = 0x7F

/-- The rest after the end of a line; the end of the text ends a line too. -/
def endOfLine? : List Char → Option (List Char)
  | [] => some []
  | '\n' :: rest => some rest
  | '\r' :: '\n' :: rest => some rest
  | _ => none

/-- The rest after a comment, if there is one. -/
def skipComment (cs : List Char) : List Char :=
  match cs with
  | '#' :: rest => rest.dropWhile fun c => !isControl c
  | _ => cs

/-- The rest after blanks, an optional comment and the end of the line. -/
def finishLine? (cs : List Char) : Option (List Char) := endOfLine? (skipComment (skipBlanks cs))

/-- Skip blanks, comments and ends of lines, as between the items of an array.  A comment must be
followed by the end of its line. -/
def skipSpace : Nat → List Char → List Char
  | 0, cs => cs
  | fuel + 1, cs =>
    match skipBlanks cs with
    | [] => []
    | c :: rest =>
      if c = '#' || c = '\n' || c = '\r' then
        match endOfLine? (skipComment (c :: rest)) with
        | some rest => skipSpace fuel rest
        | none => c :: rest
      else c :: rest

/-- The character of a code point, which must not be a surrogate. -/
def charOf? (n : Nat) : Option Char := if n.isValidChar then some (Char.ofNat n) else none

/-- The character that `count` hexadecimal digits name. -/
def hexEscape? (count : Nat) : Scan Char := fun cs =>
  let ds := cs.take count
  if ds.length = count && ds.all isHexDigit then
    (charOf? (inBase 16 ds)).map fun c => (c, cs.drop count)
  else none

/-- What follows a backslash. -/
def escape? : Scan Char
  | [] => none
  | c :: rest =>
    if c = 'b' then some ('\x08', rest)
    else if c = 't' then some ('\t', rest)
    else if c = 'n' then some ('\n', rest)
    else if c = 'f' then some ('\x0c', rest)
    else if c = 'r' then some ('\r', rest)
    else if c = 'e' then some ('\x1b', rest)
    else if c = '"' then some ('"', rest)
    else if c = '\\' then some ('\\', rest)
    else if c = 'x' then hexEscape? 2 rest
    else if c = 'u' then hexEscape? 4 rest
    else if c = 'U' then hexEscape? 8 rest
    else none

/-- A string from after its opening quote, with escapes. -/
def basicText : Nat → Scan (List Char)
  | 0, _ => none
  | _, [] => none
  | fuel + 1, c :: rest =>
    if c = '"' then some ([], rest)
    else if c = '\\' then do
      let (d, rest) ← escape? rest
      let (ds, rest) ← basicText fuel rest
      return (d :: ds, rest)
    else if isControl c then none
    else (basicText fuel rest).map fun (ds, rest) => (c :: ds, rest)

/-- A string from after its opening quote, without escapes. -/
def literalText : Scan (List Char)
  | [] => none
  | c :: rest =>
    if c = '\x27' then some ([], rest)
    else if isControl c then none
    else (literalText rest).map fun (ds, rest) => (c :: ds, rest)

/-- Skip blanks and ends of lines. -/
def skipBlankLines : List Char → List Char
  | '\n' :: rest => skipBlankLines rest
  | '\r' :: '\n' :: rest => skipBlankLines rest
  | c :: rest => if isBlank c then skipBlankLines rest else c :: rest
  | [] => []

/-- The rest after a backslash at the end of a line: blanks and ends of lines are skipped. -/
def afterLineEnd? (cs : List Char) : Option (List Char) :=
  match skipBlanks cs with
  | '\n' :: rest | '\r' :: '\n' :: rest => some (skipBlankLines rest)
  | _ => none

/-- A string over several lines from after its opening quotes.  Three quotes end it; one or two
more right before them belong to it.  Ends of lines stay as they are. -/
def multilineText (quote : Char) : Nat → Scan (List Char)
  | 0, _ => none
  | _, [] => none
  | fuel + 1, c :: rest =>
    if c = quote then
      let more := (rest.takeWhile (· = quote)).length
      if 2 ≤ more then
        let own := min (more - 2) 2
        some (List.replicate own quote, rest.drop (2 + own))
      else (multilineText quote fuel rest).map fun (ds, rest) => (c :: ds, rest)
    else if c = '\\' ∧ quote = '"' then
      match afterLineEnd? rest with
      | some rest => multilineText quote fuel rest
      | none => do
        let (d, rest) ← escape? rest
        let (ds, rest) ← multilineText quote fuel rest
        return (d :: ds, rest)
    else if c = '\n' then (multilineText quote fuel rest).map fun (ds, rest) => ('\n' :: ds, rest)
    else if c = '\r' then
      match rest with
      | '\n' :: rest =>
        (multilineText quote fuel rest).map fun (ds, rest) => ('\r' :: '\n' :: ds, rest)
      | _ => none
    else if isControl c then none
    else (multilineText quote fuel rest).map fun (ds, rest) => (c :: ds, rest)

/-- A newline right after the opening quotes does not belong to a string over several lines. -/
def dropFirstNewline (cs : List Char) : List Char :=
  match cs with
  | '\n' :: rest => rest
  | '\r' :: '\n' :: rest => rest
  | _ => cs

/-- A string of any form. -/
def string? (multiline : Bool) (cs : List Char) : Option (String × List Char) :=
  let found : Option (List Char × List Char) :=
    match cs with
    | '"' :: '"' :: '"' :: rest =>
      if multiline then multilineText '"' (rest.length + 1) (dropFirstNewline rest)
      else some ([], '"' :: rest)
    | '\x27' :: '\x27' :: '\x27' :: rest =>
      if multiline then multilineText '\x27' (rest.length + 1) (dropFirstNewline rest)
      else some ([], '\x27' :: rest)
    | '"' :: rest => basicText (rest.length + 1) rest
    | '\x27' :: rest => literalText rest
    | _ => none
  found.map fun (ds, rest) => (String.ofList ds, rest)

def isBareKeyChar (c : Char) : Bool := c.isAlphanum || c = '_' || c = '-'

def simpleKey? : Scan String := fun cs =>
  match cs.takeWhile isBareKeyChar with
  | [] => string? false cs
  | ds => some (String.ofList ds, cs.dropWhile isBareKeyChar)

/-- How many keys a dotted key may have, and how deep arrays and inline tables may nest. -/
def nestingLimit : Nat := 80

/-- At most `room` keys with points between them, and the blanks after the last one. -/
def keysWithin? : Nat → Scan (List String)
  | 0, _ => none
  | room + 1, cs => do
    let (key, rest) ← simpleKey? (skipBlanks cs)
    match skipBlanks rest with
    | '.' :: rest =>
      let (keys, rest) ← keysWithin? room rest
      return (key :: keys, rest)
    | rest => return ([key], rest)

/-- A key, dotted or not. -/
def dottedKey? : Scan (List String) := keysWithin? nestingLimit

def isWordChar (c : Char) : Bool :=
  c.isAlphanum || c = '_' || c = '+' || c = '-' || c = ':' || c = '.'

/-- A date may be followed by a blank and a time. -/
def wordEnd (cs : List Char) : Nat :=
  let n := (cs.takeWhile isWordChar).length
  match cs.drop n with
  | ' ' :: d :: _ =>
    if n = 10 && (date? (cs.take 10)).isSome && Double.isDigit d then
      11 + ((cs.drop 11).takeWhile isWordChar).length
    else n
  | _ => n

mutual

/-- A value of any kind that nests `room` deep at most. -/
def value? : Nat → Nat → Scan TomlValue
  | 0, _, _ => none
  | fuel + 1, room, cs =>
    match cs with
    | '"' :: _ | '\x27' :: _ => (string? true cs).map fun (s, rest) => (.text s, rest)
    | '[' :: rest =>
      if room = 0 then none
      else (items? fuel (room - 1) rest).map fun (vs, rest) => (.array vs, rest)
    | '\x7b' :: rest =>
      if room = 0 then none
      else (members? fuel (room - 1) [] rest).map fun (entries, rest) =>
        (.table (entriesToValues entries), rest)
    | _ => (scalar? (cs.take (wordEnd cs))).map fun v => (v, cs.drop (wordEnd cs))

/-- The items of an array from after its bracket, or from after a comma. -/
def items? : Nat → Nat → Scan (List TomlValue)
  | 0, _, _ => none
  | fuel + 1, room, cs =>
    match skipSpace (cs.length + 1) cs with
    | ']' :: rest => some ([], rest)
    | cs => do
      let (v, rest) ← value? fuel room cs
      match skipSpace (rest.length + 1) rest with
      | ']' :: rest => return ([v], rest)
      | ',' :: rest =>
        let (vs, rest) ← items? fuel room rest
        return (v :: vs, rest)
      | _ => none

/-- The members of an inline table from after its brace, or from after a comma. -/
def members? : Nat → Nat → Entries → Scan Entries
  | 0, _, _, _ => none
  | fuel + 1, room, entries, cs =>
    match skipSpace (cs.length + 1) cs with
    | '\x7d' :: rest => some (entries, rest)
    | cs => do
      let (keys, rest) ← dottedKey? cs
      match rest with
      | '=' :: rest =>
        let (v, rest) ← value? fuel room (skipBlanks rest)
        let entries ← addValue v keys entries
        match skipSpace (rest.length + 1) rest with
        | '\x7d' :: rest => return (entries, rest)
        | ',' :: rest => members? fuel room entries rest
        | _ => none
      | _ => none

end

/-- A document while it is read: its root table and the path of the current header. -/
structure Reading where
  root : Entries
  header : List String

/-- The header of a table from after its bracket. -/
def tableHeader? (r : Reading) (cs : List Char) : Option (Reading × List Char) := do
  let (keys, rest) ← dottedKey? cs
  match rest with
  | ']' :: rest =>
    let root ← atHeader (openTable (keys.getLastD "")) keys.dropLast r.root
    return (⟨root, keys⟩, rest)
  | _ => none

/-- The header of an array's table from after its brackets. -/
def elementHeader? (r : Reading) (cs : List Char) : Option (Reading × List Char) := do
  let (keys, rest) ← dottedKey? cs
  match rest with
  | ']' :: ']' :: rest =>
    let root ← atHeader (openElement (keys.getLastD "")) keys.dropLast r.root
    return (⟨root, keys⟩, rest)
  | _ => none

/-- A key and its value. -/
def assignment? (r : Reading) (cs : List Char) : Option (Reading × List Char) := do
  let (keys, rest) ← dottedKey? cs
  match rest with
  | '=' :: rest =>
    let rest := skipBlanks rest
    let (v, rest) ← value? (2 * rest.length + 2) nestingLimit rest
    let root ← atHeader (addValue v keys) r.header r.root
    return ({ r with root := root }, rest)
  | _ => none

/-- What stands on a line, if anything does. -/
def expression? (r : Reading) (cs : List Char) : Option (Reading × List Char) :=
  match cs with
  | '[' :: '[' :: rest => elementHeader? r rest
  | '[' :: rest => tableHeader? r rest
  | [] => some (r, [])
  | c :: _ => if c = '#' || c = '\n' || c = '\r' then some (r, cs) else assignment? r cs

/-- Read line by line; every line ends or uses up a character. -/
def lines? : Nat → Reading → List Char → Option Reading
  | 0, _, _ => none
  | _ + 1, r, [] => some r
  | fuel + 1, r, cs => do
    let (r, rest) ← expression? r (skipBlanks cs)
    lines? fuel r (← finishLine? rest)

/-- A text without a byte order mark at its start. -/
def dropMark (cs : List Char) : List Char :=
  match cs with
  | c :: rest => if c.toNat = 0xFEFF then rest else cs
  | [] => []

/-- The root table of a document. -/
def parse (s : String) : Option (List (String × TomlValue)) :=
  let cs := dropMark s.toList
  (lines? (cs.length + 1) ⟨[], []⟩ cs).map fun r => entriesToValues r.root

end LiveTest.Toml
