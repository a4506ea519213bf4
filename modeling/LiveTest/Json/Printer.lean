import LiveTest.Decimal.Shortest
import LiveTest.Json.Basic
/-!
JSON values as text, on one line or indented.  Only quotes, backslashes and control characters
are escaped.
-/

namespace LiveTest.Json

/-- Doubles have the shortest digits that read back, a point and a zero where they are whole, and
an exponent outside of `1e-5` to `1e15`. -/
def numberStyle : Double.Style where
  tiesUp := false
  positional e := -5 ≤ e ∧ e ≤ 15
  plusSign := true
  pointZero := true

def numberText : JsonNumber → List Char
  | .int n => (toString n).toList
  | .float x => (numberStyle.render x).toList

/-- A hexadecimal digit. -/
def hexDigit (n : Nat) : Char := Nat.digitChar n

/-- How a character stands inside a string. -/
def escapedChar (c : Char) : List Char :=
  if c = '"' then ['\\', '"']
  else if c = '\\' then ['\\', '\\']
  else if c = '\n' then ['\\', 'n']
  else if c = '\r' then ['\\', 'r']
  else if c = '\t' then ['\\', 't']
  else if c.toNat = 8 then ['\\', 'b']
  else if c.toNat = 12 then ['\\', 'f']
  else if c.toNat < 32 then ['\\', 'u', '0', '0', hexDigit (c.toNat / 16), hexDigit (c.toNat % 16)]
  else [c]

/-- A string with its quotes. -/
def stringText (s : String) : List Char := '"' :: (s.toList.flatMap escapedChar ++ ['"'])

mutual

/-- The text on one line without blanks. -/
def compact : Json → List Char
  | .null => ['n', 'u', 'l', 'l']
  | .bool true => ['t', 'r', 'u', 'e']
  | .bool false => ['f', 'a', 'l', 's', 'e']
  | .number n => numberText n
  | .text s => stringText s
  | .array items => '[' :: (compactItems items ++ [']'])
  | .object members => '\x7b' :: (compactMembers members ++ ['\x7d'])

def compactItems : List Json → List Char
  | [] => []
  | [v] => compact v
  | v :: rest => compact v ++ ',' :: compactItems rest

def compactMembers : List (String × Json) → List Char
  | [] => []
  | [(name, v)] => stringText name ++ ':' :: compact v
  | (name, v) :: rest => stringText name ++ ':' :: (compact v ++ ',' :: compactMembers rest)

end

/-- A new line at an indentation of two blanks per level. -/
def newLine (level : Nat) : List Char := '\n' :: List.replicate (2 * level) ' '

mutual

/-- The text with one item or member a line, `level` being the indentation of the value. -/
def indented (level : Nat) : Json → List Char
  | .array [] => ['[', ']']
  | .array items => '[' :: (indentedItems (level + 1) items ++ newLine level ++ [']'])
  | .object [] => ['\x7b', '\x7d']
  | .object members => '\x7b' :: (indentedMembers (level + 1) members ++ newLine level ++ ['\x7d'])
  | .null => ['n', 'u', 'l', 'l']
  | .bool true => ['t', 'r', 'u', 'e']
  | .bool false => ['f', 'a', 'l', 's', 'e']
  | .number n => numberText n
  | .text s => stringText s

def indentedItems (level : Nat) : List Json → List Char
  | [] => []
  | [v] => newLine level ++ indented level v
  | v :: rest => newLine level ++ indented level v ++ ',' :: indentedItems level rest

def indentedMembers (level : Nat) : List (String × Json) → List Char
  | [] => []
  | [(name, v)] => newLine level ++ stringText name ++ ':' :: ' ' :: indented level v
  | (name, v) :: rest =>
    newLine level ++ stringText name ++ ':' :: ' ' :: (indented level v ++
      ',' :: indentedMembers level rest)

end

/-- The value on one line. -/
def render (v : Json) : String := String.ofList v.compact

/-- The value over several lines. -/
def pretty (v : Json) : String := String.ofList (v.indented 0)

end LiveTest.Json
