import LiveTest.Text
/-!
Commands for the editor.  A command is delivered inside a single-quoted string, so every text that
is embedded in one has its single quotes doubled.  A script keeps the fixed wording of a command
apart from the embedded texts: `render` is what is delivered, `plain` what the editor then reads.
-/

namespace LiveTest

/-- A piece of a command. -/
inductive Piece
  /-- Wording that is delivered as it stands. -/
  | fixed (text : String)
  /-- A text that is embedded. -/
  | embedded (text : String)

/-- The single quote. -/
def quoteMark : Char := '\x27'

/-- Double the single quotes. -/
def doubleQuoteMark (c : Char) : List Char := if c = quoteMark then [c, c] else [c]

namespace Piece

def plain : Piece → List Char
  | fixed text => text.toList
  | embedded text => text.toList

def render : Piece → List Char
  | fixed text => text.toList
  | embedded text => text.toList.flatMap doubleQuoteMark

end Piece

abbrev Script := List Piece

namespace Script

/-- The command as it is delivered. -/
def render (s : Script) : String := String.ofList (s.flatMap Piece.render)

/-- The command as it is meant, with the embedded texts as they are. -/
def plain (s : Script) : String := String.ofList (s.flatMap Piece.plain)

end Script

namespace Quoting

/-- How a character stands between double quotes of the editor. -/
def inDoubleQuotes (c : Char) : List Char := if c = '"' ∨ c = '%' then [c, c] else [c]

/-- A text as a double-quoted string of the editor. -/
def doubleQuoted (s : String) : String := "\"" ++ Text.substitute inDoubleQuotes s ++ "\""

/-- How a character stands between bars. -/
def inBars (c : Char) : List Char := if c = '|' then [c, c] else [c]

/-- A text as part of a string between bars. -/
def barred (s : String) : String := Text.substitute inBars s

/-- The characters with a meaning between the double quotes of a shell. -/
def isShellSpecial (c : Char) : Bool := c = '\\' || c = '"' || c = '$' || c = '\x60'

def inShellQuotes (c : Char) : List Char := if isShellSpecial c then ['\\', c] else [c]

/-- A text as a double-quoted word of a shell. -/
def shellQuoted (s : String) : String := "\"" ++ Text.substitute inShellQuotes s ++ "\""

/-- How a character stands in the text of a line spec that is double-quoted between bars. -/
def inLineSpec (c : Char) : List Char :=
  if c = '\\' then ['\\', '\\']
  else if c = '"' then ['"', '"']
  else if c = '%' then ['%', '%']
  else if c = '\x7b' then ['\\', c]
  else if c = '|' then ['\\', '|', '|']
  else [c]

/-- A text as the text of a line spec. -/
def lineSpecText (s : String) : String := Text.substitute inLineSpec s

/-- A text as it is delivered as the text of a line spec. -/
def escapeLineSpec (s : String) : String := Script.render [.embedded (lineSpecText s)]

end Quoting
end LiveTest
