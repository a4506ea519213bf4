import LiveTest.Config.Settings
import LiveTest.Editor.Script
import LiveTest.Sha256
/-!
What is shown, as commands for the editor: statuses and labels of lines, lists of places, and the
details behind a label.
-/

namespace LiveTest.Commands

open Piece (fixed embedded)

/-- The line of the label that keeps the column of labels open while the others change. -/
def sentinelLine : Int := -1

/-- The buffer that details are shown in. -/
def detailsBuffer : String := "*kiwi-notification*"

/-- Declare an option and its highlighter unless they exist. -/
def declareOption (option : String) : Script :=
  [fixed ("eval %sh\x7b [ -z \"$kak_opt_" ++ option ++
    "\" ] && echo \"declare-option line-specs " ++ option ++
    "; add-highlighter global/ flag-lines Default " ++ option ++ "\" \x7d\n")]

/-- Declare what all other commands use. -/
def start : Script :=
  declareOption "kiwi_line_statuses" ++ declareOption "kiwi_line_notifications"

/-- Run a command now and whenever a file is opened. -/
def refresh (command group : String) : Script :=
  [fixed ("remove-hooks global " ++ group ++ "\n" ++ command ++ "\nhook -group " ++ group ++
    " global BufOpenFile .* " ++ command)]

/-- The spec of a line's status. -/
def statusSpec (line : Nat) (status : LineStatus) : String :=
  " \"" ++ toString line ++ "|\x7b%opt\x7bkiwi_color_" ++ status.name ++
    "\x7d\x7d%opt\x7bkiwi_status_chars\x7d\""

/-- Set the statuses of a file. -/
def fileStatuses (file : Path) (lines : LineStatuses) : Script :=
  [fixed "    try %\x7b set-option ", embedded (Quoting.doubleQuoted ("buffer=" ++ file.text)),
    fixed " kiwi_line_statuses %val\x7btimestamp\x7d"] ++
  lines.entries.map (fun e => fixed (statusSpec e.1 e.2)) ++
  [fixed " \x7d\n"]

def declareColor (colors : Colors) (status : LineStatus) : Script :=
  [fixed ("    declare-option str kiwi_color_" ++ status.name ++ " "),
    embedded (Quoting.doubleQuoted (colors.ofStatus status)), fixed "\n"]

/-- Set the statuses of the files.  A file without lines is cleared. -/
def statuses (files : FileStatuses) (settings : EditorSettings) : Script :=
  [fixed "define-command -hidden -override kiwi_line_statuses %\x7b\n",
    fixed "    declare-option str kiwi_status_chars ",
    embedded (Quoting.doubleQuoted settings.statusChars), fixed "\n"] ++
  LineStatus.all.flatMap (declareColor settings.colors) ++
  files.entries.flatMap (fun e => fileStatuses e.1 e.2) ++
  [fixed "\x7d\n"] ++ refresh "kiwi_line_statuses" "kiwi-line-statuses-group"

/-- The spec of a label. -/
def labelSpec (width : Nat) (line : Int) (label : Label) : Script :=
  [fixed (" \"" ++ toString line ++ "||\x7bDefault\x7d \x7b%opt\x7bkiwi_color_" ++
      label.severity.name ++ "_notification\x7d\x7d"),
    embedded (Quoting.lineSpecText (Text.fit width label.text)), fixed "\""]

/-- The label that keeps the column open. -/
def sentinelLabel : Label := ⟨" ", .normal⟩

def sentinelSpec (width : Nat) (lines : LineLabels) : Script :=
  if lines.isEmpty then [] else labelSpec width sentinelLine sentinelLabel

/-- Set the labels of a file. -/
def fileLabels (width : Nat) (file : Path) (lines : LineLabels) : Script :=
  [fixed "    try %| set-option ",
    embedded (Quoting.barred (Quoting.doubleQuoted ("buffer=" ++ file.text))),
    fixed " kiwi_line_notifications %val\x7btimestamp\x7d"] ++
  lines.entries.flatMap (fun e => labelSpec width e.1 e.2) ++
  sentinelSpec width lines ++ [fixed " |\n"]

def declareLabelColor (colors : Colors) (severity : Severity) : Script :=
  [fixed ("declare-option str kiwi_color_" ++ severity.name ++ "_notification "),
    embedded (Quoting.doubleQuoted (colors.ofSeverity severity)), fixed "\n"]

/-- Set the labels of the files.  A file without labels is cleared. -/
def labels (files : FileLabels) (settings : EditorSettings) : Script :=
  [Severity.normal, .error].flatMap (declareLabelColor settings.colors) ++
  [fixed "define-command -hidden -override kiwi_line_notifications %\x7b\n"] ++
  files.entries.flatMap (fun e => fileLabels settings.labelWidth e.1 e.2) ++
  [fixed "\x7d\n"] ++ refresh "kiwi_line_notifications" "kiwi-line-notifications-group"

/-- A place as a line of a list file, or as several if its message has several. -/
def locationText (l : Location) : String := placeKey l.file l.line ++ ": " ++ l.message

/-- The text of a list file. -/
def listText (locations : List Location) : String :=
  Text.join "\n" (locations.map locationText)

/-- The number of lines that a place's message takes. -/
def messageLines (l : Location) : Nat := (Text.splitAll '\n' l.message.toList).length

/-- The first and the last line of each place in the list file, the first of which is `next`. -/
def lineRanges (next : Nat) : List Location → List (Location × Nat × Nat)
  | [] => []
  | l :: rest => (l, next, next + messageLines l - 1) :: lineRanges (next + messageLines l) rest

/-- A range of lines as a selection of the editor. -/
def selectionText (first last : Nat) : String :=
  toString first ++ ".1," ++ toString last ++ ".999"

/-- The selections of the places with the same file and line. -/
def selections (locations : List Location) : SortedMap String (List String) :=
  (lineRanges 1 locations).foldl
    (fun m r => m.upsert (placeKey r.1.file r.1.line) fun old =>
      old.getD [] ++ [selectionText r.2.1 r.2.2])
    .empty

/-- Select the entries of the line that the cursor was on. -/
def selectionCases (locations : List Location) : Script :=
  [fixed ("    eval %sh\x7b\n        case " ++
    "\"$kak_opt_kiwi_prev_buffile:$kak_opt_kiwi_prev_cursor_line\" in\n")] ++
  (selections locations).entries.flatMap (fun e =>
    [fixed "            ", embedded (Quoting.shellQuoted e.1),
      fixed (") echo \"select " ++ Text.join " " e.2 ++ "\";;\n")]) ++
  [fixed "        esac\n    \x7d\n"]

/-- A list's name as part of a command's name. -/
def commandName (name : String) : String :=
  Text.substitute (fun c => if c = '_' then ['-'] else [c]) name

/-- Define the command that opens a list. -/
def openList (name : String) (listPath : Path) (locations : List Location)
    (selectCurrentLine : Bool) : Script :=
  [fixed ("define-command -override kiwi-list-" ++ commandName name ++ " %\x7b\n"),
    fixed ("    declare-option str kiwi_prev_buffile %val\x7bbuffile\x7d\n" ++
      "    declare-option str kiwi_prev_cursor_line %val\x7bcursor_line\x7d\n" ++
      "    edit! -readonly -existing "),
    embedded (Quoting.doubleQuoted listPath.text),
    fixed "\n    set-option buffer filetype grep\n"] ++
  (if selectCurrentLine && !locations.isEmpty then selectionCases locations else []) ++
  [fixed "\x7d"]

/-- The name under which the details of a line are found. -/
def detailsHash (file : Path) (line : Nat) : String := Sha256.hash (placeKey file line)

/-- The file that holds the details of a line. -/
def detailsPath (tempDir : Path) (file : Path) (line : Nat) : Path :=
  tempDir.join ⟨"notification_" ++ detailsHash file line ++ ".json"⟩

/-- Open the details of a line in a scratch buffer. -/
def detailsCase (tempDir : Path) (n : Notification) : Script :=
  let path := (detailsPath tempDir n.file n.line).text
  [fixed ("            \"" ++ detailsHash n.file n.line ++
      "  -\") echo \"try %\x7b delete-buffer! " ++ detailsBuffer ++
      " \x7d; edit! -existing %\x7b"),
    embedded path,
    fixed ("\x7d; rename-buffer -scratch " ++ detailsBuffer ++ "; try %\x7b delete-buffer! %\x7b"),
    embedded path, fixed "\x7d \x7d\";;\n"]

def detailsCases (tempDir : Path) (notifications : List Notification) : Script :=
  [fixed ("    eval %sh\x7b\n        case " ++
    "$(printf %s \"$kak_buffile:$kak_cursor_line\" | sha256sum) in\n")] ++
  notifications.flatMap (detailsCase tempDir) ++ [fixed "        esac\n    \x7d\n"]

/-- Define the command that opens the details of the line that the cursor is on. -/
def openDetails (tempDir : Path) (notifications : List Notification) : Script :=
  [fixed "define-command -override kiwi-open-notification %\x7b\n"] ++
  (if notifications.isEmpty then [] else detailsCases tempDir notifications) ++ [fixed "\x7d"]

/-- Go to a line of a file. -/
def jump (file : Path) (line : Nat) : Script :=
  [fixed "edit! -existing ", embedded (Quoting.doubleQuoted file.text),
    fixed (" " ++ toString line)]

end LiveTest.Commands
