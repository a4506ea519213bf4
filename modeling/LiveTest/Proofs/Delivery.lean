import LiveTest.Editor.Sessions
import LiveTest.Proofs.CommandTexts
import LiveTest.Proofs.QuoteRuns
/-!
How commands are delivered.  A command is sent inside a string in single quotes.  The wording of
all commands is free of single quotes, and every text that a command embeds has them doubled, so
that the editor reads the command as it is meant, up to the quote that was written to end it.
-/

namespace LiveTest.Commands

open Quotes
open Piece (fixed embedded)

@[simp] theorem quoteless_repr_nat (n : Nat) : Quoteless n.repr := not_mem_repr rfl n

@[simp] theorem quoteless_repr_int (n : Int) : Quoteless n.repr := by
  intro hmem
  rcases mem_repr_int hmem with h | h
  · exact absurd h (by decide)
  · exact absurd h (by decide)

@[simp] theorem quoteless_statusName (status : LineStatus) : Quoteless status.name := by
  cases status <;> exact quoteless_ofList rfl

@[simp] theorem quoteless_severityName (severity : Severity) : Quoteless severity.name := by
  cases severity <;> exact quoteless_ofList rfl

@[simp] theorem quoteless_hash (s : String) : Quoteless (Sha256.hash s) := by
  intro hmem
  obtain ⟨n, hn⟩ := Sha256.exists_digitChar_of_mem_hash hmem
  exact Nat.digitChar_ne quoteMark (by decide) hn.symm

theorem quoteless_join {sep : String} (hsep : Quoteless sep) {texts : List String}
    (h : ∀ s ∈ texts, Quoteless s) : Quoteless (Text.join sep texts) :=
  Text.not_mem_join hsep h

/-- The name of a list has no more quotes as part of a command's name. -/
theorem quoteless_commandName {name : String} (h : Quoteless name) :
    Quoteless (commandName name) := by
  rw [Quoteless, commandName, Text.substitute, String.toList_ofList]
  intro hmem
  obtain ⟨c, hc, hquote⟩ := List.mem_flatMap.1 hmem
  split at hquote
  · exact absurd (List.mem_singleton.1 hquote) (by decide)
  · have hsame : quoteMark = c := List.mem_singleton.1 hquote
    rw [← hsame] at hc
    exact h hc

theorem unquoted_declareOption {option : String} (h : Quoteless option) :
    Unquoted (declareOption option) := by
  have heval : Quoteless "eval %sh\x7b [ -z \"$kak_opt_" := quoteless_ofList rfl
  have hdeclare : Quoteless "\" ] && echo \"declare-option line-specs " := quoteless_ofList rfl
  have hadd : Quoteless "; add-highlighter global/ flag-lines Default " := quoteless_ofList rfl
  have hend : Quoteless "\" \x7d\n" := quoteless_ofList rfl
  simp [declareOption, heval, hdeclare, hadd, hend, h]

theorem unquoted_start : Unquoted start := by
  rw [start, unquoted_append]
  constructor
  · exact unquoted_declareOption (quoteless_ofList rfl)
  · exact unquoted_declareOption (quoteless_ofList rfl)

theorem unquoted_refresh {command group : String} (hcommand : Quoteless command)
    (hgroup : Quoteless group) : Unquoted (refresh command group) := by
  have hremove : Quoteless "remove-hooks global " := quoteless_ofList rfl
  have hend : Quoteless "\n" := quoteless_ofList rfl
  have hhook : Quoteless "\nhook -group " := quoteless_ofList rfl
  have hopen : Quoteless " global BufOpenFile .* " := quoteless_ofList rfl
  simp [refresh, hremove, hend, hhook, hopen, hcommand, hgroup]

theorem unquoted_fileStatuses (file : Path) (lines : LineStatuses) :
    Unquoted (fileStatuses file lines) := by
  have hset : Quoteless "    try %\x7b set-option " := quoteless_ofList rfl
  have hoption : Quoteless " kiwi_line_statuses %val\x7btimestamp\x7d" := quoteless_ofList rfl
  have hend : Quoteless " \x7d\n" := quoteless_ofList rfl
  have hspecs : Unquoted (lines.entries.map fun e => fixed (statusSpec e.1 e.2)) := by
    apply unquoted_map_fixed
    intro e _
    have hline : Quoteless " \"" := quoteless_ofList rfl
    have hcolor : Quoteless "|\x7b%opt\x7bkiwi_color_" := quoteless_ofList rfl
    have hchars : Quoteless "\x7d\x7d%opt\x7bkiwi_status_chars\x7d\"" := quoteless_ofList rfl
    simp [statusSpec, hline, hcolor, hchars]
  simp [fileStatuses, hset, hoption, hend, hspecs]

theorem unquoted_declareColor (colors : Colors) (status : LineStatus) :
    Unquoted (declareColor colors status) := by
  have hdeclare : Quoteless "    declare-option str kiwi_color_" := quoteless_ofList rfl
  have hspace : Quoteless " " := quoteless_ofList rfl
  have hend : Quoteless "\n" := quoteless_ofList rfl
  simp [declareColor, hdeclare, hspace, hend]

theorem unquoted_statuses (files : FileStatuses) (settings : EditorSettings) :
    Unquoted (statuses files settings) := by
  have hdefine : Quoteless "define-command -hidden -override kiwi_line_statuses %\x7b\n" :=
    quoteless_ofList rfl
  have hchars : Quoteless "    declare-option str kiwi_status_chars " := quoteless_ofList rfl
  have hnewline : Quoteless "\n" := quoteless_ofList rfl
  have hclose : Quoteless "\x7d\n" := quoteless_ofList rfl
  have hcolors : Unquoted (LineStatus.all.flatMap (declareColor settings.colors)) :=
    unquoted_flatMap fun status _ => unquoted_declareColor settings.colors status
  have hfiles : Unquoted (files.entries.flatMap fun e => fileStatuses e.1 e.2) :=
    unquoted_flatMap fun e _ => unquoted_fileStatuses e.1 e.2
  have hrefresh : Unquoted (refresh "kiwi_line_statuses" "kiwi-line-statuses-group") :=
    unquoted_refresh (quoteless_ofList rfl) (quoteless_ofList rfl)
  simp [statuses, hdefine, hchars, hnewline, hclose, hcolors, hfiles, hrefresh]

theorem unquoted_labelSpec (width : Nat) (line : Int) (label : Label) :
    Unquoted (labelSpec width line label) := by
  have hline : Quoteless " \"" := quoteless_ofList rfl
  have hcolor : Quoteless "||\x7bDefault\x7d \x7b%opt\x7bkiwi_color_" := quoteless_ofList rfl
  have hclose : Quoteless "_notification\x7d\x7d" := quoteless_ofList rfl
  have hend : Quoteless "\"" := quoteless_ofList rfl
  simp [labelSpec, hline, hcolor, hclose, hend]

theorem unquoted_fileLabels (width : Nat) (file : Path) (lines : LineLabels) :
    Unquoted (fileLabels width file lines) := by
  have hset : Quoteless "    try %| set-option " := quoteless_ofList rfl
  have hoption : Quoteless " kiwi_line_notifications %val\x7btimestamp\x7d" :=
    quoteless_ofList rfl
  have hend : Quoteless " |\n" := quoteless_ofList rfl
  have hlabels : Unquoted (lines.entries.flatMap fun e => labelSpec width e.1 e.2) :=
    unquoted_flatMap fun e _ => unquoted_labelSpec width e.1 e.2
  have hsentinel : Unquoted (sentinelSpec width lines) := by
    rw [sentinelSpec]
    split
    · exact unquoted_nil
    · exact unquoted_labelSpec width sentinelLine sentinelLabel
  simp [fileLabels, hset, hoption, hend, hlabels, hsentinel]

theorem unquoted_declareLabelColor (colors : Colors) (severity : Severity) :
    Unquoted (declareLabelColor colors severity) := by
  have hdeclare : Quoteless "declare-option str kiwi_color_" := quoteless_ofList rfl
  have hname : Quoteless "_notification " := quoteless_ofList rfl
  have hend : Quoteless "\n" := quoteless_ofList rfl
  simp [declareLabelColor, hdeclare, hname, hend]

theorem unquoted_labels (files : FileLabels) (settings : EditorSettings) :
    Unquoted (labels files settings) := by
  have hdefine : Quoteless "define-command -hidden -override kiwi_line_notifications %\x7b\n" :=
    quoteless_ofList rfl
  have hclose : Quoteless "\x7d\n" := quoteless_ofList rfl
  have hcolors : Unquoted
      ([Severity.normal, .error].flatMap (declareLabelColor settings.colors)) :=
    unquoted_flatMap fun severity _ => unquoted_declareLabelColor settings.colors severity
  have hfiles : Unquoted
      (files.entries.flatMap fun e => fileLabels settings.labelWidth e.1 e.2) :=
    unquoted_flatMap fun e _ => unquoted_fileLabels settings.labelWidth e.1 e.2
  have hrefresh : Unquoted
      (refresh "kiwi_line_notifications" "kiwi-line-notifications-group") :=
    unquoted_refresh (quoteless_ofList rfl) (quoteless_ofList rfl)
  rw [labels, unquoted_append, unquoted_append, unquoted_append, unquoted_append, unquoted_fixed,
    unquoted_fixed]
  exact ⟨⟨⟨⟨hcolors, hdefine, unquoted_nil⟩, hfiles⟩, hclose, unquoted_nil⟩, hrefresh⟩

theorem unquoted_selectionCases (locations : List Location) :
    Unquoted (selectionCases locations) := by
  have hshell : Quoteless "    eval %sh\x7b\n        case " := quoteless_ofList rfl
  have hcursor : Quoteless
      "\"$kak_opt_kiwi_prev_buffile:$kak_opt_kiwi_prev_cursor_line\" in\n" := quoteless_ofList rfl
  have hindent : Quoteless "            " := quoteless_ofList rfl
  have hselect : Quoteless ") echo \"select " := quoteless_ofList rfl
  have hsemicolons : Quoteless "\";;\n" := quoteless_ofList rfl
  have hend : Quoteless "        esac\n    \x7d\n" := quoteless_ofList rfl
  have hselection : ∀ first last, Quoteless (selectionText first last) := by
    intro first last
    have hcomma : Quoteless ".1," := quoteless_ofList rfl
    have hcolumn : Quoteless ".999" := quoteless_ofList rfl
    simp [selectionText, hcomma, hcolumn]
  have hcases : Unquoted ((selections locations).entries.flatMap fun e =>
      [fixed "            ", embedded (Quoting.shellQuoted e.1),
        fixed (") echo \"select " ++ Text.join " " e.2 ++ "\";;\n")]) := by
    apply unquoted_flatMap
    intro e he
    have hjoin : Quoteless (Text.join " " e.2) :=
      quoteless_join (quoteless_ofList rfl) (forall_mem_selections hselection locations e he)
    simp [hindent, hselect, hsemicolons, hjoin]
  rw [selectionCases, unquoted_append, unquoted_append, unquoted_fixed, unquoted_fixed,
    quoteless_append]
  exact ⟨⟨⟨⟨hshell, hcursor⟩, unquoted_nil⟩, hcases⟩, hend, unquoted_nil⟩

theorem unquoted_openList {name : String} (hname : Quoteless name) (listPath : Path)
    (locations : List Location) (selectCurrentLine : Bool) :
    Unquoted (openList name listPath locations selectCurrentLine) := by
  have hdefine : Quoteless "define-command -override kiwi-list-" := quoteless_ofList rfl
  have hopen : Quoteless " %\x7b\n" := quoteless_ofList rfl
  have hfile : Quoteless "    declare-option str kiwi_prev_buffile %val\x7bbuffile\x7d\n" :=
    quoteless_ofList rfl
  have hline : Quoteless
      "    declare-option str kiwi_prev_cursor_line %val\x7bcursor_line\x7d\n" :=
    quoteless_ofList rfl
  have hedit : Quoteless "    edit! -readonly -existing " := quoteless_ofList rfl
  have hset : Quoteless "\n    set-option buffer filetype grep\n" := quoteless_ofList rfl
  have hclose : Quoteless "\x7d" := quoteless_ofList rfl
  have hselect : Unquoted
      (if selectCurrentLine && !locations.isEmpty then selectionCases locations else []) := by
    split
    · exact unquoted_selectionCases locations
    · exact unquoted_nil
  have hcommand : Quoteless (commandName name) := quoteless_commandName hname
  rw [openList, unquoted_append, unquoted_append, unquoted_fixed, unquoted_fixed,
    unquoted_embedded, unquoted_fixed, unquoted_fixed, quoteless_append, quoteless_append,
    quoteless_append, quoteless_append]
  exact ⟨⟨⟨⟨⟨hdefine, hcommand⟩, hopen⟩, ⟨⟨hfile, hline⟩, hedit⟩, hset, unquoted_nil⟩, hselect⟩,
    hclose, unquoted_nil⟩

theorem unquoted_detailsCase (tempDir : Path) (n : Notification) :
    Unquoted (detailsCase tempDir n) := by
  have hindent : Quoteless "            \"" := quoteless_ofList rfl
  have hecho : Quoteless "  -\") echo \"try %\x7b delete-buffer! " := quoteless_ofList rfl
  have hbuffer : Quoteless detailsBuffer := quoteless_ofList rfl
  have hedit : Quoteless " \x7d; edit! -existing %\x7b" := quoteless_ofList rfl
  have hrename : Quoteless "\x7d; rename-buffer -scratch " := quoteless_ofList rfl
  have hdelete : Quoteless "; try %\x7b delete-buffer! %\x7b" := quoteless_ofList rfl
  have hend : Quoteless "\x7d \x7d\";;\n" := quoteless_ofList rfl
  simp [detailsCase, detailsHash, hindent, hecho, hbuffer, hedit, hrename, hdelete, hend]

theorem unquoted_detailsCases (tempDir : Path) (notifications : List Notification) :
    Unquoted (detailsCases tempDir notifications) := by
  have hshell : Quoteless "    eval %sh\x7b\n        case " := quoteless_ofList rfl
  have hcursor : Quoteless "$(printf %s \"$kak_buffile:$kak_cursor_line\" | sha256sum) in\n" :=
    quoteless_ofList rfl
  have hend : Quoteless "        esac\n    \x7d\n" := quoteless_ofList rfl
  have hcases : Unquoted (notifications.flatMap (detailsCase tempDir)) :=
    unquoted_flatMap fun n _ => unquoted_detailsCase tempDir n
  rw [detailsCases, unquoted_append, unquoted_append, unquoted_fixed, unquoted_fixed,
    quoteless_append]
  exact ⟨⟨⟨⟨hshell, hcursor⟩, unquoted_nil⟩, hcases⟩, hend, unquoted_nil⟩

theorem unquoted_openDetails (tempDir : Path) (notifications : List Notification) :
    Unquoted (openDetails tempDir notifications) := by
  have hdefine : Quoteless "define-command -override kiwi-open-notification %\x7b\n" :=
    quoteless_ofList rfl
  have hclose : Quoteless "\x7d" := quoteless_ofList rfl
  have hcases : Unquoted
      (if notifications.isEmpty then [] else detailsCases tempDir notifications) := by
    split
    · exact unquoted_nil
    · exact unquoted_detailsCases tempDir notifications
  rw [openDetails, unquoted_append, unquoted_append, unquoted_fixed, unquoted_fixed]
  exact ⟨⟨⟨hdefine, unquoted_nil⟩, hcases⟩, hclose, unquoted_nil⟩

theorem unquoted_jump (file : Path) (line : Nat) : Unquoted (jump file line) := by
  have hedit : Quoteless "edit! -existing " := quoteless_ofList rfl
  have hspace : Quoteless " " := quoteless_ofList rfl
  simp [jump, hedit, hspace]

/-- If a command names a list then the name, which is part of the wording, has no quotes. -/
def QuotelessName : Command → Prop
  | .openList name _ _ _ => Quoteless name
  | .start | .statuses _ _ | .labels _ _ | .openDetails _ _ | .jump _ _ => True

theorem unquoted_script {command : Command} (hname : QuotelessName command) :
    Unquoted command.script := by
  cases command with
  | start => exact unquoted_start
  | statuses files settings => exact unquoted_statuses files settings
  | labels files settings => exact unquoted_labels files settings
  | openList name listPath locations selectCurrentLine =>
      exact unquoted_openList hname listPath locations selectCurrentLine
  | openDetails tempDir notifications => exact unquoted_openDetails tempDir notifications
  | jump file line => exact unquoted_jump file line

/-- What a client is handed begins a string in single quotes right after the client's name. -/
theorem toList_payload (client command : String) :
    (Sessions.payload client command).toList =
      ("eval -client " ++ client).toList ++ ' ' :: quoteMark :: (command.toList ++ [quoteMark]) := by
  have hopen : " '".toList = [' ', quoteMark] := rfl
  have hclose : "'".toList = [quoteMark] := rfl
  -- Rewriting the payload itself would try to split its literals.
  have happend : ∀ a b c d : String,
      (a ++ b ++ c ++ d).toList = a.toList ++ b.toList ++ c.toList ++ d.toList := by
    intro a b c d
    rw [String.toList_append, String.toList_append, String.toList_append]
  calc (Sessions.payload client command).toList
      = ("eval -client " ++ client).toList ++ " '".toList ++ command.toList ++ "'".toList :=
        happend ("eval -client " ++ client) " '" command "'"
    _ = ("eval -client " ++ client).toList ++ [' ', quoteMark] ++ command.toList ++ [quoteMark] :=
        congrArg₂ (fun opened closed => ("eval -client " ++ client).toList ++ opened ++
          command.toList ++ closed) hopen hclose
    _ = _ := by
        rw [List.append_assoc, List.append_assoc]
        rfl

/-- Every run of single quotes in a delivered command is even, and half of each gives the command
as it is meant.  So the editor, reading the string that it is handed, reads this command and
nothing after it. -/
theorem delivered_as_one_string (command : Command) (hname : QuotelessName command) :
    EvenRuns command.script.render.toList ∧
      halveRuns command.script.render.toList = command.script.plain.toList ∧
      ∀ client, ∃ string,
        (Sessions.payload client command.script.render).toList =
          ("eval -client " ++ client).toList ++ ' ' :: quoteMark :: string ∧
        readMarked quoteMark string = some (command.script.plain.toList, []) := by
  have hdoubled : command.script.render.toList = doubled command.script.plain.toList :=
    render_eq_doubled (unquoted_script hname)
  refine ⟨?_, ?_, ?_⟩
  · rw [hdoubled]
    exact evenRuns_doubled _
  · rw [hdoubled]
    exact halveRuns_doubled _
  · intro client
    refine ⟨command.script.render.toList ++ [quoteMark], toList_payload client _, ?_⟩
    apply (carries_render (unquoted_script hname)).read
    intro hhead
    cases hhead

namespace DeliveryWitness

/-- A list of failures whose path and message have quotes, at the seams as well. -/
def failures : Command :=
  .openList "failures" ⟨"/tmp/'kiwi'"⟩ [⟨⟨"/p/it's.scm"⟩, 3, "'"⟩] true

theorem delivered_failures :
    QuotelessName failures ∧ EvenRuns failures.script.render.toList ∧
      halveRuns failures.script.render.toList = failures.script.plain.toList := by
  have hname : QuotelessName failures := by
    change Quoteless "failures"
    exact quoteless_ofList rfl
  obtain ⟨heven, hhalved, -⟩ := delivered_as_one_string failures hname
  exact ⟨hname, heven, hhalved⟩

end DeliveryWitness

end LiveTest.Commands
