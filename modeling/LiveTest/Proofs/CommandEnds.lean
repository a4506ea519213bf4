import LiveTest.Proofs.BraceDepth
import LiveTest.Proofs.CommandTexts
/-!
Where the definitions of commands end.  A definition stands between braces, and the texts that it
embeds keep their braces however they are quoted.  So it ends as it is meant to exactly if the
braces of those texts balance, which a label that was cut may break.
-/

namespace LiveTest.Commands

open Braces
open Piece (fixed embedded)

@[simp] theorem textEffect_statusName (status : LineStatus) : textEffect status.name = 1 := by
  cases status <;> decide

@[simp] theorem textEffect_severityName (severity : Severity) : textEffect severity.name = 1 := by
  cases severity <;> decide

@[simp] theorem textEffect_hash (s : String) : textEffect (Sha256.hash s) = 1 := by
  apply effect_eq_one
  intro c hc
  obtain ⟨n, rfl⟩ := Sha256.exists_digitChar_of_mem_hash hc
  exact charEffect_digitChar n

theorem textEffect_join {base path : Path} (hpath : path.isAbsolute = false) :
    textEffect (base.join path).text = textEffect base.text * textEffect path.text := by
  rw [Path.join, hpath, if_neg (by decide)]
  split
  · next hlast =>
      have hbase : textEffect base.text = 1 := by
        rw [textEffect, List.getLast?_eq_none_iff.1 hlast, effect_nil]
      rw [hbase, one_mul]
  · have hslash : textEffect "/" = 1 := textEffect_ofList rfl
    split
    · rw [textEffect_append]
    · rw [textEffect_append, textEffect_append, hslash, mul_one]

/-- The file with the details of a line has the braces of its directory. -/
@[simp] theorem textEffect_detailsPath (tempDir file : Path) (line : Nat) :
    textEffect (detailsPath tempDir file line).text = textEffect tempDir.text := by
  have hname : textEffect "notification_" = 1 := textEffect_ofList rfl
  have hextension : textEffect ".json" = 1 := textEffect_ofList rfl
  rw [detailsPath, textEffect_join, textEffect_append, textEffect_append, detailsHash,
    textEffect_hash, hname, hextension]
  · simp
  · rw [Path.isAbsolute, String.toList_append, String.toList_append]
    rfl

theorem mem_fitChars {width : Nat} {cs : List Char} {c : Char} (hc : c ∈ Text.fitChars width cs) :
    c ∈ cs ∨ c = ' ' ∨ c = '.' := by
  rw [Text.fitChars] at hc
  split at hc
  · rcases List.mem_append.1 hc with hc | hc
    · exact Or.inl (List.mem_of_mem_take hc)
    · exact Or.inr (by simpa using hc)
  · rcases List.mem_append.1 hc with hc | hc
    · exact Or.inl hc
    · exact Or.inr (Or.inl (List.eq_of_mem_replicate hc))

/-- The label that keeps the column open has no braces, however wide the column is. -/
theorem textEffect_fit_sentinel (width : Nat) :
    textEffect (Text.fit width sentinelLabel.text) = 1 := by
  rw [textEffect, Text.fit, String.toList_ofList]
  apply effect_eq_one
  intro c hc
  rcases mem_fitChars hc with hc | rfl | rfl
  · rw [List.mem_singleton.1 hc]
    decide
  · decide
  · decide

theorem textEffect_statusSpec (line : Nat) (status : LineStatus) :
    textEffect (statusSpec line status) = 1 := by
  have hline : textEffect " \"" = 1 := textEffect_ofList rfl
  have hopen : textEffect "|\x7b%opt\x7bkiwi_color_" = ⟨0, 2⟩ := textEffect_ofList rfl
  have hclose : textEffect "\x7d\x7d%opt\x7bkiwi_status_chars\x7d\"" = ⟨2, 0⟩ :=
    textEffect_ofList rfl
  have hcancel : (⟨0, 2⟩ * ⟨2, 0⟩ : Braces.Effect) = 1 := rfl
  simp [statusSpec, hline, hopen, hclose, hcancel]

theorem scriptEffect_fileStatuses (file : Path) (lines : LineStatuses) :
    scriptEffect (fileStatuses file lines) =
      Effect.opening * textEffect file.text * Effect.closing := by
  have hset : textEffect "    try %\x7b set-option " = Effect.opening := textEffect_ofList rfl
  have hbuffer : textEffect "buffer=" = 1 := textEffect_ofList rfl
  have hoption : textEffect " kiwi_line_statuses %val\x7btimestamp\x7d" = 1 := textEffect_ofList rfl
  have hend : textEffect " \x7d\n" = Effect.closing := textEffect_ofList rfl
  have hspecs : scriptEffect (lines.entries.map fun e => fixed (statusSpec e.1 e.2)) = 1 :=
    scriptEffect_map_fixed fun e _ => textEffect_statusSpec e.1 e.2
  simp [fileStatuses, hset, hbuffer, hoption, hend, hspecs, mul_assoc]

theorem scriptEffect_declareColor (colors : Colors) (status : LineStatus) :
    scriptEffect (declareColor colors status) = textEffect (colors.ofStatus status) := by
  have hdeclare : textEffect "    declare-option str kiwi_color_" = 1 := textEffect_ofList rfl
  have hspace : textEffect " " = 1 := textEffect_ofList rfl
  simp [declareColor, hdeclare, hspace]

/-- The definition of the command that shows the statuses. -/
def statusesDefinition (files : FileStatuses) (settings : EditorSettings) : Definition where
  opening := [fixed "define-command -hidden -override kiwi_line_statuses "]
  body := [fixed "\n", fixed "    declare-option str kiwi_status_chars ",
      embedded (Quoting.doubleQuoted settings.statusChars), fixed "\n"] ++
    LineStatus.all.flatMap (declareColor settings.colors) ++
    files.entries.flatMap (fun e => fileStatuses e.1 e.2)
  rest := [fixed "\n"] ++ refresh "kiwi_line_statuses" "kiwi-line-statuses-group"

/-- The texts that it embeds, those of a file between further braces. -/
def statusesTexts (files : FileStatuses) (settings : EditorSettings) : List Char :=
  settings.statusChars.toList ++
  LineStatus.all.flatMap (fun status => (settings.colors.ofStatus status).toList) ++
  files.entries.flatMap (fun e => openBrace :: (e.1.text.toList ++ [closeBrace]))

theorem statuses_eq_definition (files : FileStatuses) (settings : EditorSettings) :
    (statuses files settings).render.toList = (statusesDefinition files settings).text := by
  have hopen : "define-command -hidden -override kiwi_line_statuses %\x7b\n".toList =
      "define-command -hidden -override kiwi_line_statuses ".toList ++
        '%' :: openBrace :: "\n".toList := toList_starting rfl
  have hclose : "\x7d\n".toList = closeBrace :: "\n".toList := by decide
  simp only [toList_render, statuses, statusesDefinition, Definition.text, delivered_append,
    delivered_cons, delivered_nil, Piece.render, hopen, hclose, List.append_assoc,
    List.cons_append, List.nil_append, List.append_nil]

theorem statuses_ends_iff (files : FileStatuses) (settings : EditorSettings) :
    (statusesDefinition files settings).EndsAsMeant ↔ Paired (statusesTexts files settings) := by
  have hdeclare : textEffect "    declare-option str kiwi_status_chars " = 1 :=
    textEffect_ofList rfl
  have hbody : scriptEffect (statusesDefinition files settings).body =
      effect (statusesTexts files settings) := by
    simp [statusesDefinition, statusesTexts, hdeclare, scriptEffect_flatMap, effect_flatMap,
      scriptEffect_fileStatuses, scriptEffect_declareColor, mul_assoc]
  rw [Definition.endsAsMeant_iff, hbody, Paired]

theorem scriptEffect_labelSpec (width : Nat) (line : Int) (label : Label) :
    scriptEffect (labelSpec width line label) = textEffect (Text.fit width label.text) := by
  have hline : textEffect " \"" = 1 := textEffect_ofList rfl
  have hopen : textEffect "||\x7bDefault\x7d \x7b%opt\x7bkiwi_color_" = ⟨0, 2⟩ :=
    textEffect_ofList rfl
  have hclose : textEffect "_notification\x7d\x7d" = ⟨2, 0⟩ := textEffect_ofList rfl
  have hcancel : (⟨0, 2⟩ * ⟨2, 0⟩ : Braces.Effect) = 1 := rfl
  have hend : textEffect "\"" = 1 := textEffect_ofList rfl
  simp [labelSpec, hline, hopen, hclose, hcancel, hend]

theorem scriptEffect_sentinelSpec (width : Nat) (lines : LineLabels) :
    scriptEffect (sentinelSpec width lines) = 1 := by
  rw [sentinelSpec]
  split
  · rfl
  · rw [scriptEffect_labelSpec, textEffect_fit_sentinel]

theorem scriptEffect_fileLabels (width : Nat) (file : Path) (lines : LineLabels) :
    scriptEffect (fileLabels width file lines) = textEffect file.text *
      (lines.entries.map fun e => textEffect (Text.fit width e.2.text)).prod := by
  have hset : textEffect "    try %| set-option " = 1 := textEffect_ofList rfl
  have hbuffer : textEffect "buffer=" = 1 := textEffect_ofList rfl
  have hoption : textEffect " kiwi_line_notifications %val\x7btimestamp\x7d" = 1 :=
    textEffect_ofList rfl
  have hend : textEffect " |\n" = 1 := textEffect_ofList rfl
  simp [fileLabels, hset, hbuffer, hoption, hend, scriptEffect_flatMap, scriptEffect_labelSpec,
    scriptEffect_sentinelSpec]

/-- The definition of the command that shows the labels. -/
def labelsDefinition (files : FileLabels) (settings : EditorSettings) : Definition where
  opening := [Severity.normal, .error].flatMap (declareLabelColor settings.colors) ++
    [fixed "define-command -hidden -override kiwi_line_notifications "]
  body := [fixed "\n"] ++
    files.entries.flatMap (fun e => fileLabels settings.labelWidth e.1 e.2)
  rest := [fixed "\n"] ++ refresh "kiwi_line_notifications" "kiwi-line-notifications-group"

/-- The texts that it embeds, the labels as they fit. -/
def labelsTexts (files : FileLabels) (settings : EditorSettings) : List Char :=
  files.entries.flatMap fun e => e.1.text.toList ++
    e.2.entries.flatMap fun l => (Text.fit settings.labelWidth l.2.text).toList

theorem labels_eq_definition (files : FileLabels) (settings : EditorSettings) :
    (labels files settings).render.toList = (labelsDefinition files settings).text := by
  have hopen : "define-command -hidden -override kiwi_line_notifications %\x7b\n".toList =
      "define-command -hidden -override kiwi_line_notifications ".toList ++
        '%' :: openBrace :: "\n".toList := toList_starting rfl
  have hclose : "\x7d\n".toList = closeBrace :: "\n".toList := by decide
  simp only [toList_render, labels, labelsDefinition, Definition.text, delivered_append,
    delivered_cons, delivered_nil, Piece.render, hopen, hclose, List.append_assoc,
    List.cons_append, List.nil_append, List.append_nil]

theorem labels_ends_iff (files : FileLabels) (settings : EditorSettings) :
    (labelsDefinition files settings).EndsAsMeant ↔ Paired (labelsTexts files settings) := by
  have hbody : scriptEffect (labelsDefinition files settings).body =
      effect (labelsTexts files settings) := by
    simp [labelsDefinition, labelsTexts, scriptEffect_flatMap, effect_flatMap,
      scriptEffect_fileLabels]
  rw [Definition.endsAsMeant_iff, hbody, Paired]

theorem textEffect_selectionText (first last : Nat) :
    textEffect (selectionText first last) = 1 := by
  have hcomma : textEffect ".1," = 1 := textEffect_ofList rfl
  have hend : textEffect ".999" = 1 := textEffect_ofList rfl
  simp [selectionText, hcomma, hend]

theorem scriptEffect_selectionCases (locations : List Location) :
    scriptEffect (selectionCases locations) = Effect.opening *
      ((selections locations).keys.map textEffect).prod * Effect.closing := by
  have hshell : textEffect "    eval %sh\x7b\n        case " = Effect.opening :=
    textEffect_ofList rfl
  have hcursor : textEffect
      "\"$kak_opt_kiwi_prev_buffile:$kak_opt_kiwi_prev_cursor_line\" in\n" = 1 :=
    textEffect_ofList rfl
  have hindent : textEffect "            " = 1 := textEffect_ofList rfl
  have hselect : textEffect ") echo \"select " = 1 := textEffect_ofList rfl
  have hsemicolons : textEffect "\";;\n" = 1 := textEffect_ofList rfl
  have hend : textEffect "        esac\n    \x7d\n" = Effect.closing := textEffect_ofList rfl
  have hcase : ∀ e ∈ (selections locations).entries,
      scriptEffect [fixed "            ", embedded (Quoting.shellQuoted e.1),
        fixed (") echo \"select " ++ Text.join " " e.2 ++ "\";;\n")] = textEffect e.1 := by
    intro e he
    have hjoin : textEffect (Text.join " " e.2) = 1 :=
      textEffect_join_eq_one (by decide)
        (forall_mem_selections textEffect_selectionText locations e he)
    simp [hindent, hselect, hsemicolons, hjoin]
  rw [selectionCases, scriptEffect_append, scriptEffect_append, scriptEffect_flatMap,
    List.map_congr_left hcase, scriptEffect_fixed, scriptEffect_fixed, hend,
    textEffect_append, hshell, hcursor, SortedMap.keys, List.map_map]
  simp [Function.comp_def]

/-- The definition of the command that opens a list. -/
def listDefinition (name : String) (listPath : Path) (locations : List Location)
    (selectCurrentLine : Bool) : Definition where
  opening := [fixed ("define-command -override kiwi-list-" ++ commandName name ++ " ")]
  body := [fixed "\n", fixed ("    declare-option str kiwi_prev_buffile %val\x7bbuffile\x7d\n" ++
      "    declare-option str kiwi_prev_cursor_line %val\x7bcursor_line\x7d\n" ++
      "    edit! -readonly -existing "),
      embedded (Quoting.doubleQuoted listPath.text),
      fixed "\n    set-option buffer filetype grep\n"] ++
    (if selectCurrentLine && !locations.isEmpty then selectionCases locations else [])
  rest := []

/-- The texts that it embeds, the keys of the selections between further braces. -/
def listTexts (listPath : Path) (locations : List Location) (selectCurrentLine : Bool) :
    List Char :=
  listPath.text.toList ++
    if selectCurrentLine && !locations.isEmpty then
      openBrace :: ((selections locations).keys.flatMap String.toList ++ [closeBrace])
    else []

theorem openList_eq_definition (name : String) (listPath : Path) (locations : List Location)
    (selectCurrentLine : Bool) :
    (openList name listPath locations selectCurrentLine).render.toList =
      (listDefinition name listPath locations selectCurrentLine).text := by
  have hopen : " %\x7b\n".toList = " ".toList ++ '%' :: openBrace :: "\n".toList :=
    toList_starting rfl
  have hclose : "\x7d".toList = [closeBrace] := by decide
  simp only [toList_render, openList, listDefinition, Definition.text, delivered_append,
    delivered_cons, delivered_nil, Piece.render, String.toList_append, hopen, hclose,
    List.append_assoc, List.cons_append, List.nil_append, List.append_nil]

theorem openList_ends_iff (name : String) (listPath : Path) (locations : List Location)
    (selectCurrentLine : Bool) :
    (listDefinition name listPath locations selectCurrentLine).EndsAsMeant ↔
      Paired (listTexts listPath locations selectCurrentLine) := by
  have hfile : textEffect "    declare-option str kiwi_prev_buffile %val\x7bbuffile\x7d\n" = 1 :=
    textEffect_ofList rfl
  have hline : textEffect
      "    declare-option str kiwi_prev_cursor_line %val\x7bcursor_line\x7d\n" = 1 :=
    textEffect_ofList rfl
  have hedit : textEffect "    edit! -readonly -existing " = 1 := textEffect_ofList rfl
  have hset : textEffect "\n    set-option buffer filetype grep\n" = 1 := textEffect_ofList rfl
  have hselect : scriptEffect
      (if selectCurrentLine && !locations.isEmpty then selectionCases locations else []) =
      effect (if selectCurrentLine && !locations.isEmpty then
        openBrace :: ((selections locations).keys.flatMap String.toList ++ [closeBrace])
      else []) := by
    split
    · rw [scriptEffect_selectionCases]
      simp [effect_flatMap, mul_assoc]
    · rfl
  have hbody : scriptEffect (listDefinition name listPath locations selectCurrentLine).body =
      effect (listTexts listPath locations selectCurrentLine) := by
    rw [listDefinition, listTexts, scriptEffect_append, effect_append, hselect, scriptEffect_fixed,
      scriptEffect_fixed, textEffect_append, textEffect_append, textEffect_newline, hfile, hline,
      hedit]
    simp [hset]
  rw [Definition.endsAsMeant_iff, hbody, Paired]

/-- The effect of a case, in which the path of the file with the details stands twice: between one
pair of braces, and then between two. -/
def caseEffect (path : Braces.Effect) : Braces.Effect :=
  Effect.opening * path * Effect.closing * ⟨0, 2⟩ * path * ⟨2, 0⟩

theorem scriptEffect_detailsCase (tempDir : Path) (n : Notification) :
    scriptEffect (detailsCase tempDir n) = caseEffect (textEffect tempDir.text) := by
  have hindent : textEffect "            \"" = 1 := textEffect_ofList rfl
  have hecho : textEffect "  -\") echo \"try %\x7b delete-buffer! " = Effect.opening :=
    textEffect_ofList rfl
  have hbuffer : textEffect detailsBuffer = 1 := textEffect_ofList rfl
  have hedit : textEffect " \x7d; edit! -existing %\x7b" = Effect.closing * Effect.opening :=
    textEffect_ofList rfl
  have hrename : textEffect "\x7d; rename-buffer -scratch " = Effect.closing :=
    textEffect_ofList rfl
  have hdelete : textEffect "; try %\x7b delete-buffer! %\x7b" = ⟨0, 2⟩ := textEffect_ofList rfl
  have hend : textEffect "\x7d \x7d\";;\n" = ⟨2, 0⟩ := textEffect_ofList rfl
  simp [detailsCase, caseEffect, detailsHash, hindent, hecho, hbuffer, hedit, hrename, hdelete,
    hend, mul_assoc]

theorem caseEffect_keeps_iff (path : Braces.Effect) : (caseEffect path).Keeps 1 ↔ path.Keeps 2 := by
  simp only [caseEffect, Effect.Keeps, Effect.opening, Effect.closing, Effect.closes_mul,
    Effect.opens_mul]
  omega

/-- The definition of the command that opens details. -/
def detailsDefinition (tempDir : Path) (notifications : List Notification) : Definition where
  opening := [fixed "define-command -override kiwi-open-notification "]
  body := [fixed "\n"] ++
    (if notifications.isEmpty then [] else detailsCases tempDir notifications)
  rest := []

theorem openDetails_eq_definition (tempDir : Path) (notifications : List Notification) :
    (openDetails tempDir notifications).render.toList =
      (detailsDefinition tempDir notifications).text := by
  have hopen : "define-command -override kiwi-open-notification %\x7b\n".toList =
      "define-command -override kiwi-open-notification ".toList ++
        '%' :: openBrace :: "\n".toList := toList_starting rfl
  have hclose : "\x7d".toList = [closeBrace] := by decide
  simp only [toList_render, openDetails, detailsDefinition, Definition.text, delivered_append,
    delivered_cons, delivered_nil, Piece.render, hopen, hclose, List.append_assoc,
    List.cons_append, List.nil_append, List.append_nil]

theorem scriptEffect_detailsCases (tempDir : Path) (notifications : List Notification) :
    scriptEffect (detailsCases tempDir notifications) = Effect.opening *
      caseEffect (textEffect tempDir.text) ^ notifications.length * Effect.closing := by
  have hshell : textEffect "    eval %sh\x7b\n        case " = Effect.opening :=
    textEffect_ofList rfl
  have hcursor : textEffect
      "$(printf %s \"$kak_buffile:$kak_cursor_line\" | sha256sum) in\n" = 1 :=
    textEffect_ofList rfl
  have hend : textEffect "        esac\n    \x7d\n" = Effect.closing := textEffect_ofList rfl
  rw [detailsCases, scriptEffect_append, scriptEffect_append, scriptEffect_flatMap,
    List.map_congr_left fun n _ => scriptEffect_detailsCase tempDir n, List.map_const',
    List.prod_replicate, scriptEffect_fixed, scriptEffect_fixed, textEffect_append, hshell, hcursor,
    hend]
  simp

theorem openDetails_ends_iff (tempDir : Path) (notifications : List Notification) :
    (detailsDefinition tempDir notifications).EndsAsMeant ↔
      notifications = [] ∨ (textEffect tempDir.text).Keeps 2 := by
  rw [Definition.endsAsMeant_iff, detailsDefinition, scriptEffect_append, scriptEffect_fixed,
    textEffect_newline, scriptEffect_nil, one_mul, one_mul]
  cases notifications with
  | nil => simp
  | cons n rest =>
      rw [if_neg (by simp), scriptEffect_detailsCases, Effect.opening_mul_mul_closing_iff,
        List.length_cons, Effect.keeps_pow_succ_iff, caseEffect_keeps_iff]
      simp

/-- A definition ends at the brace that is written after its body exactly if the braces of the
texts in it balance: the colours, the characters for statuses and the paths of the files with
statuses; the paths of the files with labels and the labels as they fit; the path of the list and
the keys of its selections; the directory of the details. -/
theorem definitions_end_as_meant_iff (files : FileStatuses) (marks : FileLabels)
    (settings : EditorSettings) (listName : String) (listPath : Path) (locations : List Location)
    (selectCurrentLine : Bool) (tempDir : Path) (notifications : List Notification) :
    ((statuses files settings).render.toList = (statusesDefinition files settings).text ∧
      ((statusesDefinition files settings).EndsAsMeant ↔
        Paired (statusesTexts files settings))) ∧
    ((labels marks settings).render.toList = (labelsDefinition marks settings).text ∧
      ((labelsDefinition marks settings).EndsAsMeant ↔ Paired (labelsTexts marks settings))) ∧
    ((openList listName listPath locations selectCurrentLine).render.toList =
        (listDefinition listName listPath locations selectCurrentLine).text ∧
      ((listDefinition listName listPath locations selectCurrentLine).EndsAsMeant ↔
        Paired (listTexts listPath locations selectCurrentLine))) ∧
    ((openDetails tempDir notifications).render.toList =
        (detailsDefinition tempDir notifications).text ∧
      ((detailsDefinition tempDir notifications).EndsAsMeant ↔
        notifications = [] ∨ (textEffect tempDir.text).Keeps 2)) :=
  ⟨⟨statuses_eq_definition files settings, statuses_ends_iff files settings⟩,
    ⟨labels_eq_definition marks settings, labels_ends_iff marks settings⟩,
    ⟨openList_eq_definition listName listPath locations selectCurrentLine,
      openList_ends_iff listName listPath locations selectCurrentLine⟩,
    openDetails_eq_definition tempDir notifications, openDetails_ends_iff tempDir notifications⟩

namespace CommandEndsWitness

/-- The braces of this label balance, but the second one is cut off. -/
def marked : Label := ⟨"expected Point \x7b x: 1, y: 2 \x7d to be far", .error⟩

def marks : FileLabels := ⟨[(⟨"/p/a.ts"⟩, ⟨[(3, marked)]⟩)]⟩

theorem cut_label_leaves_brace_open : Paired marked.text.toList ∧
    (labels marks .standard).render.toList = (labelsDefinition marks .standard).text ∧
    ¬ (labelsDefinition marks .standard).EndsAsMeant := by
  refine ⟨by decide +kernel, labels_eq_definition marks .standard, ?_⟩
  rw [labels_ends_iff]
  decide +kernel

end CommandEndsWitness

end LiveTest.Commands
