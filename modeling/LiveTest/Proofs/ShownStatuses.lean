import LiveTest.Proofs.AscendingKeys
import LiveTest.Proofs.CommandEnds
import LiveTest.Proofs.Delivery
import LiveTest.Proofs.StatusSpecs
/-!
What statuses the editor is told to show.  The command that shows statuses is written statement by
statement, so reading it from left to right finds the options of the settings and then each file
with its lines, whatever the path may be.  No two sets of statuses are therefore told by the same
command.
-/

namespace LiveTest.Commands

open Braces Quotes
open Piece (fixed embedded)

/-- The options that the settings tell: the characters that show a status, and the colours. -/
def declarations (settings : EditorSettings) : List Statement :=
  .declare "kiwi_status_chars" settings.statusChars :: LineStatus.all.map fun status =>
    .declare ("kiwi_color_" ++ status.name) (settings.colors.ofStatus status)

/-- The statuses of the files as they are told. -/
def setStatements (files : FileStatuses) : List Statement :=
  files.entries.map fun e => .set e.1.text e.2.entries

theorem inQuotes_repr (n : Nat) :
    (n.repr.toList.map Glyph.char).flatMap Glyph.inQuotes = n.repr.toList := by
  rw [List.flatMap_map]
  refine (List.flatMap_congr ?_).trans (List.flatMap_singleton' _)
  intro c hc
  have hquote : c ≠ '"' := ne_of_mem_of_not_mem hc (not_mem_repr rfl n)
  have hpercent : c ≠ '%' := ne_of_mem_of_not_mem hc (not_mem_repr rfl n)
  simp [Glyph.inQuotes, Quoting.inDoubleQuotes, hquote, hpercent]

theorem inQuotes_statusGlyphs (status : LineStatus) :
    (Statement.statusGlyphs status).flatMap Glyph.inQuotes =
      "|\x7b%opt\x7bkiwi_color_".toList ++
        (status.name.toList ++ "\x7d\x7d%opt\x7bkiwi_status_chars\x7d".toList) := by
  cases status <;> decide

theorem toList_statusSpec (line : Nat) (status : LineStatus) :
    (statusSpec line status).toList =
      ' ' :: (Word.quoted (Statement.specGlyphs (line, status))).written := by
  have hopen : " \"".toList = [' ', '"'] := rfl
  have hend : "\x7d\x7d%opt\x7bkiwi_status_chars\x7d\"".toList =
      "\x7d\x7d%opt\x7bkiwi_status_chars\x7d".toList ++ ['"'] := by decide
  rw [Word.written, Statement.specGlyphs, List.flatMap_append, inQuotes_repr,
    inQuotes_statusGlyphs]
  simp only [statusSpec, String.toList_append, hopen, hend, Nat.toString_eq_repr,
    List.append_assoc, List.cons_append, List.nil_append]

/-- What is written to declare an option. -/
theorem line_declare (option value : String) :
    (Statement.declare option value).line =
      "    declare-option str ".toList ++ (option.toList ++ " ".toList) ++
        ((Quoting.doubleQuoted value).toList ++ ['\n']) := by
  have hopen : "    declare-option str ".toList =
      "   ".toList ++ (' ' :: ("declare-option".toList ++ ' ' :: ("str".toList ++ [' ']))) := by
    decide
  have hblank : " ".toList = [' '] := rfl
  rw [Statement.line, Token.line, Statement.tokens, toList_doubleQuoted, hopen, hblank]
  simp only [List.flatMap_cons, List.flatMap_nil, Token.written, Word.written, List.append_assoc,
    List.cons_append, List.nil_append]

theorem plain_declareColor (colors : Colors) (status : LineStatus) :
    (declareColor colors status).flatMap Piece.plain =
      (Statement.declare ("kiwi_color_" ++ status.name) (colors.ofStatus status)).line := by
  have hopen : "    declare-option str kiwi_color_".toList =
      "    declare-option str ".toList ++ "kiwi_color_".toList := by decide
  have hend : "\n".toList = ['\n'] := rfl
  rw [line_declare]
  simp only [declareColor, List.flatMap_cons, List.flatMap_nil, Piece.plain, String.toList_append,
    hopen, hend, List.append_assoc, List.append_nil]

theorem plain_declareChars (chars : String) :
    [fixed "    declare-option str kiwi_status_chars ", embedded (Quoting.doubleQuoted chars),
        fixed "\n"].flatMap Piece.plain =
      (Statement.declare "kiwi_status_chars" chars).line := by
  have hopen : "    declare-option str kiwi_status_chars ".toList =
      "    declare-option str ".toList ++ ("kiwi_status_chars".toList ++ " ".toList) := by decide
  have hend : "\n".toList = ['\n'] := rfl
  rw [line_declare]
  simp only [List.flatMap_cons, List.flatMap_nil, Piece.plain, hopen, hend, List.append_assoc,
    List.append_nil]

/-- What is written for a file is the statement that sets its statuses. -/
theorem plain_fileStatuses (file : Path) (lines : LineStatuses) :
    (fileStatuses file lines).flatMap Piece.plain =
      (Statement.set file.text lines.entries).line := by
  have hopen : "    try %\x7b set-option ".toList =
      "   ".toList ++ (' ' :: ("try".toList ++ ' ' :: '%' :: openBrace :: ' ' ::
        ("set-option".toList ++ [' ']))) := by decide
  have hbuffer : (Quoting.doubleQuoted ("buffer=" ++ file.text)).toList =
      (Word.quoted ((FileSpecs.bufferMark ++ file.text.toList).map .char)).written := by
    rw [toList_doubleQuoted, String.toList_append]
    rfl
  have hoption : " kiwi_line_statuses %val\x7btimestamp\x7d".toList =
      ' ' :: ("kiwi_line_statuses".toList ++ ' ' :: "%val\x7btimestamp\x7d".toList) := by decide
  have hend : " \x7d\n".toList = [' ', closeBrace, '\n'] := by decide
  have hspecs : (lines.entries.map fun e => fixed (statusSpec e.1 e.2)).flatMap Piece.plain =
      (lines.entries.map fun spec => Token.word (.quoted (Statement.specGlyphs spec))).flatMap
        fun t => ' ' :: t.written := by
    rw [List.flatMap_map, List.flatMap_map]
    apply List.flatMap_congr
    intro e _
    exact toList_statusSpec e.1 e.2
  rw [Statement.line, Token.line, Statement.tokens, fileStatuses]
  simp only [List.flatMap_append, hspecs, List.flatMap_cons, List.flatMap_nil, Piece.plain, hopen,
    hbuffer, hoption, hend, Token.written, Word.written, List.append_assoc, List.cons_append,
    List.nil_append, List.append_nil]

theorem plain_statusesBody (files : FileStatuses) (settings : EditorSettings) :
    (statusesDefinition files settings).body.flatMap Piece.plain =
      '\n' :: (declarations settings ++ setStatements files).flatMap Statement.line := by
  have hcolors : (LineStatus.all.flatMap (declareColor settings.colors)).flatMap Piece.plain =
      (LineStatus.all.map fun status => Statement.declare ("kiwi_color_" ++ status.name)
        (settings.colors.ofStatus status)).flatMap Statement.line := by
    rw [List.flatMap_assoc, List.flatMap_map]
    apply List.flatMap_congr
    intro status _
    exact plain_declareColor settings.colors status
  have hfiles : (files.entries.flatMap fun e => fileStatuses e.1 e.2).flatMap Piece.plain =
      (setStatements files).flatMap Statement.line := by
    rw [List.flatMap_assoc, setStatements, List.flatMap_map]
    apply List.flatMap_congr
    intro e _
    exact plain_fileStatuses e.1 e.2
  have hbody : (statusesDefinition files settings).body = fixed "\n" ::
      ([fixed "    declare-option str kiwi_status_chars ",
          embedded (Quoting.doubleQuoted settings.statusChars), fixed "\n"] ++
        (LineStatus.all.flatMap (declareColor settings.colors) ++
          files.entries.flatMap fun e => fileStatuses e.1 e.2)) := by
    rw [statusesDefinition, List.append_assoc]
    rfl
  rw [hbody, List.flatMap_cons, List.flatMap_append, List.flatMap_append, plain_declareChars,
    hcolors, hfiles, declarations, List.cons_append, List.flatMap_cons, List.flatMap_append]
  rfl

theorem unquoted_statusesBody (files : FileStatuses) (settings : EditorSettings) :
    Unquoted (statusesDefinition files settings).body := by
  have hnewline : Quoteless "\n" := quoteless_ofList rfl
  have hchars : Quoteless "    declare-option str kiwi_status_chars " := quoteless_ofList rfl
  have hcolors : Unquoted (LineStatus.all.flatMap (declareColor settings.colors)) :=
    unquoted_flatMap fun status _ => unquoted_declareColor settings.colors status
  have hfiles : Unquoted (files.entries.flatMap fun e => fileStatuses e.1 e.2) :=
    unquoted_flatMap fun e _ => unquoted_fileStatuses e.1 e.2
  simp [statusesDefinition, hnewline, hchars, hcolors, hfiles]

theorem proper_statements (files : FileStatuses) (settings : EditorSettings) :
    ∀ s ∈ declarations settings ++ setStatements files, s.Proper := by
  intro s hs
  rcases List.mem_append.1 hs with hs | hs
  · rcases List.mem_cons.1 hs with rfl | hs
    · change Token.IsBare _
      decide
    · obtain ⟨status, -, rfl⟩ := List.mem_map.1 hs
      change Token.IsBare _
      cases status <;> decide
  · obtain ⟨e, -, rfl⟩ := List.mem_map.1 hs
    trivial

theorem readDefinition_statuses (files : FileStatuses) (settings : EditorSettings) :
    ∃ body, Carries quoteMark (delivered (statusesDefinition files settings).body) body ∧
      Statement.readDefinition body = some (declarations settings ++ setStatements files) := by
  refine ⟨(statusesDefinition files settings).body.flatMap Piece.plain, ?_, ?_⟩
  · have hcarries := carries_render (unquoted_statusesBody files settings)
    rwa [toList_render, Script.plain, String.toList_ofList] at hcarries
  · rw [plain_statusesBody]
    exact Statement.readDefinition_flatMap_line (proper_statements files settings)

/-- The command that sets the statuses of a file stands between braces, and the editor takes it to
end at the brace that is written after it exactly if the braces of the path balance. -/
theorem fileStatuses_ends_iff (file : Path) (lines : LineStatuses) :
    ∃ inner, delivered (fileStatuses file lines) =
        "    try ".toList ++ '%' :: openBrace :: (inner ++ [closeBrace, '\n']) ∧
      ∀ rest, readBraced 0 (inner ++ closeBrace :: rest) = some (inner, rest) ↔
        Paired file.text.toList := by
  have hopen : "    try %\x7b set-option ".toList =
      "    try ".toList ++ '%' :: openBrace :: " set-option ".toList := by decide
  have hend : " \x7d\n".toList = " ".toList ++ [closeBrace, '\n'] := by decide
  have hset : textEffect " set-option " = 1 := textEffect_ofList rfl
  have hbuffer : textEffect "buffer=" = 1 := textEffect_ofList rfl
  have hoption : textEffect " kiwi_line_statuses %val\x7btimestamp\x7d" = 1 := textEffect_ofList rfl
  have hblank : textEffect " " = 1 := textEffect_ofList rfl
  have hspecs : scriptEffect (lines.entries.map fun e => fixed (statusSpec e.1 e.2)) = 1 :=
    scriptEffect_map_fixed fun e _ => textEffect_statusSpec e.1 e.2
  refine ⟨delivered ([fixed " set-option ",
    embedded (Quoting.doubleQuoted ("buffer=" ++ file.text)),
    fixed " kiwi_line_statuses %val\x7btimestamp\x7d"] ++
    lines.entries.map (fun e => fixed (statusSpec e.1 e.2)) ++ [fixed " "]), ?_, ?_⟩
  · simp only [fileStatuses, delivered_append, delivered_cons, delivered_nil, Piece.render, hopen,
      hend, List.append_assoc, List.cons_append, List.nil_append, List.append_nil]
  · intro rest
    rw [readBraced_append_iff, ← scriptEffect, Paired]
    simp only [scriptEffect_append, scriptEffect_fixed, scriptEffect_embedded, scriptEffect_nil,
      hspecs, hset, hbuffer, hoption, hblank, textEffect_doubleQuoted, textEffect_append, one_mul,
      mul_one, effect_toList]
    exact Iff.rfl

/-- The statements tell the files with their lines. -/
theorem setStatements_injective : Function.Injective setStatements := by
  rintro ⟨entries⟩ ⟨entries'⟩ hsame
  congr 1
  refine List.map_injective_iff.2 ?_ hsame
  rintro ⟨⟨path⟩, ⟨lines⟩⟩ ⟨⟨path'⟩, ⟨lines'⟩⟩ hentry
  cases hentry
  rfl

theorem statuses_injective (settings : EditorSettings) :
    Function.Injective fun files : FileStatuses => (statuses files settings).render := by
  intro files files' hsame
  have htext := congrArg String.toList hsame
  dsimp only at htext
  rw [statuses_eq_definition, statuses_eq_definition, Definition.text, Definition.text] at htext
  have hinner := (List.cons.inj (List.cons.inj (List.append_cancel_left htext)).2).2
  have hbody : delivered (statusesDefinition files settings).body =
      delivered (statusesDefinition files' settings).body :=
    List.append_cancel_right hinner
  obtain ⟨body, hcarries, hread⟩ := readDefinition_statuses files settings
  obtain ⟨body', hcarries', hread'⟩ := readDefinition_statuses files' settings
  rw [hbody] at hcarries
  rw [hcarries.unique hcarries', hread', Option.some.injEq] at hread
  exact setStatements_injective (List.append_cancel_left hread).symm

/-- Reading the definition of the command that shows statuses from left to right finds the options
of the settings, and then each file with its lines and their statuses, in their order; a file that
is cleared has none.  Neither a path nor an option ends the string that it stands in.  So the command
tells the statuses apart. -/
theorem statuses_read_back (settings : EditorSettings) :
    (∀ files : FileStatuses,
      (statuses files settings).render.toList = (statusesDefinition files settings).text ∧
      (∃ body, Carries quoteMark (delivered (statusesDefinition files settings).body) body ∧
        Statement.readDefinition body = some (declarations settings ++
          files.entries.map fun e => .set e.1.text e.2.entries)) ∧
      ∀ e ∈ files.entries,
        (e.2.Ascending → e.2.entries.Pairwise fun spec later => spec.1 < later.1) ∧
        ∃ inner, delivered (fileStatuses e.1 e.2) =
            "    try ".toList ++ '%' :: openBrace :: (inner ++ [closeBrace, '\n']) ∧
          ∀ rest, readBraced 0 (inner ++ closeBrace :: rest) = some (inner, rest) ↔
            Paired e.1.text.toList) ∧
    Function.Injective fun files : FileStatuses => (statuses files settings).render := by
  refine ⟨?_, statuses_injective settings⟩
  intro files
  refine ⟨statuses_eq_definition files settings, readDefinition_statuses files settings, ?_⟩
  intro e _
  refine ⟨?_, fileStatuses_ends_iff e.1 e.2⟩
  intro hascending
  exact hascending.imp Key.before_nat_iff.1

namespace ShownStatusesWitness

/-- A path that looks like the end of its file and the start of another one. -/
def path : Path :=
  ⟨"/p/it's\" \"7|\x7b%opt\x7bkiwi_color_fail\x7d\x7d%opt\x7bkiwi_status_chars\x7d\" \x7d\n    50%"⟩

def lines : LineStatuses := ⟨[(5, .success), (16, .fail)]⟩

def files : FileStatuses := ⟨[(path, lines), (⟨"/p/b.ts"⟩, .empty)]⟩

/-- The same with the lines on the other file. -/
def others : FileStatuses := ⟨[(path, .empty), (⟨"/p/b.ts"⟩, lines)]⟩

theorem statuses_read_back_disguised :
    (∃ body, Carries quoteMark (delivered (statusesDefinition files .standard).body) body ∧
      Statement.readDefinition body = some
        [.declare "kiwi_status_chars" "██", .declare "kiwi_color_uncovered" "rgb:434343",
          .declare "kiwi_color_success" "rgb:a1b56b", .declare "kiwi_color_fail" "rgb:ab4434",
          .set path.text [(5, .success), (16, .fail)], .set "/p/b.ts" []]) ∧
    (lines.Ascending ∧ lines.entries.Pairwise fun spec later => spec.1 < later.1) ∧
    (files ≠ others ∧
      (statuses files .standard).render ≠ (statuses others .standard).render) := by
  obtain ⟨hread, hinjective⟩ := statuses_read_back .standard
  obtain ⟨-, ⟨body, hcarries, hbody⟩, hfiles⟩ := hread files
  have hlines : lines.Ascending := by decide
  have hne : files ≠ others := by decide
  exact ⟨⟨body, hcarries, hbody.trans rfl⟩,
    ⟨hlines, (hfiles _ List.mem_cons_self).1 hlines⟩, hne, fun hsame => hne (hinjective hsame)⟩

end ShownStatusesWitness

end LiveTest.Commands
