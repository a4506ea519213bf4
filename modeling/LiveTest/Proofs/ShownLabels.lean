import LiveTest.Proofs.AscendingKeys
import LiveTest.Proofs.CommandEnds
import LiveTest.Proofs.Delivery
import LiveTest.Proofs.LabelSpecs
/-!
What the editor is told to show.  The command that shows labels is made of the commands that set the
labels of its files, as they are written word by word.  So undoing its quotes layer by layer finds
the path of each file and the line, the colour and the text of each of its labels, with one more
label to keep the column open.  The body of the definition is read as it was written; where the
editor takes it to end depends on the braces in it alone.
-/

namespace LiveTest.Commands

open Braces Quotes
open Piece (fixed embedded)

/-- A label as it is to be shown. -/
def spec (width : Nat) (line : Int) (label : Label) : Spec :=
  ⟨line, "kiwi_color_" ++ label.severity.name ++ "_notification", Text.fit width label.text⟩

/-- The labels of a file as they are to be shown, and if there are any a blank one on a line that no
text has. -/
def fileSpecs (width : Nat) (file : Path) (lines : LineLabels) : FileSpecs where
  path := file.text
  specs := lines.entries.map (fun e => spec width e.1 e.2) ++
    if lines.isEmpty then [] else [spec width (-1) ⟨" ", .normal⟩]

theorem flatMap_eq_self {f : Char → List Char} {cs : List Char} (h : ∀ c ∈ cs, f c = [c]) :
    cs.flatMap f = cs := by
  rw [List.flatMap_congr h, List.flatMap_singleton']

theorem inBars_repr (n : Int) :
    ((n.repr.toList.map Glyph.char).flatMap Glyph.inQuotes).flatMap Quoting.inBars =
      n.repr.toList := by
  have hplain : ∀ c ∈ n.repr.toList, c ≠ '"' ∧ c ≠ '%' ∧ c ≠ '|' := by
    intro c hc
    refine ⟨?_, ?_, ?_⟩ <;> rintro rfl <;> rcases mem_repr_int hc with h | h <;> cases h
  rw [List.flatMap_map, List.flatMap_assoc]
  apply flatMap_eq_self
  intro c hc
  obtain ⟨hquote, hpercent, hbar⟩ := hplain c hc
  simp [Glyph.inQuotes, Quoting.inDoubleQuotes, Quoting.inBars, hquote, hpercent, hbar]

/-- The name of the option with a label's colour has no bars. -/
theorem inBars_color (severity : Severity) :
    ("kiwi_color_" ++ severity.name ++ "_notification").toList.flatMap Quoting.inBars =
      "kiwi_color_".toList ++ (severity.name.toList ++ "_notification".toList) := by
  cases severity <;> decide

/-- What stands between the line of a label and the option with its colour. -/
def frame : List Glyph :=
  .char '|' :: (Markup.face Spec.defaultFace).written ++ [.char ' ', .char '\x7b']

/-- How a spec stands in the definition. -/
theorem inBars_inQuotes_glyphs (s : Spec) :
    (s.glyphs.flatMap Glyph.inQuotes).flatMap Quoting.inBars =
      s.line.repr.toList ++ ("||\x7bDefault\x7d \x7b%opt\x7b".toList ++
        (s.color.toList.flatMap Quoting.inBars ++
          ('\x7d' :: '\x7d' :: (Quoting.lineSpecText s.text).toList))) := by
  have hframe : (frame.flatMap Glyph.inQuotes).flatMap Quoting.inBars =
      "||\x7bDefault\x7d \x7b".toList := by decide
  have hglyphs : s.glyphs = s.line.repr.toList.map Glyph.char ++
      (frame ++ (Glyph.option s.color :: Glyph.char '\x7d' ::
        (s.text.toList.map Markup.char).flatMap Markup.written)) := by
    simp [Spec.glyphs, Spec.markup, frame, Markup.written, Markup.escape, Markup.isSpecial]
  have hmark : "||\x7bDefault\x7d \x7b%opt\x7b".toList =
      "||\x7bDefault\x7d \x7b".toList ++ '%' :: Glyph.optionMark := by decide
  rw [hglyphs, List.flatMap_append, List.flatMap_append, inBars_repr, List.flatMap_append,
    List.flatMap_append, hframe, toList_lineSpecText, hmark]
  simp [Glyph.inQuotes, Glyph.inString, Glyph.optionMark, Quoting.inDoubleQuotes, Quoting.inBars]

theorem plain_labelSpec (width : Nat) (line : Int) (label : Label) :
    (labelSpec width line label).flatMap Piece.plain =
      (' ' :: (Word.quoted (spec width line label).glyphs).written).flatMap Quoting.inBars := by
  have hopen : " \"".toList = [' ', '"'] := rfl
  have hcolor : "||\x7bDefault\x7d \x7b%opt\x7bkiwi_color_".toList =
      "||\x7bDefault\x7d \x7b%opt\x7b".toList ++ "kiwi_color_".toList := by decide
  have hclose : "_notification\x7d\x7d".toList = "_notification".toList ++ ['\x7d', '\x7d'] := by
    decide
  have hend : "\"".toList = ['"'] := rfl
  have hword : ∀ glyphs : List Glyph,
      (' ' :: (Word.quoted glyphs).written).flatMap Quoting.inBars =
        ' ' :: '"' :: ((glyphs.flatMap Glyph.inQuotes).flatMap Quoting.inBars ++ ['"']) := by
    simp [Word.written, Quoting.inBars]
  rw [hword, inBars_inQuotes_glyphs, spec, inBars_color]
  simp only [labelSpec, List.flatMap_cons, List.flatMap_nil, Piece.plain, String.toList_append,
    hopen, hcolor, hclose, hend, List.append_assoc, List.cons_append, List.nil_append]
  rfl

theorem plain_sentinelSpec (width : Nat) (lines : LineLabels) :
    (sentinelSpec width lines).flatMap Piece.plain =
      (if lines.isEmpty then [] else [spec width (-1) ⟨" ", .normal⟩]).flatMap fun s =>
        (' ' :: (Word.quoted s.glyphs).written).flatMap Quoting.inBars := by
  rw [sentinelSpec]
  split
  · rfl
  · rw [plain_labelSpec, List.flatMap_singleton]
    rfl

theorem plain_specs (width : Nat) (file : Path) (lines : LineLabels) :
    (lines.entries.flatMap fun e => labelSpec width e.1 e.2).flatMap Piece.plain ++
        (sentinelSpec width lines).flatMap Piece.plain =
      (((fileSpecs width file lines).specs.map fun s => Word.quoted s.glyphs).flatMap
        fun w => ' ' :: w.written).flatMap Quoting.inBars := by
  have hlabels : (lines.entries.flatMap fun e => labelSpec width e.1 e.2).flatMap Piece.plain =
      (lines.entries.map fun e => spec width e.1 e.2).flatMap fun s =>
        (' ' :: (Word.quoted s.glyphs).written).flatMap Quoting.inBars := by
    rw [List.flatMap_assoc, List.flatMap_map]
    apply List.flatMap_congr
    intro e _
    exact plain_labelSpec width e.1 e.2
  rw [hlabels, plain_sentinelSpec, ← List.flatMap_append, List.flatMap_map, List.flatMap_assoc]
  rfl

/-- What is written for a file is the line that tells the editor its labels. -/
theorem plain_fileLabels (width : Nat) (file : Path) (lines : LineLabels) :
    (fileLabels width file lines).flatMap Piece.plain = (fileSpecs width file lines).line := by
  -- The pieces of the script end within words, so each is told by the words that it holds.
  have hopen : "    try %| set-option ".toList = "    ".toList ++ (FileSpecs.tryMark ++
      (' ' :: ((Word.bare "set-option").written ++ [' '])).flatMap Quoting.inBars) := by decide
  have hbuffer : (Quoting.barred (Quoting.doubleQuoted ("buffer=" ++ file.text))).toList =
      (Word.quoted ((FileSpecs.bufferMark ++ file.text.toList).map .char)).written.flatMap
        Quoting.inBars := by
    rw [toList_barred_doubleQuoted, String.toList_append]
    rfl
  have hoption : " kiwi_line_notifications %val\x7btimestamp\x7d".toList =
      (' ' :: ((Word.bare "kiwi_line_notifications").written ++
        ' ' :: (Word.bare "%val\x7btimestamp\x7d").written)).flatMap Quoting.inBars := by decide
  have hend : " |\n".toList = [' '].flatMap Quoting.inBars ++ ['|', '\n'] := by decide
  have hcommand : (fileSpecs width file lines).command =
      ' ' :: ((Word.bare "set-option").written ++ [' ']) ++
        ((Word.quoted ((FileSpecs.bufferMark ++ file.text.toList).map .char)).written ++
          (' ' :: ((Word.bare "kiwi_line_notifications").written ++
            ' ' :: (Word.bare "%val\x7btimestamp\x7d").written) ++
          (((fileSpecs width file lines).specs.map fun s => Word.quoted s.glyphs).flatMap
            (fun w => ' ' :: w.written) ++ [' ']))) := by
    rw [FileSpecs.command, FileSpecs.words]
    simp only [List.flatMap_cons, List.append_assoc, List.cons_append, List.nil_append]
    rfl
  rw [FileSpecs.line, hcommand, List.flatMap_append, List.flatMap_append, List.flatMap_append,
    List.flatMap_append, ← plain_specs, fileLabels]
  simp only [List.flatMap_append, List.flatMap_cons, List.flatMap_nil, Piece.plain, hopen, hbuffer,
    hoption, hend, List.append_assoc, List.append_nil]

theorem plain_body (files : FileLabels) (settings : EditorSettings) :
    (labelsDefinition files settings).body.flatMap Piece.plain =
      '\n' :: (files.entries.map fun e => fileSpecs settings.labelWidth e.1 e.2).flatMap
        FileSpecs.line := by
  have hfiles : (files.entries.flatMap fun e =>
      fileLabels settings.labelWidth e.1 e.2).flatMap Piece.plain =
      (files.entries.map fun e => fileSpecs settings.labelWidth e.1 e.2).flatMap
        FileSpecs.line := by
    rw [List.flatMap_assoc, List.flatMap_map]
    apply List.flatMap_congr
    intro e _
    exact plain_fileLabels settings.labelWidth e.1 e.2
  rw [labelsDefinition, List.flatMap_append, hfiles]
  rfl

theorem unquoted_labelsBody (files : FileLabels) (settings : EditorSettings) :
    Unquoted (labelsDefinition files settings).body := by
  rw [labelsDefinition, unquoted_append, unquoted_fixed]
  refine ⟨⟨quoteless_ofList rfl, unquoted_nil⟩, ?_⟩
  exact unquoted_flatMap fun e _ => unquoted_fileLabels settings.labelWidth e.1 e.2

theorem proper_spec (width : Nat) (line : Int) (label : Label) :
    (spec width line label).Proper := by
  have hcolor : ∀ severity : Severity,
      (Glyph.option ("kiwi_color_" ++ severity.name ++ "_notification")).Proper := by
    intro severity
    cases severity <;> exact ⟨by decide, by decide⟩
  exact hcolor label.severity

theorem proper_of_mem_fileSpecs {width : Nat} {file : Path} {lines : LineLabels} {s : Spec}
    (h : s ∈ (fileSpecs width file lines).specs) : s.Proper := by
  rcases List.mem_append.1 h with h | h
  · obtain ⟨e, -, rfl⟩ := List.mem_map.1 h
    exact proper_spec _ _ _
  · split at h
    · cases h
    · rw [List.mem_singleton.1 h]
      exact proper_spec _ _ _

theorem readDefinition_labels (files : FileLabels) (settings : EditorSettings) :
    ∃ body, Carries quoteMark (delivered (labelsDefinition files settings).body) body ∧
      FileSpecs.readDefinition body =
        some (files.entries.map fun e => fileSpecs settings.labelWidth e.1 e.2) := by
  refine ⟨(labelsDefinition files settings).body.flatMap Piece.plain, ?_, ?_⟩
  · have hcarries := carries_render (unquoted_labelsBody files settings)
    rwa [toList_render, Script.plain, String.toList_ofList] at hcarries
  · rw [plain_body]
    apply FileSpecs.readDefinition_flatMap_line
    intro f hf s hs
    obtain ⟨e, -, rfl⟩ := List.mem_map.1 hf
    exact proper_of_mem_fileSpecs hs

theorem pairwise_line_specs {lines : LineLabels} (h : lines.Ascending) (width : Nat) :
    (lines.entries.map fun e => spec width e.1 e.2).Pairwise fun s t => s.line < t.line := by
  rw [List.pairwise_map]
  apply h.imp
  intro a b hab
  exact Int.ofNat_lt.2 (Key.before_nat_iff.1 hab)

/-- The label that keeps the column open is the only one on its line. -/
theorem countP_sentinel (width : Nat) (file : Path) (lines : LineLabels) :
    ((fileSpecs width file lines).specs.countP fun s => s.line = -1) =
      if lines.isEmpty then 0 else 1 := by
  have hlabels : (lines.entries.map fun e => spec width e.1 e.2).countP
      (fun s => s.line = -1) = 0 := by
    rw [List.countP_eq_zero]
    intro s hs
    obtain ⟨e, -, rfl⟩ := List.mem_map.1 hs
    simp [spec]
  rw [fileSpecs, List.countP_append, hlabels, Nat.zero_add]
  split
  · rfl
  · rfl

theorem passesQuotes_doubleQuoted (text : String) :
    ∃ inner, (embedded (Quoting.barred (Quoting.doubleQuoted text))).render =
        '"' :: (inner ++ ['"']) ∧ PassesQuotes inner (text.toList.map .char) := by
  refine ⟨_, ?_, passesQuotes fun _ => Glyph.proper_of_mem_map_char⟩
  rw [Piece.render, toList_barred_doubleQuoted, List.flatMap_cons, List.flatMap_append,
    List.flatMap_append, List.flatMap_append]
  rfl

theorem passesQuotes_escapeLineSpec (text : String) :
    ∃ glyphs, PassesQuotes (Quoting.escapeLineSpec text).toList glyphs ∧
      Passes Markup.read glyphs (text.toList.map .char) := by
  refine ⟨(text.toList.map Markup.char).flatMap Markup.written, ?_, ?_⟩
  · rw [Quoting.escapeLineSpec, toList_render, delivered_cons, delivered_nil, List.append_nil,
      Piece.render, toList_lineSpecText]
    apply passesQuotes
    intro g hg
    obtain ⟨s, hs, hg⟩ := List.mem_flatMap.1 hg
    obtain ⟨c, -, rfl⟩ := List.mem_map.1 hs
    exact Glyph.proper_of_mem_map_char hg
  · exact Markup.passes_flatMap_written fun _ => Markup.proper_of_mem_map_char

theorem length_fit {width : Nat} {text : String} (h : 3 ≤ width ∨ text.length ≤ width) :
    (Text.fit width text).length = width := by
  rw [← String.length_toList] at h
  rw [Text.fit, String.length_ofList, Text.fitChars]
  split
  · simp; omega
  · simp; omega

/-- Reading the definition of the command that shows labels, quotes by quotes, finds each file with
its labels as they are to be shown and nothing else.  The labels stand in the order of their lines
and are followed by the one that keeps the column open.  Neither a path nor a label ends a string
that it stands in, and a label sets no face. -/
theorem labels_read_back (files : FileLabels) (settings : EditorSettings) :
    ((labels files settings).render.toList = (labelsDefinition files settings).text ∧
      ∃ body, Carries quoteMark (delivered (labelsDefinition files settings).body) body ∧
        FileSpecs.readDefinition body =
          some (files.entries.map fun e => fileSpecs settings.labelWidth e.1 e.2)) ∧
    (∀ e ∈ files.entries,
      (e.2.Ascending → (e.2.entries.map fun l =>
        spec settings.labelWidth l.1 l.2).Pairwise fun s t => s.line < t.line) ∧
      ((fileSpecs settings.labelWidth e.1 e.2).specs.countP fun s => s.line = -1) =
        if e.2.isEmpty then 0 else 1) ∧
    (∀ file : Path, ∃ inner,
      (embedded (Quoting.barred (Quoting.doubleQuoted ("buffer=" ++ file.text)))).render =
        '"' :: (inner ++ ['"']) ∧
      PassesQuotes inner (("buffer=" ++ file.text).toList.map .char)) ∧
    (∀ text : String, ∃ glyphs,
      PassesQuotes (Quoting.escapeLineSpec text).toList glyphs ∧
      Passes Markup.read glyphs (text.toList.map .char)) ∧
    (∀ text : String, 3 ≤ settings.labelWidth ∨ text.length ≤ settings.labelWidth →
      (Text.fit settings.labelWidth text).length = settings.labelWidth) :=
  ⟨⟨labels_eq_definition files settings, readDefinition_labels files settings⟩,
    fun e _ => ⟨fun h => pairwise_line_specs h _, countP_sentinel _ e.1 e.2⟩,
    fun file => passesQuotes_doubleQuoted ("buffer=" ++ file.text),
    passesQuotes_escapeLineSpec, fun _ h => length_fit h⟩

namespace ShownLabelsWitness

/-- Two labels, the first one with all that has a meaning in some layer and too long to be shown. -/
def lines : LineLabels := ⟨[(3, ⟨"''|\\\"%opt\x7bx\x7d\" -1||", .error⟩), (8, ⟨"ok", .normal⟩)]⟩

def marks : FileLabels := ⟨[(⟨"/p/it's|\"50%\".ts"⟩, lines), (⟨"/p/b.ts"⟩, .empty)]⟩

def settings : EditorSettings := { EditorSettings.standard with labelWidth := 13 }

theorem labels_read_back_marked :
    (∃ body, Carries quoteMark (delivered (labelsDefinition marks settings).body) body ∧
      FileSpecs.readDefinition body = some
        [⟨"/p/it's|\"50%\".ts",
          [⟨3, "kiwi_color_error_notification", "''|\\\"%opt\x7b .."⟩,
            ⟨8, "kiwi_color_normal_notification", "ok           "⟩,
            ⟨-1, "kiwi_color_normal_notification", "             "⟩]⟩,
          ⟨"/p/b.ts", []⟩]) ∧
    (lines.Ascending ∧ (lines.entries.map fun l =>
      spec 13 l.1 l.2).Pairwise fun s t => s.line < t.line) ∧
    (3 ≤ settings.labelWidth ∧ (Text.fit 13 "").length = 13) := by
  obtain ⟨⟨-, body, hcarries, hread⟩, horder, -, -, hwidth⟩ := labels_read_back marks settings
  have hlines : lines.Ascending := by decide
  have hwide : 3 ≤ settings.labelWidth := by decide
  exact ⟨⟨body, hcarries, hread.trans (by decide)⟩,
    ⟨hlines, (horder _ List.mem_cons_self).1 hlines⟩, hwide, hwidth "" (.inl hwide)⟩

end ShownLabelsWitness

end LiveTest.Commands
