import LiveTest.Proofs.CommandTexts
import LiveTest.Proofs.NestedQuotes
/-!
Specs of labels.  The labels of a file are set by one command, each label by a word that tells its
line, its colour and its text.  These are the readers of such commands and what they read: every
command that is written word by word is read back, whatever the path and the texts may be.
-/

namespace LiveTest

/-- A word of a command. -/
inductive Word
  | bare (text : String)
  | quoted (glyphs : List Glyph)
deriving DecidableEq

namespace Word

open Quotes

/-- Read the words of a command. -/
def readWords (cs : List Char) : Option (List Word) :=
  match cs with
  | [] => some []
  | c :: rest =>
    if c = ' ' then readWords rest
    else if c = '"' then
      match _h : readMarked '"' rest with
      | none => none
      | some (string, later) =>
        (Glyph.expand string).bind fun glyphs => (readWords later).map (.quoted glyphs :: ·)
    else
      (readWords (rest.dropWhile (· ≠ ' '))).map
        (.bare (String.ofList (c :: rest.takeWhile (· ≠ ' '))) :: ·)
termination_by cs.length
decreasing_by
  · exact Nat.lt_succ_self _
  · exact Nat.lt_succ_of_le (length_le_of_readMarked _h)
  · exact Nat.lt_succ_of_le (List.dropWhile_suffix _).length_le

def written : Word → List Char
  | bare text => text.toList
  | quoted glyphs => '"' :: (glyphs.flatMap Glyph.inQuotes ++ ['"'])

/-- The word ends where it is meant to. -/
def Proper : Word → Prop
  | bare text => text.toList ≠ [] ∧ text.toList.head? ≠ some '"' ∧ ' ' ∉ text.toList
  | quoted glyphs => ∀ g ∈ glyphs, g.Proper

theorem readWords_blank (rest : List Char) : readWords (' ' :: rest) = readWords rest := by
  rw [readWords, if_pos rfl]

theorem readWords_quote {rest string later : List Char}
    (h : readMarked '"' rest = some (string, later)) :
    readWords ('"' :: rest) =
      (Glyph.expand string).bind fun glyphs => (readWords later).map (.quoted glyphs :: ·) := by
  rw [readWords, if_neg (by decide), if_pos rfl]
  split
  · next hnone => rw [h] at hnone; cases hnone
  · next hsome => rw [h] at hsome; cases hsome; rfl

/-- A word is read up to the blank after it. -/
theorem readWords_written {w : Word} (h : w.Proper) (rest : List Char) :
    readWords (w.written ++ ' ' :: rest) = (readWords (' ' :: rest)).map (w :: ·) := by
  cases w with
  | bare text =>
      obtain ⟨hnil, hquote, hblank⟩ := h
      obtain ⟨c, cs, htext⟩ := List.exists_cons_of_ne_nil hnil
      rw [htext] at hquote hblank
      rw [List.mem_cons, not_or] at hblank
      have hc : c ≠ '"' := fun hc => hquote (congrArg some hc)
      rw [written, htext, List.cons_append, readWords, if_neg (Ne.symm hblank.1), if_neg hc,
        Text.takeWhile_ne_append hblank.2, Text.dropWhile_ne_append hblank.2, ← htext,
        String.ofList_toList]
  | quoted glyphs =>
      obtain ⟨string, hstring, hglyphs⟩ := Glyph.exists_carried h
      have hread : readMarked '"' (glyphs.flatMap Glyph.inQuotes ++ '"' :: ' ' :: rest) =
          some (string, ' ' :: rest) := hstring.read (by simp)
      rw [written, List.cons_append, List.append_assoc, List.singleton_append,
        readWords_quote hread, hglyphs.read_eq Glyph.expand_nil, Option.bind_some]

/-- The words of a command, a blank before each and at the end. -/
theorem readWords_flatMap {words : List Word} (h : ∀ w ∈ words, w.Proper) :
    readWords (words.flatMap (fun w => ' ' :: w.written) ++ [' ']) = some words := by
  induction words with
  | nil => rw [List.flatMap_nil, List.nil_append, readWords_blank, readWords]
  | cons w rest ih =>
      obtain ⟨hw, hrest⟩ := List.forall_mem_cons.1 h
      -- A word ends at the blank that the next one starts with, or at the last one.
      obtain ⟨later, hlater⟩ : ∃ later,
          rest.flatMap (fun w => ' ' :: w.written) ++ [' '] = ' ' :: later := by
        cases rest with
        | nil => exact ⟨[], rfl⟩
        | cons w' rest => exact ⟨_, rfl⟩
      rw [List.flatMap_cons, List.append_assoc, hlater, List.cons_append, readWords_blank,
        readWords_written hw, ← hlater, ih hrest]
      rfl

end Word

/-- Reading one by one what was written one by one. -/
theorem mapM_map_eq_some {α β : Type} {write : α → β} {read : β → Option α} {as : List α}
    (h : ∀ a ∈ as, read (write a) = some a) : (as.map write).mapM read = some as := by
  induction as with
  | nil => rfl
  | cons a rest ih =>
      obtain ⟨ha, hrest⟩ := List.forall_mem_cons.1 h
      rw [List.map_cons, List.mapM_cons, ha, ih hrest]
      rfl

def readNat? (cs : List Char) : Option Nat :=
  if cs ≠ [] ∧ cs.all Char.isDigit then some (Nat.ofDigitChars 10 cs 0) else none

def readInt? (cs : List Char) : Option Int :=
  if cs.head? = some '-' then (readNat? cs.tail).map fun n : Nat => -(n : Int)
  else (readNat? cs).map Int.ofNat

theorem readNat?_repr (n : Nat) : readNat? n.repr.toList = some n := by
  have hdigits : n.repr.toList.all Char.isDigit = true :=
    List.all_eq_true.2 fun c hc => isDigit_of_mem_repr hc
  have hnil : n.repr.toList ≠ [] := by
    simp
  rw [readNat?, if_pos ⟨hnil, hdigits⟩, Nat.repr_eq_ofList_toDigits, String.toList_ofList,
    Nat.ofDigitChars_toDigits (by decide) (by decide)]

theorem readInt?_repr (n : Int) : readInt? n.repr.toList = some n := by
  cases n with
  | ofNat n =>
      have hhead : n.repr.toList.head? ≠ some '-' := by
        intro hhead
        have hdigit := isDigit_of_mem_repr (List.mem_of_mem_head? hhead)
        cases hdigit
      change readInt? n.repr.toList = some (Int.ofNat n)
      rw [readInt?, if_neg hhead, readNat?_repr]
      rfl
  | negSucc n =>
      have hchars : (Int.negSucc n).repr.toList = '-' :: (n + 1).repr.toList := by
        change ("-" ++ (n + 1).repr).toList = _
        rw [String.toList_append]
        rfl
      rw [hchars, readInt?, if_pos List.head?_cons, List.tail_cons, readNat?_repr]
      rfl

/-- The glyphs as characters, if they are. -/
def Glyph.chars? (glyphs : List Glyph) : Option (List Char) :=
  glyphs.mapM fun
    | .char c => some c
    | .option _ => none

theorem Glyph.chars?_map_char (cs : List Char) : Glyph.chars? (cs.map .char) = some cs :=
  mapM_map_eq_some fun _ _ => rfl

/-- What is shown as characters, if it is. -/
def Markup.chars? (pieces : List Markup) : Option (List Char) :=
  pieces.mapM fun
    | .char c => some c
    | .face _ => none

theorem Markup.chars?_map_char (cs : List Char) : Markup.chars? (cs.map .char) = some cs :=
  mapM_map_eq_some fun _ _ => rfl

/-- A label as the editor is told to show it: its line, the option with its colour, its text. -/
structure Spec where
  line : Int
  color : String
  text : String
deriving DecidableEq

namespace Spec

/-- The face that a label starts with. -/
def defaultFace : List Glyph := "Default".toList.map .char

/-- Read a spec: a line up to the first bar, then markup that sets the default face, leaves a blank
and sets a colour, and characters. -/
def read? (glyphs : List Glyph) : Option Spec := do
  let line ← readInt? (← Glyph.chars? (glyphs.takeWhile (· ≠ .char '|')))
  match ← Markup.read (glyphs.dropWhile (· ≠ .char '|')).tail with
  | .face face :: .char c :: .face [.option color] :: text =>
    if face = defaultFace ∧ c = ' ' then
      return ⟨line, color, String.ofList (← Markup.chars? text)⟩
    else none
  | _ => none

def markup (s : Spec) : List Markup :=
  .face defaultFace :: .char ' ' :: .face [.option s.color] :: s.text.toList.map .char

def glyphs (s : Spec) : List Glyph :=
  s.line.repr.toList.map .char ++ .char '|' :: s.markup.flatMap Markup.written

theorem proper_of_mem_markup {s : Spec} : ∀ piece ∈ s.markup, piece.Proper := by
  have hdefault : (Markup.face defaultFace).Proper := by
    change Glyph.char '\x7d' ∉ defaultFace
    decide
  have hcolor : (Markup.face [.option s.color]).Proper := by
    simp [Markup.Proper]
  simp only [markup, List.forall_mem_cons]
  exact ⟨hdefault, trivial, hcolor, fun _ => Markup.proper_of_mem_map_char⟩

/-- The option with the colour ends where it is meant to. -/
def Proper (s : Spec) : Prop := (Glyph.option s.color).Proper

theorem option_not_mem_map_char (name : String) (cs : List Char) :
    Glyph.option name ∉ cs.map Glyph.char := by
  intro h
  obtain ⟨c, -, heq⟩ := List.mem_map.1 h
  cases heq

/-- The only option that a spec names is the one with its colour. -/
theorem eq_of_mem_glyphs {s : Spec} {name : String} (h : .option name ∈ s.glyphs) :
    name = s.color := by
  rcases List.mem_append.1 h with h | h
  · exact absurd h (option_not_mem_map_char name _)
  · rcases List.mem_cons.1 h with h | h
    · cases h
    · obtain ⟨piece, hpiece, h⟩ := List.mem_flatMap.1 h
      cases piece with
      | char c => exact absurd h (option_not_mem_map_char name _)
      | face face =>
          have hface : .option name ∈ face := by simpa [Markup.written] using h
          have hfaces : face = defaultFace ∨ face = [.option s.color] := by
            simpa [markup] using hpiece
          rcases hfaces with rfl | rfl
          · exact absurd hface (option_not_mem_map_char name _)
          · simpa using hface

theorem proper_of_mem_glyphs {s : Spec} (h : s.Proper) : ∀ g ∈ s.glyphs, g.Proper := by
  intro g hg
  cases g with
  | char c => trivial
  | option name => rwa [eq_of_mem_glyphs hg]

theorem read?_glyphs (s : Spec) : read? s.glyphs = some s := by
  have hbar : Glyph.char '|' ∉ s.line.repr.toList.map Glyph.char := by
    intro h
    obtain ⟨c, hc, heq⟩ := List.mem_map.1 h
    cases heq
    rcases mem_repr_int hc with h | h <;> cases h
  have hmarkup : Markup.read (s.markup.flatMap Markup.written) = some s.markup :=
    (Markup.passes_flatMap_written proper_of_mem_markup).read_eq Markup.read_nil
  rw [read?, glyphs, Text.takeWhile_ne_append hbar, Text.dropWhile_ne_append hbar, List.tail_cons,
    Glyph.chars?_map_char, hmarkup]
  simp [readInt?_repr, markup, Markup.chars?_map_char]

end Spec

/-- The labels that the editor is told to show in a file. -/
structure FileSpecs where
  path : String
  specs : List Spec
deriving DecidableEq

namespace FileSpecs

/-- What stands before the path of a file. -/
def bufferMark : List Char := "buffer=".toList

def readBuffer? (glyphs : List Glyph) : Option String := do
  let cs ← Glyph.chars? glyphs
  if bufferMark <+: cs then return String.ofList (cs.drop bufferMark.length) else none

def readSpecWord? : Word → Option Spec
  | .bare _ => none
  | .quoted glyphs => Spec.read? glyphs

/-- Read the command that sets the labels of a file. -/
def readSetOption? : List Word → Option FileSpecs
  | command :: .quoted buffer :: option :: stamp :: specs =>
    if command = .bare "set-option" ∧ option = .bare "kiwi_line_notifications" ∧
        stamp = .bare "%val\x7btimestamp\x7d" then do
      return ⟨← readBuffer? buffer, ← specs.mapM readSpecWord?⟩
    else none
  | _ => none

def words (f : FileSpecs) : List Word :=
  .bare "set-option" :: .quoted ((bufferMark ++ f.path.toList).map .char) ::
    .bare "kiwi_line_notifications" :: .bare "%val\x7btimestamp\x7d" ::
    f.specs.map fun s => .quoted s.glyphs

theorem readBuffer?_map_char (path : String) :
    readBuffer? ((bufferMark ++ path.toList).map .char) = some path := by
  simp [readBuffer?, Glyph.chars?_map_char, -List.map_append]

theorem readSetOption?_words (f : FileSpecs) : readSetOption? f.words = some f := by
  have hspecs : (f.specs.map fun s => Word.quoted s.glyphs).mapM readSpecWord? = some f.specs :=
    mapM_map_eq_some fun s _ => s.read?_glyphs
  rw [words, readSetOption?, if_pos ⟨rfl, rfl, rfl⟩, readBuffer?_map_char, hspecs]
  rfl

/-- What stands before a command whose failure does not matter. -/
def tryMark : List Char := "try %|".toList

open Quotes

/-- Read the commands of a definition, each of which may fail. -/
def readTries (cs : List Char) : Option (List (List Char)) :=
  match cs with
  | [] => some []
  | c :: rest =>
    if c = ' ' ∨ c = '\n' then readTries rest
    else if tryMark <+: c :: rest then
      match _h : readMarked '|' ((c :: rest).drop tryMark.length) with
      | none => none
      | some (command, later) => (readTries later).map (command :: ·)
    else none
termination_by cs.length
decreasing_by
  · exact Nat.lt_succ_self _
  · have hlater := length_le_of_readMarked _h
    rw [List.length_drop] at hlater
    have hmark : tryMark.length = 6 := by decide
    rw [List.length_cons] at hlater ⊢
    omega

/-- Read the definition of the command that shows labels. -/
def readDefinition (body : List Char) : Option (List FileSpecs) := do
  let commands ← readTries body
  commands.mapM fun command => do readSetOption? (← Word.readWords command)

/-- The command that sets the labels of a file. -/
def command (f : FileSpecs) : List Char := f.words.flatMap (fun w => ' ' :: w.written) ++ [' ']

/-- Its line in the definition. -/
def line (f : FileSpecs) : List Char :=
  "    ".toList ++ (tryMark ++ (f.command.flatMap Quoting.inBars ++ ['|', '\n']))

theorem readTries_blank {c : Char} (hc : c = ' ' ∨ c = '\n') (rest : List Char) :
    readTries (c :: rest) = readTries rest := by
  rw [readTries, if_pos hc]

theorem readTries_try {rest command later : List Char}
    (h : readMarked '|' rest = some (command, later)) :
    readTries (tryMark ++ rest) = (readTries later).map (command :: ·) := by
  have hmark : tryMark = 't' :: tryMark.tail := by decide
  have hdrop : ('t' :: (tryMark.tail ++ rest)).drop tryMark.length = rest := by
    rw [← List.cons_append, ← hmark, List.drop_left]
  have hprefix : tryMark <+: 't' :: (tryMark.tail ++ rest) := by
    rw [← List.cons_append, ← hmark]
    exact List.prefix_append _ _
  rw [hmark, List.cons_append, readTries, if_neg (by decide), if_pos hprefix]
  split
  · next hnone => rw [hdrop, h] at hnone; cases hnone
  · next hsome => rw [hdrop, h] at hsome; cases hsome; rfl

theorem passes_line (f : FileSpecs) : Passes readTries f.line [f.command] := by
  intro rest
  have hread : readMarked '|' (f.command.flatMap Quoting.inBars ++ '|' :: '\n' :: rest) =
      some (f.command, '\n' :: rest) := (carries_inBars f.command).read (by simp)
  have hline : f.line ++ rest = ' ' :: ' ' :: ' ' :: ' ' ::
      (tryMark ++ (f.command.flatMap Quoting.inBars ++ '|' :: '\n' :: rest)) := by
    rw [line, List.append_assoc, List.append_assoc, List.append_assoc]
    rfl
  rw [hline, readTries_blank (.inl rfl), readTries_blank (.inl rfl), readTries_blank (.inl rfl),
    readTries_blank (.inl rfl), readTries_try hread, readTries_blank (.inr rfl)]
  rfl

theorem readTries_flatMap_line (files : List FileSpecs) :
    readTries (files.flatMap line) = some (files.map command) :=
  (passes_flatMap fun f _ => passes_line f).read_eq (by rw [readTries])

theorem proper_of_mem_words {f : FileSpecs} (h : ∀ s ∈ f.specs, s.Proper) :
    ∀ w ∈ f.words, w.Proper := by
  have hcommand : (Word.bare "set-option").Proper := ⟨by decide, by decide, by decide⟩
  have hbuffer : (Word.quoted ((bufferMark ++ f.path.toList).map .char)).Proper :=
    fun _ => Glyph.proper_of_mem_map_char
  have hoption : (Word.bare "kiwi_line_notifications").Proper := ⟨by decide, by decide, by decide⟩
  have hstamp : (Word.bare "%val\x7btimestamp\x7d").Proper := ⟨by decide, by decide, by decide⟩
  have hspecs : ∀ w ∈ f.specs.map fun s => Word.quoted s.glyphs, w.Proper := by
    intro w hw
    obtain ⟨s, hs, rfl⟩ := List.mem_map.1 hw
    exact Spec.proper_of_mem_glyphs (h s hs)
  simp only [words, List.forall_mem_cons]
  exact ⟨hcommand, hbuffer, hoption, hstamp, hspecs⟩

theorem readWords_command {f : FileSpecs} (h : ∀ s ∈ f.specs, s.Proper) :
    Word.readWords f.command = some f.words :=
  Word.readWords_flatMap (proper_of_mem_words h)

/-- Reading a definition finds what was written in it. -/
theorem readDefinition_flatMap_line {files : List FileSpecs}
    (h : ∀ f ∈ files, ∀ s ∈ f.specs, s.Proper) :
    readDefinition ('\n' :: files.flatMap line) = some files := by
  have hcommands : (files.map command).mapM
      (fun command => do readSetOption? (← Word.readWords command)) = some files := by
    apply mapM_map_eq_some
    intro f hf
    rw [readWords_command (h f hf)]
    exact readSetOption?_words f
  rw [readDefinition, readTries_blank (.inr rfl), readTries_flatMap_line]
  exact hcommands

end FileSpecs

end LiveTest
