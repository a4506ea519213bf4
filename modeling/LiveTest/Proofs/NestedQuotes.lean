import LiveTest.Proofs.QuoteRuns
/-!
Strings in strings.  The labels of a file stand in four layers: between single quotes, between bars,
between double quotes and in markup.  Every layer is written character by character and read by a
scan that knows nothing of the others.  What a layer carries is told by what is read of it whatever
follows, so that pieces are put together without looking at their seams.
-/

namespace LiveTest

section Pieces

universe u v w

variable {α : Type u} {β : Type v} {read : List α → Option (List β)}

/-- The reader reads `written` as `meant`, whatever follows. -/
def Passes (read : List α → Option (List β)) (written : List α) (meant : List β) : Prop :=
  ∀ rest, read (written ++ rest) = (read rest).map (meant ++ ·)

theorem Passes.append {written written' : List α} {meant meant' : List β}
    (h : Passes read written meant) (h' : Passes read written' meant') :
    Passes read (written ++ written') (meant ++ meant') := by
  intro rest
  rw [List.append_assoc, h, h', Option.map_map]
  simp [Function.comp_def]

theorem passes_flatMap {γ : Type w} {f : γ → List α} {g : γ → β} {pieces : List γ}
    (h : ∀ piece ∈ pieces, Passes read (f piece) [g piece]) :
    Passes read (pieces.flatMap f) (pieces.map g) := by
  induction pieces with
  | nil => intro rest; simp
  | cons piece rest ih =>
      obtain ⟨hpiece, hrest⟩ := List.forall_mem_cons.1 h
      exact hpiece.append (ih hrest)

theorem Passes.read_eq {written : List α} {meant : List β} (h : Passes read written meant)
    (hnil : read [] = some []) : read written = some meant := by
  have hend := h []
  rwa [List.append_nil, hnil, Option.map_some, List.append_nil] at hend

end Pieces

theorem length_tail_dropWhile_le {α : Type} (p : α → Bool) (as : List α) :
    (as.dropWhile p).tail.length ≤ as.length := by
  have h := (List.dropWhile_suffix p : as.dropWhile p <:+ as).length_le
  rw [List.length_tail]
  omega

/-- What a double-quoted string says: a character, or the value of an option. -/
inductive Glyph
  | char (c : Char)
  | option (name : String)
deriving DecidableEq

namespace Glyph

open Quotes

/-- What stands before the name of an option. -/
def optionMark : List Char := ['o', 'p', 't', '\x7b']

/-- Find the expansions in a string.  Two percent signs stand for one, and a single one takes the
value of an option. -/
def expand (cs : List Char) : Option (List Glyph) :=
  match cs with
  | [] => some []
  | c :: rest =>
    if c ≠ '%' then (expand rest).map (.char c :: ·)
    else if rest.head? = some '%' then (expand rest.tail).map (.char '%' :: ·)
    else if optionMark <+: rest ∧ '\x7d' ∈ rest then
      (expand ((rest.drop optionMark.length).dropWhile (· ≠ '\x7d')).tail).map
        (.option (String.ofList ((rest.drop optionMark.length).takeWhile (· ≠ '\x7d'))) :: ·)
    else none
termination_by cs.length
decreasing_by
  · exact Nat.lt_succ_self _
  · exact Nat.lt_succ_of_le (List.length_tail ▸ Nat.sub_le _ _)
  · refine Nat.lt_succ_of_le (Nat.le_trans (length_tail_dropWhile_le _ _) ?_)
    exact List.length_drop ▸ Nat.sub_le _ _

theorem expand_nil : expand [] = some [] := by
  rw [expand]

/-- How a glyph stands in a string. -/
def inString : Glyph → List Char
  | char c => if c = '%' then [c, c] else [c]
  | option name => '%' :: (optionMark ++ name.toList ++ ['\x7d'])

/-- How a glyph stands between double quotes. -/
def inQuotes : Glyph → List Char
  | char c => Quoting.inDoubleQuotes c
  | option name => (option name).inString

/-- The name of an option ends where it is meant to. -/
def Proper : Glyph → Prop
  | char _ => True
  | option name => '"' ∉ name.toList ∧ '\x7d' ∉ name.toList

theorem proper_of_mem_map_char {cs : List Char} {g : Glyph} (h : g ∈ cs.map char) : g.Proper := by
  obtain ⟨c, -, rfl⟩ := List.mem_map.1 h
  trivial

theorem carries_inQuotes {g : Glyph} (h : g.Proper) : Carries '"' g.inQuotes g.inString := by
  cases g with
  | char c =>
      rw [inQuotes, inString, Quoting.inDoubleQuotes]
      by_cases hquote : c = '"'
      · subst hquote
        exact carries_two
      · by_cases hpercent : c = '%'
        · subst hpercent
          exact (carries_of_ne (by decide)).append (carries_of_ne (by decide))
        · rw [if_neg (by simp [hquote, hpercent]), if_neg hpercent]
          exact carries_of_ne hquote
  | option name =>
      apply carries_of_not_mem
      have hname := h.1
      simpa [inQuotes, inString, optionMark] using hname

theorem passes_inString {g : Glyph} (h : g.Proper) : Passes expand g.inString [g] := by
  intro rest
  cases g with
  | char c =>
      rw [inString]
      split
      · next hc =>
          subst hc
          rw [List.cons_append, expand]
          simp
      · next hc =>
          rw [List.singleton_append, expand, if_pos hc]
          rfl
  | option name =>
      have hname : inString (option name) ++ rest =
          '%' :: (optionMark ++ (name.toList ++ '\x7d' :: rest)) := by
        simp [inString]
      rw [hname, expand, if_neg (by simp), if_neg (by simp [optionMark]), if_pos,
        List.drop_left, Text.takeWhile_ne_append h.2, Text.dropWhile_ne_append h.2,
        List.tail_cons, String.ofList_toList]
      · rfl
      · exact ⟨List.prefix_append _ _, by simp⟩

/-- What is written between double quotes is read as it is meant. -/
theorem exists_carried {glyphs : List Glyph} (h : ∀ g ∈ glyphs, g.Proper) :
    ∃ string, Carries '"' (glyphs.flatMap inQuotes) string ∧ Passes expand string glyphs := by
  refine ⟨glyphs.flatMap inString, carries_flatMap fun g hg => carries_inQuotes (h g hg), ?_⟩
  have hpasses : Passes expand (glyphs.flatMap inString) (glyphs.map id) :=
    passes_flatMap fun g hg => passes_inString (h g hg)
  rwa [List.map_id] at hpasses

end Glyph

/-- What a label shows: a character, or another face from there on. -/
inductive Markup
  | char (c : Char)
  | face (name : List Glyph)
deriving DecidableEq

namespace Markup

/-- The characters with a meaning in markup. -/
def isSpecial (c : Char) : Bool := c = '\\' || c = '\x7b' || c = '|'

/-- Read markup.  A backslash takes the meaning from the character after it, and a brace starts the
name of a face. -/
def read (glyphs : List Glyph) : Option (List Markup) :=
  match glyphs with
  | [] => some []
  | .option _ :: _ => none
  | .char c :: rest =>
    if c = '\\' then
      match rest with
      | .char d :: later => if isSpecial d then (read later).map (.char d :: ·) else none
      | _ => none
    else if c = '\x7b' ∧ .char '\x7d' ∈ rest then
      (read (rest.dropWhile (· ≠ .char '\x7d')).tail).map
        (.face (rest.takeWhile (· ≠ .char '\x7d')) :: ·)
    else if isSpecial c then none
    else (read rest).map (.char c :: ·)
termination_by glyphs.length
decreasing_by
  · exact Nat.lt_succ_of_lt (Nat.lt_succ_self _)
  · exact Nat.lt_succ_of_le (length_tail_dropWhile_le _ _)
  · exact Nat.lt_succ_self _

theorem read_nil : read [] = some [] := by
  rw [read]

theorem read_cons_of_ne {c : Char} (hc : c ≠ '\\') (rest : List Glyph) :
    read (.char c :: rest) =
      if c = '\x7b' ∧ .char '\x7d' ∈ rest then
        (read (rest.dropWhile (· ≠ .char '\x7d')).tail).map
          (.face (rest.takeWhile (· ≠ .char '\x7d')) :: ·)
      else if isSpecial c then none
      else (read rest).map (.char c :: ·) := by
  rw [read.eq_def]
  exact if_neg hc

/-- How a character stands in markup. -/
def escape (c : Char) : List Char := if isSpecial c then ['\\', c] else [c]

/-- How it is written. -/
def written : Markup → List Glyph
  | char c => (escape c).map .char
  | face name => .char '\x7b' :: (name ++ [.char '\x7d'])

/-- The name of a face ends where it is meant to. -/
def Proper : Markup → Prop
  | char _ => True
  | face name => .char '\x7d' ∉ name

theorem proper_of_mem_map_char {cs : List Char} {s : Markup} (h : s ∈ cs.map char) :
    s.Proper := by
  obtain ⟨c, -, rfl⟩ := List.mem_map.1 h
  trivial

theorem passes_written {s : Markup} (h : s.Proper) : Passes read s.written [s] := by
  intro rest
  cases s with
  | char c =>
      rw [written, escape]
      split
      · next hc =>
          rw [List.map_cons, List.map_singleton, List.cons_append, List.singleton_append,
            read, if_pos rfl]
          simp [hc]
      · next hc =>
          have hbackslash : c ≠ '\\' := fun h => hc (by simp [h, isSpecial])
          have hbrace : c ≠ '\x7b' := fun h => hc (by simp [h, isSpecial])
          rw [List.map_singleton, List.singleton_append, read_cons_of_ne hbackslash,
            if_neg fun h => hbrace h.1, if_neg hc]
          rfl
  | face name =>
      rw [written, List.cons_append, List.append_assoc, List.singleton_append,
        read_cons_of_ne (by decide), if_pos ⟨rfl, by simp⟩, Text.takeWhile_ne_append h,
        Text.dropWhile_ne_append h, List.tail_cons]
      rfl

/-- What is written in markup is read as it is meant. -/
theorem passes_flatMap_written {pieces : List Markup} (h : ∀ s ∈ pieces, s.Proper) :
    Passes read (pieces.flatMap written) pieces := by
  have hpasses : Passes read (pieces.flatMap written) (pieces.map id) :=
    passes_flatMap fun s hs => passes_written (h s hs)
  rwa [List.map_id] at hpasses

end Markup

open Quotes

theorem carries_inBars (cs : List Char) : Carries '|' (cs.flatMap Quoting.inBars) cs :=
  carries_twice '|' cs

/-- Escaping the text of a label in one pass comes to writing it in markup, the markup between
double quotes and the string between bars. -/
theorem inLineSpec_eq (c : Char) :
    Quoting.inLineSpec c =
      (((Markup.char c).written.flatMap Glyph.inQuotes).flatMap Quoting.inBars) := by
  rw [Quoting.inLineSpec]
  split
  · next hc => rw [hc]; rfl
  · split
    · next hc => rw [hc]; rfl
    · split
      · next hc => rw [hc]; rfl
      · split
        · next hc => rw [hc]; rfl
        · split
          · next hc => rw [hc]; rfl
          · next hbackslash hquote hpercent hbrace hbar =>
              simp [Markup.written, Markup.escape, Markup.isSpecial, Glyph.inQuotes,
                Quoting.inDoubleQuotes, Quoting.inBars, hbackslash, hquote, hpercent, hbrace, hbar]

theorem toList_lineSpecText (text : String) :
    (Quoting.lineSpecText text).toList =
      (((text.toList.map Markup.char).flatMap Markup.written).flatMap Glyph.inQuotes).flatMap
        Quoting.inBars := by
  rw [Quoting.lineSpecText, Text.substitute, String.toList_ofList, List.flatMap_map,
    List.flatMap_assoc, List.flatMap_assoc]
  apply List.flatMap_congr
  intro c _
  rw [inLineSpec_eq, List.flatMap_assoc]

theorem toList_doubleQuoted (text : String) :
    (Quoting.doubleQuoted text).toList =
      '"' :: ((text.toList.map Glyph.char).flatMap Glyph.inQuotes ++ ['"']) := by
  have hquote : "\"".toList = ['"'] := rfl
  rw [Quoting.doubleQuoted, String.toList_append, String.toList_append, hquote, Text.substitute,
    String.toList_ofList, List.flatMap_map]
  rfl

theorem toList_barred_doubleQuoted (text : String) :
    (Quoting.barred (Quoting.doubleQuoted text)).toList =
      ('"' :: ((text.toList.map Glyph.char).flatMap Glyph.inQuotes ++ ['"'])).flatMap
        Quoting.inBars := by
  rw [Quoting.barred, Text.substitute, String.toList_ofList, toList_doubleQuoted]

/-- Where it is delivered in a double-quoted string between bars, the text says these glyphs: it
ends none of the strings that it stands in, and nothing else expands in it. -/
def PassesQuotes (delivered : List Char) (glyphs : List Glyph) : Prop :=
  ∃ barred quoted string, Carries quoteMark delivered barred ∧ Carries '|' barred quoted ∧
    Carries '"' quoted string ∧ Passes Glyph.expand string glyphs

theorem passesQuotes {glyphs : List Glyph} (h : ∀ g ∈ glyphs, g.Proper) :
    PassesQuotes (doubled ((glyphs.flatMap Glyph.inQuotes).flatMap Quoting.inBars)) glyphs := by
  obtain ⟨string, hstring, hglyphs⟩ := Glyph.exists_carried h
  exact ⟨_, _, string, carries_doubled _, carries_inBars _, hstring, hglyphs⟩

end LiveTest
