import LiveTest.Proofs.BraceDepth
import LiveTest.Proofs.LabelSpecs
import LiveTest.Text.Blank
/-!
Specs of statuses.  The command that shows statuses is defined by statements, a line each: it
declares the options for characters and colours and then sets the statuses of the files.  These are
the readers of such definitions and what they read.  A path stands in quotes, so whatever it may be,
the quotes after it end its word, the brace after the specs ends their file, and the newline after
that ends the statement.
-/

namespace LiveTest

open Braces Quotes
open Text (isBreak)

/-- A token of a definition: a word, a brace that starts or ends a nested command, or the end of a
line. -/
inductive Token
  | word (w : Word)
  | opens
  | closes
  | newline
deriving DecidableEq

namespace Token

/-- Read the tokens of a definition from left to right.  A word without quotes ends before a break. -/
def readTokens (cs : List Char) : Option (List Token) :=
  match cs with
  | [] => some []
  | c :: rest =>
    if c = ' ' then readTokens rest
    else if c = '\n' then (readTokens rest).map (.newline :: ·)
    else if c = closeBrace then (readTokens rest).map (.closes :: ·)
    else if c = '%' ∧ rest.head? = some openBrace then (readTokens rest.tail).map (.opens :: ·)
    else if c = '"' then
      match _h : readMarked '"' rest with
      | none => none
      | some (string, later) =>
        (Glyph.expand string).bind fun glyphs =>
          (readTokens later).map (.word (.quoted glyphs) :: ·)
    else
      (readTokens (rest.dropWhile fun d => !isBreak d)).map
        (.word (.bare (String.ofList (c :: rest.takeWhile fun d => !isBreak d))) :: ·)
termination_by cs.length
decreasing_by
  · exact Nat.lt_succ_self _
  · exact Nat.lt_succ_self _
  · exact Nat.lt_succ_self _
  · exact Nat.lt_succ_of_le (List.length_tail ▸ Nat.sub_le _ _)
  · exact Nat.lt_succ_of_le (length_le_of_readMarked _h)
  · exact Nat.lt_succ_of_le (List.dropWhile_suffix _).length_le

def written : Token → List Char
  | word w => w.written
  | opens => ['%', openBrace]
  | closes => [closeBrace]
  | newline => ['\n']

/-- A word without quotes that is one word and no brace. -/
def IsBare (cs : List Char) : Prop :=
  cs.all (fun c => !isBreak c) = true ∧ cs ≠ [] ∧ cs.head? ≠ some '"' ∧
    cs.head? ≠ some closeBrace ∧ ¬ ['%', openBrace] <+: cs

instance (cs : List Char) : Decidable (IsBare cs) := by
  unfold IsBare
  infer_instance

/-- The token is no end of a line and ends where it is meant to. -/
def Proper : Token → Prop
  | word (.bare text) => IsBare text.toList
  | word (.quoted glyphs) => ∀ g ∈ glyphs, g.Proper
  | opens | closes => True
  | newline => False

theorem Proper.ne_newline {t : Token} (h : t.Proper) : t ≠ .newline := by
  rintro rfl
  exact h

theorem readTokens_blank (rest : List Char) : readTokens (' ' :: rest) = readTokens rest := by
  rw [readTokens, if_pos rfl]

theorem readTokens_newline (rest : List Char) :
    readTokens ('\n' :: rest) = (readTokens rest).map (.newline :: ·) := by
  rw [readTokens, if_neg (by decide), if_pos rfl]

theorem readTokens_quote {rest string later : List Char}
    (h : readMarked '"' rest = some (string, later)) :
    readTokens ('"' :: rest) = (Glyph.expand string).bind fun glyphs =>
      (readTokens later).map (.word (.quoted glyphs) :: ·) := by
  rw [readTokens, if_neg (by decide), if_neg (by decide), if_neg (by decide),
    if_neg (fun hopens => absurd hopens.1 (by decide)), if_pos rfl]
  split
  · next hnone => rw [h] at hnone; cases hnone
  · next hsome => rw [h] at hsome; cases hsome; rfl

theorem readTokens_bare {text : String} (h : IsBare text.toList) {c : Char} (hc : isBreak c = true)
    (rest : List Char) :
    readTokens (text.toList ++ c :: rest) =
      (readTokens (c :: rest)).map (.word (.bare text) :: ·) := by
  obtain ⟨hbreaks, hnil, hquote, hclose, hopen⟩ := h
  obtain ⟨d, cs, htext⟩ := List.exists_cons_of_ne_nil hnil
  rw [htext] at hbreaks hquote hclose hopen
  rw [List.all_cons, Bool.and_eq_true, List.all_eq_true] at hbreaks
  obtain ⟨hd, hcs⟩ := hbreaks
  simp only [isBreak, Bool.not_eq_true', Bool.or_eq_false_iff, decide_eq_false_iff_not] at hd
  have htake : (c :: rest).takeWhile (fun d => !isBreak d) = [] :=
    List.takeWhile_cons_of_neg (by simp [hc])
  have hdrop : (c :: rest).dropWhile (fun d => !isBreak d) = c :: rest :=
    List.dropWhile_cons_of_neg (by simp [hc])
  have hbraces : ¬(d = '%' ∧ (cs ++ c :: rest).head? = some openBrace) := by
    rintro ⟨rfl, hhead⟩
    cases cs with
    | nil =>
        rw [List.nil_append, List.head?_cons, Option.some.injEq] at hhead
        rw [hhead] at hc
        exact absurd hc (by decide)
    | cons e cs =>
        rw [List.cons_append, List.head?_cons, Option.some.injEq] at hhead
        rw [hhead] at hopen
        exact hopen ⟨cs, rfl⟩
  rw [htext, List.cons_append, readTokens, if_neg hd.1, if_neg hd.2,
    if_neg fun heq => hclose (congrArg some heq), if_neg hbraces,
    if_neg fun heq => hquote (congrArg some heq), List.takeWhile_append_of_pos hcs,
    List.dropWhile_append_of_pos hcs, htake, hdrop, List.append_nil, ← htext,
    String.ofList_toList]

/-- A token is read up to the blank or the newline after it. -/
theorem readTokens_written {t : Token} (h : t.Proper) {c : Char} (hc : isBreak c = true)
    (rest : List Char) :
    readTokens (t.written ++ c :: rest) = (readTokens (c :: rest)).map (t :: ·) := by
  cases t with
  | word w =>
      cases w with
      | bare text => exact readTokens_bare h hc rest
      | quoted glyphs =>
          obtain ⟨string, hstring, hglyphs⟩ := Glyph.exists_carried h
          have hread : readMarked '"' (glyphs.flatMap Glyph.inQuotes ++ '"' :: c :: rest) =
              some (string, c :: rest) := by
            apply hstring.read
            rw [List.head?_cons, ne_eq, Option.some.injEq]
            rintro rfl
            exact absurd hc (by decide)
          rw [written, Word.written, List.cons_append, List.append_assoc, List.singleton_append,
            readTokens_quote hread, hglyphs.read_eq Glyph.expand_nil, Option.bind_some]
  | opens =>
      rw [written, List.cons_append, List.singleton_append, readTokens, if_neg (by decide),
        if_neg (by decide), if_neg (by decide), if_pos ⟨rfl, rfl⟩]
      rfl
  | closes =>
      rw [written, List.singleton_append, readTokens, if_neg (by decide), if_neg (by decide),
        if_pos rfl]
  | newline => cases h

/-- The tokens of a line, a blank before each. -/
def line (tokens : List Token) : List Char :=
  tokens.flatMap (fun t => ' ' :: t.written) ++ ['\n']

theorem passes_line {tokens : List Token} (h : ∀ t ∈ tokens, t.Proper) :
    Passes readTokens (line tokens) (tokens ++ [.newline]) := by
  induction tokens with
  | nil => exact readTokens_newline
  | cons t tokens ih =>
      obtain ⟨ht, htokens⟩ := List.forall_mem_cons.1 h
      intro rest
      -- A token ends at the blank before the next one, or at the end of the line.
      obtain ⟨c, later, hc, hlater⟩ : ∃ c later, isBreak c = true ∧
          line tokens ++ rest = c :: later := by
        cases tokens with
        | nil => exact ⟨'\n', rest, rfl, rfl⟩
        | cons t' tokens => exact ⟨' ', _, rfl, rfl⟩
      have hline : line (t :: tokens) ++ rest = ' ' :: (t.written ++ (line tokens ++ rest)) := by
        simp [line]
      rw [hline, readTokens_blank, hlater, readTokens_written ht hc, ← hlater, ih htokens,
        Option.map_map]
      rfl

end Token

/-- What a line of a definition tells the editor: the value of an option, or the statuses of a
file. -/
inductive Statement
  | declare (option value : String)
  | set (path : String) (specs : List (Nat × LineStatus))
deriving DecidableEq

namespace Statement

/-- What follows the line of a spec: the option with the colour of its status, and the one with the
characters to show. -/
def statusGlyphs (status : LineStatus) : List Glyph :=
  [.char '|', .char openBrace, .option ("kiwi_color_" ++ status.name), .char closeBrace,
    .option "kiwi_status_chars"]

def specGlyphs (spec : Nat × LineStatus) : List Glyph :=
  spec.1.repr.toList.map .char ++ statusGlyphs spec.2

/-- Read a spec: a line up to the first bar, then a status. -/
def readSpec? : Token → Option (Nat × LineStatus)
  | .word (.quoted glyphs) => do
    let line ← readNat? (← Glyph.chars? (glyphs.takeWhile (· ≠ .char '|')))
    let status ← LineStatus.all.find? fun status =>
      glyphs.dropWhile (· ≠ .char '|') = statusGlyphs status
    return (line, status)
  | _ => none

abbrev bare (text : String) : Token := .word (.bare text)

def readDeclare? : List Token → Option Statement
  | [command, kind, .word (.bare option), .word (.quoted value)] =>
    if command = bare "declare-option" ∧ kind = bare "str" then
      (Glyph.chars? value).map fun cs => .declare option (String.ofList cs)
    else none
  | _ => none

def readSet? : List Token → Option Statement
  | attempt :: .opens :: command :: .word (.quoted buffer) :: option :: stamp :: specs =>
    if attempt = bare "try" ∧ command = bare "set-option" ∧ option = bare "kiwi_line_statuses" ∧
        stamp = bare "%val\x7btimestamp\x7d" ∧ specs.getLast? = some .closes then do
      return .set (← FileSpecs.readBuffer? buffer) (← specs.dropLast.mapM readSpec?)
    else none
  | _ => none

def read? (tokens : List Token) : Option Statement := (readDeclare? tokens).or (readSet? tokens)

/-- Read the statements of a definition, a line each. -/
def readDefinition (body : List Char) : Option (List Statement) := do
  let tokens ← Token.readTokens body
  ((tokens.splitOn .newline).filter (· ≠ [])).mapM read?

def tokens : Statement → List Token
  | declare option value =>
    [bare "declare-option", bare "str", bare option, .word (.quoted (value.toList.map .char))]
  | set path specs =>
    [bare "try", .opens, bare "set-option",
      .word (.quoted ((FileSpecs.bufferMark ++ path.toList).map .char)),
      bare "kiwi_line_statuses", bare "%val\x7btimestamp\x7d"] ++
    specs.map (fun spec => .word (.quoted (specGlyphs spec))) ++ [.closes]

/-- The line of a statement in a definition. -/
def line (s : Statement) : List Char := "   ".toList ++ Token.line s.tokens

theorem readSpec?_specGlyphs (spec : Nat × LineStatus) :
    readSpec? (.word (.quoted (specGlyphs spec))) = some spec := by
  obtain ⟨line, status⟩ := spec
  have hbar : Glyph.char '|' ∉ line.repr.toList.map Glyph.char := by
    intro hmem
    obtain ⟨c, hc, heq⟩ := List.mem_map.1 hmem
    cases heq
    exact not_mem_repr rfl line hc
  have hstatus : (LineStatus.all.find? fun s => statusGlyphs status = statusGlyphs s) =
      some status := by
    cases status <;> decide
  obtain ⟨later, hlater⟩ : ∃ later, statusGlyphs status = .char '|' :: later := ⟨_, rfl⟩
  rw [hlater] at hstatus
  rw [readSpec?, specGlyphs, hlater, Text.takeWhile_ne_append hbar,
    Text.dropWhile_ne_append hbar, Glyph.chars?_map_char, Option.bind_eq_bind, Option.bind_some,
    readNat?_repr, Option.bind_eq_bind, Option.bind_some, hstatus]
  rfl

theorem read?_tokens (s : Statement) : read? s.tokens = some s := by
  cases s with
  | declare option value =>
      rw [read?, tokens, readDeclare?, if_pos ⟨rfl, rfl⟩, Glyph.chars?_map_char, Option.map_some,
        String.ofList_toList, Option.some_or]
  | set path specs =>
      have hspecs : (specs.map fun spec => Token.word (.quoted (specGlyphs spec))).mapM readSpec? =
          some specs := mapM_map_eq_some fun spec _ => readSpec?_specGlyphs spec
      have hset : readSet? (tokens (set path specs)) = some (set path specs) := by
        rw [tokens, List.append_assoc]
        simp only [List.cons_append, List.nil_append]
        rw [readSet?, if_pos ⟨rfl, rfl, rfl, rfl, by simp⟩, FileSpecs.readBuffer?_map_char,
          List.dropLast_concat, hspecs]
        rfl
      rw [read?, hset, Option.or_some]
      rfl

/-- The options that a statement declares or uses end where they are meant to. -/
def Proper : Statement → Prop
  | declare option _ => Token.IsBare option.toList
  | set _ _ => True

theorem proper_of_mem_specGlyphs {spec : Nat × LineStatus} :
    ∀ g ∈ specGlyphs spec, g.Proper := by
  obtain ⟨line, status⟩ := spec
  intro g hg
  rcases List.mem_append.1 hg with hg | hg
  · exact Glyph.proper_of_mem_map_char hg
  · have hstatus : ∀ g ∈ statusGlyphs status, g.Proper := by
      have hcolor : (Glyph.option ("kiwi_color_" ++ status.name)).Proper := by
        cases status <;> exact ⟨by decide, by decide⟩
      have hchars : (Glyph.option "kiwi_status_chars").Proper := ⟨by decide, by decide⟩
      simp only [statusGlyphs, List.forall_mem_cons]
      exact ⟨trivial, trivial, hcolor, trivial, hchars, fun g hg => by cases hg⟩
    exact hstatus g hg

theorem proper_of_mem_tokens {s : Statement} (h : s.Proper) : ∀ t ∈ s.tokens, t.Proper := by
  have hbare : ∀ text : String, Token.IsBare text.toList → (bare text).Proper :=
    fun text htext => htext
  cases s with
  | declare option value =>
      have hvalue : (Token.word (.quoted (value.toList.map .char))).Proper :=
        fun _ => Glyph.proper_of_mem_map_char
      simp only [tokens, List.forall_mem_cons]
      exact ⟨hbare _ (by decide), hbare _ (by decide), hbare _ h, hvalue, fun t ht => by cases ht⟩
  | set path specs =>
      have hbuffer : (Token.word (.quoted
          ((FileSpecs.bufferMark ++ path.toList).map .char))).Proper :=
        fun _ => Glyph.proper_of_mem_map_char
      have hspecs : ∀ t ∈ specs.map (fun spec => Token.word (.quoted (specGlyphs spec))) ++
          [.closes], t.Proper := by
        intro t ht
        rcases List.mem_append.1 ht with ht | ht
        · obtain ⟨spec, -, rfl⟩ := List.mem_map.1 ht
          exact proper_of_mem_specGlyphs
        · rw [List.mem_singleton.1 ht]
          trivial
      simp only [tokens, List.cons_append, List.nil_append, List.forall_mem_cons]
      exact ⟨hbare _ (by decide), trivial, hbare _ (by decide), hbuffer, hbare _ (by decide),
        hbare _ (by decide), hspecs⟩

theorem passes_statementLine {s : Statement} (h : s.Proper) :
    Passes Token.readTokens s.line (s.tokens ++ [.newline]) := by
  intro rest
  have hline : s.line ++ rest = ' ' :: ' ' :: ' ' :: (Token.line s.tokens ++ rest) := rfl
  rw [hline, Token.readTokens_blank, Token.readTokens_blank, Token.readTokens_blank]
  exact Token.passes_line (proper_of_mem_tokens h) rest

theorem readTokens_flatMap_line {statements : List Statement} (h : ∀ s ∈ statements, s.Proper) :
    Token.readTokens (statements.flatMap line) =
      some (statements.flatMap fun s => s.tokens ++ [.newline]) := by
  have hpasses : Passes Token.readTokens (statements.flatMap line)
      (statements.flatMap fun s => s.tokens ++ [.newline]) := by
    induction statements with
    | nil => intro rest; simp
    | cons s rest ih =>
        obtain ⟨hs, hrest⟩ := List.forall_mem_cons.1 h
        exact (passes_statementLine hs).append (ih hrest)
  apply hpasses.read_eq
  rw [Token.readTokens]

theorem tokens_ne_nil (s : Statement) : s.tokens ≠ [] := by
  cases s <;> exact List.cons_ne_nil _ _

/-- No line of a statement is taken for more than one. -/
theorem splitOn_tokens {statements : List Statement} (h : ∀ s ∈ statements, s.Proper) :
    ((statements.flatMap fun s => s.tokens ++ [Token.newline]).splitOn .newline).filter (· ≠ []) =
      statements.map tokens := by
  induction statements with
  | nil => rfl
  | cons s rest ih =>
      obtain ⟨hs, hrest⟩ := List.forall_mem_cons.1 h
      have hnewline : Token.newline ∉ s.tokens := fun hmem =>
        (proper_of_mem_tokens hs _ hmem).ne_newline rfl
      rw [List.flatMap_cons, List.append_assoc, List.singleton_append,
        List.splitOn_append_cons_self_of_not_mem hnewline, List.filter_cons_of_pos, ih hrest,
        List.map_cons]
      exact decide_eq_true s.tokens_ne_nil

/-- Reading a definition finds what was written in it. -/
theorem readDefinition_flatMap_line {statements : List Statement}
    (h : ∀ s ∈ statements, s.Proper) :
    readDefinition ('\n' :: statements.flatMap line) = some statements := by
  have hread : (statements.map tokens).mapM read? = some statements :=
    mapM_map_eq_some fun s _ => read?_tokens s
  rw [readDefinition, Token.readTokens_newline, readTokens_flatMap_line h, Option.map_some,
    Option.bind_eq_bind, Option.bind_some, List.splitOn_cons_eq_if_modifyHead,
    if_pos (beq_self_eq_true _), List.filter_cons_of_neg (by simp), splitOn_tokens h]
  exact hread

end Statement

end LiveTest
