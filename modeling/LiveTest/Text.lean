/-!
Plain rules on text: lines, fixed widths, joining and counting.  They work character by character
on `List Char`; the `String` versions wrap them.
-/

namespace LiveTest.Text

/-- Drop a carriage return at the end of the text. -/
def dropReturn (cs : List Char) : List Char :=
  if cs.getLast? = some '\r' then cs.dropLast else cs

/-- The lines of a text.  A newline ends a line, together with one carriage return right before
it; a newline at the very end starts no further line. -/
def linesGo (acc : List Char) : List Char → List (List Char)
  | [] => if acc.isEmpty then [] else [acc.reverse]
  | c :: rest =>
    if c = '\n' then dropReturn acc.reverse :: linesGo [] rest else linesGo (c :: acc) rest

def lines (cs : List Char) : List (List Char) := linesGo [] cs

/-- The text before the first newline, less one carriage return right before it; the whole text
if it has no newline. -/
def firstLineChars (cs : List Char) : List Char :=
  let line := cs.takeWhile (· ≠ '\n')
  if line.length < cs.length then dropReturn line else line

def firstLine (s : String) : String := String.ofList (firstLineChars s.toList)

theorem newline_not_mem_firstLine (s : String) : '\n' ∉ (firstLine s).toList := by
  have hline : '\n' ∉ s.toList.takeWhile (· ≠ '\n') := by
    intro hmem
    have hne := List.all_eq_true.1 List.all_takeWhile '\n' hmem
    simp at hne
  rw [firstLine, String.toList_ofList, firstLineChars, dropReturn]
  split
  · split
    · exact fun hmem => hline (List.dropLast_subset _ hmem)
    · exact hline
  · exact hline

/-- Split at every occurrence of `sep`: one piece more than there are occurrences. -/
def splitAll (sep : Char) : List Char → List (List Char)
  | [] => [[]]
  | c :: rest =>
    if c = sep then [] :: splitAll sep rest
    else match splitAll sep rest with
      | [] => [[c]]
      | piece :: pieces => (c :: piece) :: pieces

theorem splitAll_ne_nil (sep : Char) (cs : List Char) : splitAll sep cs ≠ [] := by
  cases cs with
  | nil => simp [splitAll]
  | cons c rest =>
      rw [splitAll]
      split
      · exact List.cons_ne_nil _ _
      · split <;> exact List.cons_ne_nil _ _

section UpTo

variable {α : Type} [DecidableEq α] {mark : α} {before : List α}

theorem decide_ne_of_not_mem (h : mark ∉ before) : ∀ a ∈ before, decide (a ≠ mark) = true := by
  intro a ha
  exact decide_eq_true fun heq => h (heq ▸ ha)

/-- What stands before the first occurrence of a mark. -/
theorem takeWhile_ne_append (h : mark ∉ before) (later : List α) :
    (before ++ mark :: later).takeWhile (· ≠ mark) = before := by
  rw [List.takeWhile_append_of_pos (decide_ne_of_not_mem h), List.takeWhile_cons_of_neg (by simp),
    List.append_nil]

theorem dropWhile_ne_append (h : mark ∉ before) (later : List α) :
    (before ++ mark :: later).dropWhile (· ≠ mark) = mark :: later := by
  rw [List.dropWhile_append_of_pos (decide_ne_of_not_mem h), List.dropWhile_cons_of_neg (by simp)]

end UpTo

/-- Fit a text into `width` characters: a longer text keeps its first `width - 3` characters
followed by a space and two points, a shorter one is padded with spaces. -/
def fitChars (width : Nat) (cs : List Char) : List Char :=
  if width < cs.length then cs.take (width - 3) ++ [' ', '.', '.']
  else cs ++ List.replicate (width - cs.length) ' '

def fit (width : Nat) (s : String) : String := String.ofList (fitChars width s.toList)

/-- The texts one after the other. -/
def concat (pieces : List String) : String := pieces.foldr (· ++ ·) ""

/-- The texts with `sep` between any two neighbours. -/
def join (sep : String) : List String → String
  | [] => ""
  | [s] => s
  | s :: rest => s ++ sep ++ join sep rest

/-- What is in no text and not between them is not in the joined text. -/
theorem not_mem_join {sep : String} {c : Char} (hsep : c ∉ sep.toList) {texts : List String}
    (h : ∀ s ∈ texts, c ∉ s.toList) : c ∉ (join sep texts).toList := by
  induction texts with
  | nil => exact List.not_mem_nil
  | cons s rest ih =>
      obtain ⟨hs, hrest⟩ := List.forall_mem_cons.1 h
      cases rest with
      | nil => exact hs
      | cons t rest =>
          rw [join, String.toList_append, String.toList_append, List.mem_append, List.mem_append,
            not_or, not_or]
          · exact ⟨⟨hs, hsep⟩, ih hrest⟩
          · simp

/-- Replace every character by the text that `f` gives it. -/
def substitute (f : Char → List Char) (s : String) : String := String.ofList (s.toList.flatMap f)

/-- `needle` stands somewhere in `cs`. -/
def containsChars (needle : List Char) : List Char → Bool
  | [] => needle.isEmpty
  | c :: rest => needle.isPrefixOf (c :: rest) || containsChars needle rest

/-- The length of a text in UTF-8. -/
def byteCount (cs : List Char) : Nat := cs.foldr (fun c n => c.utf8Size + n) 0

/-- A noun in the number that `count` asks for. -/
def plural (count : Nat) (noun : String) : String :=
  if count = 1 then noun else noun ++ "s"

/-- A count followed by its noun. -/
def counted (count : Nat) (noun : String) : String := toString count ++ " " ++ plural count noun

end LiveTest.Text
