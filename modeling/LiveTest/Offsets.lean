import LiveTest.Text
/-!
Offsets in a text as lines and columns.  An offset counts the characters before it.  A table of
the offset at which each line starts resolves any number of them.
-/

namespace LiveTest

/-- A line and a column, both counted from one. -/
structure LineColumn where
  line : Nat
  col : Nat
deriving DecidableEq, Inhabited

def LineColumn.text (p : LineColumn) : String := toString p.line ++ ":" ++ toString p.col

/-- The largest line or column that can be told. -/
def coordinateLimit : Nat := 0xffffffff

/-- The first offset that cannot be counted. -/
def offsetLimit : Nat := 0x10000000000000000

/-- A place as far as it can be told. -/
def LineColumn.saturated (p : LineColumn) : LineColumn :=
  ⟨min p.line coordinateLimit, min p.col coordinateLimit⟩

/-- The offset at which each line of a text starts. -/
structure OffsetIndex where
  starts : Array Nat
  first : starts[0]? = some 0
  ascending : starts.toList.Pairwise (· < ·)
deriving DecidableEq

namespace OffsetIndex

/-- The offset at which each line starts, where the first one starts at `pos`.  The newline that
ends a line belongs to it. -/
def lineStarts (pos : Nat) : List (List Char) → List Nat
  | [] => []
  | line :: rest => pos :: lineStarts (pos + line.length + 1) rest

theorem le_of_mem_lineStarts {pos start : Nat} {lines : List (List Char)}
    (h : start ∈ lineStarts pos lines) : pos ≤ start := by
  induction lines generalizing pos with
  | nil => cases h
  | cons line rest ih =>
      rcases List.mem_cons.1 h with rfl | h
      · exact Nat.le_refl start
      · have hnext := ih h
        omega

theorem pairwise_lineStarts (pos : Nat) (lines : List (List Char)) :
    (lineStarts pos lines).Pairwise (· < ·) := by
  induction lines generalizing pos with
  | nil => exact .nil
  | cons line rest ih =>
      refine .cons ?_ (ih _)
      intro start h
      have hnext := le_of_mem_lineStarts h
      omega

theorem head?_lineStarts {lines : List (List Char)} (h : lines ≠ []) (pos : Nat) :
    (lineStarts pos lines)[0]? = some pos := by
  cases lines with
  | nil => exact absurd rfl h
  | cons line rest => rfl

def ofChars (cs : List Char) : OffsetIndex where
  starts := (lineStarts 0 (Text.splitAll '\n' cs)).toArray
  first := by
    rw [List.getElem?_toArray]
    exact head?_lineStarts (Text.splitAll_ne_nil '\n' cs) 0
  ascending := pairwise_lineStarts 0 (Text.splitAll '\n' cs)

def ofText (source : String) : OffsetIndex := ofChars source.toList

def lineCount (index : OffsetIndex) : Nat := index.starts.size

/-- The first position from `lo` on that does not pass, or `hi` if all before it do.  The positions
that pass come before the others, so each look halves what is left. -/
def partitionPoint (passes : Nat → Bool) (lo hi : Nat) : Nat :=
  if lo < hi then
    let mid := lo + (hi - lo) / 2
    if passes mid then partitionPoint passes (mid + 1) hi else partitionPoint passes lo mid
  else lo
termination_by hi - lo

/-- The offset at a position of the table. -/
def start (index : OffsetIndex) (i : Nat) : Nat := index.starts.getD i 0

/-- How many lines start at an offset or before it. -/
def linesUpTo (index : OffsetIndex) (offset : Nat) : Nat :=
  partitionPoint (fun i => index.start i ≤ offset) 0 index.lineCount

/-- The line that holds an offset and the column in it.  Offsets past the end belong to the last
line. -/
def place (index : OffsetIndex) (offset : Nat) : LineColumn where
  line := index.linesUpTo offset
  col := offset - index.start (index.linesUpTo offset - 1) + 1

/-- The place of an offset as far as it can be told.  None if the column has no number of 64
bits. -/
def resolve? (index : OffsetIndex) (offset : Nat) : Option LineColumn :=
  let place := index.place offset
  if place.col < offsetLimit then some place.saturated else none

/-- The offset at which a line starts. -/
def lineStart? (index : OffsetIndex) (line : Nat) : Option Nat :=
  if line = 0 then none else index.starts[line - 1]?

end OffsetIndex
end LiveTest
