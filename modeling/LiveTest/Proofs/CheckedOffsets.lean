import LiveTest.Proofs.OffsetScan
/-!
Offsets in numbers of 64 bits.  Looking up an offset takes some looks at the table, two differences
and two sums.  With all of them checked, the looks stay inside the table, the differences do not go
below zero, and one sum alone can grow too large: the column of the last offset that there is, in a
text of a single line.
-/

namespace LiveTest

/-- What can go wrong in computing with numbers of 64 bits and a table. -/
inductive WordFault
  | aboveLimit
  | belowZero
  | outsideTable
deriving DecidableEq

/-- A sum of 64 bits. -/
def sum64 (a b : Nat) : Except WordFault Nat :=
  if a + b < offsetLimit then .ok (a + b) else .error .aboveLimit

/-- A difference that is not negative. -/
def difference64 (a b : Nat) : Except WordFault Nat :=
  if b ≤ a then .ok (a - b) else .error .belowZero

theorem sum64_of_lt {a b : Nat} (h : a + b < offsetLimit) : sum64 a b = .ok (a + b) := if_pos h

theorem sum64_of_le {a b : Nat} (h : offsetLimit ≤ a + b) : sum64 a b = .error .aboveLimit :=
  if_neg (Nat.not_lt.2 h)

theorem difference64_of_le {a b : Nat} (h : b ≤ a) : difference64 a b = .ok (a - b) := if_pos h

namespace OffsetIndex

/-- An entry of the table. -/
def entry (index : OffsetIndex) (i : Nat) : Except WordFault Nat :=
  match index.starts[i]? with
  | some start => .ok start
  | none => .error .outsideTable

/-- The first line from `lo` on that starts after an offset, or `hi` if all before it start up to
the offset. -/
def search (index : OffsetIndex) (offset lo hi : Nat) : Except WordFault Nat :=
  if lo < hi then
    let mid := lo + (hi - lo) / 2
    match index.entry mid with
    | .error fault => .error fault
    | .ok start =>
      if start ≤ offset then search index offset (mid + 1) hi else search index offset lo mid
  else .ok lo
termination_by hi - lo

/-- The place of an offset as far as it can be told, with every step checked. -/
def resolveChecked (index : OffsetIndex) (offset : Nat) : Except WordFault LineColumn := do
  let count ← index.search offset 0 index.lineCount
  let i ← difference64 count 1
  let start ← index.entry i
  let distance ← difference64 offset start
  let col ← sum64 distance 1
  let line ← sum64 i 1
  return LineColumn.saturated ⟨line, col⟩

section Table

variable {index : OffsetIndex} {offset : Nat}

theorem entry_of_lt {i : Nat} (h : i < index.lineCount) : index.entry i = .ok (index.start i) := by
  have hsome : index.starts[i]? = some index.starts[i] := Array.getElem?_eq_getElem h
  rw [entry, hsome, start_eq_getElem h]

/-- Halving the table looks at its entries only. -/
theorem search_eq {lo hi : Nat} (h : hi ≤ index.lineCount) :
    index.search offset lo hi = .ok (partitionPoint (fun i => index.start i ≤ offset) lo hi) := by
  fun_induction partitionPoint (fun i => decide (index.start i ≤ offset)) lo hi with
  | case1 lo hi hlt mid hpass ih =>
      have hentry : index.entry mid = .ok (index.start mid) := entry_of_lt (by omega)
      rw [search, if_pos hlt]
      simp only [mid] at hentry hpass ⊢
      rw [hentry]
      dsimp only
      rw [if_pos (of_decide_eq_true hpass)]
      exact ih h
  | case2 lo hi hlt mid hfail ih =>
      have hentry : index.entry mid = .ok (index.start mid) := entry_of_lt (by omega)
      rw [search, if_pos hlt]
      simp only [mid] at hentry hfail ⊢
      rw [hentry]
      dsimp only
      rw [if_neg (fun hle => hfail (decide_eq_true hle))]
      exact ih (by omega)
  | case3 lo hi hge => rw [search, if_neg hge]

theorem resolve?_of_lt (h : (index.place offset).col < offsetLimit) :
    index.resolve? offset = some (index.place offset).saturated := if_pos h

theorem resolve?_of_le (h : offsetLimit ≤ (index.place offset).col) :
    index.resolve? offset = none := if_neg (Nat.not_lt.2 h)

/-- Where the lines can be counted, checking changes nothing but the name of the failure. -/
theorem resolveChecked_eq (hlines : index.linesUpTo offset < offsetLimit) :
    index.resolveChecked offset = (index.resolve? offset).elim (.error .aboveLimit) .ok := by
  have hpos := linesUpTo_pos index offset
  have hle := linesUpTo_le index offset
  have hcount : index.search offset 0 index.lineCount = .ok (index.linesUpTo offset) :=
    search_eq (Nat.le_refl _)
  have hindex : difference64 (index.linesUpTo offset) 1 = .ok (index.linesUpTo offset - 1) :=
    difference64_of_le hpos
  have hentry : index.entry (index.linesUpTo offset - 1) =
      .ok (index.start (index.linesUpTo offset - 1)) := entry_of_lt (by omega)
  have hdistance := difference64_of_le (start_linesUpTo_le index offset)
  have hline : sum64 (index.linesUpTo offset - 1) 1 = .ok (index.linesUpTo offset) := by
    rw [sum64, Nat.sub_add_cancel hpos, if_pos hlines]
  simp only [resolveChecked, hcount, hindex, hentry, hdistance, hline, bind, Except.bind]
  rcases Nat.lt_or_ge (index.place offset).col offsetLimit with hcol | hcol
  · rw [resolve?_of_lt hcol, sum64_of_lt hcol]
    rfl
  · rw [resolve?_of_le hcol, sum64_of_le hcol]
    rfl

/-- An offset of 64 bits has a column of more if and only if it is the last one that there is, in
the first line. -/
theorem resolve?_eq_none_iff (hoffset : offset < offsetLimit) :
    index.resolve? offset = none ↔ offset + 1 = offsetLimit ∧ index.linesUpTo offset = 1 := by
  have hpos := linesUpTo_pos index offset
  have hle := linesUpTo_le index offset
  have hfirst : index.start (index.linesUpTo offset - 1) = 0 ↔ index.linesUpTo offset = 1 := by
    constructor
    · intro hzero
      by_contra hne
      have hlt : index.start 0 < index.start (index.linesUpTo offset - 1) :=
        start_lt_start (by omega) (by omega)
      omega
    · intro hone
      rw [hone]
      exact index.start_zero
  have hstart := start_linesUpTo_le index offset
  have hcol : (index.place offset).col = offset - index.start (index.linesUpTo offset - 1) + 1 :=
    rfl
  rw [← hfirst]
  constructor
  · intro hnone
    by_contra hother
    have hlt : (index.place offset).col < offsetLimit := by
      rw [hcol]
      omega
    rw [resolve?_of_lt hlt] at hnone
    cases hnone
  · rintro ⟨hlast, hzero⟩
    apply resolve?_of_le
    rw [hcol, hzero, ← hlast]
    exact Nat.le_refl _

theorem bounds_of_resolve? {place : LineColumn} (h : index.resolve? offset = some place) :
    (1 ≤ place.line ∧ place.line ≤ min index.lineCount coordinateLimit) ∧
      1 ≤ place.col ∧ place.col ≤ coordinateLimit := by
  have hpos := linesUpTo_pos index offset
  have hle := linesUpTo_le index offset
  have hlimit : 1 ≤ coordinateLimit := by decide
  rcases Nat.lt_or_ge (index.place offset).col offsetLimit with hcol | hcol
  · rw [resolve?_of_lt hcol, Option.some.injEq] at h
    subst h
    simp only [LineColumn.saturated, OffsetIndex.place]
    omega
  · rw [resolve?_of_le hcol] at h
    cases h

end Table

/-- The first line holds an offset past the end if and only if it is the only line. -/
theorem linesUpTo_eq_one_iff {source : String} {offset : Nat} (h : source.length ≤ offset) :
    (ofText source).linesUpTo offset = 1 ↔ '\n' ∉ source.toList := by
  rw [ofText, linesUpTo_ofChars, List.take_of_length_le (by rwa [String.length_toList]),
    Nat.add_eq_right, List.count_eq_zero]

theorem linesUpTo_ofText_le (source : String) (offset : Nat) :
    (ofText source).linesUpTo offset ≤ source.length + 1 := by
  have hcount : (source.toList.take offset).count '\n' ≤ source.length :=
    Nat.le_trans List.count_le_length (Nat.le_trans (List.length_take_le' _ _)
      (Nat.le_of_eq (String.length_toList)))
  rw [ofText, linesUpTo_ofChars]
  omega

/-- Looking up an offset of 64 bits fails for the last one that there is in a text of a single line,
as its column is too large, and for no other.  Otherwise the place is a line of the text and a
column, both of them counted from one. -/
theorem resolveChecked_fails_iff {source : String}
    (hsource : source.length + 1 < 0x10000000000000000) {offset : Nat}
    (hoffset : offset < 0x10000000000000000) :
    ((ofText source).resolveChecked offset).toOption = (ofText source).resolve? offset ∧
    (∀ fault, (ofText source).resolveChecked offset = .error fault ↔
      fault = .aboveLimit ∧ offset + 1 = 0x10000000000000000 ∧ '\n' ∉ source.toList) ∧
    ∀ place, (ofText source).resolveChecked offset = .ok place →
      (1 ≤ place.line ∧ place.line ≤ min (ofText source).lineCount 0xffffffff) ∧
        1 ≤ place.col ∧ place.col ≤ 0xffffffff := by
  have hlines : (ofText source).linesUpTo offset < offsetLimit :=
    Nat.lt_of_le_of_lt (linesUpTo_ofText_le source offset) hsource
  have hnone : (ofText source).resolve? offset = none ↔
      offset + 1 = 0x10000000000000000 ∧ '\n' ∉ source.toList := by
    rw [resolve?_eq_none_iff hoffset, offsetLimit]
    refine and_congr_right fun hlast => linesUpTo_eq_one_iff ?_
    omega
  rw [resolveChecked_eq hlines, ← hnone]
  cases hplace : (ofText source).resolve? offset with
  | none =>
      refine ⟨rfl, fun fault => ?_, fun place h => by cases h⟩
      simp [eq_comm]
  | some place =>
      refine ⟨rfl, fun fault => ?_, ?_⟩
      · simp
      · rintro place' h
        cases h
        exact bounds_of_resolve? hplace

namespace CheckedOffsetsWitness

/-- The last offset that there is. -/
def lastOffset : Nat := 0xffffffffffffffff

/-- In a text of a single line the last offset has no column, although it is past the end. -/
theorem resolveChecked_fails_in_one_line :
    (ofText "ab").resolveChecked lastOffset = .error .aboveLimit := by
  have hone : (ofText "ab").linesUpTo lastOffset = 1 :=
    (linesUpTo_eq_one_iff (by decide)).2 (by decide)
  have hnone : (ofText "ab").resolve? lastOffset = none :=
    (resolve?_eq_none_iff (by decide)).2 ⟨by decide, hone⟩
  rw [resolveChecked_eq (hone ▸ by decide), hnone]
  rfl

/-- With a second line it has one. -/
theorem resolveChecked_fails_iff_two_lines :
    "a\nb".length + 1 < 0x10000000000000000 ∧ lastOffset < 0x10000000000000000 ∧
      (∀ fault, (ofText "a\nb").resolveChecked lastOffset ≠ .error fault) ∧
      ((ofText "a\nb").resolveChecked lastOffset).toOption =
        (ofText "a\nb").resolve? lastOffset := by
  have hsource : "a\nb".length + 1 < 0x10000000000000000 := by decide
  have hoffset : lastOffset < 0x10000000000000000 := by decide
  obtain ⟨hsame, hfails, -⟩ := resolveChecked_fails_iff hsource hoffset
  refine ⟨hsource, hoffset, ?_, hsame⟩
  intro fault hfault
  obtain ⟨-, -, hline⟩ := (hfails fault).1 hfault
  exact hline (by decide)

end CheckedOffsetsWitness

end OffsetIndex
end LiveTest
