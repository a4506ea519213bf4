import LiveTest.Offsets
import Mathlib.Data.List.GetD
import Mathlib.Data.List.Induction
/-!
Offsets by a plain scan.  The table of line starts is strictly ascending, so halving it finds how
many lines start up to an offset.  The table of a text has one entry for its beginning and one for
each newline.  Hence the place that is looked up is the one that counting newlines gives, and the
start of its line leads back to the offset.
-/

namespace LiveTest

namespace LineColumn

/-- The place can be told as it is. -/
def Told (p : LineColumn) : Prop := p.line ≤ 0xffffffff ∧ p.col ≤ 0xffffffff

instance (p : LineColumn) : Decidable p.Told := inferInstanceAs (Decidable (_ ∧ _))

theorem Told.saturated_eq {p : LineColumn} (h : p.Told) : p.saturated = p := by
  rw [saturated, coordinateLimit, Nat.min_eq_left h.1, Nat.min_eq_left h.2]

/-- The place comes strictly before another one: lines count first, then columns. -/
def Before (p q : LineColumn) : Prop := p.line < q.line ∨ p.line = q.line ∧ p.col < q.col

end LineColumn

namespace OffsetIndex

theorem partitionPoint_le (passes : Nat → Bool) {lo hi : Nat} (h : lo ≤ hi) :
    partitionPoint passes lo hi ≤ hi := by
  fun_induction partitionPoint passes lo hi with
  | case1 lo hi hlt mid hpass ih => exact ih (by omega)
  | case2 lo hi hlt mid hfail ih => exact Nat.le_trans (ih (by omega)) (by omega)
  | case3 lo hi hge => exact h

theorem le_partitionPoint (passes : Nat → Bool) (lo hi : Nat) :
    lo ≤ partitionPoint passes lo hi := by
  fun_induction partitionPoint passes lo hi with
  | case1 lo hi hlt mid hpass ih => exact Nat.le_trans (by omega) ih
  | case2 lo hi hlt mid hfail ih => exact ih
  | case3 lo hi hge => exact Nat.le_refl lo

/-- The positions that pass are those before the one that is found. -/
theorem lt_partitionPoint_iff {passes : Nat → Bool} {lo hi : Nat}
    (hpasses : ∀ i j, i ≤ j → j < hi → passes j = true → passes i = true) {i : Nat} (hlo : lo ≤ i)
    (hhi : i < hi) : i < partitionPoint passes lo hi ↔ passes i = true := by
  -- The half that is left out is settled by the position that was looked at.
  fun_induction partitionPoint passes lo hi with
  | case1 lo hi hlt mid hpass ih =>
      rcases Nat.lt_or_ge mid i with hmid | hmid
      · exact ih hpasses hmid hhi
      · have hfound := le_partitionPoint passes (mid + 1) hi
        exact iff_of_true (by omega) (hpasses i mid hmid (by omega) hpass)
  | case2 lo hi hlt mid hfail ih =>
      rcases Nat.lt_or_ge i mid with hmid | hmid
      · exact ih (fun i j hij hj => hpasses i j hij (by omega)) hlo hmid
      · have hfound := partitionPoint_le passes (show lo ≤ mid by omega)
        exact iff_of_false (by omega) fun hi => hfail (hpasses mid i hmid hhi hi)
  | case3 lo hi hge => omega

section Table

variable (index : OffsetIndex)

theorem lineCount_pos : 0 < index.lineCount := by
  obtain ⟨h, -⟩ := Array.getElem?_eq_some_iff.1 index.first
  exact h

theorem start_zero : index.start 0 = 0 := by
  rw [start, Array.getD_eq_getD_getElem?, index.first, Option.getD_some]

variable {index} {i j offset : Nat}

theorem start_eq_getElem (h : i < index.starts.size) : index.start i = index.starts[i] := by
  rw [start, Array.getD_eq_getD_getElem?, Array.getElem?_eq_getElem h, Option.getD_some]

/-- Every line starts after the one before it. -/
theorem start_lt_start (hij : i < j) (hj : j < index.lineCount) :
    index.start i < index.start j := by
  have hi := Nat.lt_trans hij hj
  have h := List.pairwise_iff_getElem.1 index.ascending i j hi hj hij
  rw [start_eq_getElem hi, start_eq_getElem hj]
  exact h

theorem start_le_start (hij : i ≤ j) (hj : j < index.lineCount) :
    index.start i ≤ index.start j := by
  rcases Nat.eq_or_lt_of_le hij with rfl | hlt
  · exact Nat.le_refl _
  · exact Nat.le_of_lt (start_lt_start hlt hj)

theorem linesUpTo_le (index : OffsetIndex) (offset : Nat) :
    index.linesUpTo offset ≤ index.lineCount :=
  partitionPoint_le _ (Nat.zero_le _)

/-- The lines that are counted are those that start up to the offset. -/
theorem lt_linesUpTo_iff (h : i < index.lineCount) :
    i < index.linesUpTo offset ↔ index.start i ≤ offset := by
  rw [linesUpTo, lt_partitionPoint_iff _ (Nat.zero_le i) h, decide_eq_true_iff]
  intro i j hij hj hle
  exact decide_eq_true (Nat.le_trans (start_le_start hij hj) (of_decide_eq_true hle))

theorem linesUpTo_pos (index : OffsetIndex) (offset : Nat) : 0 < index.linesUpTo offset := by
  rw [lt_linesUpTo_iff index.lineCount_pos, start_zero]
  exact Nat.zero_le offset

/-- The line that holds an offset starts there or before. -/
theorem start_linesUpTo_le (index : OffsetIndex) (offset : Nat) :
    index.start (index.linesUpTo offset - 1) ≤ offset := by
  have hpos := linesUpTo_pos index offset
  have hle := linesUpTo_le index offset
  exact (lt_linesUpTo_iff (by omega)).1 (by omega)

/-- How many lines start up to an offset is told by where they start. -/
theorem linesUpTo_eq {count : Nat} (hcount : count ≤ index.lineCount)
    (h : ∀ i, i < index.lineCount → (index.start i ≤ offset ↔ i < count)) :
    index.linesUpTo offset = count := by
  have hle := linesUpTo_le index offset
  have hsame : ∀ i, i < index.lineCount → (i < index.linesUpTo offset ↔ i < count) :=
    fun i hi => (lt_linesUpTo_iff hi).trans (h i hi)
  apply Nat.le_antisymm
  · by_contra hlt
    exact Nat.lt_irrefl count ((hsame count (by omega)).1 (by omega))
  · by_contra hlt
    exact Nat.lt_irrefl _ ((hsame (index.linesUpTo offset) (by omega)).2 (by omega))

theorem lineStart?_succ (h : i < index.lineCount) :
    index.lineStart? (i + 1) = some (index.start i) := by
  rw [lineStart?, if_neg (Nat.succ_ne_zero i), Nat.add_sub_cancel, start_eq_getElem h]
  exact Array.getElem?_eq_getElem h

theorem lineStart?_eq_none (h : i = 0 ∨ index.lineCount < i) : index.lineStart? i = none := by
  rw [lineStart?]
  split
  · rfl
  · exact Array.getElem?_eq_none (Nat.le_pred_of_lt (h.resolve_left ‹_›))

theorem lineStart?_place :
    index.lineStart? (index.place offset).line =
      some (index.start ((index.place offset).line - 1)) := by
  have hpos := linesUpTo_pos index offset
  have hle := linesUpTo_le index offset
  have h := lineStart?_succ (show index.linesUpTo offset - 1 < index.lineCount by omega)
  rwa [Nat.sub_add_cancel hpos] at h

/-- The start of the line and the column lead back to the offset. -/
theorem start_add_col :
    index.start ((index.place offset).line - 1) + (index.place offset).col - 1 = offset := by
  have h := start_linesUpTo_le index offset
  simp only [place]
  omega

/-- A later offset has a later place. -/
theorem place_before {offset' : Nat} (h : offset < offset') :
    (index.place offset).Before (index.place offset') := by
  have hline : index.linesUpTo offset ≤ index.linesUpTo offset' := by
    have hpos := linesUpTo_pos index offset
    have hle := linesUpTo_le index offset
    have hstart := start_linesUpTo_le index offset
    have hlast : index.linesUpTo offset - 1 < index.lineCount := by omega
    have hin := (lt_linesUpTo_iff hlast).2 (Nat.le_trans hstart (Nat.le_of_lt h))
    omega
  rcases Nat.eq_or_lt_of_le hline with heq | hlt
  · have hstart := start_linesUpTo_le index offset
    refine .inr ⟨heq, ?_⟩
    simp only [place, ← heq]
    omega
  · exact .inl hlt

theorem place_start (h : i < index.lineCount) : index.place (index.start i) = ⟨i + 1, 1⟩ := by
  have hline : index.linesUpTo (index.start i) = i + 1 := by
    apply linesUpTo_eq h
    intro j hj
    constructor
    · intro hle
      by_contra hlt
      exact absurd (start_lt_start (by omega) hj) (Nat.not_lt.2 hle)
    · intro hlt
      exact start_le_start (by omega) h
  rw [place, hline, Nat.add_sub_cancel, Nat.sub_self]

theorem resolve?_of_told (h : (index.place offset).Told) :
    index.resolve? offset = some (index.place offset) := by
  have hcol : (index.place offset).col < offsetLimit :=
    Nat.lt_of_le_of_lt h.2 (by decide)
  rw [resolve?, if_pos hcol, h.saturated_eq]

end Table

/-- The offsets right after each newline, where the text begins at offset `pos`. -/
def startsAfterNewlines (pos : Nat) : List Char → List Nat
  | [] => []
  | c :: rest =>
    if c = '\n' then (pos + 1) :: startsAfterNewlines (pos + 1) rest
    else startsAfterNewlines (pos + 1) rest

/-- Adding up the lengths of lines finds the newlines. -/
theorem lineStarts_splitAll (pos : Nat) (cs : List Char) :
    lineStarts pos (Text.splitAll '\n' cs) = pos :: startsAfterNewlines pos cs := by
  induction cs generalizing pos with
  | nil => rfl
  | cons c rest ih =>
      rw [Text.splitAll, startsAfterNewlines]
      split
      · rw [lineStarts, List.length_nil, Nat.add_zero, ih]
      · -- The character belongs to the first line of the rest.
        obtain ⟨line, lines, hlines⟩ := List.exists_cons_of_ne_nil (Text.splitAll_ne_nil '\n' rest)
        have hrest := ih (pos + 1)
        rw [hlines, lineStarts, List.cons.injEq] at hrest
        rw [hlines]
        simp only [lineStarts, List.length_cons]
        rw [← hrest.2, Nat.add_right_comm pos 1 line.length]
        rfl

theorem startsAfterNewlines_append (pos : Nat) (as bs : List Char) :
    startsAfterNewlines pos (as ++ bs) =
      startsAfterNewlines pos as ++ startsAfterNewlines (pos + as.length) bs := by
  induction as generalizing pos with
  | nil => rfl
  | cons c rest ih =>
      rw [List.cons_append, startsAfterNewlines, startsAfterNewlines, ih, List.length_cons,
        Nat.add_right_comm, ← Nat.add_assoc]
      split
      · rfl
      · rfl

theorem length_startsAfterNewlines (pos : Nat) (cs : List Char) :
    (startsAfterNewlines pos cs).length = cs.count '\n' := by
  induction cs generalizing pos with
  | nil => rfl
  | cons c rest ih =>
      rw [startsAfterNewlines, List.count_cons]
      split
      · next hc => simp [hc, ih]
      · next hc => simp [hc, ih]

theorem mem_startsAfterNewlines {pos start : Nat} {cs : List Char}
    (h : start ∈ startsAfterNewlines pos cs) : pos < start ∧ start ≤ pos + cs.length := by
  induction cs generalizing pos with
  | nil => cases h
  | cons c rest ih =>
      rw [List.length_cons]
      rw [startsAfterNewlines] at h
      split at h
      · rcases List.mem_cons.1 h with rfl | h
        · omega
        · have hrest := ih h
          omega
      · have hrest := ih h
        omega

theorem toList_starts_ofChars (cs : List Char) :
    (ofChars cs).starts.toList = 0 :: startsAfterNewlines 0 cs :=
  lineStarts_splitAll 0 cs

example : (ofText "ab\ncde\n\nf").starts = #[0, 3, 7, 8] := by decide

/-- There is one line more than there are newlines. -/
theorem lineCount_ofChars (cs : List Char) : (ofChars cs).lineCount = cs.count '\n' + 1 := by
  rw [lineCount, ← Array.length_toList, toList_starts_ofChars, List.length_cons,
    length_startsAfterNewlines]

theorem start_ofChars (cs : List Char) (i : Nat) :
    (ofChars cs).start i = (0 :: startsAfterNewlines 0 cs).getD i 0 := by
  rw [start, Array.getD_eq_getD_getElem?, ← Array.getElem?_toList, toList_starts_ofChars,
    List.getD_eq_getElem?_getD]

/-- The position right after the last newline of a text, or its beginning. -/
def afterLastNewline (cs : List Char) : Nat :=
  cs.length - (cs.reverse.takeWhile (· ≠ '\n')).length

theorem afterLastNewline_append_newline (cs : List Char) :
    afterLastNewline (cs ++ ['\n']) = cs.length + 1 := by
  simp [afterLastNewline]

theorem afterLastNewline_append_of_ne {c : Char} (hc : c ≠ '\n') (cs : List Char) :
    afterLastNewline (cs ++ [c]) = afterLastNewline cs := by
  simp [afterLastNewline, hc]

/-- The place of an offset, by the newlines among the characters before it. -/
def scan (cs : List Char) (offset : Nat) : LineColumn where
  line := (cs.take offset).count '\n' + 1
  col := offset - afterLastNewline (cs.take offset) + 1

/-- What a text starts with does not change where the lines of that start. -/
theorem start_ofChars_append {as : List Char} {i : Nat} (hi : i ≤ as.count '\n')
    (bs : List Char) : (ofChars (as ++ bs)).start i = (ofChars as).start i := by
  rw [start_ofChars, start_ofChars, startsAfterNewlines_append, ← List.cons_append,
    List.getD_append]
  rw [List.length_cons, length_startsAfterNewlines]
  omega

theorem start_ofChars_le {cs : List Char} {i : Nat} (hi : i ≤ cs.count '\n') :
    (ofChars cs).start i ≤ cs.length := by
  have hlt : i < (0 :: startsAfterNewlines 0 cs).length := by
    rw [List.length_cons, length_startsAfterNewlines]
    omega
  rw [start_ofChars, List.getD_eq_getElem _ _ hlt]
  rcases List.mem_cons.1 (List.getElem_mem hlt) with h | h
  · omega
  · have hmem := mem_startsAfterNewlines h
    omega

/-- The lines that start after what a text starts with. -/
theorem lt_start_ofChars_append {as bs : List Char} {i : Nat} (hi : as.count '\n' < i)
    (hin : i < (ofChars (as ++ bs)).lineCount) :
    as.length < (ofChars (as ++ bs)).start i ∧
      (ofChars (as ++ bs)).start i ≤ as.length + bs.length := by
  rw [lineCount_ofChars, List.count_append] at hin
  have hlen : (0 :: startsAfterNewlines 0 as).length = as.count '\n' + 1 := by
    rw [List.length_cons, length_startsAfterNewlines]
  have hlt : i - (0 :: startsAfterNewlines 0 as).length <
      (startsAfterNewlines (0 + as.length) bs).length := by
    rw [length_startsAfterNewlines]
    omega
  rw [start_ofChars, startsAfterNewlines_append, ← List.cons_append,
    List.getD_append_right _ _ _ _ (by omega), List.getD_eq_getElem _ _ hlt]
  have hmem := mem_startsAfterNewlines (List.getElem_mem hlt)
  omega

/-- The lines that start up to an offset come from the newlines before it. -/
theorem linesUpTo_ofChars (cs : List Char) (offset : Nat) :
    (ofChars cs).linesUpTo offset = (cs.take offset).count '\n' + 1 := by
  -- The text is split at the offset, and the table with it.
  have hcs := List.take_append_drop offset cs
  have hcount : (ofChars cs).lineCount =
      (cs.take offset).count '\n' + (cs.drop offset).count '\n' + 1 := by
    rw [← List.count_append, hcs, lineCount_ofChars]
  apply linesUpTo_eq
  · omega
  · intro i hi
    constructor
    · intro hle
      by_contra hlt
      rw [← hcs] at hi hle
      have hstart := lt_start_ofChars_append (by omega) hi
      rw [List.length_take, List.length_drop] at hstart
      omega
    · intro hlt
      have hstart := start_ofChars_le (Nat.le_of_lt_succ hlt)
      rw [← start_ofChars_append (Nat.le_of_lt_succ hlt) (cs.drop offset), hcs,
        List.length_take] at hstart
      omega

/-- The last line starts right after the last newline. -/
theorem start_ofChars_count (cs : List Char) :
    (ofChars cs).start (cs.count '\n') = afterLastNewline cs := by
  -- The last line is at the end, so the induction takes characters off there.
  induction cs using List.reverseRecOn with
  | nil => rfl
  | append_singleton cs c ih =>
      by_cases hc : c = '\n'
      · rw [hc, afterLastNewline_append_newline, start_ofChars, startsAfterNewlines_append,
          ← List.cons_append, List.getD_append_right]
        · simp [startsAfterNewlines, length_startsAfterNewlines]
        · simp [length_startsAfterNewlines]
      · have hcount : [c].count '\n' = 0 :=
          List.count_eq_zero_of_not_mem (by simpa using Ne.symm hc)
        rw [afterLastNewline_append_of_ne hc, ← ih, List.count_append, hcount, Nat.add_zero,
          start_ofChars_append (Nat.le_refl _)]

theorem place_ofChars (cs : List Char) (offset : Nat) :
    (ofChars cs).place offset = scan cs offset := by
  rw [place, scan, linesUpTo_ofChars, Nat.add_sub_cancel, ← start_ofChars_count,
    ← start_ofChars_append (Nat.le_refl _) (cs.drop offset), List.take_append_drop]

/-- Looking up an offset in the table of a text gives the place that a scan of the text gives, as
far as it can be told.  Where it can, looking up goes strictly forward with the offset and the start
of a line leads back. -/
theorem resolve?_eq_scan (source : String) :
    (∀ offset, offset + 1 < 0x10000000000000000 →
      (ofText source).resolve? offset = some ⟨min (scan source.toList offset).line 0xffffffff,
        min (scan source.toList offset).col 0xffffffff⟩) ∧
    (∀ offset, source.length ≤ offset →
      (scan source.toList offset).line = (ofText source).lineCount) ∧
    (∀ offset, (scan source.toList offset).Told → ∃ place start,
      (ofText source).resolve? offset = some place ∧
      (ofText source).lineStart? place.line = some start ∧ start + place.col - 1 = offset) ∧
    (∀ offset offset', offset < offset' → (scan source.toList offset).Told →
      (scan source.toList offset').Told → ∃ place place',
      (ofText source).resolve? offset = some place ∧
      (ofText source).resolve? offset' = some place' ∧ place.Before place') ∧
    (∀ line, 1 ≤ line → line ≤ (ofText source).lineCount → line ≤ 0xffffffff → ∃ start,
      (ofText source).lineStart? line = some start ∧
      (ofText source).resolve? start = some ⟨line, 1⟩) ∧
    (∀ line, line = 0 ∨ (ofText source).lineCount < line →
      (ofText source).lineStart? line = none) := by
  have hplace : ∀ offset, (ofText source).place offset = scan source.toList offset :=
    fun offset => place_ofChars source.toList offset
  have hresolve : ∀ offset, (scan source.toList offset).Told →
      (ofText source).resolve? offset = some ((ofText source).place offset) := by
    intro offset h
    rw [← hplace] at h
    exact resolve?_of_told h
  refine ⟨?_, ?_, ?_, ?_, ?_, fun line h => lineStart?_eq_none h⟩
  · intro offset h
    have hcol : ((ofText source).place offset).col < offsetLimit := by
      simp only [place, offsetLimit]
      omega
    rw [resolve?, if_pos hcol, hplace]
    rfl
  · intro offset h
    rw [scan, List.take_of_length_le (by rwa [String.length_toList]), ofText, lineCount_ofChars]
  · intro offset h
    exact ⟨_, _, hresolve offset h, lineStart?_place, start_add_col⟩
  · intro offset offset' hlt h h'
    exact ⟨_, _, hresolve offset h, hresolve offset' h', place_before hlt⟩
  · intro line hpos hle hlimit
    obtain ⟨i, rfl⟩ := Nat.exists_eq_succ_of_ne_zero (Nat.ne_of_gt hpos)
    have hstart := place_start hle
    refine ⟨_, lineStart?_succ hle, ?_⟩
    rw [resolve?_of_told, hstart]
    rw [hstart]
    exact ⟨hlimit, Nat.succ_le_of_lt (by decide)⟩

/-- An offset past the end, one of an empty line and one of a newline. -/
theorem resolve?_eq_scan_four_lines :
    let index := ofText "ab\ncde\n\nf"
    (100 + 1 < 0x10000000000000000 ∧ index.resolve? 100 = some ⟨4, 93⟩) ∧
    (8 ≤ 100 ∧ index.lineCount = 4) ∧
    (2 < 7 ∧ ∃ place place', index.resolve? 2 = some place ∧ index.resolve? 7 = some place' ∧
      place.Before place') ∧
    (∃ place start, index.resolve? 7 = some place ∧ index.lineStart? place.line = some start ∧
      start + place.col - 1 = 7) ∧
    (∃ start, index.lineStart? 3 = some start ∧ index.resolve? start = some ⟨3, 1⟩) ∧
    index.lineStart? 0 = none ∧ index.lineStart? 5 = none := by
  obtain ⟨hscan, hpast, hback, hforward, hline, hnone⟩ := resolve?_eq_scan "ab\ncde\n\nf"
  have hcount : (ofText "ab\ncde\n\nf").lineCount = 4 := (hpast 100 (by decide)).symm
  refine ⟨⟨by decide, hscan 100 (by decide)⟩, ⟨by decide, hcount⟩,
    ⟨by decide, hforward 2 7 (by decide) (by decide) (by decide)⟩, hback 7 (by decide),
    hline 3 (by decide) (hcount ▸ by decide) (by decide), hnone 0 (.inl rfl),
    hnone 5 (.inr (hcount ▸ by decide))⟩

end OffsetIndex
end LiveTest
