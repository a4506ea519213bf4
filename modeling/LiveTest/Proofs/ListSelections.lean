import LiveTest.Proofs.CommandTexts
import LiveTest.Proofs.Grouping
import LiveTest.Proofs.WrittenFiles
/-!
Selections in a list of places.  The text of a list and the lines of its entries come about
separately: one is joined from texts, the other is counted.  Only the lines of messages are counted,
so both agree exactly as long as no path has a newline.  The selections are then grouped by file and
line, which loses none and takes none twice.
-/

namespace LiveTest

namespace Text

theorem intercalate_splitAll (sep : Char) (cs : List Char) :
    [sep].intercalate (splitAll sep cs) = cs := by
  rw [splitAll_eq_splitOn, List.intercalate_splitOn]

theorem length_splitAll (sep : Char) (cs : List Char) :
    (splitAll sep cs).length = cs.count sep + 1 := by
  induction cs with
  | nil => rfl
  | cons c rest ih =>
      rw [splitAll]
      by_cases hc : c = sep
      · rw [if_pos hc, List.length_cons, ih, hc, List.count_cons_self]
      · rw [if_neg hc, List.count_cons_of_ne hc, ← ih]
        split
        · next hnil => exact absurd hnil (splitAll_ne_nil sep rest)
        · next hcons => rw [hcons]; rfl

/-- The pieces of joined texts are the pieces of the texts. -/
theorem splitAll_join (sep : Char) (s : String) (rest : List String) :
    splitAll sep (join (String.singleton sep) (s :: rest)).toList =
      (s :: rest).flatMap fun t => splitAll sep t.toList := by
  induction rest generalizing s with
  | nil => rw [join, List.flatMap_singleton]
  | cons t rest ih =>
      have hjoin : (join (String.singleton sep) (s :: t :: rest)).toList =
          s.toList ++ sep :: (join (String.singleton sep) (t :: rest)).toList := by
        rw [join]
        · simp
        · simp
      rw [hjoin, splitAll_append_sep, ih]
      rfl

end Text

namespace Commands

/-- The lines of a list file. -/
def listLines (locations : List Location) : List (List Char) :=
  Text.splitAll '\n' (listText locations).toList

/-- The lines from one to another, counted from one, as one text. -/
def linesBetween (first last : Nat) (lines : List (List Char)) : List Char :=
  ['\n'].intercalate ((lines.drop (first - 1)).take (last + 1 - first))

/-- The lines that a place takes in a list file. -/
def entryLines (l : Location) : List (List Char) := Text.splitAll '\n' (locationText l).toList

/-- The newlines in the paths. -/
def pathNewlines (locations : List Location) : Nat :=
  (locations.flatMap fun l => l.file.text.toList).count '\n'

theorem pathNewlines_eq_zero_iff {locations : List Location} :
    pathNewlines locations = 0 ↔ ∀ l ∈ locations, '\n' ∉ l.file.text.toList := by
  simp [pathNewlines, List.count_eq_zero]

theorem listLines_eq (l : Location) (rest : List Location) :
    listLines (l :: rest) = (l :: rest).flatMap entryLines := by
  have hnewline : "\n" = String.singleton '\n' := rfl
  rw [listLines, listText, hnewline, List.map_cons, Text.splitAll_join, ← List.map_cons,
    List.flatMap_map]
  rfl

theorem messageLines_pos (l : Location) : 0 < messageLines l := by
  rw [messageLines, Text.length_splitAll]
  exact Nat.succ_pos _

/-- The entry of a place has the lines of its message, and more if there are newlines in its
path. -/
theorem length_entryLines (l : Location) :
    (entryLines l).length = l.file.text.toList.count '\n' + messageLines l := by
  have hline : l.line.repr.toList.count '\n' = 0 :=
    List.count_eq_zero.2 (not_mem_repr rfl l.line)
  have hcolon : ":".toList.count '\n' = 0 := by decide
  have hblank : ": ".toList.count '\n' = 0 := by decide
  have htext : (locationText l).toList.count '\n' =
      l.file.text.toList.count '\n' + l.message.toList.count '\n' := by
    simp only [locationText, placeKey, String.toList_append, List.count_append, hcolon, hblank,
      Nat.add_zero]
    rw [Nat.toString_eq_repr, hline, Nat.add_zero]
  rw [entryLines, messageLines, Text.length_splitAll, Text.length_splitAll, htext, Nat.add_assoc]

theorem fst_lineRanges (next : Nat) (locations : List Location) :
    (lineRanges next locations).map Prod.fst = locations := by
  induction locations generalizing next with
  | nil => rfl
  | cons l rest ih => rw [lineRanges, List.map_cons, ih]

theorem next_le_of_mem_lineRanges {next : Nat} {locations : List Location}
    {r : Location × Nat × Nat} (hr : r ∈ lineRanges next locations) : next ≤ r.2.1 := by
  induction locations generalizing next with
  | nil => cases hr
  | cons l rest ih =>
      rcases List.mem_cons.1 hr with rfl | hr
      · exact Nat.le_refl _
      · exact Nat.le_trans (Nat.le_add_right _ _) (ih hr)

theorem pairwise_lineRanges (next : Nat) (locations : List Location) :
    (lineRanges next locations).Pairwise fun r s => r.2.1 < s.2.1 := by
  induction locations generalizing next with
  | nil => exact .nil
  | cons l rest ih =>
      refine .cons ?_ (ih _)
      intro s hs
      exact Nat.lt_of_lt_of_le (Nat.lt_add_of_pos_right (messageLines_pos l))
        (next_le_of_mem_lineRanges hs)

theorem isChain_lineRanges (next : Nat) (locations : List Location) :
    (lineRanges next locations).IsChain fun r s => s.2.1 = r.2.2 + 1 := by
  induction locations generalizing next with
  | nil => exact .nil
  | cons l rest ih =>
      cases rest with
      | nil => exact .singleton _
      | cons l' rest =>
          have hpos := messageLines_pos l
          refine .cons_cons ?_ (ih _)
          dsimp only
          omega

/-- The last range ends as many lines before the end of the list as the paths have newlines. -/
theorem exists_last_lineRanges (next : Nat) (l : Location) (rest : List Location) :
    ∃ r, (lineRanges next (l :: rest)).getLast? = some r ∧
      r.2.2 + 1 + pathNewlines (l :: rest) =
        next + ((l :: rest).flatMap entryLines).length := by
  induction rest generalizing next l with
  | nil =>
      have hpos := messageLines_pos l
      have hlength := length_entryLines l
      refine ⟨(l, next, next + messageLines l - 1), rfl, ?_⟩
      simp only [pathNewlines, List.flatMap_singleton, hlength]
      omega
  | cons l' rest ih =>
      obtain ⟨r, hr, hends⟩ := ih (next + messageLines l) l'
      have hlength := length_entryLines l
      refine ⟨r, hr, ?_⟩
      rw [pathNewlines, List.flatMap_cons, List.count_append, ← pathNewlines, List.flatMap_cons,
        List.length_append, hlength]
      omega

/-- Without newlines in paths, the lines of a range are those of the entry of its place. -/
theorem linesBetween_lineRanges {locations : List Location}
    (h : ∀ l ∈ locations, '\n' ∉ l.file.text.toList) {before : List (List Char)} {next : Nat}
    (hnext : next = before.length + 1) :
    ∀ r ∈ lineRanges next locations,
      linesBetween r.2.1 r.2.2 (before ++ locations.flatMap entryLines) =
        (locationText r.1).toList := by
  induction locations generalizing before next with
  | nil =>
      intro r hr
      cases hr
  | cons l rest ih =>
      obtain ⟨hl, hrest⟩ := List.forall_mem_cons.1 h
      have hlength : (entryLines l).length = messageLines l := by
        rw [length_entryLines, List.count_eq_zero.2 hl, Nat.zero_add]
      intro r hr
      rw [List.flatMap_cons]
      rcases List.mem_cons.1 hr with rfl | hr
      · have hpos := messageLines_pos l
        have hfirst : next - 1 = before.length := by omega
        have hcount : next + messageLines l - 1 + 1 - next = (entryLines l).length := by omega
        rw [linesBetween, hfirst, hcount, List.drop_left, List.take_left, entryLines,
          Text.intercalate_splitAll]
      · rw [← List.append_assoc]
        apply ih hrest _ r hr
        rw [List.length_append, hlength, hnext, Nat.add_right_comm]

/-- The ranges are those of the lines of a list file: they start with its first line, each one right
after the one before it, and end with its last line, and what they hold are the entries of their
places. -/
structure RangesFit (locations : List Location) : Prop where
  starts : (lineRanges 1 locations).head?.map (fun r => r.2.1) = some 1
  consecutive : (lineRanges 1 locations).IsChain fun r s => s.2.1 = r.2.2 + 1
  ends : (lineRanges 1 locations).getLast?.map (fun r => r.2.2) =
    some (listLines locations).length
  entries : ∀ r ∈ lineRanges 1 locations,
    linesBetween r.2.1 r.2.2 (listLines locations) = (locationText r.1).toList

theorem rangesFit_iff (l : Location) (rest : List Location) :
    RangesFit (l :: rest) ↔ ∀ l' ∈ l :: rest, '\n' ∉ l'.file.text.toList := by
  obtain ⟨last, hlast, hends⟩ := exists_last_lineRanges 1 l rest
  rw [← listLines_eq] at hends
  constructor
  · intro hfit
    have hlines : last.2.2 = (listLines (l :: rest)).length := by
      have hfitEnds := hfit.ends
      rw [hlast] at hfitEnds
      exact Option.some.inj hfitEnds
    apply pathNewlines_eq_zero_iff.1
    omega
  · intro hpaths
    have hnone := pathNewlines_eq_zero_iff.2 hpaths
    refine ⟨rfl, isChain_lineRanges _ _, ?_, ?_⟩
    · rw [hlast, Option.map_some, Option.some.injEq]
      omega
    · rw [listLines_eq]
      have hnone : 1 = ([] : List (List Char)).length + 1 := rfl
      exact linesBetween_lineRanges hpaths hnone

/-- A range as a selection. -/
def rangeSelection (r : Location × Nat × Nat) : String := selectionText r.2.1 r.2.2

/-- The selections of the places with a file, as it is spelled, and a line. -/
def selectionsAt (locations : List Location) (file : Path) (line : Nat) : List String :=
  ((lineRanges 1 locations).filter fun r => r.1.file = file ∧ r.1.line = line).map rangeSelection

theorem selections_eq_group (locations : List Location) :
    selections locations = SortedMap.empty.group
      (fun r : Location × Nat × Nat => placeKey r.1.file r.1.line) rangeSelection
      (lineRanges 1 locations) := rfl

theorem valuesOf_placeKey (locations : List Location) (file : Path) (line : Nat) :
    SortedMap.valuesOf (fun r : Location × Nat × Nat => placeKey r.1.file r.1.line) rangeSelection
      (lineRanges 1 locations) (placeKey file line) = selectionsAt locations file line := by
  rw [SortedMap.valuesOf, selectionsAt]
  congr 1
  apply List.filter_congr
  intro r _
  rw [Bool.eq_iff_iff, Key.same_string_iff, placeKey_inj, decide_eq_true_iff, eq_comm,
    @eq_comm _ line]

theorem get?_selections (locations : List Location) (file : Path) (line : Nat) :
    (selections locations).get? (placeKey file line) =
      if selectionsAt locations file line = [] then none
      else some (selectionsAt locations file line) := by
  rw [selections_eq_group, SortedMap.get?_group, valuesOf_placeKey]

/-- Every entry is that of a place. -/
theorem of_mem_selections {locations : List Location} {e : String × List String}
    (he : e ∈ (selections locations).entries) :
    ∃ l ∈ locations, e = (placeKey l.file l.line, selectionsAt locations l.file l.line) := by
  rw [selections_eq_group] at he
  rcases SortedMap.mem_keys_group (List.mem_map_of_mem he) with hnone | ⟨r, hr, hkey⟩
  · cases hnone
  · have hplace : r.1 ∈ locations := fst_lineRanges 1 locations ▸ List.mem_map_of_mem hr
    have hvalues := SortedMap.snd_of_mem_group he
    rw [hkey, valuesOf_placeKey] at hvalues
    exact ⟨r.1, hplace, Prod.ext hkey hvalues⟩

theorem ascending_selections (locations : List Location) : (selections locations).Ascending :=
  SortedMap.ascending_empty.group _ _ (lineRanges 1 locations)

/-- A selection tells the line that it starts with. -/
theorem selectionText_first_inj {first first' last last' : Nat}
    (h : selectionText first last = selectionText first' last') : first = first' := by
  have hpoint : ∀ n : Nat, '.' ∉ n.repr.toList := not_mem_repr rfl
  have hchars : ∀ first last : Nat, (selectionText first last).toList =
      first.repr.toList ++ '.' :: ("1,".toList ++ last.repr.toList ++ ".999".toList) := by
    intro first last
    have hcomma : ".1,".toList = '.' :: "1,".toList := by decide
    simp only [selectionText, String.toList_append, hcomma, Nat.toString_eq_repr,
      List.append_assoc, List.cons_append]
  have hdigits := congrArg (List.takeWhile (· ≠ '.')) (congrArg String.toList h)
  rw [hchars, hchars, Text.takeWhile_ne_append (hpoint first),
    Text.takeWhile_ne_append (hpoint first')] at hdigits
  exact repr_toList_inj hdigits

theorem nodup_rangeSelections (next : Nat) (locations : List Location) :
    ((lineRanges next locations).map rangeSelection).Nodup := by
  rw [List.Nodup, List.pairwise_map]
  apply (pairwise_lineRanges next locations).imp
  intro r s hlt heq
  exact absurd (selectionText_first_inj heq) (Nat.ne_of_lt hlt)

/-- The ranges of the places are those of the lines of the list file if and only if no path has a
newline.  Whatever the paths, the selections of a file and a line are those of the places with them,
in the order of the places, and every place is selected once. -/
theorem selections_match_list {locations : List Location} (h : locations ≠ []) :
    ((lineRanges 1 locations).map Prod.fst = locations ∧
      (RangesFit locations ↔ ∀ l ∈ locations, '\n' ∉ l.file.text.toList)) ∧
    (∀ file line, (selections locations).get? (placeKey file line) =
      if selectionsAt locations file line = [] then none
      else some (selectionsAt locations file line)) ∧
    (∀ key ∈ (selections locations).keys, ∃ l ∈ locations, key = placeKey l.file l.line) ∧
    (selections locations).Ascending ∧
    (selections locations).allValues.Perm ((lineRanges 1 locations).map rangeSelection) ∧
    ((lineRanges 1 locations).map rangeSelection).Nodup := by
  obtain ⟨l, rest, rfl⟩ := List.exists_cons_of_ne_nil h
  refine ⟨⟨fst_lineRanges 1 _, rangesFit_iff l rest⟩, get?_selections _, ?_,
    ascending_selections _, ?_, nodup_rangeSelections 1 _⟩
  · intro key hkey
    obtain ⟨e, he, rfl⟩ := List.mem_map.1 hkey
    obtain ⟨l', hl', rfl⟩ := of_mem_selections he
    exact ⟨l', hl', rfl⟩
  · have hall := SortedMap.allValues_group_perm
      (fun r : Location × Nat × Nat => placeKey r.1.file r.1.line) rangeSelection
      SortedMap.distinct_empty (lineRanges 1 (l :: rest))
    have hnone : (SortedMap.empty : SortedMap String (List String)).allValues = [] := rfl
    rwa [← selections_eq_group, hnone, List.append_nil] at hall

namespace ListSelectionsWitness

/-- A message that ends with a newline, an empty one, and a line that fails twice. -/
def failures : List Location :=
  [⟨⟨"/p/a.ts"⟩, 3, "first\nsecond\n"⟩, ⟨⟨"/p/a.ts:3"⟩, 9, ""⟩, ⟨⟨"/p/a.ts"⟩, 3, "again"⟩]

/-- The same with a newline in a path. -/
def broken : List Location := ⟨⟨"/p/a\n.ts"⟩, 1, "early"⟩ :: failures

theorem selections_match_list_failures :
    failures ≠ [] ∧ RangesFit failures ∧
      (selections failures).get? "/p/a.ts:3" = some ["1.1,3.999", "5.1,5.999"] ∧
      broken ≠ [] ∧ ¬RangesFit broken := by
  have hfailures : failures ≠ [] := List.cons_ne_nil _ _
  have hbroken : broken ≠ [] := List.cons_ne_nil _ _
  obtain ⟨⟨-, hfit⟩, hat, -⟩ := selections_match_list hfailures
  obtain ⟨⟨-, hfitBroken⟩, -⟩ := selections_match_list hbroken
  refine ⟨hfailures, hfit.2 (by decide), ?_, hbroken, ?_⟩
  · exact (hat ⟨"/p/a.ts"⟩ 3).trans (by decide +kernel)
  · intro hfits
    exact absurd (hfitBroken.1 hfits) (by decide)

end ListSelectionsWitness

end Commands

end LiveTest
