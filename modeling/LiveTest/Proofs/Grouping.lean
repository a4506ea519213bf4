import LiveTest.Proofs.AscendingKeys
/-!
Grouping by key.  Items are taken one by one, and the value of each goes to the end of the list of
its key.  So a key has the values of just its own items, in their order, and all lists together have
every value once.
-/

namespace LiveTest.SortedMap

universe u v w

variable {ι : Type w} {κ : Type u} {α : Type v} [Key κ] (key : ι → κ) (value : ι → α)

/-- Enter the value of every item at the end of the list of its key. -/
def group (m : SortedMap κ (List α)) (items : List ι) : SortedMap κ (List α) :=
  items.foldl (fun m i => m.upsert (key i) fun old => old.getD [] ++ [value i]) m

/-- The values of the items that have a key. -/
def valuesOf (items : List ι) (k : κ) : List α :=
  (items.filter fun i => Key.same k (key i)).map value

variable {key value}

theorem valuesOf_cons (i : ι) (rest : List ι) (k : κ) :
    valuesOf key value (i :: rest) k =
      (if Key.same k (key i) then [value i] else []) ++ valuesOf key value rest k := by
  by_cases hsame : Key.same k (key i) = true
  · simp [valuesOf, hsame]
  · simp [valuesOf, hsame]

theorem valuesOf_ne_nil_iff {items : List ι} {k : κ} :
    valuesOf key value items k ≠ [] ↔ ∃ i ∈ items, Key.same k (key i) = true := by
  simp [valuesOf]

theorem mem_keys_group {m : SortedMap κ (List α)} {items : List ι} {k : κ}
    (h : k ∈ (m.group key value items).keys) : k ∈ m.keys ∨ ∃ i ∈ items, k = key i := by
  induction items generalizing m with
  | nil => exact Or.inl h
  | cons i rest ih =>
      rcases ih h with hold | ⟨j, hj, heq⟩
      · rcases mem_keys_upsert hold with hold | ⟨-, heq⟩
        · exact Or.inl hold
        · exact Or.inr ⟨i, List.mem_cons_self, heq⟩
      · exact Or.inr ⟨j, List.mem_cons_of_mem i hj, heq⟩

variable [LawfulKey κ]

variable (key value) in
theorem Distinct.group {m : SortedMap κ (List α)} (h : m.Distinct) (items : List ι) :
    (m.group key value items).Distinct := by
  induction items generalizing m with
  | nil => exact h
  | cons i rest ih => exact ih (h.upsert _ _)

variable (key value) in
theorem Ascending.group {m : SortedMap κ (List α)} (h : m.Ascending) (items : List ι) :
    (m.group key value items).Ascending := by
  induction items generalizing m with
  | nil => exact h
  | cons i rest ih => exact ih (h.upsert _ _)

variable (key value) in
theorem getD_group (m : SortedMap κ (List α)) (items : List ι) (k : κ) :
    ((m.group key value items).get? k).getD [] =
      (m.get? k).getD [] ++ valuesOf key value items k := by
  induction items generalizing m with
  | nil => exact (List.append_nil _).symm
  | cons i rest ih =>
      rw [valuesOf_cons, SortedMap.group, List.foldl_cons, ← SortedMap.group, ih, get?_upsert]
      by_cases hsame : Key.same k (key i) = true
      · simp [hsame]
      · simp [hsame]

theorem contains_group_iff {m : SortedMap κ (List α)} {items : List ι} {k : κ} :
    (m.group key value items).contains k = true ↔
      m.contains k = true ∨ ∃ i ∈ items, Key.same k (key i) = true := by
  induction items generalizing m with
  | nil => simp [SortedMap.group]
  | cons i rest ih =>
      have hupsert : (m.upsert (key i) fun old => old.getD [] ++ [value i]).contains k = true ↔
          m.contains k = true ∨ Key.same k (key i) = true := by
        rw [contains, get?_upsert]
        by_cases hsame : Key.same k (key i) = true
        · simp [hsame]
        · simp [hsame, contains]
      rw [SortedMap.group, List.foldl_cons, ← SortedMap.group, ih, hupsert, or_assoc]
      simp

/-- A key has the values of its items if there are any, and is not there otherwise. -/
theorem get?_group (items : List ι) (k : κ) :
    ((empty : SortedMap κ (List α)).group key value items).get? k =
      if valuesOf key value items k = [] then none else some (valuesOf key value items k) := by
  have hgetD := getD_group key value empty items k
  have hcontains : ((empty.group key value items).get? k).isSome = true ↔
      valuesOf key value items k ≠ [] :=
    contains_group_iff.trans ((or_iff_right Bool.false_ne_true).trans valuesOf_ne_nil_iff.symm)
  rw [get?_empty, Option.getD_none, List.nil_append] at hgetD
  split
  · next hnone => simpa [hnone] using hcontains
  · next hsome =>
      obtain ⟨values, hvalues⟩ := Option.isSome_iff_exists.1 (hcontains.2 hsome)
      rw [hvalues, Option.getD_some] at hgetD
      rw [hvalues, hgetD]

theorem snd_of_mem_group {items : List ι} {e : κ × List α}
    (he : e ∈ ((empty : SortedMap κ (List α)).group key value items).entries) :
    e.2 = valuesOf key value items e.1 := by
  have hfound := (distinct_empty.group key value items).get?_of_mem he
  rw [get?_group] at hfound
  split at hfound
  · cases hfound
  · exact (Option.some.inj hfound).symm

/-- All values of a map of lists. -/
def allValues (m : SortedMap κ (List α)) : List α := m.entries.flatMap Prod.snd

/-- Entering a value adds it to the values and changes nothing else about them. -/
theorem allValues_upsert_perm {m : SortedMap κ (List α)} (h : m.Distinct) (k : κ) (a : α) :
    (m.upsert k fun old => old.getD [] ++ [a]).allValues.Perm (a :: m.allValues) := by
  by_cases hcontains : m.contains k = true
  · rw [upsert, if_pos hcontains]
    obtain ⟨entries⟩ := m
    rw [contains, get?] at hcontains
    rw [Distinct] at h
    rw [allValues, allValues]
    dsimp only at h hcontains ⊢
    induction entries with
    | nil => cases hcontains
    | cons head tail ih =>
        obtain ⟨hhead, htail⟩ := List.pairwise_cons.1 h
        rw [List.map_cons, List.flatMap_cons, List.flatMap_cons]
        by_cases hsame : Key.same k head.1 = true
        · -- The key of `k` is taken, so the entries after it stay as they are.
          have hrest : tail.map (fun e => if Key.same k e.1 then
              (e.1, (some e.2).getD [] ++ [a]) else e) = tail := by
            refine (List.map_congr_left ?_).trans (List.map_id tail)
            intro e he
            rw [Key.same_congr hsame, hhead e he]
            rfl
          rw [if_pos hsame, hrest, Option.getD_some, List.append_assoc]
          exact List.perm_middle
        · rw [if_neg hsame]
          rw [find?, if_neg hsame] at hcontains
          exact ((ih htail hcontains).append_left head.2).trans List.perm_middle
  · rw [upsert, if_neg hcontains]
    exact (place_perm k _ m.entries).flatMap_right Prod.snd

variable (key value) in
/-- Every value is in one list, as often as it was entered. -/
theorem allValues_group_perm {m : SortedMap κ (List α)} (h : m.Distinct) (items : List ι) :
    (m.group key value items).allValues.Perm (items.map value ++ m.allValues) := by
  induction items generalizing m with
  | nil => exact .refl _
  | cons i rest ih =>
      refine (ih (h.upsert _ _)).trans ?_
      refine ((allValues_upsert_perm h (key i) (value i)).append_left _).trans ?_
      exact List.perm_middle

end LiveTest.SortedMap
