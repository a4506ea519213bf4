import LiveTest.Proofs.KeyOrder
/-!
Looking up in maps.  After an `upsert` exactly one key has changed, whatever spellings of it were
used, and nothing here needs the entries to be sorted: looking up takes the first entry of a key,
and so does changing it.
-/

namespace LiveTest

universe u v

namespace SortedMap

variable {κ : Type u} {α β : Type v} [Key κ]

@[simp] theorem get?_empty (k : κ) : (empty : SortedMap κ α).get? k = none := rfl

theorem find?_isSome_iff {k : κ} {entries : List (κ × α)} :
    (find? k entries).isSome = true ↔ ∃ e ∈ entries, Key.same k e.1 = true := by
  induction entries with
  | nil => simp [find?]
  | cons head tail ih =>
      by_cases hsame : Key.same k head.1 = true
      · simp [find?, hsame]
      · simp [find?, hsame, ih]

theorem contains_iff_exists_mem {m : SortedMap κ α} {k : κ} :
    m.contains k = true ↔ ∃ e ∈ m.entries, Key.same k e.1 = true :=
  find?_isSome_iff

theorem exists_mem_of_find? {k : κ} {a : α} {entries : List (κ × α)}
    (h : find? k entries = some a) : ∃ e ∈ entries, Key.same k e.1 = true ∧ e.2 = a := by
  induction entries with
  | nil => cases h
  | cons head tail ih =>
      rw [find?] at h
      split at h
      · next hsame =>
          cases h
          exact ⟨head, List.mem_cons_self, hsame, rfl⟩
      · obtain ⟨e, he, hfound⟩ := ih h
        exact ⟨e, List.mem_cons_of_mem head he, hfound⟩

/-- What is found under a key stands in an entry with that key. -/
theorem exists_mem_of_get? {m : SortedMap κ α} {k : κ} {a : α} (h : m.get? k = some a) :
    ∃ e ∈ m.entries, Key.same k e.1 = true ∧ e.2 = a :=
  exists_mem_of_find? h

theorem get?_eq_none_of_not_contains {m : SortedMap κ α} {k : κ}
    (h : ¬ m.contains k = true) : m.get? k = none := by
  simpa [contains] using h

theorem find?_map_values (f : α → β) (k : κ) (entries : List (κ × α)) :
    find? k (entries.map fun e => (e.1, f e.2)) = (find? k entries).map f := by
  induction entries with
  | nil => rfl
  | cons head tail ih =>
      by_cases hsame : Key.same k head.1 = true
      · simp [find?, hsame]
      · simp [find?, hsame, ih]

@[simp] theorem get?_mapValues (m : SortedMap κ α) (f : α → β) (k : κ) :
    (m.mapValues f).get? k = (m.get? k).map f :=
  find?_map_values f k m.entries

theorem find?_place_other {k k' : κ} (h : ¬ Key.same k' k = true) (a : α)
    (entries : List (κ × α)) : find? k' (place k a entries) = find? k' entries := by
  induction entries with
  | nil => simp [place, find?, h]
  | cons head tail ih =>
      by_cases hbefore : Key.before k head.1 = true
      · simp [place, hbefore, find?, h]
      · simp [place, hbefore, find?, ih]

theorem place_perm (k : κ) (a : α) (entries : List (κ × α)) :
    (place k a entries).Perm ((k, a) :: entries) := by
  induction entries with
  | nil => exact .refl _
  | cons head tail ih =>
      rw [place]
      split
      · exact .refl _
      · exact (ih.cons head).trans (.swap _ _ _)

theorem place_map_values (f : α → β) (k : κ) (a : α) (entries : List (κ × α)) :
    (place k a entries).map (fun e => (e.1, f e.2)) =
      place k (f a) (entries.map fun e => (e.1, f e.2)) := by
  induction entries with
  | nil => rfl
  | cons head tail ih =>
      rw [List.map_cons, place, place]
      split
      · rfl
      · rw [List.map_cons, ih]

/-- Values can be set before or after all are mapped. -/
theorem insert_mapValues (f : α → β) (m : SortedMap κ α) (k : κ) (a : α) :
    (m.insert k a).mapValues f = (m.mapValues f).insert k (f a) := by
  have hcontains : (m.mapValues f).contains k = m.contains k := by
    rw [contains, get?_mapValues, Option.isSome_map]
    rfl
  rw [insert, insert, upsert, upsert, hcontains]
  split
  · simp only [mapValues, List.map_map, SortedMap.mk.injEq]
    apply List.map_congr_left
    intro e _
    dsimp only [Function.comp_apply]
    split <;> rfl
  · exact congrArg SortedMap.mk (place_map_values f k a m.entries)

/-- What holds of all values holds of them after one is changed in a way that keeps it. -/
theorem forall_mem_upsert {P : α → Prop} {m : SortedMap κ α} {k : κ} {f : Option α → α}
    (hm : ∀ e ∈ m.entries, P e.2) (hnew : P (f none)) (hold : ∀ a, P a → P (f (some a))) :
    ∀ e ∈ (m.upsert k f).entries, P e.2 := by
  rw [upsert]
  split
  · intro e he
    obtain ⟨old, hmem, rfl⟩ := List.mem_map.1 he
    split
    · exact hold old.2 (hm old hmem)
    · exact hm old hmem
  · intro e he
    rcases List.mem_cons.1 ((place_perm k (f none) m.entries).mem_iff.1 he) with rfl | hmem
    · exact hnew
    · exact hm e hmem

/-- The keys are those from before, and the one that was changed if it is new. -/
theorem mem_keys_upsert {m : SortedMap κ α} {k k' : κ} {f : Option α → α}
    (h : k' ∈ (m.upsert k f).keys) : k' ∈ m.keys ∨ ¬ m.contains k = true ∧ k' = k := by
  rw [upsert] at h
  split at h
  · obtain ⟨e, he, rfl⟩ := List.mem_map.1 h
    obtain ⟨old, hold, rfl⟩ := List.mem_map.1 he
    have hkey : old.1 ∈ m.keys := List.mem_map_of_mem hold
    refine Or.inl ?_
    split <;> exact hkey
  · next hnew =>
    obtain ⟨e, he, rfl⟩ := List.mem_map.1 h
    rcases List.mem_cons.1 ((place_perm k (f none) m.entries).mem_iff.1 he) with rfl | hmem
    · exact Or.inr ⟨hnew, rfl⟩
    · exact Or.inl (List.mem_map_of_mem hmem)

/-- No two entries have the same key. -/
def Distinct (m : SortedMap κ α) : Prop :=
  m.entries.Pairwise fun a b => Key.same a.1 b.1 = false

theorem distinct_empty : (empty : SortedMap κ α).Distinct := .nil

variable [LawfulKey κ]

theorem find?_congr {k k' : κ} (h : Key.same k k' = true) (entries : List (κ × α)) :
    find? k entries = find? k' entries := by
  induction entries with
  | nil => rfl
  | cons head tail ih => simp only [find?, Key.same_congr h, ih]

/-- All spellings of a key find the same value. -/
theorem get?_congr {k k' : κ} (h : Key.same k k' = true) (m : SortedMap κ α) :
    m.get? k = m.get? k' :=
  find?_congr h m.entries

theorem find?_place_same {k k' : κ} (h : Key.same k' k = true) (a : α)
    {entries : List (κ × α)} (hnew : find? k entries = none) :
    find? k' (place k a entries) = some a := by
  induction entries with
  | nil => simp [place, find?, h]
  | cons head tail ih =>
      have hhead : Key.same k' head.1 = false := by
        rw [Key.same_congr h]
        cases hsame : Key.same k head.1 with
        | false => rfl
        | true => simp [find?, hsame] at hnew
      have htail : find? k tail = none := by
        simpa [find?, ← Key.same_congr h, hhead] using hnew
      by_cases hbefore : Key.before k head.1 = true
      · simp [place, hbefore, find?, h]
      · simp [place, hbefore, find?, hhead, ih htail]

theorem find?_update_same {k k' : κ} (h : Key.same k' k = true) (f : α → α)
    (entries : List (κ × α)) :
    find? k' (entries.map fun e => if Key.same k e.1 then (e.1, f e.2) else e) =
      (find? k entries).map f := by
  induction entries with
  | nil => rfl
  | cons head tail ih =>
      by_cases hhead : Key.same k head.1 = true
      · simp [find?, hhead, Key.same_congr h]
      · simp [find?, hhead, Key.same_congr h, ih]

theorem find?_update_other {k k' : κ} (h : ¬ Key.same k' k = true) (f : α → α)
    (entries : List (κ × α)) :
    find? k' (entries.map fun e => if Key.same k e.1 then (e.1, f e.2) else e) =
      find? k' entries := by
  induction entries with
  | nil => rfl
  | cons head tail ih =>
      by_cases hhead : Key.same k head.1 = true
      · have hother : ¬ Key.same k' head.1 = true := fun hk' =>
          h (Key.same_trans hk' (Key.same_symm hhead))
        simp [find?, hhead, hother, ih]
      · simp [find?, hhead, ih]

/-- Changing a key changes what its spellings find, and nothing else. -/
theorem get?_upsert (m : SortedMap κ α) (k k' : κ) (f : Option α → α) :
    (m.upsert k f).get? k' =
      if Key.same k' k then some (f (m.get? k')) else m.get? k' := by
  by_cases hcontains : m.contains k = true
  · rw [upsert, if_pos hcontains]
    by_cases hsame : Key.same k' k = true
    · obtain ⟨a, ha⟩ := Option.isSome_iff_exists.1 hcontains
      rw [if_pos hsame, get?_congr hsame m, ha]
      change find? k' _ = _
      rw [find?_update_same hsame fun a => f (some a), ← get?, ha]
      rfl
    · rw [if_neg hsame]
      exact find?_update_other hsame (fun a => f (some a)) m.entries
  · have hnew := get?_eq_none_of_not_contains hcontains
    rw [upsert, if_neg hcontains]
    by_cases hsame : Key.same k' k = true
    · rw [if_pos hsame, get?_congr hsame m, hnew]
      exact find?_place_same hsame _ hnew
    · rw [if_neg hsame]
      exact find?_place_other hsame _ m.entries

theorem get?_insert (m : SortedMap κ α) (k k' : κ) (a : α) :
    (m.insert k a).get? k' = if Key.same k' k then some a else m.get? k' :=
  get?_upsert m k k' _

theorem get?_insertIfNew (m : SortedMap κ α) (k k' : κ) (a : α) :
    (m.insertIfNew k a).get? k' =
      if Key.same k' k then some ((m.get? k').getD a) else m.get? k' :=
  get?_upsert m k k' _

/-- Entering keys with one value adds that value for those that were not there. -/
theorem get?_foldl_insertIfNew (a : α) (keys : List κ) (m : SortedMap κ α) (k : κ) :
    (keys.foldl (fun m key => m.insertIfNew key a) m).get? k =
      (m.get? k).or (if keys.any (Key.same k) then some a else none) := by
  induction keys generalizing m with
  | nil => simp
  | cons head tail ih =>
      rw [List.foldl_cons, ih, get?_insertIfNew]
      by_cases hhead : Key.same k head = true
      · cases m.get? k <;> simp [hhead]
      · simp [hhead]

/-- No other entry of a distinct map has the key of its first entry. -/
theorem find?_tail_eq_none {head : κ × α} {tail : List (κ × α)} {k : κ}
    (hhead : ∀ e ∈ tail, Key.same head.1 e.1 = false) (hsame : Key.same k head.1 = true) :
    find? k tail = none := by
  cases hfound : find? k tail with
  | none => rfl
  | some a =>
      obtain ⟨e, he, hkey, -⟩ := exists_mem_of_find? hfound
      have hboth : Key.same head.1 e.1 = true := Key.same_trans (Key.same_symm hsame) hkey
      rw [hhead e he] at hboth
      cases hboth

/-- An entry is found under its own key. -/
theorem Distinct.get?_of_mem {m : SortedMap κ α} (h : m.Distinct) {e : κ × α}
    (he : e ∈ m.entries) : m.get? e.1 = some e.2 := by
  obtain ⟨entries⟩ := m
  rw [get?]
  rw [Distinct] at h
  dsimp only at h he ⊢
  induction entries with
  | nil => cases he
  | cons head tail ih =>
      obtain ⟨hhead, htail⟩ := List.pairwise_cons.1 h
      rw [find?]
      rcases List.mem_cons.1 he with rfl | he
      · rw [if_pos (Key.same_self _)]
      · rw [if_neg, ih htail he]
        intro hsame
        have hother := hhead e he
        rw [Key.same_symm hsame] at hother
        cases hother

/-- Changing a key does not make a second entry for it. -/
theorem Distinct.upsert {m : SortedMap κ α} (h : m.Distinct) (k : κ) (f : Option α → α) :
    (m.upsert k f).Distinct := by
  by_cases hcontains : m.contains k = true
  · rw [Distinct, SortedMap.upsert, if_pos hcontains, List.pairwise_map]
    refine List.Pairwise.imp ?_ h
    intro a b hab
    split <;> split <;> exact hab
  · rw [Distinct, SortedMap.upsert, if_neg hcontains]
    have hsymm : ∀ {a b : κ × α}, Key.same a.1 b.1 = false → Key.same b.1 a.1 = false := by
      intro a b hab
      rw [Bool.eq_false_iff] at hab ⊢
      exact fun hba => hab (Key.same_symm hba)
    refine ((place_perm k (f none) m.entries).pairwise_iff hsymm).2 (.cons ?_ h)
    intro e he
    rw [Bool.eq_false_iff]
    exact fun hsame => hcontains (contains_iff_exists_mem.2 ⟨e, he, hsame⟩)

end SortedMap

end LiveTest
