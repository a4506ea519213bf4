import LiveTest.Proofs.RunFailures
/-!
What a failure is charged to.  The first error stands at the place of the failure.  Every other file
of the trace has one error more, at its last entry, and these come in the order in which the
entries are met when the trace is read backwards.  Reading stops when no file is left, which changes
nothing.
-/

namespace LiveTest

/-- The entry at an index of a trace is the last one of its file. -/
def LastOfFile (visited : List TraceEntry) (i : Nat) (e : TraceEntry) : Prop :=
  visited[i]? = some e ∧ ∀ j later, i < j → visited[j]? = some later → later.file ≠ e.file

theorem not_lastOfFile_nil (i : Nat) (e : TraceEntry) : ¬ LastOfFile [] i e := by
  intro h
  simp [LastOfFile] at h

/-- One more entry is the last of its file, and no other entry of that file still is. -/
theorem lastOfFile_append_singleton_iff {trace : List TraceEntry} {last e : TraceEntry}
    {i : Nat} :
    LastOfFile (trace ++ [last]) i e ↔
      i = trace.length ∧ e = last ∨ LastOfFile trace i e ∧ last.file ≠ e.file := by
  have hlast : (trace ++ [last])[trace.length]? = some last := by simp
  constructor
  · rintro ⟨hfound, hlater⟩
    obtain ⟨hi, -⟩ := List.getElem?_eq_some_iff.1 hfound
    rw [List.length_append, List.length_singleton] at hi
    rcases Nat.lt_or_eq_of_le (Nat.le_of_lt_succ hi) with hi | rfl
    · rw [List.getElem?_append_left hi] at hfound
      refine Or.inr ⟨⟨hfound, ?_⟩, hlater trace.length last hi hlast⟩
      intro j later hj hjlater
      have hjlt : j < trace.length := (List.getElem?_eq_some_iff.1 hjlater).1
      exact hlater j later hj (by rw [List.getElem?_append_left hjlt, hjlater])
    · rw [hlast] at hfound
      exact Or.inl ⟨rfl, (Option.some.inj hfound).symm⟩
  · rintro (⟨rfl, rfl⟩ | ⟨⟨hfound, hlater⟩, hne⟩)
    · refine ⟨hlast, ?_⟩
      intro j later hj hjlater
      obtain ⟨hjlt, -⟩ := List.getElem?_eq_some_iff.1 hjlater
      rw [List.length_append, List.length_singleton] at hjlt
      omega
    · have hi : i < trace.length := (List.getElem?_eq_some_iff.1 hfound).1
      refine ⟨by rw [List.getElem?_append_left hi, hfound], ?_⟩
      intro j later hj hjlater
      by_cases hjlt : j < trace.length
      · rw [List.getElem?_append_left hjlt] at hjlater
        exact hlater j later hj hjlater
      · obtain ⟨hjle, -⟩ := List.getElem?_eq_some_iff.1 hjlater
        rw [List.length_append, List.length_singleton] at hjle
        obtain rfl : j = trace.length := by omega
        rw [hlast] at hjlater
        obtain rfl := Option.some.inj hjlater
        exact hne

/-- Entries with their indices in a trace: just those that are the last of a file outside of `seen`,
the latest first. -/
structure LastEntries (seen : List FileHandle) (trace : List TraceEntry)
    (entries : List (TraceEntry × Nat)) : Prop where
  mem_iff : ∀ e i, (e, i) ∈ entries ↔ LastOfFile trace i e ∧ e.file ∉ seen
  descending : entries.Pairwise fun a b => b.2 < a.2

/-- Reading a trace backwards and keeping what is fresh gives the last entries of the files. -/
theorem exists_lastEntries (seen : List FileHandle) (trace : List TraceEntry) :
    ∃ entries, freshFiles seen trace.reverse = entries.map Prod.fst ∧
      LastEntries seen trace entries := by
  -- The scan meets the last entry first, so the induction takes entries off the end.
  induction trace using List.reverseRecOn generalizing seen with
  | nil =>
      refine ⟨[], rfl, ?_, .nil⟩
      intro e i
      simp [not_lastOfFile_nil]
  | append_singleton trace last ih =>
      rw [List.reverse_append, List.reverse_singleton, List.singleton_append, freshFiles]
      by_cases hseen : last.file ∈ seen
      · rw [if_pos hseen]
        obtain ⟨entries, hfresh, hmem, hdescending⟩ := ih seen
        refine ⟨entries, hfresh, ?_, hdescending⟩
        intro e i
        rw [hmem, lastOfFile_append_singleton_iff]
        constructor
        · rintro ⟨hold, hnot⟩
          exact ⟨Or.inr ⟨hold, fun heq => hnot (heq ▸ hseen)⟩, hnot⟩
        · rintro ⟨⟨-, rfl⟩ | ⟨hold, -⟩, hnot⟩
          · exact absurd hseen hnot
          · exact ⟨hold, hnot⟩
      · rw [if_neg hseen]
        obtain ⟨entries, hfresh, hmem, hdescending⟩ := ih (last.file :: seen)
        refine ⟨(last, trace.length) :: entries, by rw [hfresh, List.map_cons], ?_, ?_⟩
        · intro e i
          rw [List.mem_cons, hmem, lastOfFile_append_singleton_iff, Prod.mk.injEq, List.mem_cons]
          constructor
          · rintro (⟨rfl, rfl⟩ | ⟨hold, hnot⟩)
            · exact ⟨Or.inl ⟨rfl, rfl⟩, hseen⟩
            · refine ⟨Or.inr ⟨hold, fun heq => hnot (Or.inl heq.symm)⟩, ?_⟩
              exact fun hmem => hnot (Or.inr hmem)
          · rintro ⟨⟨rfl, rfl⟩ | ⟨hold, hne⟩, hnot⟩
            · exact Or.inl ⟨rfl, rfl⟩
            · refine Or.inr ⟨hold, ?_⟩
              rintro (heq | hmem)
              · exact hne heq.symm
              · exact hnot hmem
        · apply List.Pairwise.cons _ hdescending
          rintro ⟨e, i⟩ hentry
          obtain ⟨hold, -⟩ := (hmem e i).1 hentry
          exact (List.getElem?_eq_some_iff.1 hold.1).1

/-- Where the first error of a failure stands. -/
structure FirstPlace (f : Failure) (pending : Option Position) (site : ErrorSite) : Prop where
  of_pending : ∀ p, pending = some p → site = .probe p
  of_location : pending = none → ∀ l, f.location = some l → site = .compiler l
  of_nothing : pending = none → f.location = none → site = .probe .sentinel

theorem firstPlace_primarySite (f : Failure) (pending : Option Position) :
    FirstPlace f pending (primarySite f pending) where
  of_pending p hp := by rw [hp, primarySite]
  of_location hp l hl := by simp only [primarySite, hp, hl]
  of_nothing hp hl := by simp only [primarySite, hp, hl]

/-- A failure is charged to its first place, and then once to every other file of the trace, at the
last entry of the file and with the latest entry first.  Every error tells all of the failure, and
scanning the whole trace would give the same errors. -/
theorem charge_once_per_file (f : Failure) (unit : UnitIndex) (pending : Option Position)
    (trace : List TraceEntry) :
    ∃ (site : ErrorSite) (entries : List (TraceEntry × Nat)),
      f.charge unit pending trace =
          f.at unit site :: entries.map (fun entry => f.at unit (.probe entry.1.start)) ∧
      FirstPlace f pending site ∧
      (∀ e i, (e, i) ∈ entries ↔ LastOfFile trace i e ∧ ¬ AccountedFor pending e.file) ∧
      entries.Pairwise (fun a b => b.2 < a.2) ∧
      (entries.map fun entry => entry.1.file).Nodup ∧
      (∀ file, file ∈ entries.map (fun entry => entry.1.file) ↔
        file ∈ trace.map TraceEntry.file ∧ ¬ AccountedFor pending file) ∧
      (∀ e ∈ f.charge unit pending trace, e.message = f.message ∧ e.actual = f.actual ∧
        e.expected = f.expected ∧ e.unit = unit) ∧
      (f.charge unit pending trace).map ThrownError.site =
        site :: entries.map (fun entry => .probe entry.1.start) ∧
      f.charge unit pending trace = f.at unit site ::
        (freshFiles site.file?.toList trace.reverse).map fun e => f.at unit (.probe e.start) := by
  obtain ⟨entries, hfresh, hmem, hdescending⟩ :=
    exists_lastEntries (primarySite f pending).file?.toList trace
  have hfiles : entries.map (fun entry => entry.1.file) =
      (freshFiles (primarySite f pending).file?.toList trace.reverse).map TraceEntry.file := by
    rw [hfresh, List.map_map]
    rfl
  have hcharge : f.charge unit pending trace = f.at unit (primarySite f pending) ::
      entries.map (fun entry => f.at unit (.probe entry.1.start)) := by
    rw [f.charge_eq, hfresh, List.map_map]
    rfl
  refine ⟨primarySite f pending, entries, hcharge, firstPlace_primarySite f pending, ?_,
    hdescending, ?_, ?_, ?_, ?_, f.charge_eq unit pending trace⟩
  · intro e i
    rw [hmem, mem_file?_primarySite_iff]
  · rw [hfiles]
    exact nodup_files_freshFiles _ _
  · intro file
    rw [hfiles, mem_files_freshFiles_iff, mem_file?_primarySite_iff, List.map_reverse,
      List.mem_reverse]
  · intro e he
    rcases List.mem_cons.1 he with rfl | he
    · exact ⟨rfl, rfl, rfl, rfl⟩
    · obtain ⟨entry, -, rfl⟩ := List.mem_map.1 he
      exact ⟨rfl, rfl, rfl, rfl⟩
  · rw [hcharge, List.map_cons, List.map_map]
    rfl

namespace ChargedFilesWitness

/-- The first file is met again at the end, the second one before and after the third. -/
def trace : List TraceEntry :=
  [.point ⟨⟨1⟩, 1, 1⟩, .span ⟨⟨⟨2⟩, 2, 1⟩, 4, 1⟩, .point ⟨⟨1⟩, 3, 1⟩, .point ⟨⟨0⟩, 5, 1⟩]

/-- The file of the pending expression is not charged again, and the second one only at its last
entry. -/
theorem charge_once_per_file_pending :
    (∀ e ∈ (Failure.ofMessage "lost").charge .setup (some ⟨⟨0⟩, 9, 1⟩) trace,
      e.message = "lost") ∧
      ((Failure.ofMessage "lost").charge .setup (some ⟨⟨0⟩, 9, 1⟩) trace).map ThrownError.site =
        [.probe ⟨⟨0⟩, 9, 1⟩, .probe ⟨⟨1⟩, 3, 1⟩, .probe ⟨⟨2⟩, 2, 1⟩] := by
  obtain ⟨site, entries, -, -, -, -, -, -, hfields, -, -⟩ :=
    charge_once_per_file (.ofMessage "lost") .setup (some ⟨⟨0⟩, 9, 1⟩) trace
  exact ⟨fun e he => (hfields e he).1, by decide⟩

end ChargedFilesWitness

end LiveTest
