import LiveTest.Proofs.Execution
import LiveTest.Proofs.UnitRecords
/-!
Maps whose keys ascend.  Entering a key puts it where it belongs, so a map that was made by entering
keys has its entries in the order of their keys, and so have the files and the catalog that a run
records.
-/

namespace LiveTest

universe u v

namespace Key

variable {κ : Type u} [Key κ] {a b c : κ}

theorem before_iff : before a b = true ↔ order a b = .lt := by
  simp [before]

/-- Numbers come in their usual order. -/
theorem before_nat_iff {m n : Nat} : before m n = true ↔ m < n := by
  rw [before_iff]
  change orderNat m n = .lt ↔ m < n
  rw [orderNat_eq_compare]
  exact Nat.compare_eq_lt

variable [LawfulKey κ]

theorem before_trans (hab : before a b = true) (hbc : before b c = true) :
    before a c = true := by
  rw [before_iff] at hab hbc ⊢
  have hac : order a c ≠ .gt := LawfulKey.order_trans a b c (by simp [hab]) (by simp [hbc])
  cases h : order a c with
  | lt => rfl
  | gt => exact absurd h hac
  | eq =>
      -- If the outer keys were the same, `b` would come before itself.
      have hca : order c a ≠ .gt := by simp [LawfulKey.order_swap a c, h]
      have hcb : order c b ≠ .gt := LawfulKey.order_trans c a b hca (by simp [hab])
      rw [LawfulKey.order_swap b c, hbc] at hcb
      exact absurd rfl hcb

/-- Of two different keys one comes before the other. -/
theorem before_of_not_before (hbefore : ¬ before a b = true) (hsame : ¬ same a b = true) :
    before b a = true := by
  rw [before_iff] at hbefore ⊢
  rw [same_iff] at hsame
  rw [LawfulKey.order_swap a b]
  cases h : order a b with
  | lt => exact absurd h hbefore
  | eq => exact absurd h hsame
  | gt => rfl

end Key

namespace SortedMap

variable {κ : Type u} {α : Type v} [Key κ]

/-- Every key comes strictly before all that follow it. -/
def Ascending (m : SortedMap κ α) : Prop :=
  m.entries.Pairwise fun a b => Key.before a.1 b.1 = true

instance (m : SortedMap κ α) : Decidable m.Ascending := by
  unfold Ascending
  infer_instance

theorem ascending_empty : (empty : SortedMap κ α).Ascending := .nil

variable [LawfulKey κ]

/-- A new key is entered before all greater ones and after all smaller ones. -/
theorem pairwise_place {k : κ} {entries : List (κ × α)}
    (hentries : entries.Pairwise fun a b => Key.before a.1 b.1 = true)
    (hnew : ∀ e ∈ entries, ¬ Key.same k e.1 = true) (a : α) :
    (place k a entries).Pairwise fun a b => Key.before a.1 b.1 = true := by
  induction entries with
  | nil => exact List.pairwise_singleton _ _
  | cons head tail ih =>
      obtain ⟨hhead, htail⟩ := List.pairwise_cons.1 hentries
      rw [place]
      by_cases hbefore : Key.before k head.1 = true
      · rw [if_pos hbefore]
        apply List.Pairwise.cons _ hentries
        intro e he
        rcases List.mem_cons.1 he with rfl | he
        · exact hbefore
        · exact Key.before_trans hbefore (hhead e he)
      · rw [if_neg hbefore]
        apply List.Pairwise.cons
        · intro e he
          rcases List.mem_cons.1 ((place_perm k a tail).mem_iff.1 he) with rfl | he
          · exact Key.before_of_not_before hbefore (hnew head List.mem_cons_self)
          · exact hhead e he
        · apply ih htail
          intro e he
          exact hnew e (List.mem_cons_of_mem head he)

theorem Ascending.upsert {m : SortedMap κ α} (h : m.Ascending) (k : κ) (f : Option α → α) :
    (m.upsert k f).Ascending := by
  by_cases hcontains : m.contains k = true
  · rw [Ascending, SortedMap.upsert, if_pos hcontains, List.pairwise_map]
    apply List.Pairwise.imp _ h
    intro a b hab
    split <;> split <;> exact hab
  · rw [Ascending, SortedMap.upsert, if_neg hcontains]
    apply pairwise_place h
    intro e he hsame
    exact hcontains (contains_iff_exists_mem.2 ⟨e, he, hsame⟩)

end SortedMap

namespace Recorder

/-- The maps of a recorder have their entries in order. -/
structure Ordered (r : Recorder) : Prop where
  files : r.files.Ascending
  catalog : r.catalog.Ascending

theorem ordered_empty : empty.Ordered :=
  ⟨SortedMap.ascending_empty, SortedMap.ascending_empty⟩

theorem Ordered.record {r : Recorder} (hr : r.Ordered) (c : ProbeCall) :
    (r.record c).Ordered := by
  cases c with
  | registerFile handle name => exact ⟨hr.files.upsert _ _, hr.catalog⟩
  | registerCatalog handle spans => exact ⟨hr.files, hr.catalog.upsert _ _⟩
  | _ => exact ⟨hr.files, hr.catalog⟩

theorem Ordered.recordAll {r : Recorder} (hr : r.Ordered) (calls : List ProbeCall) :
    (r.recordAll calls).Ordered := by
  induction calls generalizing r with
  | nil => exact hr
  | cons c rest ih => exact ih (hr.record c)

end Recorder

theorem ordered_finishUnit {played : Played} (hplayed : played.recorder.Ordered)
    (unit : UnitIndex) (label : String) (depth : Nat) :
    (finishUnit unit label depth played).recorder.Ordered := by
  rw [finishUnit]
  split
  · exact ⟨hplayed.files, hplayed.catalog⟩
  · exact ⟨hplayed.files, hplayed.catalog⟩

theorem ordered_runTests {r : Recorder} (hr : r.Ordered) (stats : RunStats) (index : Nat)
    (tests : List RegisteredTest) : (runTests r stats index tests).recorder.Ordered := by
  induction tests generalizing r stats index with
  | nil => exact hr
  | cons test rest ih =>
      rw [runTests]
      apply ih
      apply ordered_finishUnit
      rw [playAll_recorder]
      have hstarted : r.clearTrace.Ordered := ⟨hr.files, hr.catalog⟩
      exact hstarted.recordAll _

/-- The files and the catalog that a run records are in the order of their handles. -/
theorem ascending_of_execute {persistDir : Option Path} {tree : FileTree} {build : Build}
    {m : Module} {o : RunOutcome} (hrun : (execute persistDir tree build m).result = .ok o) :
    o.files.Ascending ∧ o.catalog.Ascending := by
  cases hbuild : build.errors with
  | nil =>
      obtain ⟨codePath, rfl⟩ := exists_loaded_of_execute hbuild hrun
      obtain ⟨stats, run, hrun, houtcome⟩ := runLoaded_eq build codePath m
      have hloaded : (finishedSetup build.code codePath m).recorder.Ordered := by
        apply ordered_finishUnit
        rw [(load_spec build.code codePath m).1]
        exact Recorder.ordered_empty.recordAll _
      have hordered : run.recorder.Ordered := by
        rw [hrun]
        exact ordered_runTests hloaded _ _ _
      rw [houtcome]
      exact ⟨hordered.files, hordered.catalog⟩
  | cons e others =>
      rw [execute_abort hbuild] at hrun
      cases hrun
      exact ⟨SortedMap.ascending_empty, SortedMap.ascending_empty⟩

end LiveTest
