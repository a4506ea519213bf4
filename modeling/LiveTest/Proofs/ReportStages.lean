import LiveTest.Proofs.Lookup
import LiveTest.Report
/-!
The stages of a report, taken apart.  A report exists exactly if the catalog, the traces, the
errors and the logs each go through, and then it consists of what these stages gave.
-/

namespace LiveTest

universe u v w

/-- A computation with a second step succeeds exactly if both steps do. -/
theorem bind_eq_ok {ε : Type u} {α β : Type v} {x : Except ε α} {f : α → Except ε β} {b : β} :
    (x >>= f) = .ok b ↔ ∃ a, x = .ok a ∧ f a = .ok b := by
  cases x with
  | error e => simp [bind, Except.bind]
  | ok a => simp [bind, Except.bind]

theorem map_eq_ok {ε : Type u} {α : Type v} {β : Type w} {x : Except ε α} {f : α → β} {b : β} :
    x.map f = .ok b ↔ ∃ a, x = .ok a ∧ f a = b := by
  cases x with
  | error e => simp [Except.map]
  | ok a => simp [Except.map]

namespace Report

variable {project : Project} {lookup : SourceLookup}

theorem resolve_eq_ok {files : SortedMap FileHandle Path} {handle : FileHandle} {path : Path} :
    resolve project files handle = .ok path ↔
      ∃ name, files.get? handle = some name ∧ project.root.join name = path := by
  cases hname : files.get? handle with
  | none => simp [resolve, hname]
  | some name => simp [resolve, hname]

/-- What the stages gave, and the report made of it. -/
structure Stages (project : Project) (lookup : SourceLookup) (o : RunOutcome) (r : Report)
    where
  covered : FileStatuses
  traced : FileStatuses
  placed : List PlacedError
  shown : FileLabels
  covered_eq : coverCatalog project o.files .empty o.catalog.entries = .ok covered
  traced_eq : traceRecords project o.files covered o.records = .ok traced
  placed_eq : placeErrors project o.files o.errors = .ok placed
  shown_eq : logLabels project o.files (errorLabels (groupErrors placed)) o.logs = .ok shown
  statuses_eq : r.statuses = placed.foldl failLine traced
  labels_eq : r.labels = shown
  failures_eq : r.failures = placed.map failure
  notifications_eq : r.notifications = (groupErrors placed).entries.map fun e =>
    notification o lookup e.1.1 e.1.2 e.2
  suiteFailed_eq : r.suiteFailed = !o.stats.isSuccess

/-- A report comes out only if every stage went through. -/
theorem stages_of_ofOutcome {o : RunOutcome} {r : Report}
    (h : ofOutcome project lookup o = .ok r) : Nonempty (Stages project lookup o r) := by
  rw [ofOutcome] at h
  obtain ⟨covered, hcovered, h⟩ := bind_eq_ok.1 h
  obtain ⟨traced, htraced, h⟩ := bind_eq_ok.1 h
  obtain ⟨placed, hplaced, h⟩ := bind_eq_ok.1 h
  obtain ⟨shown, hshown, h⟩ := bind_eq_ok.1 h
  cases h
  exact ⟨⟨covered, traced, placed, shown, hcovered, htraced, hplaced, hshown, rfl, rfl, rfl,
    rfl, rfl⟩⟩

end Report

end LiveTest
