import LiveTest.Proofs.AscendingKeys
import LiveTest.Proofs.ReportStages
/-!
Runs that contradict themselves.  Every stage of a report goes through the data of the run and fails
at the first thing that does not fit, so the error of a report is the first of all contradictions in
the order of the stages.  What a stage has gathered so far makes no difference to where it fails.
-/

namespace LiveTest

universe u v

section Errors

variable {ε : Type u} {α β : Type v}

/-- The error that a computation fails with. -/
def errorOf : Except ε α → Option ε
  | .error e => some e
  | .ok _ => none

theorem errorOf_eq_some_iff {x : Except ε α} {e : ε} : errorOf x = some e ↔ x = .error e := by
  cases x with
  | error err => simp [errorOf]
  | ok a => simp [errorOf]

/-- Of two steps the first one that fails tells the error. -/
theorem errorOf_bind {x : Except ε α} {f : α → Except ε β} {later : Option ε}
    (h : ∀ a, errorOf (f a) = later) : errorOf (x >>= f) = (errorOf x).or later := by
  cases x with
  | error e => rfl
  | ok a => exact h a

theorem errorOf_map (x : Except ε α) (f : α → β) : errorOf (x.map f) = errorOf x := by
  cases x with
  | error e => rfl
  | ok a => rfl

theorem findSome?_cons_or {f : α → Option ε} (a : α) (rest : List α) :
    (a :: rest).findSome? f = (f a).or (rest.findSome? f) := by
  rw [List.findSome?_cons]
  cases f a with
  | none => rfl
  | some e => rfl

end Errors

/-- The handle that an error is about. -/
def ReportError.handle : ReportError → FileHandle
  | .unregisteredFile handle => handle
  | .malformedSpan handle _ => handle

theorem ErrorSite.file?_eq_some_iff {site : ErrorSite} {file : FileHandle} :
    site.file? = some file ↔ ∃ p, site = .probe p ∧ p ≠ .sentinel ∧ p.file = file := by
  cases site with
  | compiler location => simp [ErrorSite.file?]
  | probe position =>
      by_cases hsentinel : position = .sentinel
      · simp [ErrorSite.file?, Position.isSentinel, hsentinel]
      · simp [ErrorSite.file?, Position.isSentinel, hsentinel]

/-- Handles come in the order of their numbers. -/
theorem Key.before_fileHandle_iff {a b : FileHandle} : Key.before a b = true ↔ a.id < b.id :=
  Key.before_nat_iff

namespace Report

/-- No name is registered for a handle. -/
def Unnamed (o : RunOutcome) (handle : FileHandle) : Prop := o.files.contains handle = false

section

variable (files : SortedMap FileHandle Path)

/-- What is wrong with the use of a handle. -/
def handleFault? (handle : FileHandle) : Option ReportError :=
  if files.contains handle then none else some (.unregisteredFile handle)

/-- What is wrong with a span of the catalog. -/
def spanFault? (handle : FileHandle) (span : Span) : Option ReportError :=
  if span.WellFormed then none else some (.malformedSpan handle span)

/-- All that is wrong with a file of the catalog: first its handle, then its spans in the order in
which they were registered. -/
def catalogFaults (c : FileHandle × List Span) : List ReportError :=
  (handleFault? files c.1).toList ++ c.2.filterMap (spanFault? c.1)

/-- What is wrong with a place that an error is charged to.  The sentinel and the places of the
compiler need no handle. -/
def siteFault? (site : ErrorSite) : Option ReportError := site.file?.bind (handleFault? files)

end

/-- The contradictions of the catalog, file by file. -/
def catalogContradictions (o : RunOutcome) : List ReportError :=
  o.catalog.entries.flatMap (catalogFaults o.files)

/-- All contradictions of a run in the order in which they count: those of the catalog, of the
traces, of the errors and of the logs. -/
def contradictions (o : RunOutcome) : List ReportError :=
  catalogContradictions o ++
  (o.records.flatMap UnitRecord.trace).filterMap (fun e => handleFault? o.files e.file) ++
  o.errors.filterMap (fun e => siteFault? o.files e.site) ++
  o.logs.filterMap (fun log => handleFault? o.files log.position.file)

section Stages

variable {project : Project} {files : SortedMap FileHandle Path}

theorem errorOf_resolve (handle : FileHandle) :
    errorOf (resolve project files handle) = handleFault? files handle := by
  rw [resolve, handleFault?, SortedMap.contains]
  cases files.get? handle with
  | none => rfl
  | some name => rfl

theorem errorOf_coverSpans (handle : FileHandle) (path : Path) (statuses : FileStatuses)
    (spans : List Span) :
    errorOf (coverSpans handle path statuses spans) = spans.findSome? (spanFault? handle) := by
  induction spans generalizing statuses with
  | nil => rfl
  | cons span rest ih =>
      rw [coverSpans, findSome?_cons_or, spanFault?]
      by_cases hspan : span.WellFormed
      · rw [if_pos hspan, if_pos hspan, ih]
        rfl
      · rw [if_neg hspan, if_neg hspan]
        rfl

theorem head?_catalogFaults (c : FileHandle × List Span) :
    (catalogFaults files c).head? =
      (handleFault? files c.1).or (c.2.findSome? (spanFault? c.1)) := by
  rw [catalogFaults, List.head?_append, List.head?_filterMap, Option.head?_toList]

theorem errorOf_coverCatalog (statuses : FileStatuses)
    (catalog : List (FileHandle × List Span)) :
    errorOf (coverCatalog project files statuses catalog) =
      (catalog.flatMap (catalogFaults files)).head? := by
  induction catalog generalizing statuses with
  | nil => rfl
  | cons c rest ih =>
      have hlater : ∀ path, errorOf (do
          let statuses ← coverSpans c.1 path (enterFile statuses path) c.2
          coverCatalog project files statuses rest) =
          (c.2.findSome? (spanFault? c.1)).or (rest.flatMap (catalogFaults files)).head? := by
        intro path
        rw [errorOf_bind ih, errorOf_coverSpans]
      rw [List.flatMap_cons, List.head?_append, head?_catalogFaults, Option.or_assoc]
      exact (errorOf_bind hlater).trans (by rw [errorOf_resolve])

theorem errorOf_traceLines (status : LineStatus) (statuses : FileStatuses)
    (trace : List TraceEntry) :
    errorOf (traceLines project files status statuses trace) =
      trace.findSome? fun e => handleFault? files e.file := by
  induction trace generalizing statuses with
  | nil => rfl
  | cons e rest ih =>
      rw [traceLines, errorOf_bind fun path => ih _, errorOf_resolve, findSome?_cons_or]

theorem errorOf_traceRecords (statuses : FileStatuses) (records : List UnitRecord) :
    errorOf (traceRecords project files statuses records) =
      (records.flatMap UnitRecord.trace).findSome? fun e => handleFault? files e.file := by
  induction records generalizing statuses with
  | nil => rfl
  | cons r rest ih =>
      rw [traceRecords, errorOf_bind ih, errorOf_traceLines, List.flatMap_cons,
        List.findSome?_append]

theorem errorOf_resolveSite (site : ErrorSite) :
    errorOf (resolveSite project files site) = siteFault? files site := by
  cases site with
  | compiler location => rfl
  | probe position =>
      rw [resolveSite, siteFault?, ErrorSite.file?]
      split
      · rfl
      · rw [errorOf_map, errorOf_resolve, Option.bind_some]

theorem errorOf_placeErrors (errors : List ThrownError) :
    errorOf (placeErrors project files errors) =
      errors.findSome? fun e => siteFault? files e.site := by
  induction errors with
  | nil => rfl
  | cons e rest ih =>
      have hreturn : ∀ (place : Path × Nat) (placed : List PlacedError),
          errorOf (pure (⟨place.1, place.2, e⟩ :: placed) : Except ReportError _) = none :=
        fun _ _ => rfl
      have hlater : ∀ place : Path × Nat, errorOf (do
          return ⟨place.1, place.2, e⟩ :: (← placeErrors project files rest)) =
          rest.findSome? fun e => siteFault? files e.site := by
        intro place
        rw [errorOf_bind (hreturn place), ih, Option.or_none]
      have hsite : errorOf (resolveSite project files e.site) = siteFault? files e.site :=
        errorOf_resolveSite e.site
      rw [findSome?_cons_or, ← hsite]
      exact errorOf_bind hlater

theorem errorOf_logLabels (labels : FileLabels) (logs : List CodeLog) :
    errorOf (logLabels project files labels logs) =
      logs.findSome? fun log => handleFault? files log.position.file := by
  induction logs generalizing labels with
  | nil => rfl
  | cons log rest ih =>
      rw [logLabels, errorOf_bind fun path => ih _, errorOf_resolve, findSome?_cons_or]

end Stages

variable (project : Project) (lookup : SourceLookup) (o : RunOutcome)

theorem errorOf_ofOutcome : errorOf (ofOutcome project lookup o) = (contradictions o).head? := by
  have hreport : ∀ (placed : List PlacedError) (labels : FileLabels) (traced : FileStatuses),
      errorOf (pure {
        statuses := placed.foldl failLine traced
        labels := labels
        failures := placed.map failure
        notifications := (groupErrors placed).entries.map fun e =>
          notification o lookup e.1.1 e.1.2 e.2
        suiteFailed := !o.stats.isSuccess } : Except ReportError Report) = none := by
    intro placed labels traced
    rfl
  rw [ofOutcome, contradictions, catalogContradictions]
  rw [List.head?_append, List.head?_append, List.head?_append, List.head?_filterMap,
    List.head?_filterMap, List.head?_filterMap, Option.or_assoc, Option.or_assoc,
    ← errorOf_coverCatalog .empty]
  apply errorOf_bind
  intro covered
  rw [← errorOf_traceRecords covered]
  apply errorOf_bind
  intro traced
  rw [← errorOf_placeErrors]
  apply errorOf_bind
  intro placed
  rw [errorOf_bind fun labels => hreport placed labels traced, errorOf_logLabels, Option.or_none]

variable {o}

theorem handleFault?_eq_some_iff {handle : FileHandle} {e : ReportError} :
    handleFault? o.files handle = some e ↔ Unnamed o handle ∧ .unregisteredFile handle = e := by
  rw [handleFault?, Unnamed]
  cases o.files.contains handle with
  | true => simp
  | false => simp

theorem spanFault?_eq_some_iff {handle : FileHandle} {span : Span} {e : ReportError} :
    spanFault? handle span = some e ↔ ¬ span.WellFormed ∧ .malformedSpan handle span = e := by
  rw [spanFault?]
  by_cases hspan : span.WellFormed
  · simp [hspan]
  · simp [hspan]

theorem mem_catalogContradictions_iff {e : ReportError} :
    e ∈ catalogContradictions o ↔ ∃ c ∈ o.catalog.entries,
      (Unnamed o c.1 ∧ .unregisteredFile c.1 = e) ∨
        ∃ span ∈ c.2, ¬ span.WellFormed ∧ .malformedSpan c.1 span = e := by
  simp only [catalogContradictions, catalogFaults, List.mem_flatMap, List.mem_append,
    List.mem_filterMap, Option.mem_toList, handleFault?_eq_some_iff, spanFault?_eq_some_iff]

theorem siteFault?_eq_some_iff {site : ErrorSite} {e : ReportError} :
    siteFault? o.files site = some e ↔
      ∃ p, site = .probe p ∧ p ≠ .sentinel ∧ Unnamed o p.file ∧ .unregisteredFile p.file = e := by
  simp only [siteFault?, Option.bind_eq_some_iff, ErrorSite.file?_eq_some_iff,
    handleFault?_eq_some_iff]
  constructor
  · rintro ⟨file, ⟨p, hsite, hsentinel, rfl⟩, hfault⟩
    exact ⟨p, hsite, hsentinel, hfault⟩
  · rintro ⟨p, hsite, hsentinel, hfault⟩
    exact ⟨p.file, ⟨p, hsite, hsentinel, rfl⟩, hfault⟩

/-- A run contradicts itself if it uses a handle without a name, other than for the sentinel, or if
a span of its catalog ends before it starts. -/
theorem exists_mem_contradictions_iff :
    (∃ e, e ∈ contradictions o) ↔
      (∃ c ∈ o.catalog.entries, Unnamed o c.1) ∨
      (∃ c ∈ o.catalog.entries, ∃ span ∈ c.2, ¬ span.WellFormed) ∨
      (∃ r ∈ o.records, ∃ e ∈ r.trace, Unnamed o e.file) ∨
      (∃ e ∈ o.errors, ∃ p, e.site = .probe p ∧ p ≠ .sentinel ∧ Unnamed o p.file) ∨
      ∃ log ∈ o.logs, Unnamed o log.position.file := by
  simp only [contradictions, List.mem_append, mem_catalogContradictions_iff, List.mem_filterMap,
    List.mem_flatMap, handleFault?_eq_some_iff, siteFault?_eq_some_iff]
  constructor
  · rintro ⟨e, ((⟨c, hc, ⟨hunnamed, -⟩ | ⟨span, hspan, hmalformed, -⟩⟩ |
      ⟨entry, ⟨r, hr, hentry⟩, hunnamed, -⟩) | ⟨thrown, hthrown, p, hp, hne, hunnamed, -⟩) |
      ⟨log, hlog, hunnamed, -⟩⟩
    · exact Or.inl ⟨c, hc, hunnamed⟩
    · exact Or.inr (Or.inl ⟨c, hc, span, hspan, hmalformed⟩)
    · exact Or.inr (Or.inr (Or.inl ⟨r, hr, entry, hentry, hunnamed⟩))
    · exact Or.inr (Or.inr (Or.inr (Or.inl ⟨thrown, hthrown, p, hp, hne, hunnamed⟩)))
    · exact Or.inr (Or.inr (Or.inr (Or.inr ⟨log, hlog, hunnamed⟩)))
  · rintro (⟨c, hc, hunnamed⟩ | ⟨c, hc, span, hspan, hmalformed⟩ |
      ⟨r, hr, entry, hentry, hunnamed⟩ | ⟨thrown, hthrown, p, hp, hne, hunnamed⟩ |
      ⟨log, hlog, hunnamed⟩)
    · exact ⟨_, Or.inl (Or.inl (Or.inl ⟨c, hc, Or.inl ⟨hunnamed, rfl⟩⟩))⟩
    · exact ⟨_, Or.inl (Or.inl (Or.inl ⟨c, hc, Or.inr ⟨span, hspan, hmalformed, rfl⟩⟩))⟩
    · exact ⟨_, Or.inl (Or.inl (Or.inr ⟨entry, ⟨r, hr, hentry⟩, hunnamed, rfl⟩))⟩
    · exact ⟨_, Or.inl (Or.inr ⟨thrown, hthrown, p, hp, hne, hunnamed, rfl⟩)⟩
    · exact ⟨_, Or.inr ⟨log, hlog, hunnamed, rfl⟩⟩

theorem handle_of_mem_catalogFaults {files : SortedMap FileHandle Path}
    {c : FileHandle × List Span} {e : ReportError} (he : e ∈ catalogFaults files c) :
    e.handle = c.1 := by
  rcases List.mem_append.1 he with he | he
  · rw [Option.mem_toList, handleFault?] at he
    split at he
    · cases he
    · cases he
      rfl
  · obtain ⟨span, -, hspan⟩ := List.mem_filterMap.1 he
    rw [spanFault?] at hspan
    split at hspan
    · cases hspan
    · cases hspan
      rfl

/-- The contradictions of the catalog count in the order of the handles. -/
theorem pairwise_catalogContradictions (hcatalog : o.catalog.Ascending) :
    (catalogContradictions o).Pairwise fun a b => a.handle.id ≤ b.handle.id := by
  rw [catalogContradictions, List.pairwise_flatMap]
  constructor
  · intro c _
    apply List.pairwise_of_forall_mem_list
    intro a ha b hb
    exact Nat.le_of_eq (by rw [handle_of_mem_catalogFaults ha, handle_of_mem_catalogFaults hb])
  · apply List.Pairwise.imp _ hcatalog
    intro c d hbefore a ha b hb
    rw [handle_of_mem_catalogFaults ha, handle_of_mem_catalogFaults hb]
    exact Nat.le_of_lt (Key.before_fileHandle_iff.1 hbefore)

/-- Errors at the sentinel or at a place of the compiler contradict nothing. -/
theorem contradictions_filter_errors :
    contradictions { o with errors := o.errors.filter fun e => e.site.file?.isSome } =
      contradictions o := by
  have herrors : (o.errors.filter fun e => e.site.file?.isSome).filterMap
      (fun e => siteFault? o.files e.site) = o.errors.filterMap fun e => siteFault? o.files e.site := by
    rw [List.filterMap_filter]
    congr
    funext e
    cases hfile : e.site.file? with
    | none => simp [siteFault?, hfile]
    | some file => simp
  rw [contradictions, contradictions, herrors]
  rfl

variable (o) (project : Project) (lookup : SourceLookup)

theorem ofOutcome_eq_error_iff (e : ReportError) :
    ofOutcome project lookup o = .error e ↔ (contradictions o).head? = some e := by
  rw [← errorOf_eq_some_iff, errorOf_ofOutcome]

/-- A report fails if and only if its run contradicts itself, and then the first contradiction is
its error.  In the catalog lower handles come first.  Errors at the sentinel or at a place of the
compiler make no difference, whatever names are missing. -/
theorem ofOutcome_fails_with_first :
    ((∃ e, ofOutcome project lookup o = .error e) ↔
      (∃ c ∈ o.catalog.entries, Unnamed o c.1) ∨
      (∃ c ∈ o.catalog.entries, ∃ span ∈ c.2, ¬ span.WellFormed) ∨
      (∃ r ∈ o.records, ∃ e ∈ r.trace, Unnamed o e.file) ∨
      (∃ e ∈ o.errors, ∃ p, e.site = .probe p ∧ p ≠ .sentinel ∧ Unnamed o p.file) ∨
      ∃ log ∈ o.logs, Unnamed o log.position.file) ∧
    (∀ e, ofOutcome project lookup o = .error e ↔ (contradictions o).head? = some e) ∧
    (o.catalog.Ascending →
      (catalogContradictions o).Pairwise fun a b => a.handle.id ≤ b.handle.id) ∧
    (∀ e, ofOutcome project lookup
        { o with errors := o.errors.filter fun e => e.site.file?.isSome } = .error e ↔
      ofOutcome project lookup o = .error e) := by
  refine ⟨?_, ofOutcome_eq_error_iff o project lookup, pairwise_catalogContradictions, ?_⟩
  · rw [← exists_mem_contradictions_iff]
    constructor
    · rintro ⟨e, he⟩
      exact ⟨e, List.mem_of_mem_head? ((ofOutcome_eq_error_iff o project lookup e).1 he)⟩
    · rintro ⟨e, he⟩
      obtain ⟨first, rest, hfirst⟩ := List.exists_cons_of_ne_nil (List.ne_nil_of_mem he)
      refine ⟨first, (ofOutcome_eq_error_iff o project lookup first).2 ?_⟩
      rw [hfirst, List.head?_cons]
  · intro e
    rw [ofOutcome_eq_error_iff, ofOutcome_eq_error_iff, contradictions_filter_errors]

namespace ContradictionsWitness

def place : Project := ⟨⟨"/p"⟩, ⟨"t.ts"⟩⟩

def build : Build := ⟨"code", none, [], ⟨"t.ts"⟩⟩

/-- A span that ends before it starts. -/
def reversed : Span := ⟨⟨⟨1⟩, 3, 1⟩, 2, 9⟩

/-- The code reports a catalog for a handle that has no name, and after that a malformed span for a
lower handle that has one.  Then it fails at the sentinel, with no name for handle zero. -/
def mixedUp : Module :=
  [.run (.call (.registerFile ⟨1⟩ ⟨"a.ts"⟩)), .run (.call (.registerCatalog ⟨2⟩ [])),
    .run (.call (.registerCatalog ⟨1⟩ [⟨⟨⟨1⟩, 1, 1⟩, 1, 9⟩, reversed])),
    .run (.fail (.ofMessage "thrown"))]

/-- The code goes through a file that has no name. -/
def straying : Module :=
  [.run (.call (.registerFile ⟨1⟩ ⟨"a.ts"⟩)), .run (.call (.completes ⟨⟨3⟩, 1, 1⟩))]

theorem ofOutcome_fails_with_first_malformed :
    ∃ o, (execute none .empty build mixedUp).result = .ok o ∧ o.errors.length = 1 ∧
      ofOutcome place (fun _ => none) o = .error (.malformedSpan ⟨1⟩ reversed) ∧
      ((catalogContradictions o).Pairwise fun a b => a.handle.id ≤ b.handle.id) ∧
      ∃ o', (execute none .empty build straying).result = .ok o' ∧
        ofOutcome place (fun _ => none) o' = .error (.unregisteredFile ⟨3⟩) := by
  obtain ⟨o, hrun⟩ : ∃ o, (execute none .empty build mixedUp).result = .ok o := ⟨_, rfl⟩
  have hcatalog : o.catalog.Ascending := (ascending_of_execute hrun).2
  obtain ⟨-, hfirst, hordered, -⟩ := ofOutcome_fails_with_first o place fun _ => none
  obtain ⟨o', hrun'⟩ : ∃ o, (execute none .empty build straying).result = .ok o := ⟨_, rfl⟩
  obtain ⟨-, hfirst', -, -⟩ := ofOutcome_fails_with_first o' place fun _ => none
  refine ⟨o, hrun, ?_, (hfirst _).2 ?_, hordered hcatalog, o', hrun', (hfirst' _).2 ?_⟩
  · cases hrun
    rfl
  · cases hrun
    rfl
  · cases hrun'
    rfl

end ContradictionsWitness

end Report
end LiveTest
