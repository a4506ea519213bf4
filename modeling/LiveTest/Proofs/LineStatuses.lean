import LiveTest.Proofs.ReportStages
import Mathlib.Data.List.Basic
/-!
What the status of a line means.  Catalog, traces and errors are taken in one after the other, each
raising the statuses of some lines, so a line reaches a status exactly if one of them gave it that
status or a stronger one.  Each stage has one lemma that says which lines it lifts how far; the
meaning of the single statuses follows from the three thresholds.
-/

namespace LiveTest

/-- A span has the lines from its first one to its last one, and just the first one if it ends
before it starts. -/
def Span.Covers (s : Span) (line : Nat) : Prop :=
  line = s.start.line ∨ s.start.line ≤ line ∧ line ≤ s.endLine

theorem Span.mem_lines_iff_covers {s : Span} {line : Nat} : line ∈ s.lines ↔ s.Covers line := by
  rw [mem_lines, firstLine, lastLine, Covers]
  split <;> omega

/-- An entry goes through a line of a file: an expression through that of its place, and a span
through all that it has. -/
inductive TraceEntry.Covers : TraceEntry → FileHandle → Nat → Prop
  | point (p : Position) : Covers (.point p) p.file p.line
  | span {s : Span} {line : Nat} : s.Covers line → Covers (.span s) s.start.file line

theorem TraceEntry.covers_iff {e : TraceEntry} {handle : FileHandle} {line : Nat} :
    e.Covers handle line ↔ handle = e.file ∧ line ∈ e.lines := by
  constructor
  · intro h
    cases h with
    | point p => exact ⟨rfl, List.mem_singleton_self _⟩
    | span hcovers => exact ⟨rfl, Span.mem_lines_iff_covers.2 hcovers⟩
  · rintro ⟨rfl, hline⟩
    cases e with
    | point p =>
        obtain rfl := List.mem_singleton.1 hline
        exact .point p
    | span s => exact .span (Span.mem_lines_iff_covers.1 hline)

theorem TraceEntry.exists_covers_iff {e : TraceEntry} {line : Nat} {P : FileHandle → Prop} :
    (∃ handle, e.Covers handle line ∧ P handle) ↔ P e.file ∧ line ∈ e.lines := by
  constructor
  · rintro ⟨handle, hcovers, hP⟩
    obtain ⟨rfl, hline⟩ := covers_iff.1 hcovers
    exact ⟨hP, hline⟩
  · rintro ⟨hP, hline⟩
    exact ⟨e.file, covers_iff.2 ⟨rfl, hline⟩, hP⟩

namespace Report

section Meaning

variable (project : Project) (files : SortedMap FileHandle Path)

/-- The file that goes by a handle is the one at a path. -/
def LeadsTo (handle : FileHandle) (path : Path) : Prop :=
  ∃ name, files.get? handle = some name ∧ Key.same path (project.root.join name) = true

/-- A place that an error is charged to is shown at a line of a file. -/
inductive ShownAt : ErrorSite → Path → Nat → Prop
  /-- Nothing is known of the error: it goes to the first line of the file with handle zero, or
  else of the entry point. -/
  | sentinel {path : Path} :
      Key.same path
        (project.root.join ((files.get? ⟨0⟩).getD project.entryPoint)) = true →
      ShownAt (.probe .sentinel) path 1
  | probe {position : Position} {path : Path} :
      position ≠ .sentinel → LeadsTo project files position.file path →
      ShownAt (.probe position) path position.line
  /-- There is no line zero to show. -/
  | compiler {location : SourceLocation} {path : Path} :
      Key.same path (project.root.join location.file) = true →
      ShownAt (.compiler location) path (max location.line 1)

variable (o : RunOutcome)

/-- A unit that failed, or one that passed, went through the line. -/
def Touched (failed : Bool) (path : Path) (line : Nat) : Prop :=
  ∃ r ∈ o.records, r.failed = failed ∧
    ∃ e ∈ r.trace, ∃ handle, e.Covers handle line ∧ LeadsTo project o.files handle path

/-- An error is shown at the line. -/
def Charged (path : Path) (line : Nat) : Prop :=
  ∃ e ∈ o.errors, ShownAt project o.files e.site path line

def Failing (path : Path) (line : Nat) : Prop :=
  Touched project o true path line ∨ Charged project o path line

def Passing (path : Path) (line : Nat) : Prop := Touched project o false path line

/-- A span of the catalog has the line. -/
def Catalogued (path : Path) (line : Nat) : Prop :=
  ∃ c ∈ o.catalog.entries, LeadsTo project o.files c.1 path ∧
    ∃ span ∈ c.2, span.Covers line

end Meaning

theorem touched_iff {project : Project} {o : RunOutcome} {failed : Bool} {path : Path}
    {line : Nat} :
    Touched project o failed path line ↔ ∃ r ∈ o.records, r.failed = failed ∧
      ∃ e ∈ r.trace, LeadsTo project o.files e.file path ∧ line ∈ e.lines := by
  simp only [Touched, TraceEntry.exists_covers_iff]

theorem catalogued_iff {project : Project} {o : RunOutcome} {path : Path} {line : Nat} :
    Catalogued project o path line ↔ ∃ c ∈ o.catalog.entries, LeadsTo project o.files c.1 path ∧
      ∃ span ∈ c.2, line ∈ span.lines := by
  simp only [Catalogued, Span.mem_lines_iff_covers]

/-- The status that is shown for a line of a file. -/
def statusAt (statuses : FileStatuses) (path : Path) (line : Nat) : Option LineStatus :=
  (statuses.get? path).bind fun lines => lines.get? line

/-- A status is there, and it is `s` or a stronger one. -/
def Reaches (s : LineStatus) (status : Option LineStatus) : Prop :=
  ∃ t, status = some t ∧ s.rank ≤ t.rank

theorem not_reaches_none (s : LineStatus) : ¬ Reaches s none := by
  rintro ⟨t, ht, _⟩
  cases ht

theorem reaches_some_iff {s t : LineStatus} : Reaches s (some t) ↔ s.rank ≤ t.rank := by
  simp [Reaches]

theorem rank_join (a b : LineStatus) : (a.join b).rank = max a.rank b.rank := by
  cases a <;> cases b <;> rfl

/-- Raising by `t` reaches what was reached before, and what `t` reaches. -/
theorem reaches_raise_iff {s t : LineStatus} {old : Option LineStatus} :
    Reaches s (some ((old.getD t).join t)) ↔ Reaches s old ∨ s.rank ≤ t.rank := by
  cases old with
  | none => simp [reaches_some_iff, rank_join, not_reaches_none]
  | some u =>
      simp only [Option.getD_some, reaches_some_iff, rank_join]
      omega

/-- The three thresholds tell which status is shown. -/
theorem status_of_thresholds (status : Option LineStatus) :
    (status = some .fail ↔ Reaches .fail status) ∧
      (status = some .success ↔ ¬ Reaches .fail status ∧ Reaches .success status) ∧
      (status = some .uncovered ↔
        ¬ Reaches .success status ∧ Reaches .uncovered status) ∧
      (status = none ↔ ¬ Reaches .uncovered status) := by
  cases status with
  | none => simp [not_reaches_none]
  | some t => cases t <;> simp [reaches_some_iff, LineStatus.rank]

theorem reaches_raiseLine {s t : LineStatus} {lines : LineStatuses} {line n : Nat} :
    Reaches s ((raiseLine t lines line).get? n) ↔
      Reaches s (lines.get? n) ∨ (s.rank ≤ t.rank ∧ n = line) := by
  rw [raiseLine, SortedMap.get?_upsert]
  by_cases hn : n = line
  · simp [hn, reaches_raise_iff]
  · have hsame : Key.same n line = false := by
      rw [Bool.eq_false_iff, ne_eq, Key.same_nat_iff]
      exact hn
    simp [hsame, hn]

theorem reaches_foldl_raiseLine {s t : LineStatus} {touched : List Nat}
    {lines : LineStatuses} {n : Nat} :
    Reaches s ((touched.foldl (raiseLine t) lines).get? n) ↔
      Reaches s (lines.get? n) ∨ (s.rank ≤ t.rank ∧ n ∈ touched) := by
  induction touched generalizing lines with
  | nil => simp
  | cons head tail ih =>
      rw [List.foldl_cons, ih, reaches_raiseLine, List.mem_cons, and_or_left, or_assoc]

theorem reaches_raiseLines {s t : LineStatus} {statuses : FileStatuses} {file path : Path}
    {touched : List Nat} {n : Nat} :
    Reaches s (statusAt (raiseLines statuses file touched t) path n) ↔
      Reaches s (statusAt statuses path n) ∨
        (s.rank ≤ t.rank ∧ Key.same path file = true ∧ n ∈ touched) := by
  rw [statusAt, raiseLines, SortedMap.get?_upsert]
  by_cases hsame : Key.same path file = true
  · rw [if_pos hsame, Option.bind_some, reaches_foldl_raiseLine]
    cases hfile : statuses.get? path with
    | none => simp [statusAt, hfile, hsame]
    | some lines => simp [statusAt, hfile, hsame]
  · simp [statusAt, hsame]

theorem statusAt_enterFile (statuses : FileStatuses) (file path : Path) (n : Nat) :
    statusAt (enterFile statuses file) path n = statusAt statuses path n := by
  rw [statusAt, enterFile, SortedMap.get?_insertIfNew]
  by_cases hsame : Key.same path file = true
  · cases hfile : statuses.get? path with
    | none => simp [statusAt, hfile, hsame]
    | some lines => simp [statusAt, hfile, hsame]
  · simp [statusAt, hsame]

/-- A file that a handle resolves to is the one it leads to. -/
theorem leadsTo_iff_same {project : Project} {files : SortedMap FileHandle Path}
    {handle : FileHandle} {file : Path} (h : resolve project files handle = .ok file)
    (path : Path) : LeadsTo project files handle path ↔ Key.same path file = true := by
  obtain ⟨name, hname, rfl⟩ := resolve_eq_ok.1 h
  constructor
  · rintro ⟨other, hother, hsame⟩
    rw [hname] at hother
    cases hother
    exact hsame
  · intro hsame
    exact ⟨name, hname, hsame⟩

section Stages

variable {project : Project} {files : SortedMap FileHandle Path} {s : LineStatus}
  {path : Path} {n : Nat}

theorem reaches_coverSpans {handle : FileHandle} {file : Path} {spans : List Span}
    {statuses covered : FileStatuses}
    (h : coverSpans handle file statuses spans = .ok covered) :
    Reaches s (statusAt covered path n) ↔
      Reaches s (statusAt statuses path n) ∨
        (s = .uncovered ∧ Key.same path file = true ∧ ∃ span ∈ spans, n ∈ span.lines) := by
  induction spans generalizing statuses with
  | nil =>
      cases h
      simp
  | cons span rest ih =>
      rw [coverSpans] at h
      split at h
      · have hrank : s.rank ≤ LineStatus.uncovered.rank ↔ s = .uncovered := by
          cases s <;> simp [LineStatus.rank]
        rw [ih h, reaches_raiseLines, hrank, List.exists_mem_cons_iff, or_assoc,
          and_or_left, and_or_left]
      · cases h

theorem reaches_coverCatalog {catalog : List (FileHandle × List Span)}
    {statuses covered : FileStatuses}
    (h : coverCatalog project files statuses catalog = .ok covered) :
    Reaches s (statusAt covered path n) ↔
      Reaches s (statusAt statuses path n) ∨
        (s = .uncovered ∧ ∃ c ∈ catalog, LeadsTo project files c.1 path ∧
          ∃ span ∈ c.2, n ∈ span.lines) := by
  induction catalog generalizing statuses with
  | nil =>
      cases h
      simp
  | cons c rest ih =>
      obtain ⟨file, hfile, h⟩ := bind_eq_ok.1 h
      obtain ⟨middle, hmiddle, h⟩ := bind_eq_ok.1 h
      rw [ih h, reaches_coverSpans hmiddle, statusAt_enterFile, List.exists_mem_cons_iff,
        leadsTo_iff_same hfile, and_or_left, or_assoc]

theorem reaches_traceLines {t : LineStatus} {trace : List TraceEntry}
    {statuses traced : FileStatuses}
    (h : traceLines project files t statuses trace = .ok traced) :
    Reaches s (statusAt traced path n) ↔
      Reaches s (statusAt statuses path n) ∨
        (s.rank ≤ t.rank ∧
          ∃ e ∈ trace, LeadsTo project files e.file path ∧ n ∈ e.lines) := by
  induction trace generalizing statuses with
  | nil =>
      cases h
      simp
  | cons e rest ih =>
      obtain ⟨file, hfile, h⟩ := bind_eq_ok.1 h
      rw [ih h, reaches_raiseLines, List.exists_mem_cons_iff, leadsTo_iff_same hfile,
        and_or_left, or_assoc]

theorem reaches_traceRecords {records : List UnitRecord} {statuses traced : FileStatuses}
    (h : traceRecords project files statuses records = .ok traced) :
    Reaches s (statusAt traced path n) ↔
      Reaches s (statusAt statuses path n) ∨
        ∃ r ∈ records, s.rank ≤ (LineStatus.ofFailed r.failed).rank ∧
          ∃ e ∈ r.trace, LeadsTo project files e.file path ∧ n ∈ e.lines := by
  induction records generalizing statuses with
  | nil =>
      cases h
      simp
  | cons r rest ih =>
      obtain ⟨middle, hmiddle, h⟩ := bind_eq_ok.1 h
      rw [ih h, reaches_traceLines hmiddle, List.exists_mem_cons_iff, or_assoc]

/-- An error is placed where its site is shown, and nowhere else. -/
theorem shownAt_iff_of_resolveSite {site : ErrorSite} {file : Path} {line : Nat}
    (h : resolveSite project files site = .ok (file, line)) :
    ShownAt project files site path n ↔ Key.same path file = true ∧ n = line := by
  cases site with
  | compiler location =>
      cases h
      constructor
      · intro hshown
        cases hshown with
        | compiler hsame => exact ⟨hsame, rfl⟩
      · rintro ⟨hsame, rfl⟩
        exact .compiler hsame
  | probe position =>
      by_cases hsentinel : position = .sentinel
      · subst hsentinel
        cases h
        constructor
        · intro hshown
          cases hshown with
          | sentinel hsame => exact ⟨hsame, rfl⟩
          | probe hne _ => exact absurd rfl hne
        · rintro ⟨hsame, rfl⟩
          exact .sentinel hsame
      · simp only [resolveSite, Position.isSentinel, hsentinel, decide_false,
          Bool.false_eq_true, if_false] at h
        obtain ⟨resolved, hresolved, heq⟩ := map_eq_ok.1 h
        cases heq
        constructor
        · intro hshown
          cases hshown with
          | sentinel _ => exact absurd rfl hsentinel
          | probe _ hleads => exact ⟨(leadsTo_iff_same hresolved path).1 hleads, rfl⟩
        · rintro ⟨hsame, rfl⟩
          exact .probe hsentinel ((leadsTo_iff_same hresolved path).2 hsame)

theorem exists_placed_iff {errors : List ThrownError} {placed : List PlacedError}
    (h : placeErrors project files errors = .ok placed) :
    (∃ e ∈ placed, Key.same path e.file = true ∧ n = e.line) ↔
      ∃ e ∈ errors, ShownAt project files e.site path n := by
  induction errors generalizing placed with
  | nil =>
      cases h
      simp
  | cons e rest ih =>
      obtain ⟨⟨file, line⟩, hsite, h⟩ := bind_eq_ok.1 h
      obtain ⟨later, hlater, h⟩ := bind_eq_ok.1 h
      cases h
      simp only [List.exists_mem_cons_iff, ih hlater, shownAt_iff_of_resolveSite hsite]

theorem reaches_foldl_failLine {placed : List PlacedError} {statuses : FileStatuses} :
    Reaches s (statusAt (placed.foldl failLine statuses) path n) ↔
      Reaches s (statusAt statuses path n) ∨
        ∃ e ∈ placed, Key.same path e.file = true ∧ n = e.line := by
  induction placed generalizing statuses with
  | nil => simp
  | cons e rest ih =>
      have hrank : s.rank ≤ LineStatus.fail.rank := by
        cases s <;> simp [LineStatus.rank]
      rw [List.foldl_cons, ih, failLine, reaches_raiseLines, List.exists_mem_cons_iff,
        List.mem_singleton, and_iff_right hrank, or_assoc]

end Stages

variable {project : Project} {lookup : SourceLookup} {o : RunOutcome} {r : Report}

/-- A failed unit gives all it went through the strongest status, a passing one the next. -/
theorem exists_record_iff {s : LineStatus} {path : Path} {n : Nat} :
    (∃ r ∈ o.records, s.rank ≤ (LineStatus.ofFailed r.failed).rank ∧
        ∃ e ∈ r.trace, LeadsTo project o.files e.file path ∧ n ∈ e.lines) ↔
      Touched project o true path n ∨ (s ≠ .fail ∧ Passing project o path n) := by
  have hfail : s.rank ≤ LineStatus.fail.rank := by
    cases s <;> simp [LineStatus.rank]
  have hsuccess : s.rank ≤ LineStatus.success.rank ↔ s ≠ .fail := by
    cases s <;> simp [LineStatus.rank]
  rw [Passing, touched_iff, touched_iff]
  constructor
  · rintro ⟨r, hr, hrank, htrace⟩
    cases hfailed : r.failed with
    | true => exact Or.inl ⟨r, hr, hfailed, htrace⟩
    | false =>
        rw [hfailed] at hrank
        exact Or.inr ⟨hsuccess.1 hrank, r, hr, hfailed, htrace⟩
  · rintro (⟨r, hr, hfailed, htrace⟩ | ⟨hne, r, hr, hfailed, htrace⟩)
    · exact ⟨r, hr, hfailed ▸ hfail, htrace⟩
    · exact ⟨r, hr, hfailed ▸ hsuccess.2 hne, htrace⟩

/-- What lifts a line to a status: for a failure an error or a failed unit, for a success also a
passing unit, and for an uncovered line also the catalog. -/
theorem reaches_status_iff (h : ofOutcome project lookup o = .ok r) (s : LineStatus)
    (path : Path) (n : Nat) :
    Reaches s (statusAt r.statuses path n) ↔
      Failing project o path n ∨ (s ≠ .fail ∧ Passing project o path n) ∨
        (s = .uncovered ∧ Catalogued project o path n) := by
  obtain ⟨stages⟩ := stages_of_ofOutcome h
  have hempty : statusAt .empty path n = none := rfl
  rw [stages.statuses_eq, reaches_foldl_failLine, exists_placed_iff stages.placed_eq,
    reaches_traceRecords stages.traced_eq, reaches_coverCatalog stages.covered_eq, hempty,
    exists_record_iff, ← catalogued_iff]
  have hnone := not_reaches_none s
  simp only [hnone, false_or, Failing, Charged]
  grind

/-- The status of every line.  A failure is a line that a failed unit went through or that shows an
error, a success one that only passing units went through, an uncovered line one that the catalog
alone knows, and no other line has a status.  Nothing here depends on an order, and it does not
matter under which handle or spelling a file was reported. -/
theorem status_of_ofOutcome (h : ofOutcome project lookup o = .ok r) (path : Path)
    (n : Nat) :
    (statusAt r.statuses path n = some .fail ↔ Failing project o path n) ∧
      (statusAt r.statuses path n = some .success ↔
        ¬ Failing project o path n ∧ Passing project o path n) ∧
      (statusAt r.statuses path n = some .uncovered ↔
        ¬ Failing project o path n ∧ ¬ Passing project o path n ∧
          Catalogued project o path n) ∧
      (statusAt r.statuses path n = none ↔
        ¬ Failing project o path n ∧ ¬ Passing project o path n ∧
          ¬ Catalogued project o path n) := by
  obtain ⟨hfail, hsuccess, huncovered, hnone⟩ :=
    status_of_thresholds (statusAt r.statuses path n)
  have hreachesFail : Reaches .fail (statusAt r.statuses path n) ↔
      Failing project o path n := by
    rw [reaches_status_iff h]
    simp
  have hreachesSuccess : Reaches .success (statusAt r.statuses path n) ↔
      Failing project o path n ∨ Passing project o path n := by
    rw [reaches_status_iff h]
    simp
  have hreachesUncovered : Reaches .uncovered (statusAt r.statuses path n) ↔
      Failing project o path n ∨ Passing project o path n ∨
        Catalogued project o path n := by
    rw [reaches_status_iff h]
    simp
  rw [hreachesFail] at hfail hsuccess
  rw [hreachesSuccess] at hsuccess huncovered
  rw [hreachesUncovered] at huncovered hnone
  refine ⟨hfail, ?_, ?_, ?_⟩
  · rw [hsuccess, and_congr_right_iff]
    intro hnot
    exact or_iff_right hnot
  · rw [huncovered, not_or, and_assoc, and_congr_right_iff, and_congr_right_iff]
    intro hnotFailing hnotPassing
    rw [or_iff_right hnotFailing, or_iff_right hnotPassing]
  · rw [hnone, not_or, not_or]

namespace LineStatusesWitness

def place : Project := ⟨⟨"/p"⟩, ⟨"t.ts"⟩⟩

/-- Two handles name one file.  A passing test goes through lines 2 and 3 of it, a failing one
through line 2 again, and line 1 is only in the catalog. -/
def outcome : RunOutcome where
  state := .done
  records := [⟨.test 0, "passes", [.span ⟨⟨⟨1⟩, 2, 1⟩, 3, 1⟩], false⟩,
    ⟨.test 1, "fails", [.point ⟨⟨0⟩, 2, 5⟩], true⟩]
  errors := []
  files := ⟨[(⟨0⟩, ⟨"a.ts"⟩), (⟨1⟩, ⟨"./a.ts"⟩)]⟩
  catalog := ⟨[(⟨0⟩, [⟨⟨⟨0⟩, 1, 1⟩, 2, 9⟩])]⟩
  logs := []
  stats := .zero
  codePath := none

theorem status_of_ofOutcome_two_handles :
    ∃ r, ofOutcome place (fun _ => none) outcome = .ok r ∧
      statusAt r.statuses ⟨"/p/a.ts"⟩ 2 = some .fail := by
  obtain ⟨r, h⟩ : ∃ r, ofOutcome place (fun _ => none) outcome = .ok r := ⟨_, rfl⟩
  have hleads : LeadsTo place outcome.files ⟨0⟩ ⟨"/p/a.ts"⟩ := ⟨⟨"a.ts"⟩, rfl, by decide⟩
  have hfailing : Failing place outcome ⟨"/p/a.ts"⟩ 2 :=
    Or.inl ⟨_, List.mem_cons_of_mem _ List.mem_cons_self, rfl, _, List.mem_cons_self, _,
      .point _, hleads⟩
  exact ⟨r, h, (status_of_ofOutcome h _ _).1.2 hfailing⟩

end LineStatusesWitness

end Report

end LiveTest
