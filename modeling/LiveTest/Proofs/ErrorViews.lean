import LiveTest.Proofs.AscendingKeys
import LiveTest.Proofs.LineLabels
import Mathlib.Data.List.Forall2
/-!
The views of the errors of a run.  A report lists every error, labels the lines with errors, keeps
details of them and calls them failing.  All of this goes back to the places of the errors, so the
four agree: they are about the same lines of the same files, and they count the same errors in the
same order.
-/

namespace LiveTest

namespace Report

/-- What the details of an error tell: its message, the values captured with it and only those, and
the unit that it arose in, which goes by the label of its record. -/
structure Tells (o : RunOutcome) (e : ThrownError) (item : Json) : Prop where
  /-- No two members have one name. -/
  names : ∃ members, item = .object members ∧ (members.map Prod.fst).Nodup
  message : item.member? "message" = some (.text e.message)
  actual : item.member? "actual" = e.actual
  expected : item.member? "expected" = e.expected
  unit : NamesUnit e.unit
    (((o.records.find? fun r => r.unit = e.unit).map UnitRecord.label).getD "(setup)") item

theorem tells_detail (o : RunOutcome) (lookup : SourceLookup) (e : ThrownError) :
    Tells o e (detail o lookup e) where
  names := by
    refine ⟨_, rfl, ?_⟩
    cases e.actual <;> cases e.expected <;> cases sourceOf lookup e.site <;> simp
  message := message_detail o lookup e
  actual := (members_detail o lookup e).2.1
  expected := (members_detail o lookup e).2.2.1
  unit := namesUnit_detail o lookup e

section Lines

variable {project : Project} {lookup : SourceLookup} {o : RunOutcome} {r : Report}

theorem errorsShownAt_ne_nil_iff {path : Path} {line : Nat} :
    errorsShownAt project o path line ≠ [] ↔ Charged project o path line := by
  simp [errorsShownAt, Charged]

/-- The lines of the errors are kept in ascending order. -/
theorem ascending_groupErrors (placed : List PlacedError) : (groupErrors placed).Ascending :=
  SortedMap.ascending_empty.group (fun e : PlacedError => (e.file, e.line)) PlacedError.error placed

/-- Every error is listed once, where its site leads, with its whole message. -/
theorem forall₂_failures {files : SortedMap FileHandle Path} {errors : List ThrownError}
    {placed : List PlacedError} (h : placeErrors project files errors = .ok placed) :
    List.Forall₂ (fun e l => resolveSite project files e.site = .ok (l.file, l.line) ∧
      l.message = e.message) errors (placed.map failure) := by
  induction errors generalizing placed with
  | nil =>
      cases h
      exact .nil
  | cons e rest ih =>
      obtain ⟨⟨file, line⟩, hsite, h⟩ := bind_eq_ok.1 h
      obtain ⟨later, hlater, h⟩ := bind_eq_ok.1 h
      cases h
      exact .cons ⟨hsite, rfl⟩ (ih hlater)

variable (h : ofOutcome project lookup o = .ok r)

include h

theorem pairwise_before_notifications :
    r.notifications.Pairwise fun n n' =>
      Key.before (n.file, n.line) (n'.file, n'.line) = true := by
  obtain ⟨stages⟩ := stages_of_ofOutcome h
  rw [stages.notifications_eq, List.pairwise_map]
  exact ascending_groupErrors stages.placed

/-- Details are those of the errors that are shown at their line. -/
theorem forall₂_tells {n : Notification} (hn : n ∈ r.notifications) :
    ∃ items, n.json = (Json.array items).pretty ∧
      List.Forall₂ (Tells o) (errorsShownAt project o n.file n.line) items := by
  obtain ⟨stages⟩ := stages_of_ofOutcome h
  have hjson := congrArg Notification.json (eq_notification_of_mem stages hn)
  rw [errorsAt_eq_filter stages.placed_eq, ← errorsShownAt] at hjson
  refine ⟨_, hjson, ?_⟩
  rw [List.forall₂_map_right_iff, List.forall₂_same]
  intro e _
  exact tells_detail o lookup e

/-- Just the lines with errors have details. -/
theorem exists_notification_same_iff (path : Path) (line : Nat) :
    (∃ n ∈ r.notifications, Key.same (path, line) (n.file, n.line) = true) ↔
      Charged project o path line := by
  obtain ⟨stages⟩ := stages_of_ofOutcome h
  have hkept : (groupErrors stages.placed).contains (path, line) = true ↔
      Charged project o path line := by
    rw [SortedMap.contains, get?_groupErrors_eq, errorsAt_eq_filter stages.placed_eq,
      ← errorsShownAt_ne_nil_iff, ← errorsShownAt]
    split
    · next hnone => simp [hnone]
    · next hsome => simp [hsome]
  rw [← hkept, SortedMap.contains_iff_exists_mem, stages.notifications_eq]
  simp only [List.mem_map, exists_exists_and_eq_and]
  rfl

/-- Just the lines with errors have a label of an error. -/
theorem exists_errorLabel_iff (path : Path) (line : Nat) :
    (∃ text, labelAt r.labels path line = some ⟨text, .error⟩) ↔ Charged project o path line := by
  rw [labelAt_eq h, ← errorsShownAt_ne_nil_iff]
  split
  · next hnone =>
      rw [hnone]
      cases (logsAt project o path line).getLast? <;> simp [logLabelOf]
  · next hsome => simp [hsome, errorLabel]

/-- Just the lines with errors are listed. -/
theorem exists_failure_same_iff (path : Path) (line : Nat) :
    (∃ l ∈ r.failures, Key.same (path, line) (l.file, l.line) = true) ↔
      Charged project o path line := by
  obtain ⟨stages⟩ := stages_of_ofOutcome h
  rw [Charged, ← exists_placed_iff stages.placed_eq, stages.failures_eq]
  simp only [List.mem_map, exists_exists_and_eq_and, Key.same_prod_iff, failure, Key.same_nat_iff]

/-- A line with an error is failing. -/
theorem statusAt_of_charged {path : Path} {line : Nat} (hcharged : Charged project o path line) :
    statusAt r.statuses path line = some .fail := by
  rw [(status_of_thresholds _).1, reaches_status_iff h]
  exact Or.inl (Or.inr hcharged)

/-- The views of the errors agree.  The list has every error in order with its whole message.  The
details come line by line in ascending order and tell, in order, the errors of their line.  The
lines that have details, those that have a label of an error and those that are listed are the same,
the lines that an error is shown at, and all of them are failing. -/
theorem views_agree :
    List.Forall₂ (fun e l => resolveSite project o.files e.site = .ok (l.file, l.line) ∧
      l.message = e.message) o.errors r.failures ∧
    (r.notifications.Pairwise fun n n' =>
      Key.before (n.file, n.line) (n'.file, n'.line) = true) ∧
    (∀ n ∈ r.notifications, ∃ items, n.json = (Json.array items).pretty ∧
      List.Forall₂ (Tells o) (errorsShownAt project o n.file n.line) items) ∧
    ∀ path line,
      ((∃ n ∈ r.notifications, Key.same (path, line) (n.file, n.line) = true) ↔
        Charged project o path line) ∧
      ((∃ text, labelAt r.labels path line = some ⟨text, .error⟩) ↔
        Charged project o path line) ∧
      ((∃ l ∈ r.failures, Key.same (path, line) (l.file, l.line) = true) ↔
        Charged project o path line) ∧
      (Charged project o path line → statusAt r.statuses path line = some .fail) := by
  refine ⟨?_, pairwise_before_notifications h, fun n hn => forall₂_tells h hn, ?_⟩
  · obtain ⟨stages⟩ := stages_of_ofOutcome h
    rw [stages.failures_eq]
    exact forall₂_failures stages.placed_eq
  · intro path line
    exact ⟨exists_notification_same_iff h path line, exists_errorLabel_iff h path line,
      exists_failure_same_iff h path line, statusAt_of_charged h⟩

end Lines

namespace ErrorViewsWitness

def place : Project := ⟨⟨"/p"⟩, ⟨"t.ts"⟩⟩

/-- Two errors are shown at one line under two spellings of its file, the first with a null that was
captured.  The one between them is shown at the sentinel. -/
def outcome : RunOutcome where
  state := .done
  records := [⟨.test 0, "adds", [], true⟩]
  errors := [⟨"first\nsecond", some .null, none, .probe ⟨⟨1⟩, 3, 5⟩, .test 0⟩,
    ⟨"lost", none, none, .probe .sentinel, .setup⟩,
    ⟨"third", none, some .null, .compiler ⟨⟨"./a.ts"⟩, 3, 1⟩, .test 0⟩]
  files := ⟨[(⟨1⟩, ⟨"a.ts"⟩)]⟩
  catalog := .empty
  logs := [⟨⟨⟨1⟩, 3, 1⟩, "hidden"⟩]
  stats := .zero
  codePath := none

/-- The details of the line with two errors. -/
def addsDetails : String :=
  "[\n  \x7b\n    \"message\": \"first\\nsecond\",\n    \"actual\": null,\n" ++
    "    \"unit\": \"adds\",\n    \"unit-index\": 0\n  \x7d,\n" ++
    "  \x7b\n    \"message\": \"third\",\n    \"expected\": null,\n" ++
    "    \"unit\": \"adds\",\n    \"unit-index\": 0\n  \x7d\n]"

/-- The details of the error at the sentinel. -/
def setupDetails : String :=
  "[\n  \x7b\n    \"message\": \"lost\",\n" ++
    "    \"unit\": \"(setup)\",\n    \"unit-index\": -1\n  \x7d\n]"

theorem views_agree_spellings :
    ∃ r, ofOutcome place (fun _ => none) outcome = .ok r ∧
      (∃ first sentinel last, r.failures = [first, sentinel, last] ∧
        first.message = "first\nsecond") ∧
      (∃ n ∈ r.notifications, Key.same (⟨"/p/a.ts"⟩, 3) (n.file, n.line) = true) ∧
      statusAt r.statuses ⟨"/p/a.ts"⟩ 3 = some .fail ∧
      r.notifications.map (fun n => (n.file.text, n.line, n.json)) =
        [("/p/a.ts", 3, addsDetails), ("/p/t.ts", 1, setupDetails)] := by
  obtain ⟨r, h, hjson⟩ : ∃ r, ofOutcome place (fun _ => none) outcome = .ok r ∧
      r.notifications.map (fun n => (n.file.text, n.line, n.json)) =
        [("/p/a.ts", 3, addsDetails), ("/p/t.ts", 1, setupDetails)] :=
    ⟨_, rfl, by decide +kernel⟩
  obtain ⟨hfailures, -, -, hlines⟩ := views_agree h
  obtain ⟨hdetails, -, -, hstatus⟩ := hlines ⟨"/p/a.ts"⟩ 3
  have hcharged : Charged place outcome ⟨"/p/a.ts"⟩ 3 :=
    ⟨_, List.mem_cons_self, .probe (by decide) ⟨⟨"a.ts"⟩, rfl, by decide⟩⟩
  refine ⟨r, h, ?_, hdetails.2 hcharged, hstatus hcharged, hjson⟩
  generalize r.failures = failures at hfailures ⊢
  rcases hfailures with _ | @⟨_, first, _, _, hfirst, _ | @⟨_, sentinel, _, _, _,
    _ | @⟨_, last, _, _, _, ⟨⟩⟩⟩⟩
  exact ⟨first, sentinel, last, rfl, hfirst.2⟩

end ErrorViewsWitness

end Report

end LiveTest
