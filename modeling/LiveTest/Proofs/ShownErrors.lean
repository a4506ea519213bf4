import LiveTest.Proofs.Grouping
import LiveTest.Proofs.LineStatuses
/-!
Where the errors of a run are shown.  Every error has a line; the errors of a line are kept
together, in the order in which they arose, and the line is failing, has one label that joins the
first lines of their messages, and has details on each of them.  Logged texts come last and replace
no label of an error.
-/

namespace LiveTest

namespace Report

/-- Every error is placed, in order, where its site leads. -/
theorem placed_errors {project : Project} {files : SortedMap FileHandle Path}
    {errors : List ThrownError} {placed : List PlacedError}
    (h : placeErrors project files errors = .ok placed) :
    placed.map PlacedError.error = errors := by
  induction errors generalizing placed with
  | nil =>
      cases h
      rfl
  | cons e rest ih =>
      obtain ⟨⟨file, line⟩, -, h⟩ := bind_eq_ok.1 h
      obtain ⟨later, hlater, h⟩ := bind_eq_ok.1 h
      cases h
      rw [List.map_cons, ih hlater]

/-- The errors among some that are placed at a line. -/
def errorsAt (placed : List PlacedError) (path : Path) (line : Nat) : List ThrownError :=
  (placed.filter fun e => Key.same (path, line) (e.file, e.line)).map PlacedError.error

theorem mem_errorsAt {placed : List PlacedError} {e : PlacedError} (he : e ∈ placed) :
    e.error ∈ errorsAt placed e.file e.line := by
  apply List.mem_map_of_mem
  rw [List.mem_filter]
  exact ⟨he, Key.same_self _⟩

theorem distinct_groupErrors (placed : List PlacedError) : (groupErrors placed).Distinct :=
  SortedMap.distinct_empty.group (fun e : PlacedError => (e.file, e.line)) PlacedError.error placed

/-- The errors of a line are kept together if there are any. -/
theorem get?_groupErrors_eq (placed : List PlacedError) (path : Path) (line : Nat) :
    (groupErrors placed).get? (path, line) =
      if errorsAt placed path line = [] then none else some (errorsAt placed path line) :=
  SortedMap.get?_group placed (path, line)

/-- A line with an error has just its errors together. -/
theorem get?_groupErrors {placed : List PlacedError} {e : PlacedError} (he : e ∈ placed) :
    (groupErrors placed).get? (e.file, e.line) = some (errorsAt placed e.file e.line) := by
  rw [get?_groupErrors_eq, if_neg (List.ne_nil_of_mem (mem_errorsAt he))]

/-- The errors that are kept together are those of one line. -/
theorem snd_of_mem_groupErrors {placed : List PlacedError}
    {group : (Path × Nat) × List ThrownError} (hgroup : group ∈ (groupErrors placed).entries) :
    group.2 = errorsAt placed group.1.1 group.1.2 :=
  SortedMap.snd_of_mem_group hgroup

/-- Enter an error among those of its line. -/
def groupError (m : ErrorsByLine) (e : PlacedError) : ErrorsByLine :=
  m.upsert (e.file, e.line) fun old => old.getD [] ++ [e.error]

/-- The first error that is placed at a line. -/
def firstAt (placed : List PlacedError) (path : Path) (line : Nat) : Option PlacedError :=
  placed.find? fun e => Key.same (path, line) (e.file, e.line)

/-- A line that is not there yet is entered in the spelling of the first error placed at it. -/
theorem key_of_mem_foldl_groupError {placed : List PlacedError} {m : ErrorsByLine}
    {key : Path × Nat} (hkey : key ∈ (placed.foldl groupError m).keys) :
    key ∈ m.keys ∨ ¬ m.contains key = true ∧
      ∃ e, firstAt placed key.1 key.2 = some e ∧ (e.file, e.line) = key := by
  induction placed generalizing m with
  | nil => exact Or.inl hkey
  | cons e rest ih =>
      rcases ih hkey with hmem | ⟨hnew, first, hfirst, heq⟩
      · rcases SortedMap.mem_keys_upsert hmem with hmem | ⟨hnew, rfl⟩
        · exact Or.inl hmem
        · exact Or.inr ⟨hnew, e, List.find?_cons_of_pos (Key.same_self (e.file, e.line)), rfl⟩
      · rw [SortedMap.contains, groupError, SortedMap.get?_upsert] at hnew
        split at hnew
        · exact absurd rfl hnew
        · next hother =>
            have hskip : firstAt (e :: rest) key.1 key.2 = firstAt rest key.1 key.2 :=
              List.find?_cons_of_neg hother
            exact Or.inr ⟨hnew, first, hskip.trans hfirst, heq⟩

/-- A line goes by the spelling of its file in its first error. -/
theorem firstAt_of_mem_groupErrors {placed : List PlacedError}
    {group : (Path × Nat) × List ThrownError} (hgroup : group ∈ (groupErrors placed).entries) :
    ∃ e, firstAt placed group.1.1 group.1.2 = some e ∧ (e.file, e.line) = group.1 := by
  rcases key_of_mem_foldl_groupError (List.mem_map_of_mem hgroup) with hmem | ⟨-, hfirst⟩
  · cases hmem
  · exact hfirst

/-- The label that is shown for a line of a file. -/
def labelAt (labels : FileLabels) (path : Path) (line : Nat) : Option Label :=
  (labels.get? path).bind fun lines => lines.get? line

theorem labelAt_setLabel (labels : FileLabels) (file path : Path) (n line : Nat)
    (label : Label) :
    labelAt (setLabel labels file n label) path line =
      if Key.same (path, line) (file, n) then some label else labelAt labels path line := by
  rw [labelAt, setLabel, SortedMap.get?_upsert]
  by_cases hfile : Key.same path file = true
  · rw [if_pos hfile, Option.bind_some, SortedMap.get?_insert]
    by_cases hline : Key.same line n = true
    · simp [Key.same_prod_iff, hfile, hline]
    · cases hlines : labels.get? path with
      | none => simp [Key.same_prod_iff, hline, labelAt, hlines]
      | some lines => simp [Key.same_prod_iff, hline, labelAt, hlines]
  · simp [Key.same_prod_iff, hfile, labelAt]

/-- The label of a line with errors. -/
def errorLabel (errors : List ThrownError) : Label := ⟨errorText errors, .error⟩

/-- A line is entered once, so that no later line takes its label away. -/
theorem labelAt_foldl_setLabel {entries : List ((Path × Nat) × List ThrownError)}
    (hdistinct : entries.Pairwise fun a b => Key.same a.1 b.1 = false) (labels : FileLabels)
    (path : Path) (line : Nat) :
    labelAt (entries.foldl (fun labels e => setLabel labels e.1.1 e.1.2 (errorLabel e.2)) labels)
        path line =
      ((SortedMap.find? (path, line) entries).map errorLabel).or (labelAt labels path line) := by
  induction entries generalizing labels with
  | nil => rfl
  | cons head tail ih =>
      obtain ⟨hhead, htail⟩ := List.pairwise_cons.1 hdistinct
      rw [List.foldl_cons, ih htail, labelAt_setLabel, SortedMap.find?]
      by_cases hsame : Key.same (path, line) head.1 = true
      · have hnone : SortedMap.find? (path, line) tail = none :=
          SortedMap.find?_tail_eq_none hhead hsame
        simp [hnone, hsame]
      · simp [hsame]

/-- Before any text is logged just the lines with errors have labels. -/
theorem labelAt_errorLabels_eq (placed : List PlacedError) (path : Path) (line : Nat) :
    labelAt (errorLabels (groupErrors placed)) path line =
      if errorsAt placed path line = [] then none
      else some (errorLabel (errorsAt placed path line)) := by
  have hlabel := labelAt_foldl_setLabel (distinct_groupErrors placed) .empty path line
  have hfound := get?_groupErrors_eq placed path line
  rw [SortedMap.get?] at hfound
  rw [hfound] at hlabel
  refine hlabel.trans ?_
  split
  · rfl
  · rfl

theorem labelAt_errorLabels {placed : List PlacedError} {e : PlacedError} (he : e ∈ placed) :
    labelAt (errorLabels (groupErrors placed)) e.file e.line =
      some (errorLabel (errorsAt placed e.file e.line)) := by
  rw [labelAt_errorLabels_eq, if_neg (List.ne_nil_of_mem (mem_errorsAt he))]

theorem labelAt_congr {path path' : Path} (h : Key.same path path' = true)
    (labels : FileLabels) (line : Nat) : labelAt labels path line = labelAt labels path' line := by
  rw [labelAt, labelAt, SortedMap.get?_congr h]

/-- A logged text hides no error. -/
theorem labelAt_logLabel {labels : FileLabels} {path : Path} {line : Nat} {text : String}
    (h : labelAt labels path line = some ⟨text, .error⟩) (file : Path) (log : CodeLog) :
    labelAt (logLabel labels file log) path line = some ⟨text, .error⟩ := by
  rw [logLabel]
  split
  · exact h
  · next hshown =>
      rw [labelAt_setLabel, if_neg, h]
      intro hsame
      obtain ⟨hfile, hline⟩ := Key.same_prod_iff.1 hsame
      have heq : line = log.position.line := Key.same_nat_iff.1 hline
      rw [labelAt_congr hfile, heq] at h
      exact hshown text h

theorem labelAt_logLabels {project : Project} {files : SortedMap FileHandle Path}
    {logs : List CodeLog} {labels shown : FileLabels} {path : Path} {line : Nat} {text : String}
    (h : labelAt labels path line = some ⟨text, .error⟩)
    (hshown : logLabels project files labels logs = .ok shown) :
    labelAt shown path line = some ⟨text, .error⟩ := by
  induction logs generalizing labels with
  | nil =>
      cases hshown
      exact h
  | cons log rest ih =>
      obtain ⟨file, -, hrest⟩ := bind_eq_ok.1 hshown
      exact ih (labelAt_logLabel h file log) hrest

/-- Details name a unit, by its label and by its number.  The setup is minus one.  A test goes by its
index, as far as 64 bits with a sign can tell it. -/
structure NamesUnit (unit : UnitIndex) (label : String) (item : Json) : Prop where
  label : item.member? "unit" = some (.text label)
  setup : unit = .setup → item.member? "unit-index" = some (.int (-1))
  test : ∀ i, unit = .test i →
    item.member? "unit-index" = some (.int (min i 0x7fffffffffffffff : Nat))

section Details

variable (o : RunOutcome) (lookup : SourceLookup) (e : ThrownError)

/-- The members that the details of an error have. -/
theorem members_detail :
    (detail o lookup e).member? "message" = some (.text e.message) ∧
      (detail o lookup e).member? "actual" = e.actual ∧
      (detail o lookup e).member? "expected" = e.expected ∧
      (detail o lookup e).member? "unit" = some (.text (unitLabel o e.unit)) ∧
      (detail o lookup e).member? "unit-index" = some (.int e.unit.number) ∧
      (detail o lookup e).member? "original" = (sourceOf lookup e.site).map sourceJson := by
  -- What is not known has no member, so the members are found by cases on what is known.
  rw [detail]
  cases e.actual <;> cases e.expected <;> cases sourceOf lookup e.site <;>
    exact ⟨rfl, rfl, rfl, rfl, rfl, rfl⟩

theorem message_detail : (detail o lookup e).member? "message" = some (.text e.message) :=
  (members_detail o lookup e).1

/-- Details name the unit by the label of its record, or as the setup if it has none. -/
theorem namesUnit_detail :
    NamesUnit e.unit (((o.records.find? fun r => r.unit = e.unit).map UnitRecord.label).getD
      "(setup)") (detail o lookup e) := by
  obtain ⟨-, -, -, hlabel, hindex, -⟩ := members_detail o lookup e
  constructor
  · exact hlabel
  · intro hunit
    rw [hindex, hunit]
    rfl
  · intro i hunit
    rw [hindex, hunit]
    rfl

end Details

variable {project : Project} {lookup : SourceLookup} {o : RunOutcome} {r : Report}

/-- The line of an error is failing, its label joins the messages of all its errors, and so do its
details. -/
theorem shown_of_mem_placed (stages : Stages project lookup o r) {e : PlacedError}
    (he : e ∈ stages.placed) :
    statusAt r.statuses e.file e.line = some .fail ∧
      labelAt r.labels e.file e.line =
        some (errorLabel (errorsAt stages.placed e.file e.line)) ∧
      ∃ n ∈ r.notifications, Key.same e.file n.file = true ∧ n.line = e.line ∧
        n.json = (Json.array
          ((errorsAt stages.placed e.file e.line).map (detail o lookup))).pretty := by
  refine ⟨?_, ?_, ?_⟩
  · rw [(status_of_thresholds _).1, stages.statuses_eq, reaches_foldl_failLine]
    exact Or.inr ⟨e, he, Key.same_self _, rfl⟩
  · rw [stages.labels_eq]
    exact labelAt_logLabels (labelAt_errorLabels he) stages.shown_eq
  · obtain ⟨group, hgroup, hsame, heq⟩ := SortedMap.exists_mem_of_get? (get?_groupErrors he)
    obtain ⟨hfile, hline⟩ := Key.same_prod_iff.1 hsame
    rw [stages.notifications_eq]
    refine ⟨_, List.mem_map_of_mem hgroup, hfile, (Key.same_nat_iff.1 hline).symm, ?_⟩
    rw [← heq]
    rfl

section

variable {path path' : Path} {line line' : Nat}

theorem firstAt_congr (h : Key.same (path, line) (path', line') = true)
    (placed : List PlacedError) : firstAt placed path line = firstAt placed path' line' := by
  simp only [firstAt, Key.same_congr h]

theorem of_firstAt {placed : List PlacedError} {e : PlacedError}
    (h : firstAt placed path line = some e) :
    e ∈ placed ∧ Key.same (path, line) (e.file, e.line) = true := by
  rw [firstAt, List.find?_eq_some_iff_append] at h
  obtain ⟨hsame, before, after, rfl, -⟩ := h
  exact ⟨List.mem_append_right before List.mem_cons_self, hsame⟩

theorem errorsAt_congr (h : Key.same (path, line) (path', line') = true)
    (placed : List PlacedError) : errorsAt placed path line = errorsAt placed path' line' := by
  simp only [errorsAt, Key.same_congr h]

end

/-- Only errors are labelled as errors, and logged texts never are. -/
theorem labelAt_of_logLabel {labels : FileLabels} {path file : Path} {line : Nat} {text : String}
    {log : CodeLog} (h : labelAt (logLabel labels file log) path line = some ⟨text, .error⟩) :
    labelAt labels path line = some ⟨text, .error⟩ := by
  rw [logLabel] at h
  split at h
  · exact h
  · rw [labelAt_setLabel] at h
    split at h
    · cases h
    · exact h

theorem labelAt_of_logLabels {project : Project} {files : SortedMap FileHandle Path}
    {logs : List CodeLog} {labels shown : FileLabels} {path : Path} {line : Nat} {text : String}
    (hshown : logLabels project files labels logs = .ok shown)
    (h : labelAt shown path line = some ⟨text, .error⟩) :
    labelAt labels path line = some ⟨text, .error⟩ := by
  induction logs generalizing labels with
  | nil =>
      cases hshown
      exact h
  | cons log rest ih =>
      obtain ⟨file, -, hrest⟩ := bind_eq_ok.1 hshown
      exact labelAt_of_logLabel (ih hrest)

section

variable {project : Project} {lookup : SourceLookup} {o : RunOutcome} {r : Report} {path : Path}
  {line : Nat} (stages : Stages project lookup o r)

include stages

/-- A line with an error has a label that joins the messages of its errors. -/
theorem labelAt_of_firstAt {e : PlacedError} (hfirst : firstAt stages.placed path line = some e) :
    labelAt r.labels path line = some (errorLabel (errorsAt stages.placed path line)) := by
  obtain ⟨hmem, hsame⟩ := of_firstAt hfirst
  obtain ⟨hfile, hline⟩ := Key.same_prod_iff.1 hsame
  have hlabel := (shown_of_mem_placed stages hmem).2.1
  have heq : line = e.line := Key.same_nat_iff.1 hline
  rwa [← errorsAt_congr hsame, ← labelAt_congr hfile, ← heq] at hlabel

/-- A label of an error stands on a line with an error. -/
theorem exists_firstAt_of_labelAt {text : String}
    (hlabel : labelAt r.labels path line = some ⟨text, .error⟩) :
    ∃ e, firstAt stages.placed path line = some e := by
  rw [stages.labels_eq] at hlabel
  have herror := labelAt_of_logLabels stages.shown_eq hlabel
  rw [labelAt_errorLabels_eq] at herror
  split at herror
  · cases herror
  · next hsome =>
      have hplaced := SortedMap.valuesOf_ne_nil_iff.1 hsome
      exact Option.isSome_iff_exists.1 (List.find?_isSome.2 hplaced)

/-- A line has details under the spelling of its first error. -/
theorem exists_notification_iff :
    (∃ n ∈ r.notifications, n.file = path ∧ n.line = line) ↔
      ∃ e, firstAt stages.placed path line = some e ∧ e.file = path := by
  rw [stages.notifications_eq]
  constructor
  · rintro ⟨n, hn, rfl, rfl⟩
    obtain ⟨group, hgroup, rfl⟩ := List.mem_map.1 hn
    obtain ⟨e, hfirst, hkey⟩ := firstAt_of_mem_groupErrors hgroup
    exact ⟨e, hfirst, congrArg Prod.fst hkey⟩
  · rintro ⟨e, hfirst, rfl⟩
    obtain ⟨hmem, hsame⟩ := of_firstAt hfirst
    have hline : line = e.line := Key.same_nat_iff.1 (Key.same_prod_iff.1 hsame).2
    obtain ⟨group, hgroup, hgroupSame, -⟩ :=
      SortedMap.exists_mem_of_get? (get?_groupErrors hmem)
    obtain ⟨first, hgroupFirst, hkey⟩ := firstAt_of_mem_groupErrors hgroup
    have heq : first = e := by
      rw [← firstAt_congr hgroupSame, ← hline, hfirst] at hgroupFirst
      exact (Option.some.inj hgroupFirst).symm
    refine ⟨_, List.mem_map_of_mem hgroup, ?_, ?_⟩
    · exact (congrArg Prod.fst hkey).symm.trans (congrArg PlacedError.file heq)
    · exact ((congrArg Prod.snd hkey).symm.trans (congrArg PlacedError.line heq)).trans hline.symm

/-- Details are those of the errors of their line. -/
theorem eq_notification_of_mem {n : Notification} (hn : n ∈ r.notifications) :
    n = notification o lookup n.file n.line (errorsAt stages.placed n.file n.line) := by
  rw [stages.notifications_eq] at hn
  obtain ⟨group, hgroup, rfl⟩ := List.mem_map.1 hn
  rw [snd_of_mem_groupErrors hgroup]
  rfl

/-- No two notifications are about one line of one file. -/
theorem pairwise_notifications :
    r.notifications.Pairwise fun n n' => ¬(n.file = n'.file ∧ n.line = n'.line) := by
  rw [stages.notifications_eq, List.pairwise_map]
  refine List.Pairwise.imp ?_ (distinct_groupErrors stages.placed)
  rintro ⟨key, errors⟩ ⟨key', errors'⟩ hother ⟨hfile, hline⟩
  have hkey : key = key' := Prod.ext hfile hline
  rw [hkey, Key.same_self] at hother
  cases hother

end

end Report

end LiveTest
