import LiveTest.Proofs.ShownErrors
/-!
What the label of a line says.  A line with errors has one label for all of them: each first line of
a message once, in the order in which they came up.  On any other line the last text that was logged
there is shown.  It does not matter under which handle or spelling of its file a line was reported.
-/

namespace LiveTest

universe u

/-- These are the values of a list, each once, in the order in which they first occur. -/
structure FirstOccurrences {α : Type u} [BEq α] (values distinct : List α) : Prop where
  nodup : distinct.Nodup
  mem_iff : ∀ a, a ∈ distinct ↔ a ∈ values
  ordered : distinct.Pairwise fun a b => values.idxOf a < values.idxOf b

section Occurrences

variable {α : Type u} [BEq α] [LawfulBEq α]

/-- Leaving values out does not change the order of the others. -/
theorem idxOf_lt_of_filter {p : α → Bool} {values : List α} {a b : α} (ha : p a = true)
    (hb : p b = true) (h : (values.filter p).idxOf a < (values.filter p).idxOf b) :
    values.idxOf a < values.idxOf b := by
  induction values with
  | nil => simp at h
  | cons c rest ih =>
      by_cases hc : p c = true
      · rw [List.filter_cons_of_pos hc, List.idxOf_cons, List.idxOf_cons] at h
        rw [List.idxOf_cons, List.idxOf_cons]
        cases hca : c == a <;> cases hcb : c == b <;> simp_all
      · have hca : (c == a) = false := by
          rw [beq_eq_false_iff_ne]
          rintro rfl
          exact hc ha
        have hcb : (c == b) = false := by
          rw [beq_eq_false_iff_ne]
          rintro rfl
          exact hc hb
        rw [List.filter_cons_of_neg hc] at h
        rw [List.idxOf_cons, List.idxOf_cons, hca, hcb]
        simpa using ih h

/-- Of what remains after a value is left out, nothing is that value. -/
theorem ne_of_mem_eraseDups_filter {a b : α} {rest : List α}
    (hb : b ∈ (rest.filter fun c => !c == a).eraseDups) : b ≠ a := by
  rw [List.mem_eraseDups, List.mem_filter] at hb
  rintro rfl
  simpa using hb.2

theorem firstOccurrences_eraseDups (values : List α) :
    FirstOccurrences values values.eraseDups := by
  cases values with
  | nil => exact ⟨.nil, fun _ => Iff.rfl, .nil⟩
  | cons a rest =>
      have ih := firstOccurrences_eraseDups (rest.filter fun c => !c == a)
      have hlater : ∀ b, b ≠ a → (a :: rest).idxOf b = rest.idxOf b + 1 := by
        intro b hb
        rw [List.idxOf_cons, beq_eq_false_iff_ne.2 (Ne.symm hb), cond_false]
      refine ⟨?_, fun _ => List.mem_eraseDups, ?_⟩
      · rw [List.eraseDups_cons, List.nodup_cons]
        exact ⟨fun ha => ne_of_mem_eraseDups_filter ha rfl, ih.nodup⟩
      · rw [List.eraseDups_cons, List.pairwise_cons]
        constructor
        · intro b hb
          rw [hlater b (ne_of_mem_eraseDups_filter hb), List.idxOf_cons_self]
          exact Nat.succ_pos _
        · refine List.Pairwise.imp_of_mem ?_ ih.ordered
          intro b c hb hc hlt
          have hba := ne_of_mem_eraseDups_filter hb
          have hca := ne_of_mem_eraseDups_filter hc
          rw [hlater b hba, hlater c hca]
          exact Nat.succ_lt_succ (idxOf_lt_of_filter (by simpa using hba) (by simpa using hca) hlt)
termination_by values.length
decreasing_by exact Nat.lt_succ_of_le (List.length_filter_le _ _)

end Occurrences

namespace Report

section Meaning

variable (project : Project) (files : SortedMap FileHandle Path)

theorem leadsTo_iff_any {handle : FileHandle} {path : Path} :
    LeadsTo project files handle path ↔
      (files.get? handle).any (fun name => Key.same path (project.root.join name)) = true := by
  cases hname : files.get? handle with
  | none => simp [LeadsTo, hname]
  | some name => simp [LeadsTo, hname]

instance (handle : FileHandle) (path : Path) : Decidable (LeadsTo project files handle path) :=
  decidable_of_iff _ (leadsTo_iff_any project files).symm

theorem shownAt_probe_iff {position : Position} {path : Path} {line : Nat} :
    ShownAt project files (.probe position) path line ↔
      (position = .sentinel ∧ line = 1 ∧
        Key.same path
          (project.root.join ((files.get? ⟨0⟩).getD project.entryPoint)) = true) ∨
      (position ≠ .sentinel ∧ line = position.line ∧
        LeadsTo project files position.file path) := by
  constructor
  · intro hshown
    cases hshown with
    | sentinel hsame => exact Or.inl ⟨rfl, rfl, hsame⟩
    | probe hne hleads => exact Or.inr ⟨hne, rfl, hleads⟩
  · rintro (⟨rfl, rfl, hsame⟩ | ⟨hne, rfl, hleads⟩)
    · exact .sentinel hsame
    · exact .probe hne hleads

theorem shownAt_compiler_iff {location : SourceLocation} {path : Path} {line : Nat} :
    ShownAt project files (.compiler location) path line ↔
      line = max location.line 1 ∧ Key.same path (project.root.join location.file) = true := by
  constructor
  · intro hshown
    cases hshown with
    | compiler hsame => exact ⟨rfl, hsame⟩
  · rintro ⟨rfl, hsame⟩
    exact .compiler hsame

instance (site : ErrorSite) (path : Path) (line : Nat) :
    Decidable (ShownAt project files site path line) :=
  match site with
  | .probe _ => decidable_of_iff _ (shownAt_probe_iff project files).symm
  | .compiler _ => decidable_of_iff _ (shownAt_compiler_iff project files).symm

variable (o : RunOutcome)

/-- The errors that are shown at a line, in the order in which they arose. -/
def errorsShownAt (path : Path) (line : Nat) : List ThrownError :=
  o.errors.filter fun e => ShownAt project o.files e.site path line

/-- The texts that were logged at a line, in the order in which they were logged. -/
def logsAt (path : Path) (line : Nat) : List CodeLog :=
  o.logs.filter fun log =>
    LeadsTo project o.files log.position.file path ∧ log.position.line = line

end Meaning

theorem errorsAt_cons (e : PlacedError) (rest : List PlacedError) (path : Path) (line : Nat) :
    errorsAt (e :: rest) path line =
      if Key.same (path, line) (e.file, e.line) then e.error :: errorsAt rest path line
      else errorsAt rest path line := by
  rw [errorsAt, List.filter_cons]
  split
  · rfl
  · rfl

/-- The errors that are kept together are those that are shown at one line. -/
theorem errorsAt_eq_filter {project : Project} {files : SortedMap FileHandle Path}
    {errors : List ThrownError} {placed : List PlacedError}
    (h : placeErrors project files errors = .ok placed) (path : Path) (line : Nat) :
    errorsAt placed path line = errors.filter fun e => ShownAt project files e.site path line := by
  induction errors generalizing placed with
  | nil =>
      cases h
      rfl
  | cons e rest ih =>
      obtain ⟨⟨file, n⟩, hsite, h⟩ := bind_eq_ok.1 h
      obtain ⟨later, hlater, h⟩ := bind_eq_ok.1 h
      cases h
      have hshown : ShownAt project files e.site path line ↔
          Key.same (path, line) (file, n) = true := by
        rw [shownAt_iff_of_resolveSite hsite, Key.same_prod_iff, ← Key.same_nat_iff]
      rw [errorsAt_cons, ih hlater, List.filter_cons]
      simp only [hshown, Bool.decide_eq_true]

def logLabelOf (log : CodeLog) : Label := ⟨Text.firstLine log.text, .normal⟩

/-- On a line without an error a text that is logged there is shown, and no other is. -/
theorem labelAt_logLabel_of_no_error {labels : FileLabels} {path : Path} {line : Nat}
    (h : ∀ text, labelAt labels path line ≠ some ⟨text, .error⟩) (file : Path) (log : CodeLog) :
    labelAt (logLabel labels file log) path line =
      if Key.same (path, line) (file, log.position.line) then some (logLabelOf log)
      else labelAt labels path line := by
  rw [logLabel]
  split
  · next text herror =>
      rw [if_neg]
      intro hsame
      obtain ⟨hfile, hline⟩ := Key.same_prod_iff.1 hsame
      have heq : line = log.position.line := Key.same_nat_iff.1 hline
      apply h text
      rw [labelAt_congr hfile, heq]
      exact herror
  · exact labelAt_setLabel labels file path log.position.line line (logLabelOf log)

/-- On a line without an error the last text that was logged there is shown. -/
theorem labelAt_logLabels_of_no_error {project : Project} {files : SortedMap FileHandle Path}
    {logs : List CodeLog} {labels shown : FileLabels} {path : Path} {line : Nat}
    (h : ∀ text, labelAt labels path line ≠ some ⟨text, .error⟩)
    (hshown : logLabels project files labels logs = .ok shown) :
    labelAt shown path line =
      ((logs.filter fun log => LeadsTo project files log.position.file path ∧
        log.position.line = line).getLast?.map logLabelOf).or (labelAt labels path line) := by
  induction logs generalizing labels with
  | nil =>
      cases hshown
      rfl
  | cons log rest ih =>
      obtain ⟨file, hfile, hrest⟩ := bind_eq_ok.1 hshown
      have hstep := labelAt_logLabel_of_no_error h file log
      have hlogged : (LeadsTo project files log.position.file path ∧ log.position.line = line) ↔
          Key.same (path, line) (file, log.position.line) = true := by
        rw [leadsTo_iff_same hfile, Key.same_prod_iff, Key.same_nat_iff, eq_comm (a := line)]
      rw [List.filter_cons]
      by_cases hsame : Key.same (path, line) (file, log.position.line) = true
      · rw [if_pos hsame] at hstep
        rw [ih (by simp [hstep, logLabelOf]) hrest, hstep,
          if_pos (decide_eq_true (hlogged.2 hsame)), List.getLast?_cons]
        cases (rest.filter _).getLast? <;> rfl
      · rw [if_neg hsame] at hstep
        have hnot : ¬ decide (LeadsTo project files log.position.file path ∧
            log.position.line = line) = true := by rwa [decide_eq_true_iff, hlogged]
        rw [ih (by rwa [hstep]) hrest, hstep, if_neg hnot]

/-- Every file of the map has a label, and every label has one line. -/
def Presentable (labels : FileLabels) : Prop :=
  ∀ file ∈ labels.entries, file.2.entries ≠ [] ∧ ∀ l ∈ file.2.entries, '\n' ∉ l.2.text.toList

theorem presentable_empty : Presentable .empty := by
  intro file hfile
  cases hfile

theorem Presentable.setLabel {labels : FileLabels} (h : Presentable labels) (path : Path)
    (line : Nat) {label : Label} (hlabel : '\n' ∉ label.text.toList) :
    Presentable (setLabel labels path line label) := by
  have hinsert : ∀ lines : LineLabels, (∀ l ∈ lines.entries, '\n' ∉ l.2.text.toList) →
      (lines.insert line label).entries ≠ [] ∧
        ∀ l ∈ (lines.insert line label).entries, '\n' ∉ l.2.text.toList := by
    intro lines hlines
    have hlabels : ∀ l ∈ (lines.insert line label).entries, '\n' ∉ l.2.text.toList :=
      SortedMap.forall_mem_upsert (P := fun shown : Label => '\n' ∉ shown.text.toList) hlines hlabel
        fun _ _ => hlabel
    refine ⟨?_, hlabels⟩
    have hcontains : (lines.insert line label).contains line = true := by
      rw [SortedMap.contains, SortedMap.get?_insert, if_pos (Key.same_self line)]
      rfl
    obtain ⟨l, hl, -⟩ := SortedMap.contains_iff_exists_mem.1 hcontains
    exact List.ne_nil_of_mem hl
  apply SortedMap.forall_mem_upsert (P := fun lines : LineLabels =>
    lines.entries ≠ [] ∧ ∀ l ∈ lines.entries, '\n' ∉ l.2.text.toList) h
  · exact hinsert .empty (by intro l hl; cases hl)
  · intro lines hlines
    exact hinsert lines hlines.2

theorem newline_not_mem_errorText (errors : List ThrownError) :
    '\n' ∉ (errorText errors).toList := by
  apply Text.not_mem_join
  · decide
  · intro s hs
    obtain ⟨e, -, rfl⟩ := List.mem_map.1 (List.mem_eraseDups.1 hs)
    exact Text.newline_not_mem_firstLine e.message

theorem presentable_errorLabels (errors : ErrorsByLine) : Presentable (errorLabels errors) := by
  rw [errorLabels]
  refine List.foldlRecOn (motive := Presentable) _ _ presentable_empty ?_
  intro labels hlabels e _
  exact hlabels.setLabel _ _ (newline_not_mem_errorText e.2)

theorem Presentable.logLabel {labels : FileLabels} (h : Presentable labels) (path : Path)
    (log : CodeLog) : Presentable (logLabel labels path log) := by
  rw [Report.logLabel]
  split
  · exact h
  · exact h.setLabel _ _ (Text.newline_not_mem_firstLine log.text)

theorem Presentable.logLabels {project : Project} {files : SortedMap FileHandle Path}
    {logs : List CodeLog} {labels shown : FileLabels} (h : Presentable labels)
    (hshown : logLabels project files labels logs = .ok shown) : Presentable shown := by
  induction logs generalizing labels with
  | nil =>
      cases hshown
      exact h
  | cons log rest ih =>
      obtain ⟨file, -, hrest⟩ := bind_eq_ok.1 hshown
      exact ih (h.logLabel file log) hrest

variable {project : Project} {lookup : SourceLookup} {o : RunOutcome} {r : Report}

/-- The label of a line, by the errors and the logged texts that lead to it. -/
theorem labelAt_eq (h : ofOutcome project lookup o = .ok r) (path : Path) (line : Nat) :
    labelAt r.labels path line =
      if errorsShownAt project o path line = [] then
        (logsAt project o path line).getLast?.map logLabelOf
      else some (errorLabel (errorsShownAt project o path line)) := by
  obtain ⟨stages⟩ := stages_of_ofOutcome h
  have herrors := labelAt_errorLabels_eq stages.placed path line
  rw [errorsAt_eq_filter stages.placed_eq, ← errorsShownAt] at herrors
  rw [stages.labels_eq]
  by_cases hnone : errorsShownAt project o path line = []
  · rw [if_pos hnone] at herrors ⊢
    have hnoError : ∀ text,
        labelAt (errorLabels (groupErrors stages.placed)) path line ≠ some ⟨text, .error⟩ := by
      simp [herrors]
    rw [labelAt_logLabels_of_no_error hnoError stages.shown_eq, herrors, Option.or_none, logsAt]
  · rw [if_neg hnone] at herrors ⊢
    exact labelAt_logLabels herrors stages.shown_eq

theorem presentable_of_ofOutcome (h : ofOutcome project lookup o = .ok r) :
    Presentable r.labels := by
  obtain ⟨stages⟩ := stages_of_ofOutcome h
  rw [stages.labels_eq]
  exact (presentable_errorLabels _).logLabels stages.shown_eq

/-- The label of every line.  If errors are shown at the line then it joins the distinct first lines
of their messages in the order in which they came up.  Otherwise it is the first line of the last
text logged there, and a line with neither has no label.  All labels have one line, and no file is
listed without a label. -/
theorem label_of_ofOutcome (h : ofOutcome project lookup o = .ok r) :
    (∀ path line,
      (errorsShownAt project o path line ≠ [] → ∃ texts,
        FirstOccurrences
          ((errorsShownAt project o path line).map fun e => Text.firstLine e.message) texts ∧
        labelAt r.labels path line = some ⟨Text.join "; " texts, .error⟩) ∧
      (errorsShownAt project o path line = [] →
        (∀ log, (logsAt project o path line).getLast? = some log →
          labelAt r.labels path line = some ⟨Text.firstLine log.text, .normal⟩) ∧
        (logsAt project o path line = [] → labelAt r.labels path line = none))) ∧
    ∀ file ∈ r.labels.entries, file.2.entries ≠ [] ∧
      ∀ l ∈ file.2.entries, '\n' ∉ l.2.text.toList := by
  refine ⟨fun path line => ⟨?_, ?_⟩, presentable_of_ofOutcome h⟩
  · intro herrors
    refine ⟨_, firstOccurrences_eraseDups _, ?_⟩
    rw [labelAt_eq h, if_neg herrors]
    rfl
  · intro hnone
    rw [labelAt_eq h, if_pos hnone]
    constructor
    · intro log hlog
      rw [hlog]
      rfl
    · intro hempty
      rw [hempty]
      rfl

namespace LineLabelsWitness

def place : Project := ⟨⟨"/p"⟩, ⟨"t.ts"⟩⟩

def thrown (message : String) (site : ErrorSite) : ThrownError :=
  ⟨message, none, none, site, .test 0⟩

/-- Two handles name one file.  Three errors are shown at its third line, two of them with the same
first line; a text is logged there as well, and two on the line before. -/
def outcome : RunOutcome where
  state := .done
  records := []
  errors := [thrown "first\nwith details" (.probe ⟨⟨1⟩, 3, 5⟩), thrown "second" (.probe ⟨⟨0⟩, 3, 9⟩),
    thrown "first" (.compiler ⟨⟨"a.ts"⟩, 3, 1⟩)]
  files := ⟨[(⟨0⟩, ⟨"a.ts"⟩), (⟨1⟩, ⟨"./a.ts"⟩)]⟩
  catalog := .empty
  logs := [⟨⟨⟨0⟩, 3, 1⟩, "hidden"⟩, ⟨⟨⟨0⟩, 2, 1⟩, "old"⟩, ⟨⟨⟨1⟩, 2, 1⟩, "new\r\nmore"⟩]
  stats := .zero
  codePath := none

theorem label_of_ofOutcome_collisions :
    ∃ r, ofOutcome place (fun _ => none) outcome = .ok r ∧
      (∃ texts, FirstOccurrences ["first", "second", "first"] texts ∧
        labelAt r.labels ⟨"/p/a.ts"⟩ 3 = some ⟨Text.join "; " texts, .error⟩) ∧
      labelAt r.labels ⟨"/p/a.ts"⟩ 2 = some ⟨"new", .normal⟩ ∧
      labelAt r.labels ⟨"/p/a.ts"⟩ 1 = none := by
  obtain ⟨r, h⟩ : ∃ r, ofOutcome place (fun _ => none) outcome = .ok r := ⟨_, rfl⟩
  have hlabel := (label_of_ofOutcome h).1 ⟨"/p/a.ts"⟩
  have hthree : (errorsShownAt place outcome ⟨"/p/a.ts"⟩ 3).length = 2 + 1 := rfl
  refine ⟨r, h, ?_, ?_, ?_⟩
  · exact (hlabel 3).1 (List.ne_nil_of_length_eq_add_one hthree)
  · exact ((hlabel 2).2 rfl).1 _ rfl
  · exact ((hlabel 1).2 rfl).2 rfl

end LineLabelsWitness

end Report

end LiveTest
