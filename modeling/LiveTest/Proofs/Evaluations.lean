import LiveTest.Proofs.UnitRuns
/-!
Evaluations and the stack of pending positions.  Every evaluation of an expression is something of
its own, although many may be open at one position, as in a recursion.  One that completes ends all
that began after it: they were abandoned.  The recorder is told positions only and closes the
innermost one that is equal.  Its stack never misses an open evaluation, and it holds nothing but
open evaluations exactly as long as no evaluation completes while one inside it is open at the same
position.
-/

namespace LiveTest

/-- One evaluation of an expression.  Evaluations are numbered in the order in which they begin. -/
structure Evaluation where
  number : Nat
  position : Position
deriving DecidableEq

/-- A call that begins or completes an evaluation, or is about none. -/
inductive EvaluationStep
  | begins (position : Position)
  | completes (e : Evaluation)
  | reports (c : ProbeCall)

/-- What the recorder is told. -/
def EvaluationStep.call : EvaluationStep → ProbeCall
  | .begins p => .begins p
  | .completes e => .completes e.position
  | .reports c => c

/-- The call neither begins nor completes an expression. -/
def ProbeCall.isReport : ProbeCall → Bool
  | .begins _ => false
  | .completes _ => false
  | _ => true

/-- How many evaluations have begun, and which of them are open, the innermost first. -/
structure Evaluations where
  begun : Nat
  opened : List Evaluation

namespace Evaluations

def none : Evaluations := ⟨0, []⟩

/-- An evaluation that completes ends those that began after it. -/
def after (s : Evaluations) : EvaluationStep → Evaluations
  | .begins p => ⟨s.begun + 1, ⟨s.begun, p⟩ :: s.opened⟩
  | .completes e => { s with opened := (s.opened.dropWhile (· ≠ e)).tail }
  | .reports _ => s

def afterAll (s : Evaluations) (steps : List EvaluationStep) : Evaluations := steps.foldl after s

/-- Only an open evaluation can complete. -/
def Allows (s : Evaluations) : EvaluationStep → Prop
  | .begins _ => True
  | .completes e => e ∈ s.opened
  | .reports c => c.isReport = true

instance (s : Evaluations) (step : EvaluationStep) : Decidable (s.Allows step) :=
  match step with
  | .begins _ => .isTrue trivial
  | .completes e => inferInstanceAs (Decidable (e ∈ s.opened))
  | .reports c => inferInstanceAs (Decidable (c.isReport = true))

def AllowsAll (s : Evaluations) : List EvaluationStep → Prop
  | [] => True
  | step :: rest => s.Allows step ∧ (s.after step).AllowsAll rest

/-- No evaluation inside this one is open at the same position. -/
def InnermostAt (s : Evaluations) (e : Evaluation) : Prop :=
  ∀ inner ∈ s.opened.takeWhile (· ≠ e), inner.position ≠ e.position

/-- Whatever completes is the innermost that is open at its position. -/
def CompletesInnermost (s : Evaluations) : List EvaluationStep → Prop
  | [] => True
  | step :: rest =>
    (∀ e, step = .completes e → s.InnermostAt e) ∧ (s.after step).CompletesInnermost rest

def positions (s : Evaluations) : List Position := s.opened.map Evaluation.position

end Evaluations

/-- A new recorder after the calls of some steps. -/
def recorderAfter (steps : List EvaluationStep) : Recorder :=
  Recorder.empty.recordAll (steps.map EvaluationStep.call)

section

variable {p : Position} {inner outer pending : List Position}

/-- The innermost of equal positions is closed. -/
theorem closePending_append (p : Position) (inner outer : List Position) :
    Recorder.closePending p (inner ++ p :: outer) =
      if p ∈ inner then Recorder.closePending p inner ++ p :: outer else outer := by
  have hmem : p ∈ inner ++ p :: outer := List.mem_append_right inner List.mem_cons_self
  rw [Recorder.closePending, if_pos hmem]
  split
  · next hinner =>
      obtain ⟨first, rest, rfl, hfirst⟩ := List.eq_append_cons_of_mem hinner
      rw [Recorder.closePending, if_pos hinner, List.append_assoc, List.cons_append,
        Text.dropWhile_ne_append hfirst, Text.dropWhile_ne_append hfirst]
      rfl
  · next hinner =>
      rw [Text.dropWhile_ne_append hinner]
      rfl

/-- What lies outside of a position is still there when the position is closed. -/
theorem sublist_closePending (h : (p :: outer).Sublist pending) :
    outer.Sublist (Recorder.closePending p pending) := by
  obtain ⟨upto, beyond, rfl, hmem, houter⟩ := List.cons_sublist_iff.1 h
  obtain ⟨inner, rest, rfl⟩ := List.append_of_mem hmem
  rw [List.append_assoc, List.cons_append, closePending_append]
  have hbeyond : outer.Sublist (rest ++ beyond) := houter.trans (List.sublist_append_right _ _)
  split
  · exact (hbeyond.cons p).trans (List.sublist_append_right _ _)
  · exact hbeyond

end

namespace Evaluations

variable {s : Evaluations} {step : EvaluationStep} {e : Evaluation} {inner outer : List Evaluation}

/-- An evaluation that completes leaves those that are outside of it. -/
theorem opened_after_completes (hopened : s.opened = inner ++ e :: outer) (he : e ∉ inner) :
    (s.after (.completes e)).opened = outer := by
  rw [after, hopened, Text.dropWhile_ne_append he]
  rfl

theorem innermostAt_iff (hopened : s.opened = inner ++ e :: outer) (he : e ∉ inner) :
    s.InnermostAt e ↔ e.position ∉ inner.map Evaluation.position := by
  have htake : s.opened.takeWhile (· ≠ e) = inner := by
    rw [hopened]
    exact Text.takeWhile_ne_append he outer
  rw [InnermostAt, htake, List.mem_map, not_exists]
  simp only [not_and]

/-- The positions move as the evaluations do, unless an evaluation completes inside of which one is
open at the same position. -/
theorem pendingAfter_positions_iff (hallowed : s.Allows step) :
    step.call.pendingAfter s.positions = (s.after step).positions ↔
      ∀ e, step = .completes e → s.InnermostAt e := by
  cases step with
  | begins p => simp [EvaluationStep.call, ProbeCall.pendingAfter, positions, after]
  | reports c =>
      have hsame : c.pendingAfter s.positions = s.positions := by
        cases c with
        | begins p => cases hallowed
        | completes p => cases hallowed
        | _ => rfl
      simp [EvaluationStep.call, hsame, after]
  | completes e =>
      obtain ⟨inner, outer, hopened, he⟩ := List.eq_append_cons_of_mem hallowed
      have hpositions : s.positions =
          inner.map Evaluation.position ++ e.position :: outer.map Evaluation.position := by
        rw [positions, hopened, List.map_append, List.map_cons]
      have hafter : (s.after (.completes e)).positions = outer.map Evaluation.position := by
        rw [positions, opened_after_completes hopened he]
      have hinnermost : (∀ x, EvaluationStep.completes e = .completes x → s.InnermostAt x) ↔
          e.position ∉ inner.map Evaluation.position := by
        rw [← innermostAt_iff hopened he]
        constructor
        · intro h
          exact h e rfl
        · rintro h x hx
          cases hx
          exact h
      rw [hinnermost, hafter, EvaluationStep.call, ProbeCall.pendingAfter, hpositions,
        closePending_append]
      split
      · next hmem =>
          refine iff_of_false ?_ (not_not_intro hmem)
          intro heq
          have hlength := congrArg List.length heq
          simp only [List.length_append, List.length_cons] at hlength
          omega
      · next hnot => exact iff_of_true rfl hnot

/-- A stack that misses no open evaluation still misses none after a step. -/
theorem sublist_pendingAfter {pending : List Position} (hallowed : s.Allows step)
    (hpending : s.positions.Sublist pending) :
    (s.after step).positions.Sublist (step.call.pendingAfter pending) := by
  cases step with
  | begins p => exact hpending.cons_cons p
  | reports c =>
      cases c with
      | begins p => cases hallowed
      | completes p => cases hallowed
      | _ => exact hpending
  | completes e =>
      obtain ⟨inner, outer, hopened, he⟩ := List.eq_append_cons_of_mem hallowed
      rw [positions, opened_after_completes hopened he]
      apply sublist_closePending
      rw [positions, hopened, List.map_append, List.map_cons] at hpending
      exact (List.sublist_append_right _ _).trans hpending

theorem forall_prefix_cons_iff {P : List EvaluationStep → Prop} {step : EvaluationStep}
    {rest : List EvaluationStep} :
    (∀ earlier, earlier <+: step :: rest → P earlier) ↔
      P [] ∧ ∀ earlier, earlier <+: rest → P (step :: earlier) := by
  constructor
  · intro h
    refine ⟨h [] (List.nil_prefix), fun earlier hearlier => h _ ?_⟩
    exact List.cons_prefix_cons.2 ⟨rfl, hearlier⟩
  · rintro ⟨hnil, hcons⟩ earlier hearlier
    rcases List.prefix_cons_iff.1 hearlier with rfl | ⟨shorter, rfl, hshorter⟩
    · exact hnil
    · exact hcons shorter hshorter

/-- The stack after the calls of some steps. -/
def stackAfter (pending : List Position) (steps : List EvaluationStep) : List Position :=
  (steps.map EvaluationStep.call).foldl ProbeCall.pendingAfter pending

theorem sublist_stackAfter {pending : List Position} {steps : List EvaluationStep}
    (hallowed : s.AllowsAll steps) (hpending : s.positions.Sublist pending) :
    ∀ earlier, earlier <+: steps →
      (s.afterAll earlier).positions.Sublist (stackAfter pending earlier) := by
  induction steps generalizing s pending with
  | nil =>
      intro earlier hearlier
      rw [List.prefix_nil.1 hearlier]
      exact hpending
  | cons step rest ih =>
      obtain ⟨hstep, hrest⟩ := hallowed
      rw [forall_prefix_cons_iff]
      exact ⟨hpending, ih hrest (sublist_pendingAfter hstep hpending)⟩

theorem stackAfter_eq_iff {steps : List EvaluationStep} (hallowed : s.AllowsAll steps) :
    (∀ earlier, earlier <+: steps →
        stackAfter s.positions earlier = (s.afterAll earlier).positions) ↔
      s.CompletesInnermost steps := by
  induction steps generalizing s with
  | nil =>
      refine iff_of_true (fun earlier hearlier => ?_) trivial
      rw [List.prefix_nil.1 hearlier]
      rfl
  | cons step rest ih =>
      obtain ⟨hstep, hrest⟩ := hallowed
      rw [forall_prefix_cons_iff, CompletesInnermost, ← ih hrest,
        ← pendingAfter_positions_iff hstep]
      constructor
      · rintro ⟨-, hlater⟩
        have hfirst : step.call.pendingAfter s.positions = (s.after step).positions :=
          hlater [] List.nil_prefix
        refine ⟨hfirst, fun earlier hearlier => ?_⟩
        rw [← hfirst]
        exact hlater earlier hearlier
      · rintro ⟨hfirst, hlater⟩
        refine ⟨rfl, fun earlier hearlier => ?_⟩
        have heq := hlater earlier hearlier
        rw [← hfirst] at heq
        exact heq

/-- Inner evaluations have greater numbers, and all numbers are used up. -/
structure Numbered (s : Evaluations) : Prop where
  lt_begun : ∀ e ∈ s.opened, e.number < s.begun
  descending : s.opened.Pairwise fun inner outer => outer.number < inner.number

theorem numbered_none : none.Numbered := ⟨by simp [none], .nil⟩

theorem suffix_after_completes (s : Evaluations) (e : Evaluation) :
    (s.after (.completes e)).opened <:+ s.opened :=
  (List.tail_suffix _).trans (List.dropWhile_suffix _)

theorem Numbered.after (hs : s.Numbered) (step : EvaluationStep) : (s.after step).Numbered := by
  cases step with
  | begins p =>
      constructor
      · intro e he
        rcases List.mem_cons.1 he with rfl | he
        · exact Nat.lt_succ_self _
        · exact Nat.lt_succ_of_lt (hs.lt_begun e he)
      · exact .cons hs.lt_begun hs.descending
  | completes e =>
      have hsuffix := suffix_after_completes s e
      exact ⟨fun x hx => hs.lt_begun x (hsuffix.subset hx),
        hs.descending.sublist hsuffix.sublist⟩
  | reports c => exact hs

theorem Numbered.afterAll (hs : s.Numbered) (steps : List EvaluationStep) :
    (s.afterAll steps).Numbered := by
  induction steps generalizing s with
  | nil => exact hs
  | cons step rest ih => exact ih (hs.after step)

/-- As long as an evaluation is open, what was open when it began is right outside of it. -/
theorem opened_of_mem {outer : List Evaluation} (hs : s.Numbered)
    (he : e.number < s.begun) (houter : ∀ x ∈ outer, x.number < e.number)
    (hopened : (∃ inner, s.opened = inner ++ e :: outer) ∨ e ∉ s.opened)
    (steps : List EvaluationStep) (hmem : e ∈ (s.afterAll steps).opened) :
    ∃ inner, (s.afterAll steps).opened = inner ++ e :: outer := by
  induction steps generalizing s with
  | nil =>
      rcases hopened with hopened | hclosed
      · exact hopened
      · exact absurd hmem hclosed
  | cons step rest ih =>
      have hnot : e ∉ outer := fun h => Nat.lt_irrefl _ (houter e h)
      cases step with
      | begins p =>
          refine ih (hs.after (.begins p)) (Nat.lt_succ_of_lt he) ?_ hmem
          rcases hopened with ⟨inner, hopened⟩ | hclosed
          · exact Or.inl ⟨⟨s.begun, p⟩ :: inner, congrArg (List.cons _) hopened⟩
          · refine Or.inr fun h => ?_
            rcases List.mem_cons.1 h with rfl | h
            · exact Nat.lt_irrefl _ he
            · exact hclosed h
      | reports c => exact ih hs he hopened hmem
      | completes x =>
          refine ih (hs.after (.completes x)) he ?_ hmem
          have hsuffix := suffix_after_completes s x
          rcases hopened with ⟨inner, hopened⟩ | hclosed
          · -- The cut falls inside of `e`, right at `e`, or outside of it; then `e` is gone for good.
            rw [hopened] at hsuffix
            obtain ⟨gone, heq⟩ := hsuffix
            rcases List.append_eq_append_iff.1 heq with ⟨kept, -, hkept⟩ | ⟨lost, -, hlost⟩
            · exact Or.inl ⟨kept, hkept⟩
            · rcases List.cons_eq_append_iff.1 hlost with ⟨-, hall⟩ | ⟨lost', -, hpart⟩
              · exact Or.inl ⟨[], hall⟩
              · exact Or.inr fun h => hnot (hpart ▸ List.mem_append_right lost' h)
          · exact Or.inr fun h => hclosed (hsuffix.subset h)

/-- Completing an evaluation leaves open just what was open before it began. -/
theorem opened_restored (hs : s.Numbered) (p : Position) (between : List EvaluationStep)
    (hmem : ⟨s.begun, p⟩ ∈ ((s.after (.begins p)).afterAll between).opened) :
    (((s.after (.begins p)).afterAll between).after (.completes ⟨s.begun, p⟩)).opened =
      s.opened := by
  obtain ⟨inner, hopened⟩ := opened_of_mem (hs.after (.begins p)) (Nat.lt_succ_self s.begun)
    hs.lt_begun (Or.inl ⟨[], rfl⟩) between hmem
  apply opened_after_completes hopened
  intro hinner
  have hdescending := ((hs.after (.begins p)).afterAll between).descending
  rw [hopened] at hdescending
  exact Nat.lt_irrefl _ ((List.pairwise_append.1 hdescending).2.2 _ hinner _ List.mem_cons_self)

theorem pending_recorderAfter (steps : List EvaluationStep) :
    (recorderAfter steps).pending = stackAfter none.positions steps :=
  Recorder.pending_recordAll _ _

theorem allowsAll_append_iff {earlier later : List EvaluationStep} :
    s.AllowsAll (earlier ++ later) ↔
      s.AllowsAll earlier ∧ (s.afterAll earlier).AllowsAll later := by
  induction earlier generalizing s with
  | nil => exact ⟨fun h => ⟨trivial, h⟩, fun h => h.2⟩
  | cons step rest ih =>
      rw [List.cons_append, AllowsAll, AllowsAll, ih, and_assoc]
      rfl

/-- The recorder misses no open evaluation.  It holds just the open ones, at every point of some
steps, if and only if no evaluation completes while one inside of it is open at the same position.
Then the innermost evaluation is the one that the recorder names, and an evaluation that completes
leaves the recorder's stack as it was before it began. -/
theorem pending_tracks_evaluations_iff {steps : List EvaluationStep}
    (hallowed : none.AllowsAll steps) :
    (∀ earlier, earlier <+: steps →
      (none.afterAll earlier).positions.Sublist (recorderAfter earlier).pending) ∧
    ((∀ earlier, earlier <+: steps →
        (recorderAfter earlier).pending = (none.afterAll earlier).positions) ↔
      none.CompletesInnermost steps) ∧
    (none.CompletesInnermost steps →
      (∀ earlier, earlier <+: steps → (recorderAfter earlier).innermost? =
        (none.afterAll earlier).opened.head?.map Evaluation.position) ∧
      ∀ (before between : List EvaluationStep) (p : Position),
        before ++ .begins p :: between ++ [.completes ⟨(none.afterAll before).begun, p⟩] <+: steps →
        (recorderAfter (before ++ .begins p :: between ++
          [.completes ⟨(none.afterAll before).begun, p⟩])).pending =
            (recorderAfter before).pending) := by
  have hiff : (∀ earlier, earlier <+: steps →
      (recorderAfter earlier).pending = (none.afterAll earlier).positions) ↔
        none.CompletesInnermost steps := by
    simp only [pending_recorderAfter]
    exact stackAfter_eq_iff hallowed
  refine ⟨?_, hiff, ?_⟩
  · simp only [pending_recorderAfter]
    exact sublist_stackAfter hallowed (List.Sublist.refl _)
  · intro hinnermost
    have htracks := hiff.2 hinnermost
    constructor
    · intro earlier hearlier
      rw [Recorder.innermost?, htracks earlier hearlier, positions, List.head?_map]
    · intro before between p hprefix
      have hbefore : before <+: steps := by
        rw [List.append_assoc] at hprefix
        exact (List.prefix_append before _).trans hprefix
      obtain ⟨later, rfl⟩ := hprefix
      have hmem := (allowsAll_append_iff.1 (allowsAll_append_iff.1 hallowed).1).2.1
      rw [htracks _ (List.prefix_append _ _), htracks before hbefore]
      simp only [afterAll, List.foldl_append, List.foldl_cons, List.foldl_nil] at hmem ⊢
      exact congrArg (List.map Evaluation.position)
        (opened_restored (numbered_none.afterAll before) p between hmem)

end Evaluations

namespace EvaluationsWitness

open Evaluations

def place : Position := ⟨⟨0⟩, 1, 1⟩

def other : Position := ⟨⟨0⟩, 2, 1⟩

/-- A recursion whose inner evaluation completes first.  Another evaluation is then abandoned before
the outer one completes. -/
def orderly : List EvaluationStep :=
  [.begins place, .begins place, .completes ⟨1, place⟩, .begins other, .completes ⟨0, place⟩]

theorem pending_tracks_evaluations_iff_orderly :
    none.AllowsAll orderly ∧ none.CompletesInnermost orderly ∧
      (recorderAfter orderly).pending = [] := by
  have hallowed : none.AllowsAll orderly :=
    ⟨trivial, trivial, by decide, trivial, by decide, trivial⟩
  have hinnermost : none.CompletesInnermost orderly := by
    refine ⟨?_, ?_, ?_, ?_, ?_, trivial⟩ <;> rintro e ⟨⟩
    all_goals
      unfold InnermostAt
      decide
  exact ⟨hallowed, hinnermost,
    (pending_tracks_evaluations_iff hallowed).2.1.2 hinnermost orderly (List.prefix_refl _)⟩

/-- A recursion whose inner evaluation is abandoned, and whose outer one then completes. -/
def caught : List EvaluationStep := [.begins place, .begins place, .completes ⟨0, place⟩]

/-- The code of such a recursion, which fails later on. -/
def recursing : Module :=
  caught.map (fun step => .run (.call step.call)) ++ [.run (.fail (.ofMessage "later"))]

/-- With nothing open, an evaluation that has completed is still pending and is charged with a later
failure. -/
theorem completed_evaluation_stays_pending :
    none.AllowsAll caught ∧ (none.afterAll caught).opened = [] ∧
      (recorderAfter caught).pending = [place] ∧
      (recorderAfter caught).innermost? = some place ∧
      ∃ o, (execute .none .empty ⟨"code", .none, [], ⟨"t.ts"⟩⟩ recursing).result = .ok o ∧
        o.errors.map ThrownError.site = [.probe place] :=
  ⟨⟨trivial, trivial, by decide, trivial⟩, by decide, by decide, by decide, _, rfl, rfl⟩

end EvaluationsWitness

end LiveTest
