import LiveTest.Proofs.UnitRuns
/-!
Which unit began the expressions that are pending.  The recorder keeps positions only; here every
pending expression also carries its unit, next to the recorder's own stack and moving as it does.  A
failed unit is cut back to the depth at which it started.  That removes what it began and did not
finish, unless it first finished expressions older than itself: the main statement says exactly when
something of its own stays behind, and what the errors of later units are charged to if nothing
ever does.
-/

namespace LiveTest

/-- A pending expression with the unit that began it. -/
structure Begun where
  unit : UnitIndex
  position : Position
deriving DecidableEq

namespace Begun

/-- Finish the innermost of the pending expressions at `p`, and all begun after it. -/
def close (p : Position) (stack : List Begun) : List Begun :=
  if p ∈ stack.map position then (stack.dropWhile fun b => b.position ≠ p).tail else stack

/-- What is pending after a call of a unit. -/
def afterCall (unit : UnitIndex) (stack : List Begun) : ProbeCall → List Begun
  | .begins p => ⟨unit, p⟩ :: stack
  | .completes p => close p stack
  | _ => stack

theorem close_suffix (p : Position) (stack : List Begun) : close p stack <:+ stack := by
  rw [close]
  split
  · exact (List.tail_suffix _).trans (List.dropWhile_suffix _)
  · exact List.suffix_refl stack

theorem map_position_close (p : Position) (stack : List Begun) :
    (close p stack).map position = Recorder.closePending p (stack.map position) := by
  rw [close, Recorder.closePending]
  split
  · rw [List.map_tail, List.dropWhile_map]
    rfl
  · rfl

/-- Without the units this is the recorder's stack. -/
theorem map_position_foldl_afterCall (unit : UnitIndex) (stack : List Begun)
    (calls : List ProbeCall) :
    (calls.foldl (afterCall unit) stack).map position =
      calls.foldl ProbeCall.pendingAfter (stack.map position) := by
  induction calls generalizing stack with
  | nil => rfl
  | cons c rest ih =>
      rw [List.foldl_cons, ih, List.foldl_cons]
      cases c with
      | completes p => rw [afterCall, map_position_close, ProbeCall.pendingAfter]
      | _ => rfl

/-- The expressions that a unit began lie on top of some that it found pending. -/
def OnTop (unit : UnitIndex) (found stack : List Begun) : Prop :=
  ∃ own older, stack = own ++ older ∧ (∀ b ∈ own, b.unit = unit) ∧ older <:+ found

section OnTop

variable {unit : UnitIndex} {found stack : List Begun}

theorem onTop_self (unit : UnitIndex) (found : List Begun) : OnTop unit found found :=
  ⟨[], found, rfl, fun _ hb => absurd hb List.not_mem_nil, List.suffix_refl found⟩

theorem OnTop.cons (h : OnTop unit found stack) (p : Position) :
    OnTop unit found (⟨unit, p⟩ :: stack) := by
  obtain ⟨own, older, rfl, hown, holder⟩ := h
  exact ⟨⟨unit, p⟩ :: own, older, rfl, List.forall_mem_cons.2 ⟨rfl, hown⟩, holder⟩

/-- Finishing expressions and cutting the stack both leave its outer part. -/
theorem OnTop.of_suffix (h : OnTop unit found stack) {rest : List Begun}
    (hrest : rest <:+ stack) : OnTop unit found rest := by
  obtain ⟨own, older, rfl, hown, holder⟩ := h
  obtain ⟨gone, heq⟩ := hrest
  rcases List.append_eq_append_iff.1 heq with ⟨kept, hkept, rfl⟩ | ⟨lost, -, rfl⟩
  · refine ⟨kept, older, rfl, fun b hb => hown b ?_, holder⟩
    rw [hkept]
    exact List.mem_append_right gone hb
  · exact ⟨[], rest, rfl, fun _ hb => absurd hb List.not_mem_nil,
      (List.suffix_append lost rest).trans holder⟩

theorem OnTop.foldl_afterCall (h : OnTop unit found stack) (calls : List ProbeCall) :
    OnTop unit found (calls.foldl (afterCall unit) stack) := by
  induction calls generalizing stack with
  | nil => exact h
  | cons c rest ih =>
      rw [List.foldl_cons]
      apply ih
      cases c with
      | begins p => exact h.cons p
      | completes p => exact h.of_suffix (close_suffix p stack)
      | _ => exact h

theorem OnTop.mem {b : Begun} (h : OnTop unit found stack) (hb : b ∈ stack) :
    b.unit = unit ∨ b ∈ found := by
  obtain ⟨own, older, rfl, hown, holder⟩ := h
  rcases List.mem_append.1 hb with hb | hb
  · exact Or.inl (hown b hb)
  · exact Or.inr (holder.subset hb)

/-- The outer part of the stack, as deep as the found one, has nothing of the unit's own exactly if
the unit has nothing of its own at all, or everything that it found is still there. -/
theorem OnTop.drop_suffix_iff (h : OnTop unit found stack)
    (hfresh : ∀ b ∈ found, b.unit ≠ unit) :
    stack.drop (stack.length - found.length) <:+ found ↔
      (∀ b ∈ stack, b.unit ≠ unit) ∨ found <:+ stack := by
  obtain ⟨own, older, rfl, hown, holder⟩ := h
  constructor
  · intro hdrop
    rcases List.eq_nil_or_concat own with rfl | ⟨inner, b, rfl⟩
    · exact Or.inl fun b hb => hfresh b (holder.subset hb)
    · right
      by_cases hlength : found.length ≤ older.length
      · rw [← holder.eq_of_length_le hlength]
        exact List.suffix_append _ older
      · -- The outermost own expression would be below the cut, among those that were found.
        have hstack : b :: older <:+ inner.concat b ++ older :=
          ⟨inner, by rw [List.concat_eq_append, List.append_assoc, List.singleton_append]⟩
        have hcut : b :: older <:+ (inner.concat b ++ older).drop
            ((inner.concat b ++ older).length - found.length) := by
          refine List.suffix_of_suffix_length_le hstack (List.drop_suffix _ _) ?_
          simp only [List.length_cons, List.length_drop, List.length_append, List.length_concat]
          omega
        have hmem : b ∈ found := hdrop.subset (hcut.subset List.mem_cons_self)
        have hunit : b.unit = unit := hown b (by simp)
        exact absurd hunit (hfresh b hmem)
  · rintro (hnone | hkept)
    · have hnil : own = [] := by
        rw [List.eq_nil_iff_forall_not_mem]
        intro b hb
        exact hnone b (List.mem_append_left older hb) (hown b hb)
      subst hnil
      exact (List.drop_suffix _ _).trans holder
    · exact ⟨[], (List.suffix_iff_eq_drop.1 hkept).symm⟩

end OnTop

end Begun

/-- A unit with what the units before it left pending. -/
structure Heir where
  run : UnitRun
  inherited : List Begun

namespace Heir

/-- What is pending when the unit ends. -/
def pending (h : Heir) : List Begun :=
  h.run.calls.foldl (Begun.afterCall h.run.unit) h.inherited

/-- What the unit leaves pending: after a failure, the outermost expressions up to the depth that
it started at. -/
def left (h : Heir) : List Begun :=
  match h.run.failure with
  | none => h.pending
  | some _ => h.pending.drop (h.pending.length - h.inherited.length)

/-- The unit finished all that it began. -/
def FinishesOwn (h : Heir) : Prop := ∀ b ∈ h.pending, b.unit ≠ h.run.unit

/-- The unit finished nothing that it inherited. -/
def KeepsInherited (h : Heir) : Prop := h.inherited <:+ h.pending

/-- The stacks are those of the recorder, before the unit, at its end and after it. -/
structure Faithful (h : Heir) : Prop where
  inherited : h.inherited.map Begun.position = h.run.start.pending
  pending : h.pending.map Begun.position = h.run.pending
  left : h.left.map Begun.position = h.run.finished.recorder.pending

theorem faithful_of_inherited {h : Heir} (hclosed : h.run.Closed)
    (hinherited : h.inherited.map Begun.position = h.run.start.pending) : h.Faithful := by
  have hpending : h.pending.map Begun.position = h.run.pending := by
    rw [Heir.pending, Begun.map_position_foldl_afterCall, hinherited, UnitRun.pending]
  refine ⟨hinherited, hpending, ?_⟩
  rw [hclosed.pending, Heir.left, UnitRun.left]
  cases h.run.failure with
  | none => exact hpending
  | some f =>
      rw [List.map_drop, hpending, ← hinherited, List.length_map, ← hpending, List.length_map]

theorem onTop_pending (h : Heir) : Begun.OnTop h.run.unit h.inherited h.pending :=
  (Begun.onTop_self _ _).foldl_afterCall _

theorem onTop_left (h : Heir) : Begun.OnTop h.run.unit h.inherited h.left := by
  rw [Heir.left]
  split
  · exact h.onTop_pending
  · exact h.onTop_pending.of_suffix (List.drop_suffix _ _)

end Heir

/-- Units with what each inherits from those before it. -/
def heirs (inherited : List Begun) : List UnitRun → List Heir
  | [] => []
  | u :: rest =>
    let h : Heir := ⟨u, inherited⟩
    h :: heirs h.left rest

theorem faithful_heirs {r : Recorder} {inherited : List Begun} {units : List UnitRun}
    (hlinked : Linked r units) (hinherited : inherited.map Begun.position = r.pending) :
    ∀ h ∈ heirs inherited units, h.Faithful := by
  induction units generalizing r inherited with
  | nil => simp [heirs]
  | cons u rest ih =>
      obtain ⟨hstart, hclosed, hrest⟩ := hlinked
      have hhead : Heir.Faithful ⟨u, inherited⟩ :=
        Heir.faithful_of_inherited hclosed (by rw [hstart]; exact hinherited)
      exact List.forall_mem_cons.2 ⟨hhead, ih hrest hhead.left⟩

/-- What a unit inherits was begun by others. -/
theorem unit_ne_of_mem_inherited {inherited : List Begun} {units : List UnitRun}
    (hunits : units.Pairwise fun u v => u.unit ≠ v.unit)
    (hothers : ∀ b ∈ inherited, ∀ u ∈ units, b.unit ≠ u.unit) :
    ∀ h ∈ heirs inherited units, ∀ b ∈ h.inherited, b.unit ≠ h.run.unit := by
  induction units generalizing inherited with
  | nil => simp [heirs]
  | cons u rest ih =>
      obtain ⟨hfirst, hrest⟩ := List.pairwise_cons.1 hunits
      refine List.forall_mem_cons.2 ⟨fun b hb => hothers b hb u List.mem_cons_self, ?_⟩
      apply ih hrest
      intro b hb v hv
      rcases (Heir.onTop_left ⟨u, inherited⟩).mem hb with hunit | hb
      · rw [hunit]
        exact hfirst v hv
      · exact hothers b hb v (List.mem_cons_of_mem u hv)

/-- If no failed unit leaves anything of its own, then whatever is inherited was begun by a unit
that passed. -/
theorem passed_of_mem_inherited (passed : UnitIndex → Prop) {inherited : List Begun}
    {units : List UnitRun} (hinherited : ∀ b ∈ inherited, passed b.unit)
    (hpassed : ∀ u ∈ units, u.failure = none → passed u.unit)
    (hclean : ∀ h ∈ heirs inherited units, h.run.failure.isSome = true →
      h.left <:+ h.inherited) :
    ∀ h ∈ heirs inherited units, ∀ b ∈ h.inherited, passed b.unit := by
  induction units generalizing inherited with
  | nil => simp [heirs]
  | cons u rest ih =>
      obtain ⟨hhead, htail⟩ := List.forall_mem_cons.1 hclean
      obtain ⟨hfirst, hrest⟩ := List.forall_mem_cons.1 hpassed
      refine List.forall_mem_cons.2 ⟨hinherited, ih ?_ hrest htail⟩
      intro b hb
      cases hfailure : u.failure with
      | none =>
          rcases (Heir.onTop_left ⟨u, inherited⟩).mem hb with hunit | hb
          · rw [hunit]
            exact hfirst hfailure
          · exact hinherited b hb
      | some f =>
          have hsuffix := hhead (by simp [hfailure])
          exact hinherited b (hsuffix.subset hb)

/-- The units of a run with what they inherit. -/
def Module.heirs (index : OffsetIndex) (m : Module) : List Heir :=
  LiveTest.heirs [] (m.units index)

/-- The unit ran and passed. -/
def Module.Passed (index : OffsetIndex) (m : Module) (unit : UnitIndex) : Prop :=
  ∃ u ∈ m.units index, u.unit = unit ∧ u.failure = none

/-- What a failed unit leaves pending was all there before it exactly if it finished all that it
began or finished nothing older.  If that is so of every failed unit of a run, then whatever is
pending at any time was begun by the unit that is running or by one that passed, so that no failure
is charged to what an earlier failed unit abandoned. -/
theorem failed_units_leave_only_inherited_iff (index : OffsetIndex) (m : Module) :
    (∀ h ∈ m.heirs index, h.Faithful ∧
      (h.run.failure.isSome = true →
        (h.left <:+ h.inherited ↔ h.FinishesOwn ∨ h.KeepsInherited))) ∧
    ((∀ h ∈ m.heirs index, h.run.failure.isSome = true →
        h.FinishesOwn ∨ h.KeepsInherited) →
      ∀ h ∈ m.heirs index, ∀ b ∈ h.pending,
        b.unit = h.run.unit ∨ m.Passed index b.unit) := by
  have hfaithful : ∀ h ∈ m.heirs index, h.Faithful :=
    faithful_heirs (m.linked_units index) rfl
  have hothers : ∀ h ∈ m.heirs index, ∀ b ∈ h.inherited, b.unit ≠ h.run.unit :=
    unit_ne_of_mem_inherited (m.pairwise_units index) fun _ hb => absurd hb List.not_mem_nil
  have hiff : ∀ h ∈ m.heirs index, h.run.failure.isSome = true →
      (h.left <:+ h.inherited ↔ h.FinishesOwn ∨ h.KeepsInherited) := by
    intro h hh hfailed
    obtain ⟨f, hf⟩ := Option.isSome_iff_exists.1 hfailed
    simp only [Heir.left, hf]
    exact h.onTop_pending.drop_suffix_iff (hothers h hh)
  refine ⟨fun h hh => ⟨hfaithful h hh, hiff h hh⟩, ?_⟩
  intro hclean h hh b hb
  have hinherited : ∀ h ∈ m.heirs index, ∀ b ∈ h.inherited, m.Passed index b.unit := by
    apply passed_of_mem_inherited (m.Passed index)
    · exact fun _ hb => absurd hb List.not_mem_nil
    · exact fun u hu hnone => ⟨u, hu, rfl, hnone⟩
    · exact fun h hh hfailed => (hiff h hh hfailed).2 (hclean h hh hfailed)
  rcases h.onTop_pending.mem hb with hunit | hb
  · exact Or.inl hunit
  · exact Or.inr (hinherited h hh b hb)

namespace AbandonedExpressionsWitness

def build : Build := ⟨"code", none, [], ⟨"t.ts"⟩⟩

def older : Position := ⟨⟨0⟩, 1, 1⟩

def abandoned : Position := ⟨⟨0⟩, 2, 1⟩

/-- The first test finishes what the top-level code began, begins an expression of its own and
fails; the second test begins nothing. -/
def abandoning : Module :=
  [.run (.call (.begins older)),
    .register ⟨"first", false, [.call (.completes older), .call (.begins abandoned),
      .fail (.ofMessage "first")]⟩,
    .register ⟨"second", false, [.fail (.ofMessage "second")]⟩]

/-- The failure of the second test is charged to what the first test abandoned. -/
theorem failed_unit_leaves_its_own :
    (∃ u ∈ abandoning.units (.ofText build.code), u.failure.isSome = true ∧
      ¬ u.finished.recorder.pending <:+ u.start.pending) ∧
    ∃ o, (execute none .empty build abandoning).result = .ok o ∧
      (o.errors.map fun e => (e.message, e.unit, e.site)) =
        [("first", .test 0, .probe abandoned), ("second", .test 1, .probe abandoned)] := by
  refine ⟨⟨_, List.mem_cons_of_mem _ List.mem_cons_self, rfl, by decide⟩, _, rfl, rfl⟩

end AbandonedExpressionsWitness

end LiveTest
