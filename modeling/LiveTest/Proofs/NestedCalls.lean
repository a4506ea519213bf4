import LiveTest.Proofs.Execution
import LiveTest.Proofs.UnitRuns
/-!
Units whose calls nest.  The recorder looks for a completed position in its stack and drops
everything above it.  Where each completion is that of the expression begun last, this is a plain
stack: the calls of a unit move its own expressions only and leave alone what lies below them.  If
passing units finish all that they begin, then nothing lies below, and a failure is charged as if
its unit had run alone.
-/

namespace LiveTest

/-- The open expressions after a call, the innermost first.  There are none if the call completes
anything but the innermost. -/
def ProbeCall.openAfter? (opened : List Position) : ProbeCall → Option (List Position)
  | .begins p => some (p :: opened)
  | .completes p => if opened.head? = some p then some opened.tail else none
  | _ => some opened

namespace UnitRun

/-- The expressions that the unit began and did not finish, if its calls nest. -/
def open? (u : UnitRun) : Option (List Position) := u.calls.foldlM ProbeCall.openAfter? []

/-- The calls nest, and a unit that passes finishes all that it began. -/
def Nested (u : UnitRun) : Prop :=
  u.open?.isSome = true ∧ (u.failure.isNone = true → u.open? = some [])

instance (u : UnitRun) : Decidable u.Nested := by unfold Nested; infer_instance

/-- The errors of the unit, from what it did itself. -/
def ownErrors (u : UnitRun) : List ThrownError := u.errorsAt (u.open?.bind List.head?)

end UnitRun

/-- A nested call does to the whole stack what it does to the unit's own part of it. -/
theorem ProbeCall.pendingAfter_append {c : ProbeCall} {opened next : List Position}
    (h : c.openAfter? opened = some next) (below : List Position) :
    c.pendingAfter (opened ++ below) = next ++ below := by
  cases c with
  | begins p =>
      cases h
      rfl
  | completes p =>
      rw [openAfter?] at h
      split at h
      · next hhead =>
          obtain ⟨outer, rfl⟩ := List.head?_eq_some_iff.1 hhead
          cases h
          simp [pendingAfter, Recorder.closePending]
      · cases h
  | _ =>
      cases h
      rfl

theorem foldl_pendingAfter_append {calls : List ProbeCall} {opened left : List Position}
    (h : calls.foldlM ProbeCall.openAfter? opened = some left) (below : List Position) :
    calls.foldl ProbeCall.pendingAfter (opened ++ below) = left ++ below := by
  induction calls generalizing opened with
  | nil =>
      cases h
      rfl
  | cons c rest ih =>
      rw [List.foldlM_cons] at h
      obtain ⟨next, hnext, hrest⟩ := Option.bind_eq_some_iff.1 h
      rw [List.foldl_cons, c.pendingAfter_append hnext]
      exact ih hrest

namespace UnitRun

/-- A nested unit that starts with nothing pending has its own open expressions pending. -/
theorem pending_of_open? {u : UnitRun} (hstart : u.start.pending = [])
    {opened : List Position} (hopen : u.open? = some opened) : u.pending = opened := by
  have hpending := foldl_pendingAfter_append hopen []
  rw [List.append_nil, List.append_nil] at hpending
  rw [pending, hstart, hpending]

theorem errors_eq_ownErrors {u : UnitRun} (hnested : u.Nested)
    (hstart : u.start.pending = []) : u.errors = u.ownErrors := by
  obtain ⟨opened, hopen⟩ := Option.isSome_iff_exists.1 hnested.1
  rw [errors, ownErrors, pending_of_open? hstart hopen, hopen, Option.bind_some]

/-- Nothing is left for the next unit: a passing unit finished everything, and a failed one is cut
back to where it started. -/
theorem left_eq_nil {u : UnitRun} (hnested : u.Nested) (hstart : u.start.pending = []) :
    u.left = [] := by
  rw [left]
  split
  · next hnone =>
      exact pending_of_open? hstart (hnested.2 (by rw [hnone]; rfl))
  · rw [hstart, List.length_nil, Nat.sub_zero, List.drop_length]

end UnitRun

/-- Among nested units, every one starts with nothing pending if the first does. -/
theorem Linked.start_pending_eq_nil {r : Recorder} {units : List UnitRun}
    (hlinked : Linked r units) (hr : r.pending = []) (hnested : ∀ u ∈ units, u.Nested) :
    ∀ u ∈ units, u.start.pending = [] := by
  induction units generalizing r with
  | nil => simp
  | cons u rest ih =>
      obtain ⟨rfl, hclosed, hrest⟩ := hlinked
      obtain ⟨hhead, htail⟩ := List.forall_mem_cons.1 hnested
      have hleft : u.finished.recorder.pending = [] := by
        rw [hclosed.pending]
        exact u.left_eq_nil hhead hr
      exact List.forall_mem_cons.2 ⟨hr, ih hrest hleft htail⟩

/-- In a run of nested units nothing is pending when a unit starts, and every unit is charged with
what its own calls and its own failure make of it, in the order of the units. -/
theorem errors_of_nested {persistDir : Option Path} {tree : FileTree} {build : Build}
    {m : Module} {o : RunOutcome} (hbuild : build.errors = [])
    (hnested : ∀ u ∈ m.units (.ofText build.code), u.Nested)
    (hrun : (execute persistDir tree build m).result = .ok o) :
    (∀ u ∈ m.units (.ofText build.code), u.start.pending = []) ∧
      o.errors = (m.units (.ofText build.code)).flatMap UnitRun.ownErrors := by
  have hstart := (m.linked_units (.ofText build.code)).start_pending_eq_nil rfl hnested
  refine ⟨hstart, ?_⟩
  rcases execute_of_no_errors hbuild with ⟨err, -, herror⟩ | ⟨codePath, hfinished⟩
  · rw [herror] at hrun
    cases hrun
  · rw [hfinished] at hrun
    cases hrun
    rw [(runLoaded_units build codePath m).2]
    exact List.flatMap_congr fun u hu => u.errors_eq_ownErrors (hnested u hu) (hstart u hu)

namespace NestedCallsWitness

def build : Build := ⟨"code", none, [], ⟨"t.ts"⟩⟩

def outer : Position := ⟨⟨0⟩, 1, 1⟩

def inner : Position := ⟨⟨0⟩, 2, 1⟩

/-- The first test fails at the second level of a recursion, the second one after it has finished
an expression at the same position. -/
def recursive : Module :=
  [.register ⟨"first", false, [.call (.begins outer), .call (.begins inner),
      .call (.begins outer), .call (.begins inner), .call (.completes inner), .panic none]⟩,
    .register ⟨"second", false, [.call (.begins inner), .call (.begins outer),
      .call (.completes outer), .fail (.ofMessage "second")]⟩]

theorem errors_of_nested_recursive :
    (∀ u ∈ recursive.units (.ofText build.code), u.Nested) ∧
    ∃ o, (execute none .empty build recursive).result = .ok o ∧
      (o.errors.map fun e => (e.unit, e.site)) =
        [(.test 0, .probe outer), (.test 1, .probe inner)] := by
  have hnested : ∀ u ∈ recursive.units (.ofText build.code), u.Nested := by decide
  obtain ⟨o, hrun⟩ : ∃ o, (execute none .empty build recursive).result = .ok o := ⟨_, rfl⟩
  refine ⟨hnested, o, hrun, ?_⟩
  rw [(errors_of_nested rfl hnested hrun).2]
  decide

end NestedCallsWitness

end LiveTest
