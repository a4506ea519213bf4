import LiveTest.Proofs.Lookup
import LiveTest.Run
/-!
What code under test does, told without running it: the calls it makes before it ends, the tests it
registers, and the failure that ends it.  Playing the code comes to the same, and a recorder holds
just what the calls say: the trace and the log in their order, for every file the first name and
all spans.
-/

namespace LiveTest

namespace Action

def call? : Action → Option ProbeCall
  | .call c => some c
  | _ => none

/-- The failure that an action ends its unit with. -/
def failure? : Action → Option Failure
  | .check c => c.failure?
  | .fail f => some f
  | .panic text => some (.ofPanic text)
  | _ => none

end Action

/-- The calls of code: those before the first action that fails. -/
def callsOf (body : List Action) : List ProbeCall :=
  (body.takeWhile fun a => a.failure?.isNone).filterMap Action.call?

/-- The failure that code ends with, whether it returns it or panics. -/
def failureOf (body : List Action) : Option Failure := body.findSome? Action.failure?

namespace SetupAction

def call? : SetupAction → Option ProbeCall
  | .run a => a.call?
  | _ => none

def test? : SetupAction → Option RegisteredTest
  | .register test => some test
  | _ => none

/-- The failure that a top-level action ends the loading with.  An offset too large to be counted
on from panics. -/
def failure? (index : OffsetIndex) : SetupAction → Option Failure
  | .run a => a.failure?
  | .resolve offset =>
    if (index.resolve? offset).isNone then
      some (.ofPanic (some "attempt to add with overflow"))
    else none
  | _ => none

end SetupAction

namespace Module

/-- The top-level actions before the first that fails. -/
def performed (index : OffsetIndex) (m : Module) : List SetupAction :=
  m.takeWhile fun a => (a.failure? index).isNone

def calls (index : OffsetIndex) (m : Module) : List ProbeCall :=
  (m.performed index).filterMap SetupAction.call?

/-- The tests registered before the loading ended. -/
def registered (index : OffsetIndex) (m : Module) : List RegisteredTest :=
  (m.performed index).filterMap SetupAction.test?

def failure? (index : OffsetIndex) (m : Module) : Option Failure :=
  m.findSome? (SetupAction.failure? index)

/-- The tests that run: the focused ones if there are any, or else all. -/
def selected (index : OffsetIndex) (m : Module) : List RegisteredTest :=
  let tests := m.registered index
  if ∃ test ∈ tests, test.focused = true then tests.filter RegisteredTest.focused else tests

/-- The calls of a whole run: those of the top-level code, then those of each test. -/
def runCalls (index : OffsetIndex) (m : Module) : List ProbeCall :=
  m.calls index ++ (m.selected index).flatMap fun test => callsOf test.body

end Module

namespace ProbeCall

/-- What a call adds to the trace. -/
def entry? : ProbeCall → Option TraceEntry
  | .completes p => some (.point p)
  | .enters s => some (.span s)
  | _ => none

def log? : ProbeCall → Option CodeLog
  | .logs p text => some ⟨p, text⟩
  | _ => none

/-- The name that a call registers for a handle. -/
def name? (handle : FileHandle) : ProbeCall → Option Path
  | .registerFile h name => if handle = h then some name else none
  | _ => none

/-- The spans that a call registers for a handle. -/
def spans? (handle : FileHandle) : ProbeCall → Option (List Span)
  | .registerCatalog h spans => if handle = h then some spans else none
  | _ => none

end ProbeCall

/-- The spans registered for a handle in any number of calls, if there is such a call. -/
def catalogOf (handle : FileHandle) (calls : List ProbeCall) : Option (List Span) :=
  match calls.filterMap (ProbeCall.spans? handle) with
  | [] => none
  | registered => some registered.flatten

namespace Recorder

/-- The state after some reports. -/
def recordAll (r : Recorder) (calls : List ProbeCall) : Recorder := calls.foldl record r

@[simp] theorem recordAll_nil (r : Recorder) : r.recordAll [] = r := rfl

@[simp] theorem recordAll_cons (r : Recorder) (c : ProbeCall) (calls : List ProbeCall) :
    r.recordAll (c :: calls) = (r.record c).recordAll calls := rfl

theorem recordAll_append (r : Recorder) (first later : List ProbeCall) :
    r.recordAll (first ++ later) = (r.recordAll first).recordAll later :=
  List.foldl_append

theorem trace_record (r : Recorder) (c : ProbeCall) :
    (r.record c).trace = r.trace ++ c.entry?.toList := by
  cases c <;> simp [record, ProbeCall.entry?]

theorem logs_record (r : Recorder) (c : ProbeCall) :
    (r.record c).logs = r.logs ++ c.log?.toList := by
  cases c <;> simp [record, ProbeCall.log?]

theorem get?_files_record (r : Recorder) (c : ProbeCall) (handle : FileHandle) :
    (r.record c).files.get? handle = (r.files.get? handle).or (c.name? handle) := by
  cases c with
  | registerFile h name =>
      rw [record, SortedMap.get?_insertIfNew, ProbeCall.name?]
      simp only [Key.same_fileHandle_iff]
      by_cases hsame : handle = h
      · cases hfile : r.files.get? handle <;> simp [hsame, ← hfile]
      · simp [hsame]
  | _ => simp [record, ProbeCall.name?]

/-- Add spans to those that a file has. -/
def addSpans (old : Option (List Span)) (spans : List Span) : Option (List Span) :=
  some (old.getD [] ++ spans)

theorem get?_catalog_record (r : Recorder) (c : ProbeCall) (handle : FileHandle) :
    (r.record c).catalog.get? handle =
      (c.spans? handle).toList.foldl addSpans (r.catalog.get? handle) := by
  cases c with
  | registerCatalog h spans =>
      rw [record, SortedMap.get?_upsert, ProbeCall.spans?]
      simp only [Key.same_fileHandle_iff]
      by_cases hsame : handle = h
      · simp [hsame, addSpans]
      · simp [hsame]
  | _ => simp [record, ProbeCall.spans?]

theorem trace_recordAll (r : Recorder) (calls : List ProbeCall) :
    (r.recordAll calls).trace = r.trace ++ calls.filterMap ProbeCall.entry? := by
  induction calls generalizing r with
  | nil => simp
  | cons c rest ih =>
      rw [recordAll_cons, ih, trace_record, List.append_assoc]
      cases hentry : c.entry? <;> simp [hentry]

theorem logs_recordAll (r : Recorder) (calls : List ProbeCall) :
    (r.recordAll calls).logs = r.logs ++ calls.filterMap ProbeCall.log? := by
  induction calls generalizing r with
  | nil => simp
  | cons c rest ih =>
      rw [recordAll_cons, ih, logs_record, List.append_assoc]
      cases hlog : c.log? <;> simp [hlog]

/-- A handle keeps the name that it was registered with first. -/
theorem get?_files_recordAll (r : Recorder) (calls : List ProbeCall) (handle : FileHandle) :
    (r.recordAll calls).files.get? handle =
      (r.files.get? handle).or (calls.findSome? (ProbeCall.name? handle)) := by
  induction calls generalizing r with
  | nil => simp
  | cons c rest ih =>
      rw [recordAll_cons, ih, get?_files_record, List.findSome?_cons]
      cases r.files.get? handle <;> cases c.name? handle <;> simp

theorem get?_catalog_recordAll (r : Recorder) (calls : List ProbeCall)
    (handle : FileHandle) :
    (r.recordAll calls).catalog.get? handle =
      (calls.filterMap (ProbeCall.spans? handle)).foldl addSpans
        (r.catalog.get? handle) := by
  induction calls generalizing r with
  | nil => simp
  | cons c rest ih =>
      rw [recordAll_cons, ih, get?_catalog_record]
      cases hspans : c.spans? handle <;> simp [hspans]

theorem foldl_addSpans_some (registered : List (List Span)) (spans : List Span) :
    registered.foldl addSpans (some spans) = some (spans ++ registered.flatten) := by
  induction registered generalizing spans with
  | nil => simp
  | cons head tail ih => simp [addSpans, ih]

theorem catalogOf_eq_foldl (calls : List ProbeCall) (handle : FileHandle) :
    catalogOf handle calls =
      (calls.filterMap (ProbeCall.spans? handle)).foldl addSpans none := by
  rw [catalogOf]
  cases calls.filterMap (ProbeCall.spans? handle) with
  | nil => rfl
  | cons head tail =>
      rw [List.foldl_cons]
      exact (foldl_addSpans_some tail head).symm

/-- A recorder that heard just these calls, whatever it knows about the current unit. -/
structure Heard (r : Recorder) (calls : List ProbeCall) : Prop where
  files : ∀ handle, r.files.get? handle = calls.findSome? (ProbeCall.name? handle)
  catalog : ∀ handle, r.catalog.get? handle = catalogOf handle calls
  logs : r.logs = calls.filterMap ProbeCall.log?

theorem heard_empty : empty.Heard [] :=
  ⟨fun _ => rfl, fun _ => rfl, rfl⟩

theorem Heard.recordAll {r : Recorder} {earlier : List ProbeCall} (hr : r.Heard earlier)
    (calls : List ProbeCall) : (r.recordAll calls).Heard (earlier ++ calls) := by
  constructor
  · intro handle
    rw [get?_files_recordAll, hr.files, List.findSome?_append]
  · intro handle
    rw [get?_catalog_recordAll, hr.catalog, catalogOf_eq_foldl, catalogOf_eq_foldl,
      List.filterMap_append, List.foldl_append]
  · rw [logs_recordAll, hr.logs, List.filterMap_append]

theorem Heard.clearTrace {r : Recorder} {calls : List ProbeCall} (hr : r.Heard calls) :
    r.clearTrace.Heard calls :=
  ⟨hr.files, hr.catalog, hr.logs⟩

theorem Heard.truncatePending {r : Recorder} {calls : List ProbeCall} (hr : r.Heard calls)
    (depth : Nat) : (r.truncatePending depth).Heard calls :=
  ⟨hr.files, hr.catalog, hr.logs⟩

end Recorder

theorem Action.play_failure (a : Action) (r : Recorder) :
    (a.play r).failure = a.failure? := by
  cases a <;> rfl

theorem Action.play_recorder (a : Action) (r : Recorder) :
    (a.play r).recorder = r.recordAll a.call?.toList := by
  cases a <;> rfl

theorem Action.call?_eq_none {a : Action} {f : Failure} (h : a.failure? = some f) :
    a.call? = none := by
  cases a with
  | call c => cases h
  | _ => rfl

theorem playAll_failure (r : Recorder) (body : List Action) :
    (playAll r body).failure = failureOf body := by
  induction body generalizing r with
  | nil => rfl
  | cons a rest ih =>
      rw [playAll, failureOf, List.findSome?_cons]
      cases hfailure : a.failure? with
      | some f => simp [Action.play_failure, hfailure]
      | none =>
          simp only [Action.play_failure, hfailure]
          exact ih _

theorem playAll_recorder (r : Recorder) (body : List Action) :
    (playAll r body).recorder = r.recordAll (callsOf body) := by
  induction body generalizing r with
  | nil => rfl
  | cons a rest ih =>
      rw [playAll, callsOf, List.takeWhile_cons]
      cases hfailure : a.failure? with
      | some f =>
          simp [Action.play_failure, hfailure, Action.play_recorder,
            Action.call?_eq_none hfailure]
      | none =>
          simp only [Action.play_failure, hfailure, ih, Action.play_recorder]
          rw [← Recorder.recordAll_append]
          cases hcall : a.call? <;> simp [hcall, callsOf]

section Loading

variable (code : String) (codePath : Option Path) (index : OffsetIndex)

theorem SetupAction.play_recorder (a : SetupAction) (s : LoadState) :
    (a.play code codePath index s).recorder = s.recorder.recordAll a.call?.toList := by
  cases a with
  | run a => exact a.play_recorder s.recorder
  | resolve offset =>
      rw [SetupAction.play]
      split <;> rfl
  | _ => rfl

theorem SetupAction.play_tests (a : SetupAction) (s : LoadState) :
    (a.play code codePath index s).registry.tests =
      s.registry.tests ++ a.test?.toList := by
  cases a with
  | register test => rfl
  | resolve offset =>
      rw [SetupAction.play]
      split <;> simp [SetupAction.test?]
  | _ => simp [SetupAction.play, SetupAction.test?, Registry.disable]

theorem SetupAction.play_failure (a : SetupAction) {s : LoadState}
    (hs : s.failure = none) :
    (a.play code codePath index s).failure = a.failure? index := by
  cases a with
  | run a => exact a.play_failure s.recorder
  | resolve offset =>
      rw [SetupAction.play, SetupAction.failure?]
      cases index.resolve? offset with
      | none => rfl
      | some place => exact hs
  | _ => exact hs

/-- What a failing top-level action leaves undone. -/
theorem SetupAction.call?_test?_eq_none {a : SetupAction} {f : Failure}
    (h : a.failure? index = some f) : a.call? = none ∧ a.test? = none := by
  cases a with
  | run a => exact ⟨Action.call?_eq_none h, rfl⟩
  | resolve offset => exact ⟨rfl, rfl⟩
  | _ => cases h

/-- Loading records the calls, registers the tests and ends with the failure of the module. -/
theorem loadAll_spec (m : Module) {s : LoadState} (hs : s.failure = none) :
    (loadAll code codePath index s m).recorder = s.recorder.recordAll (m.calls index) ∧
      (loadAll code codePath index s m).registry.tests =
        s.registry.tests ++ m.registered index ∧
      (loadAll code codePath index s m).failure = m.failure? index := by
  induction m generalizing s with
  | nil => simp [loadAll, Module.calls, Module.registered, Module.performed,
      Module.failure?, hs]
  | cons a rest ih =>
      have hplay := a.play_failure code codePath index hs
      rw [loadAll, Module.calls, Module.registered, Module.failure?, Module.performed,
        List.takeWhile_cons, List.findSome?_cons]
      cases hfailure : a.failure? index with
      | some f =>
          obtain ⟨hcall, htest⟩ := SetupAction.call?_test?_eq_none index hfailure
          simp [hplay, hfailure, SetupAction.play_recorder, SetupAction.play_tests, hcall,
            htest]
      | none =>
          rw [hfailure] at hplay
          obtain ⟨hrecorder, htests, hend⟩ := ih hplay
          simp only [hplay, Option.isSome_none, Bool.false_eq_true, if_false, hrecorder,
            htests, hend, SetupAction.play_recorder, SetupAction.play_tests]
          refine ⟨?_, ?_, rfl⟩
          · rw [← Recorder.recordAll_append]
            cases hcall : a.call? <;> simp [hcall, Module.calls, Module.performed]
          · cases htest : a.test? <;> simp [htest, Module.registered, Module.performed]

end Loading

end LiveTest
