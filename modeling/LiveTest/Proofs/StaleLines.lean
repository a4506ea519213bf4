import LiveTest.Proofs.Display
import Mathlib.Data.List.Induction
/-!
Lines that stay shown although they are out of date.  A call counts its files as shown whether or
not its command arrives.  A replacing call that is lost therefore forgets files that go on showing
what they did, and no later replacing call clears them unless some call lists them again.
-/

namespace LiveTest

/-- Files to be shown on a board, and how they meet what is there. -/
structure Posting (α : Type) where
  files : SortedMap Path (SortedMap Nat α)
  mode : PublishMode

/-- A call to show something on one of the boards. -/
inductive ShowCall
  | statuses (posting : Posting LineStatus)
  | labels (posting : Posting Label)

namespace ShowCall

def statuses? : ShowCall → Option (Posting LineStatus)
  | .statuses posting => some posting
  | .labels _ => none

def labels? : ShowCall → Option (Posting Label)
  | .statuses _ => none
  | .labels posting => some posting

def mode : ShowCall → PublishMode
  | .statuses posting => posting.mode
  | .labels posting => posting.mode

end ShowCall

/-- Make a call and go on, whether its command arrives or not. -/
def Editor.perform (s : Editor × Outlet) : ShowCall → Editor × Outlet
  | .statuses posting =>
    let (e, o, _) := s.1.applyStatuses s.2 posting.files posting.mode
    (e, o)
  | .labels posting =>
    let (e, o, _) := s.1.applyLabels s.2 posting.files posting.mode
    (e, o)

def Editor.performAll (s : Editor × Outlet) (calls : List ShowCall) : Editor × Outlet :=
  calls.foldl Editor.perform s

/-- Some call lists the file, and no later one replaces what is shown. -/
def Lasting {α : Type} (path : Path) (postings : List (Posting α)) : Prop :=
  ∃ earlier posting later, postings = earlier ++ posting :: later ∧
    posting.files.contains path = true ∧ ∀ other ∈ later, other.mode = .overlay

section

variable {α : Type} {path : Path}

theorem not_lasting_nil : ¬ Lasting path ([] : List (Posting α)) := by
  rintro ⟨earlier, posting, later, heq, -⟩
  simp at heq

theorem lasting_append_singleton_iff {postings : List (Posting α)} {last : Posting α} :
    Lasting path (postings ++ [last]) ↔
      last.files.contains path = true ∨ last.mode = .overlay ∧ Lasting path postings := by
  constructor
  · rintro ⟨earlier, posting, later, heq, hlisted, hlater⟩
    rcases List.eq_nil_or_concat later with rfl | ⟨middle, final, rfl⟩
    · obtain ⟨-, hlast⟩ := List.append_inj' heq rfl
      cases hlast
      exact Or.inl hlisted
    · rw [List.concat_eq_append, ← List.cons_append, ← List.append_assoc] at heq
      obtain ⟨hpostings, hlast⟩ := List.append_inj' heq rfl
      cases hlast
      rw [List.concat_eq_append] at hlater
      refine Or.inr ⟨hlater last (by simp), earlier, posting, middle, hpostings, hlisted, ?_⟩
      intro other hother
      exact hlater other (List.mem_append_left _ hother)
  · rintro (hlisted | ⟨hmode, earlier, posting, later, rfl, hlisted, hlater⟩)
    · exact ⟨postings, last, [], rfl, hlisted, by simp⟩
    · refine ⟨earlier, posting, later ++ [last], by simp, hlisted, ?_⟩
      intro other hother
      rcases List.mem_append.1 hother with hother | hother
      · exact hlater other hother
      · rw [List.mem_singleton.1 hother]
        exact hmode

end

namespace Board

variable {α : Type}

/-- A board stays tracked unless a replacing call is lost. -/
theorem Tracked.publish_of_arrives {b : Board α} (hb : b.Tracked) (posting : Posting α)
    {arrives : Bool} (harrives : posting.mode = .replace → arrives = true) :
    (b.publish posting.files posting.mode arrives).Tracked := by
  cases hmode : posting.mode with
  | replace =>
      rw [harrives hmode]
      exact hb.publish posting.files .replace
  | overlay =>
      cases arrives with
      | true => exact hb.publish posting.files .overlay
      | false =>
          intro path hshown
          rw [Board.publish, contains_published_iff]
          exact Or.inr ⟨rfl, hb path hshown⟩

end Board

namespace Editor

variable (settings : EditorSettings) (tree : FileTree) (accepts : Nat → Bool)

/-- A new editor after some calls. -/
def afterCalls (calls : List ShowCall) : Editor × Outlet :=
  performAll (.ofSettings settings, .ofTree tree accepts) calls

theorem afterCalls_append_singleton (calls : List ShowCall) (call : ShowCall) :
    afterCalls settings tree accepts (calls ++ [call]) =
      Editor.perform (afterCalls settings tree accepts calls) call := by
  simp [afterCalls, performAll]

/-- The editor remembers the files that a call has listed since anything was replaced. -/
theorem remembered_iff_lasting (calls : List ShowCall) (path : Path) :
    ((afterCalls settings tree accepts calls).1.statusFiles.contains path = true ↔
        Lasting path (calls.filterMap ShowCall.statuses?)) ∧
      ((afterCalls settings tree accepts calls).1.labelFiles.contains path = true ↔
        Lasting path (calls.filterMap ShowCall.labels?)) := by
  induction calls using List.reverseRecOn with
  | nil =>
      refine ⟨iff_of_false ?_ not_lasting_nil, iff_of_false ?_ not_lasting_nil⟩
      · exact Bool.false_ne_true
      · exact Bool.false_ne_true
  | append_singleton calls call ih =>
      obtain ⟨hstatuses, hlabels⟩ := ih
      rw [afterCalls_append_singleton, List.filterMap_append, List.filterMap_append]
      cases call with
      | statuses posting =>
          change (_ ↔ Lasting path (_ ++ [posting])) ∧ (_ ↔ Lasting path (_ ++ []))
          rw [List.append_nil, lasting_append_singleton_iff, ← hstatuses]
          exact ⟨Board.contains_published_iff _ _ _ path, hlabels⟩
      | labels posting =>
          change (_ ↔ Lasting path (_ ++ [])) ∧ (_ ↔ Lasting path (_ ++ [posting]))
          rw [List.append_nil, lasting_append_singleton_iff, ← hlabels]
          exact ⟨hstatuses, Board.contains_published_iff _ _ _ path⟩

/-- When a replacing call that arrives shows exactly its files: every file that shows something
must be among them, or some call must have listed it since the last replacing call, lost or
not. -/
theorem replace_shows_exactly_iff {calls : List ShowCall} {e : Editor} {o : Outlet}
    (hcalls : afterCalls settings tree accepts calls = (e, o)) :
    (∀ files e' o', e.applyStatuses o files .replace = (e', o', .ok ()) →
      ((∀ path, o'.display.statuses path = onlyFiles files path) ↔
        ∀ path, o.display.statuses path ≠ .empty → files.contains path = true ∨
          Lasting path (calls.filterMap ShowCall.statuses?))) ∧
    (∀ files e' o', e.applyLabels o files .replace = (e', o', .ok ()) →
      ((∀ path, o'.display.labels path = onlyFiles files path) ↔
        ∀ path, o.display.labels path ≠ .empty → files.contains path = true ∨
          Lasting path (calls.filterMap ShowCall.labels?))) := by
  have hremembered := remembered_iff_lasting settings tree accepts calls
  rw [hcalls] at hremembered
  constructor
  · intro files e' o' hok
    have hshown : o'.display.statuses =
        ((e.statusBoard o).publish files .replace true).shown :=
      congrArg Board.shown (boards_applyStatuses_ok e o .replace hok).1
    rw [hshown, Board.shown_publish_replace_iff]
    simp only [← (hremembered _).1]
    rfl
  · intro files e' o' hok
    have hshown : o'.display.labels =
        ((e.labelBoard o).publish files .replace true).shown :=
      congrArg Board.shown (boards_applyLabels_ok e o .replace hok).1
    rw [hshown, Board.shown_publish_replace_iff]
    simp only [← (hremembered _).2]
    rfl

theorem accepts_perform (s : Editor × Outlet) (call : ShowCall) :
    (perform s call).2.accepts = s.2.accepts := by
  cases call with
  | statuses posting => exact Outlet.accepts_send _ _
  | labels posting => exact Outlet.accepts_send _ _

theorem tried_perform (s : Editor × Outlet) (call : ShowCall) :
    (perform s call).2.tried = s.2.tried + 1 := by
  cases call with
  | statuses posting => exact Outlet.tried_send _ _
  | labels posting => exact Outlet.tried_send _ _

/-- Every call tries one command, so that the commands count the calls. -/
theorem tried_afterCalls (calls : List ShowCall) :
    (afterCalls settings tree accepts calls).2.accepts = accepts ∧
      (afterCalls settings tree accepts calls).2.tried = calls.length := by
  induction calls using List.reverseRecOn with
  | nil => exact ⟨rfl, rfl⟩
  | append_singleton calls call ih =>
      obtain ⟨haccepts, htried⟩ := ih
      rw [afterCalls_append_singleton, accepts_perform, tried_perform, haccepts, htried,
        List.length_append]
      exact ⟨rfl, rfl⟩

/-- Only a replacing call that is lost can let something shown be forgotten. -/
theorem tracked_perform {s : Editor × Outlet} (hs : Tracked s.1 s.2) {call : ShowCall}
    (harrives : call.mode = .replace → s.2.accepts s.2.tried = true) :
    Tracked (perform s call).1 (perform s call).2 := by
  obtain ⟨hstatuses, hlabels⟩ := hs
  cases call with
  | statuses posting =>
      obtain ⟨hboard, hother⟩ := boards_applyStatuses s.1 s.2 posting.mode posting.files
      constructor
      · exact hboard ▸ hstatuses.publish_of_arrives posting harrives
      · exact hother ▸ hlabels
  | labels posting =>
      obtain ⟨hboard, hother⟩ := boards_applyLabels s.1 s.2 posting.mode posting.files
      constructor
      · exact hother ▸ hstatuses
      · exact hboard ▸ hlabels.publish_of_arrives posting harrives

/-- As long as only overlays are lost, everything that is shown is remembered. -/
theorem tracked_afterCalls {calls : List ShowCall}
    (harrive : ∀ k call, calls[k]? = some call → call.mode = .replace → accepts k = true) :
    Tracked (afterCalls settings tree accepts calls).1
      (afterCalls settings tree accepts calls).2 := by
  induction calls using List.reverseRecOn with
  | nil => exact tracked_of_display_blank settings rfl
  | append_singleton calls call ih =>
      have hbefore := ih (by
        intro k earlier hearlier
        have hk : k < calls.length := (List.getElem?_eq_some_iff.1 hearlier).1
        apply harrive k earlier
        rw [List.getElem?_append_left hk, hearlier])
      rw [afterCalls_append_singleton]
      apply tracked_perform hbefore
      intro hmode
      obtain ⟨haccepts, htried⟩ := tried_afterCalls settings tree accepts calls
      rw [haccepts, htried]
      exact harrive calls.length call (by simp) hmode

/-- Lost overlays do no harm: the next replacing call that arrives shows exactly its files. -/
theorem replace_shows_exactly_of_overlays_lost {calls : List ShowCall} {e : Editor}
    {o : Outlet} (hcalls : afterCalls settings tree accepts calls = (e, o))
    (harrive : ∀ k call, calls[k]? = some call → call.mode = .replace → accepts k = true) :
    (∀ files e' o', e.applyStatuses o files .replace = (e', o', .ok ()) →
      o'.display.statuses = onlyFiles files) ∧
    (∀ files e' o', e.applyLabels o files .replace = (e', o', .ok ()) →
      o'.display.labels = onlyFiles files) := by
  obtain ⟨hstatuses, hlabels⟩ := tracked_afterCalls settings tree accepts harrive
  rw [hcalls] at hstatuses hlabels
  constructor
  · intro files e' o' hok
    rw [← hstatuses.shown_publish_replace files]
    exact congrArg Board.shown (boards_applyStatuses_ok e o .replace hok).1
  · intro files e' o' hok
    rw [← hlabels.shown_publish_replace files]
    exact congrArg Board.shown (boards_applyLabels_ok e o .replace hok).1

end Editor

namespace StaleLinesWitness

def first : FileStatuses := ⟨[(⟨"/p/a.ts"⟩, ⟨[(1, .success)]⟩)]⟩

def second : FileStatuses := ⟨[(⟨"/p/b.ts"⟩, ⟨[(1, .fail)]⟩)]⟩

def calls : List ShowCall := [.statuses ⟨first, .replace⟩, .statuses ⟨second, .replace⟩]

def arrives (k : Nat) : Bool := k ≠ 1

/-- The second of two replacing calls is lost, and with it that the first file shows something. -/
def state : Editor × Outlet := Editor.afterCalls .standard .empty arrives calls

/-- The state after the second call is made again and arrives. -/
def again : Editor × Outlet × Except EditorError Unit :=
  state.1.applyStatuses state.2 second .replace

theorem replace_leaves_stale_line :
    again.2.2 = .ok () ∧ second.contains ⟨"/p/a.ts"⟩ = false ∧
      again.2.1.display.statuses ⟨"/p/a.ts"⟩ = ⟨[(1, .success)]⟩ :=
  ⟨by decide, by decide, by decide⟩

theorem replace_shows_exactly_iff_lost :
    state.1.applyStatuses state.2 second .replace = (again.1, again.2.1, .ok ()) ∧
      ¬ ∀ path, again.2.1.display.statuses path = onlyFiles second path := by
  have hagain : state.1.applyStatuses state.2 second .replace =
      (again.1, again.2.1, .ok ()) := rfl
  refine ⟨hagain, fun hexact => ?_⟩
  have hstate : Editor.afterCalls .standard .empty arrives calls = (state.1, state.2) := rfl
  have hiff := (Editor.replace_shows_exactly_iff _ _ _ hstate).1 second _ _ hagain
  rcases hiff.1 hexact ⟨"/p/a.ts"⟩ (by decide) with hlisted | hlasting
  · exact absurd hlisted (by decide)
  · rw [← (Editor.remembered_iff_lasting .standard .empty arrives _ _).1] at hlasting
    exact absurd hlasting (by decide)

end StaleLinesWitness

end LiveTest
