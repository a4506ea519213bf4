import LiveTest.Editor.Sessions
import Mathlib.Data.List.Induction
import Mathlib.Data.List.Infix
/-!
Commands for the running sessions.  A listing names a session in each of its lines, apart from
blank lines and those of dead sessions, however its lines and the listing itself end.  Every session
that is named is sent the command, whichever of them it does not reach, and the first one that it
does not reach is the failure that is reported.
-/

namespace LiveTest

namespace Text

theorem trim_append_blank {c : Char} (hc : isBlank c = true) (cs : List Char) :
    trim (cs ++ [c]) = trim cs := by
  have hend : [c].dropWhile isBlank = [] := by rw [List.dropWhile_cons_of_pos hc]; rfl
  rw [trim, trim, List.dropWhile_append, hend]
  split
  · next hblank => rw [List.isEmpty_iff.1 hblank]
  · rw [List.reverse_append, List.reverse_singleton, List.singleton_append,
      List.dropWhile_cons_of_pos hc]

theorem trim_dropReturn (cs : List Char) : trim (dropReturn cs) = trim cs := by
  rw [dropReturn]
  split
  · next hlast =>
      obtain ⟨before, rfl⟩ := List.getLast?_eq_some_iff.1 hlast
      rw [List.dropLast_concat, trim_append_blank (by decide)]
  · rfl

/-- The lines of a text without the white space at their ends, apart from those that are blank. -/
def trimmedLines (cs : List Char) : List (List Char) :=
  ((splitAll '\n' cs).map trim).filter (· ≠ [])

/-- The trimmed lines of a text whose first line starts earlier. -/
def trimmedLinesAfter (start cs : List Char) : List (List Char) :=
  (((splitAll '\n' cs).modifyHead (start ++ ·)).map trim).filter (· ≠ [])

theorem trimmedLinesAfter_nil (cs : List Char) : trimmedLinesAfter [] cs = trimmedLines cs := by
  rw [trimmedLinesAfter, trimmedLines]
  congr 2
  exact congrFun List.modifyHead_id _

theorem trimmedLinesAfter_cons_newline (start cs : List Char) :
    trimmedLinesAfter start ('\n' :: cs) = [trim start].filter (· ≠ []) ++ trimmedLines cs := by
  rw [trimmedLinesAfter, splitAll, if_pos rfl, List.modifyHead_cons, List.append_nil, List.map_cons,
    ← List.singleton_append, List.filter_append]
  rfl

theorem trimmedLinesAfter_cons_of_ne {c : Char} (hc : c ≠ '\n') (start cs : List Char) :
    trimmedLinesAfter start (c :: cs) = trimmedLinesAfter (start ++ [c]) cs := by
  rw [trimmedLinesAfter, trimmedLinesAfter, splitAll, if_neg hc]
  cases hpieces : splitAll '\n' cs with
  | nil => exact absurd hpieces (splitAll_ne_nil '\n' cs)
  | cons piece pieces => simp

/-- How lines end makes no difference to what they are when they are trimmed. -/
theorem trimmedLinesAfter_eq (acc cs : List Char) :
    ((linesGo acc cs).map trim).filter (· ≠ []) = trimmedLinesAfter acc.reverse cs := by
  induction cs generalizing acc with
  | nil => cases acc <;> simp [linesGo, trimmedLinesAfter, splitAll, trim]
  | cons c rest ih =>
      rw [linesGo]
      split
      · next hc =>
          rw [hc, trimmedLinesAfter_cons_newline, ← trimmedLinesAfter_nil, List.map_cons,
            trim_dropReturn, ← List.singleton_append, List.filter_append, ih]
          rfl
      · next hc => rw [ih, trimmedLinesAfter_cons_of_ne hc, List.reverse_cons]

theorem trimmedLines_eq (cs : List Char) :
    ((lines cs).map trim).filter (· ≠ []) = trimmedLines cs := by
  rw [lines, trimmedLinesAfter_eq, List.reverse_nil, trimmedLinesAfter_nil]

/-- White space at the end of the text makes no difference either. -/
theorem trimmedLinesAfter_append_blank {c : Char} (hc : isBlank c = true) (start cs : List Char) :
    trimmedLinesAfter start (cs ++ [c]) = trimmedLinesAfter start cs := by
  induction cs generalizing start with
  | nil =>
      by_cases hnewline : c = '\n'
      · rw [List.nil_append, hnewline, trimmedLinesAfter_cons_newline]
        simp [trimmedLinesAfter, trimmedLines, splitAll, trim]
      · rw [List.nil_append, trimmedLinesAfter_cons_of_ne hnewline]
        simp [trimmedLinesAfter, splitAll, trim_append_blank hc]
  | cons d rest ih =>
      by_cases hnewline : d = '\n'
      · rw [List.cons_append, hnewline, trimmedLinesAfter_cons_newline,
          trimmedLinesAfter_cons_newline, ← trimmedLinesAfter_nil, ← trimmedLinesAfter_nil, ih]
      · rw [List.cons_append, trimmedLinesAfter_cons_of_ne hnewline,
          trimmedLinesAfter_cons_of_ne hnewline, ih]

theorem trimmedLines_append_blanks {blanks : List Char} (h : ∀ c ∈ blanks, isBlank c = true)
    (cs : List Char) : trimmedLines (cs ++ blanks) = trimmedLines cs := by
  induction blanks using List.reverseRecOn with
  | nil => rw [List.append_nil]
  | append_singleton blanks c ih =>
      obtain ⟨hblanks, hc⟩ := List.forall_mem_append.1 h
      rw [← List.append_assoc, ← trimmedLinesAfter_nil,
        trimmedLinesAfter_append_blank (hc c List.mem_cons_self), trimmedLinesAfter_nil,
        ih hblanks]

theorem containsChars_iff {needle cs : List Char} :
    containsChars needle cs = true ↔ needle <:+: cs := by
  induction cs with
  | nil => simp [containsChars]
  | cons c rest ih => rw [containsChars, Bool.or_eq_true, ih, List.infix_cons_iff]; simp

end Text

namespace Sessions

/-- Lines that are neither blank nor marked, in one pass and in two. -/
theorem unmarked_eq (mark : List Char) (lines : List (List Char)) :
    (lines.filterMap fun line =>
      if line = [] || Text.containsChars mark line then none else some (String.ofList line)) =
      ((lines.filter (· ≠ [])).filter fun line => ¬mark <:+: line).map String.ofList := by
  induction lines with
  | nil => rfl
  | cons line rest ih =>
      by_cases hblank : line = []
      · simpa [hblank] using ih
      · by_cases hmarked : mark <:+: line
        · simpa [hblank, hmarked, Text.containsChars_iff.2 hmarked] using ih
        · have hcontains : Text.containsChars mark line = false := by
            rw [← Bool.not_eq_true, Text.containsChars_iff]
            exact hmarked
          simpa [hblank, hmarked, hcontains] using ih

/-- The sessions that a listing names: its trimmed lines, without the blank ones and those of dead
sessions. -/
def liveNames (listing : String) : List String :=
  ((Text.trimmedLines listing.toList).filter fun line => ¬"(dead)".toList <:+: line).map
    String.ofList

theorem names_eq (listing : String) : names listing = liveNames listing := by
  rw [names, liveNames, ← Text.trimmedLines_eq]
  exact unmarked_eq deadMark _

/-- Only white space is left out at the end of a listing. -/
theorem exists_trimEnds (listing : String) :
    ∃ blanks, (∀ c ∈ blanks, Text.isBlank c = true) ∧
      listing.toList = (trimEnds listing).toList ++ blanks := by
  refine ⟨(listing.toList.reverse.takeWhile fun c => c = '\n' || c = '\r').reverse, ?_, ?_⟩
  · intro c hc
    have hend := List.all_eq_true.1 List.all_takeWhile c (List.mem_reverse.1 hc)
    rw [Bool.or_eq_true, decide_eq_true_iff, decide_eq_true_iff] at hend
    rcases hend with rfl | rfl
    · decide
    · decide
  · rw [trimEnds, String.toList_ofList, ← List.reverse_append, List.takeWhile_append_dropWhile,
      List.reverse_reverse]

theorem liveNames_trimEnds (listing : String) : liveNames (trimEnds listing) = liveNames listing := by
  obtain ⟨blanks, hblanks, hlisting⟩ := exists_trimEnds listing
  rw [liveNames, liveNames, hlisting, Text.trimmedLines_append_blanks hblanks]

theorem running_of_listing {s : Sessions} {listing : String} (h : s.listing = some listing) :
    s.running = .ok (liveNames listing) := by
  rw [running, h, ← liveNames_trimEnds, ← names_eq]

theorem isAddressable_iff {name : String} :
    isAddressable name = true ↔ '\x00' ∉ name.toList := by
  simp only [isAddressable, List.all_eq_true, decide_eq_true_iff]
  exact ⟨fun h hmem => h _ hmem rfl, fun h c hc heq => h (heq ▸ hc)⟩

/-- The error that a sending led to. -/
def Sending.error? (sending : Sending) : Option EditorError :=
  match sending.result with
  | .ok () => none
  | .error e => some e

theorem Sending.error?_eq_none_iff {sending : Sending} :
    sending.error? = none ↔ sending.result = .ok () := by
  rw [error?]
  cases sending.result with
  | ok u => simp
  | error e => simp

theorem Sending.error?_eq_some_iff {sending : Sending} {e : EditorError} :
    sending.error? = some e ↔ sending.result = .error e := by
  rw [error?]
  cases sending.result with
  | ok u => simp
  | error e' => simp

theorem Progress.sendings_add (p : Progress) (sending : Sending) :
    (p.add sending).sendings = p.sendings ++ [sending] := by
  rw [add]
  split
  · rfl
  · rfl

theorem Progress.firstError_add (p : Progress) (sending : Sending) :
    (p.add sending).firstError = p.firstError.or sending.error? := by
  cases hresult : sending.result with
  | ok u => simp [add, Sending.error?, hresult]
  | error e => simp [add, Sending.error?, hresult]

theorem Progress.sendings_foldl_add (sendings : List Sending) (p : Progress) :
    (sendings.foldl add p).sendings = p.sendings ++ sendings := by
  induction sendings generalizing p with
  | nil => rw [List.foldl_nil, List.append_nil]
  | cons sending rest ih =>
      rw [List.foldl_cons, ih, sendings_add, List.append_assoc, List.singleton_append]

/-- The first error stays, however many follow. -/
theorem Progress.firstError_foldl_add (sendings : List Sending) (p : Progress) :
    (sendings.foldl add p).firstError = p.firstError.or (sendings.findSome? Sending.error?) := by
  induction sendings generalizing p with
  | nil => rw [List.foldl_nil, List.findSome?_nil, Option.or_none]
  | cons sending rest ih =>
      rw [List.foldl_cons, ih, firstError_add, List.findSome?_cons, Option.or_assoc]
      cases sending.error? <;> rfl

/-- What the first error makes of the result. -/
def resultOf (firstError : Option EditorError) : Except EditorError Unit :=
  firstError.elim (.ok ()) .error

theorem resultOf_eq_ok_iff {firstError : Option EditorError} :
    resultOf firstError = .ok () ↔ firstError = none := by
  cases firstError with
  | none => simp [resultOf]
  | some e => simp [resultOf]

theorem resultOf_eq_error_iff {firstError : Option EditorError} {e : EditorError} :
    resultOf firstError = .error e ↔ firstError = some e := by
  cases firstError with
  | none => simp [resultOf]
  | some e' => simp [resultOf]

section SendAll

variable {s : Sessions} {client command : String}

theorem sendEach_eq (names : List String) (start : Progress) :
    s.sendEach client command names start =
      (names.map (s.send client command)).foldl Progress.add start := by
  rw [sendEach, List.foldl_map]

variable {names : List String} (hrunning : s.running = .ok names)

include hrunning

theorem sendings_sendAll :
    (s.sendAll client command).sendings = names.map (s.send client command) := by
  rw [sendAll, hrunning]
  dsimp only
  rw [sendEach_eq, Progress.sendings_foldl_add, List.nil_append]

theorem result_sendAll :
    (s.sendAll client command).result =
      resultOf ((s.sendAll client command).sendings.findSome? Sending.error?) := by
  rw [sendings_sendAll hrunning, sendAll, hrunning]
  dsimp only
  rw [sendEach_eq, Progress.firstError_foldl_add, Option.none_or]
  cases (names.map (s.send client command)).findSome? Sending.error? <;> rfl

end SendAll

/-- What sending a command to all sessions comes to.  If the sessions cannot be listed then nothing
is sent.  Otherwise the command is sent once to every session that the listing names, in its order
and whether or not the ones before are reached, and to no other session.  The result is the error of
the first session that is not reached, if there is one. -/
theorem sendAll_to_every_session (s : Sessions) (client command : String) :
    (s.listing = none →
      (s.sendAll client command).sendings = [] ∧
        (s.sendAll client command).result = .error .listSessions) ∧
    ∀ listing, s.listing = some listing →
      ((s.sendAll client command).sendings.map fun sending => (sending.session, sending.handed)) =
        (liveNames listing).map (fun name =>
          (name, "eval -client " ++ client ++ " '" ++ command ++ "'")) ∧
      (s.sendAll client command).tried =
        ((liveNames listing).filter fun name => '\x00' ∉ name.toList).map (fun name =>
          (name, "eval -client " ++ client ++ " '" ++ command ++ "'")) ∧
      (∀ sending ∈ (s.sendAll client command).sendings,
        sending.result =
          if '\x00' ∉ sending.session.toList ∧ s.reaches sending.session = true then .ok ()
          else .error (.sendCommand sending.session)) ∧
      ((s.sendAll client command).result = .ok () ↔
        ∀ sending ∈ (s.sendAll client command).sendings, sending.result = .ok ()) ∧
      ∀ e, (s.sendAll client command).result = .error e ↔
        ∃ before sending after,
          (s.sendAll client command).sendings = before ++ sending :: after ∧
          sending.result = .error e ∧ ∀ earlier ∈ before, earlier.result = .ok () := by
  constructor
  · intro hlisting
    have hrunning : s.running = .error .listSessions := by rw [running, hlisting]
    rw [sendAll, hrunning]
    exact ⟨rfl, rfl⟩
  · intro listing hlisting
    have hrunning := running_of_listing hlisting
    refine ⟨?_, ?_, ?_, ?_, ?_⟩
    · rw [sendings_sendAll hrunning, List.map_map]
      rfl
    · have haddressable : isAddressable = fun name => decide ('\x00' ∉ name.toList) :=
        funext fun name => Bool.eq_iff_iff.2 (isAddressable_iff.trans decide_eq_true_iff.symm)
      rw [Delivery.tried, sendings_sendAll hrunning, List.filter_map, List.map_map, haddressable]
      rfl
    · rw [sendings_sendAll hrunning]
      intro sending hsending
      obtain ⟨name, -, rfl⟩ := List.mem_map.1 hsending
      simp only [send, accepts, Bool.and_eq_true, isAddressable_iff]
    · rw [result_sendAll hrunning, resultOf_eq_ok_iff, List.findSome?_eq_none_iff]
      exact forall₂_congr fun sending _ => Sending.error?_eq_none_iff
    · intro e
      rw [result_sendAll hrunning, resultOf_eq_error_iff, List.findSome?_eq_some_iff]
      simp only [Sending.error?_eq_some_iff, Sending.error?_eq_none_iff]

namespace RunningSessionsWitness

def listing : String := "a\n b \nc (dead)\n\nd\r\n"

/-- Three sessions and a dead one; the second is gone before it is sent anything. -/
def three : Sessions := ⟨some listing, fun name => name != "b"⟩

def unlisted : Sessions := ⟨none, fun _ => true⟩

theorem liveNames_listing : liveNames listing = ["a", "b", "d"] := by decide +kernel

theorem sendings_three :
    (three.sendAll "c" "echo").sendings =
      [three.send "c" "echo" "a", three.send "c" "echo" "b", three.send "c" "echo" "d"] := by
  have hrunning : three.running = .ok (liveNames listing) := running_of_listing rfl
  rw [sendings_sendAll hrunning, liveNames_listing]
  rfl

/-- The session after the one that is gone is sent the command as well. -/
theorem sendAll_to_every_session_one_gone :
    unlisted.listing = none ∧ (unlisted.sendAll "c" "echo").result = .error .listSessions ∧
      three.listing = some listing ∧
      ((three.sendAll "c" "echo").sendings.map fun sending => (sending.session, sending.handed)) =
        [("a", "eval -client c 'echo'"), ("b", "eval -client c 'echo'"),
          ("d", "eval -client c 'echo'")] ∧
      (three.sendAll "c" "echo").result = .error (.sendCommand "b") := by
  obtain ⟨hunlisted, -⟩ := sendAll_to_every_session unlisted "c" "echo"
  obtain ⟨-, hlisted⟩ := sendAll_to_every_session three "c" "echo"
  obtain ⟨hsendings, -, -, -, herror⟩ := hlisted listing rfl
  have htext : "eval -client " ++ "c" ++ " '" ++ "echo" ++ "'" = "eval -client c 'echo'" := by
    decide +kernel
  rw [liveNames_listing, htext] at hsendings
  refine ⟨rfl, (hunlisted rfl).2, rfl, hsendings, (herror _).2
    ⟨[three.send "c" "echo" "a"], three.send "c" "echo" "b", _, sendings_three, rfl, ?_⟩⟩
  intro earlier hearlier
  obtain rfl := List.mem_singleton.1 hearlier
  rfl

end RunningSessionsWitness

end Sessions

end LiveTest
