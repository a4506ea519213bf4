import LiveTest.Editor.Script
import Mathlib.Data.List.SplitBy
/-!
Strings in single quotes.  In such a string two single quotes stand for one, so a text whose quotes
are doubled is read back as it was and cannot end the string early.  Seen from the outside, every
run of quotes in a doubled text is twice as long as the run it came from, wherever the text was put
together from pieces.
-/

namespace LiveTest.Quotes

/-- The maximal runs of equal characters. -/
def runs (cs : List Char) : List (List Char) := cs.splitBy fun c d => c == d

/-- Every maximal run of single quotes has even length. -/
def EvenRuns (cs : List Char) : Prop := ∀ run ∈ runs cs, quoteMark ∈ run → 2 ∣ run.length

/-- A run, half as long if it is one of single quotes. -/
def halveRun (run : List Char) : List Char :=
  if quoteMark ∈ run then run.take (run.length / 2) else run

/-- The text with every maximal run of single quotes halved. -/
def halveRuns (cs : List Char) : List Char := (runs cs).flatMap halveRun

theorem exists_eq_replicate_of_mem_runs {cs run : List Char} (hrun : run ∈ runs cs) :
    ∃ n c, run = List.replicate (n + 1) c := by
  have hchain : run.IsChain fun c d => c = d := by
    apply (List.isChain_of_mem_splitBy hrun).imp
    intro c d hsame
    exact eq_of_beq hsame
  obtain ⟨c, rest, rfl⟩ := List.exists_cons_of_ne_nil (List.ne_nil_of_mem_splitBy hrun)
  refine ⟨rest.length, c, ?_⟩
  rw [List.replicate_succ, ← List.isChain_cons_eq_iff_eq_replicate.1 hchain]

/-- The text with its single quotes doubled. -/
def doubled (cs : List Char) : List Char := cs.flatMap doubleQuoteMark

@[simp] theorem doubled_append (as bs : List Char) :
    doubled (as ++ bs) = doubled as ++ doubled bs :=
  List.flatMap_append

theorem doubled_cons_quoteMark (cs : List Char) :
    doubled (quoteMark :: cs) = quoteMark :: quoteMark :: doubled cs := rfl

theorem doubled_cons_of_ne {c : Char} (hc : c ≠ quoteMark) (cs : List Char) :
    doubled (c :: cs) = c :: doubled cs := by
  rw [doubled, List.flatMap_cons, doubleQuoteMark, if_neg hc]
  rfl

/-- A text without single quotes stays as it is. -/
theorem doubled_eq_self {cs : List Char} (h : quoteMark ∉ cs) : doubled cs = cs := by
  induction cs with
  | nil => rfl
  | cons c rest ih =>
      rw [List.mem_cons, not_or] at h
      rw [doubled_cons_of_ne (Ne.symm h.1), ih h.2]

theorem doubled_replicate_quoteMark (n : Nat) :
    doubled (List.replicate n quoteMark) = List.replicate (2 * n) quoteMark := by
  induction n with
  | zero => rfl
  | succ n ih =>
      rw [List.replicate_succ, doubled_cons_quoteMark, ih, Nat.mul_succ, List.replicate_succ,
        List.replicate_succ]

theorem doubled_replicate_of_ne {c : Char} (hc : c ≠ quoteMark) (n : Nat) :
    doubled (List.replicate n c) = List.replicate n c := by
  apply doubled_eq_self
  intro hmem
  exact hc (List.eq_of_mem_replicate hmem).symm

/-- Doubling a run gives a run of the same character. -/
theorem exists_doubled_replicate (n : Nat) (c : Char) :
    ∃ m, doubled (List.replicate (n + 1) c) = List.replicate (m + 1) c := by
  by_cases hc : c = quoteMark
  · exact ⟨2 * n + 1, by rw [hc, doubled_replicate_quoteMark]; rfl⟩
  · exact ⟨n, doubled_replicate_of_ne hc (n + 1)⟩

theorem flatten_map_doubled (parts : List (List Char)) :
    (parts.map doubled).flatten = doubled parts.flatten := by
  induction parts with
  | nil => rfl
  | cons part rest ih => rw [List.map_cons, List.flatten_cons, ih, List.flatten_cons, doubled_append]

/-- The runs of a doubled text are the doubled runs of the text. -/
theorem runs_doubled (cs : List Char) : runs (doubled cs) = (runs cs).map doubled := by
  rw [runs, List.splitBy_eq_iff]
  refine ⟨?_, ?_, ?_, ?_⟩
  · rw [flatten_map_doubled, runs, List.flatten_splitBy]
  · intro hmem
    obtain ⟨run, hrun, hnil⟩ := List.mem_map.1 hmem
    obtain ⟨n, c, rfl⟩ := exists_eq_replicate_of_mem_runs hrun
    obtain ⟨m, hm⟩ := exists_doubled_replicate n c
    rw [hm] at hnil
    cases hnil
  · intro part hpart
    obtain ⟨run, hrun, rfl⟩ := List.mem_map.1 hpart
    obtain ⟨n, c, rfl⟩ := exists_eq_replicate_of_mem_runs hrun
    obtain ⟨m, hm⟩ := exists_doubled_replicate n c
    rw [hm]
    exact List.isChain_replicate_of_rel _ (beq_self_eq_true c)
  · rw [List.isChain_map]
    apply (List.isChain_getLast_head_splitBy _ cs).imp_of_mem_imp
    intro left right hleft hright hdiffer
    obtain ⟨n, c, rfl⟩ := exists_eq_replicate_of_mem_runs hleft
    obtain ⟨k, d, rfl⟩ := exists_eq_replicate_of_mem_runs hright
    obtain ⟨m, hm⟩ := exists_doubled_replicate n c
    obtain ⟨l, hl⟩ := exists_doubled_replicate k d
    rw [hm, hl]
    simpa using hdiffer

theorem evenRuns_doubled (cs : List Char) : EvenRuns (doubled cs) := by
  intro run hrun hmem
  rw [runs_doubled] at hrun
  obtain ⟨part, hpart, rfl⟩ := List.mem_map.1 hrun
  obtain ⟨n, c, rfl⟩ := exists_eq_replicate_of_mem_runs hpart
  by_cases hc : c = quoteMark
  · rw [hc, doubled_replicate_quoteMark, List.length_replicate]
    exact Nat.dvd_mul_right 2 (n + 1)
  · rw [doubled_replicate_of_ne hc] at hmem
    exact absurd (List.eq_of_mem_replicate hmem).symm hc

theorem halveRun_doubled_replicate (n : Nat) (c : Char) :
    halveRun (doubled (List.replicate (n + 1) c)) = List.replicate (n + 1) c := by
  by_cases hc : c = quoteMark
  · have hmem : quoteMark ∈ List.replicate (2 * (n + 1)) quoteMark :=
      List.mem_replicate.2 ⟨by omega, rfl⟩
    have hmin : min (n + 1) (2 * (n + 1)) = n + 1 := by omega
    rw [hc, doubled_replicate_quoteMark, halveRun, if_pos hmem, List.length_replicate,
      List.take_replicate, Nat.mul_div_cancel_left _ Nat.two_pos, hmin]
  · rw [doubled_replicate_of_ne hc, halveRun, if_neg]
    intro hmem
    exact hc (List.eq_of_mem_replicate hmem).symm

theorem halveRuns_doubled (cs : List Char) : halveRuns (doubled cs) = cs := by
  have hhalve : ∀ run ∈ runs cs, halveRun (doubled run) = run := by
    intro run hrun
    obtain ⟨n, c, rfl⟩ := exists_eq_replicate_of_mem_runs hrun
    exact halveRun_doubled_replicate n c
  calc halveRuns (doubled cs) = (runs cs).flatMap fun run => halveRun (doubled run) := by
        rw [halveRuns, runs_doubled, List.flatMap_map]
    _ = (runs cs).flatMap id := List.flatMap_congr hhalve
    _ = (runs cs).flatten := List.flatMap_id
    _ = cs := List.flatten_splitBy _ cs

/-- Read the rest of a string that ends at a mark: the text up to the mark that ends it, and what
follows that mark.  Two marks stand for one and end nothing. -/
def readMarked (mark : Char) : List Char → Option (List Char × List Char)
  | [] => none
  | [c] => if c = mark then some ([], []) else none
  | c :: d :: rest =>
    if c = mark then
      if d = mark then (readMarked mark rest).map fun read => (c :: read.1, read.2)
      else some ([], d :: rest)
    else (readMarked mark (d :: rest)).map fun read => (c :: read.1, read.2)

section Marked

variable {mark : Char}

theorem readMarked_cons_of_ne {c : Char} (hc : c ≠ mark) (rest : List Char) :
    readMarked mark (c :: rest) =
      (readMarked mark rest).map fun read => (c :: read.1, read.2) := by
  cases rest with
  | nil => simp [readMarked, hc]
  | cons d rest => rw [readMarked, if_neg hc]

/-- What follows a string is no longer than what it was read from. -/
theorem length_le_of_readMarked {cs string later : List Char}
    (h : readMarked mark cs = some (string, later)) : later.length ≤ cs.length := by
  fun_induction readMarked mark cs generalizing string with
  | case1 => cases h
  | case2 => cases h; exact Nat.zero_le _
  | case3 => cases h
  | case4 rest ih =>
      obtain ⟨read, hread, heq⟩ := Option.map_eq_some_iff.1 h
      cases heq
      exact Nat.le_trans (ih hread) (Nat.le_add_right _ 2)
  | case5 d rest hd => cases h; exact Nat.le_succ _
  | case6 c d rest hc ih =>
      obtain ⟨read, hread, heq⟩ := Option.map_eq_some_iff.1 h
      cases heq
      exact Nat.le_trans (ih hread) (Nat.le_succ _)

/-- A string that ends at the mark says `meant` where `written` stands in it, whatever follows: no
mark in it ends the string. -/
def Carries (mark : Char) (written meant : List Char) : Prop :=
  ∀ rest, readMarked mark (written ++ rest) =
    (readMarked mark rest).map fun read => (meant ++ read.1, read.2)

theorem carries_nil : Carries mark [] [] := by
  intro rest
  simp

theorem Carries.append {written written' meant meant' : List Char}
    (h : Carries mark written meant) (h' : Carries mark written' meant') :
    Carries mark (written ++ written') (meant ++ meant') := by
  intro rest
  rw [List.append_assoc, h, h', Option.map_map]
  simp [Function.comp_def]

theorem carries_flatMap {α : Type} {f g : α → List Char} {as : List α}
    (h : ∀ a ∈ as, Carries mark (f a) (g a)) : Carries mark (as.flatMap f) (as.flatMap g) := by
  induction as with
  | nil => exact carries_nil
  | cons a rest ih =>
      obtain ⟨ha, hrest⟩ := List.forall_mem_cons.1 h
      exact ha.append (ih hrest)

theorem carries_of_ne {c : Char} (hc : c ≠ mark) : Carries mark [c] [c] :=
  fun rest => readMarked_cons_of_ne hc rest

theorem carries_of_not_mem {cs : List Char} (h : mark ∉ cs) : Carries mark cs cs := by
  have hcs : Carries mark (cs.flatMap fun c => [c]) (cs.flatMap fun c => [c]) := by
    apply carries_flatMap
    intro c hc
    exact carries_of_ne fun heq => h (heq ▸ hc)
  rwa [List.flatMap_singleton'] at hcs

theorem carries_two : Carries mark [mark, mark] [mark] := by
  intro rest
  rw [List.cons_append, List.cons_append, readMarked, if_pos rfl, if_pos rfl]
  rfl

/-- The mark that ends a string is the one after all that the string carries. -/
theorem Carries.read {written meant rest : List Char} (h : Carries mark written meant)
    (hrest : rest.head? ≠ some mark) :
    readMarked mark (written ++ mark :: rest) = some (meant, rest) := by
  rw [h]
  cases rest with
  | nil => simp [readMarked]
  | cons d rest =>
      have hd : d ≠ mark := fun hd => hrest (congrArg some hd)
      simp [readMarked, hd]

/-- Nothing carries two texts. -/
theorem Carries.unique {written meant meant' : List Char} (h : Carries mark written meant)
    (h' : Carries mark written meant') : meant = meant' := by
  have hnone : ([] : List Char).head? ≠ some mark := fun hhead => by cases hhead
  have hread := (h.read hnone).symm.trans (h'.read hnone)
  exact congrArg Prod.fst (Option.some.inj hread)

/-- A text is carried with every mark in it written twice. -/
theorem carries_twice (mark : Char) (cs : List Char) :
    Carries mark (cs.flatMap fun c => if c = mark then [c, c] else [c]) cs := by
  have h : Carries mark (cs.flatMap fun c => if c = mark then [c, c] else [c])
      (cs.flatMap fun c => [c]) := by
    apply carries_flatMap
    intro c _
    split
    · next hc => rw [hc]; exact carries_two
    · next hc => exact carries_of_ne hc
  rwa [List.flatMap_singleton'] at h

end Marked

theorem carries_doubled (cs : List Char) : Carries quoteMark (doubled cs) cs :=
  carries_twice quoteMark cs

/-- There is no single quote in a text. -/
def Quoteless (s : String) : Prop := quoteMark ∉ s.toList

/-- A literal unifies with the text of its characters, so that this finds out without decoding
it. -/
theorem quoteless_ofList {cs : List Char} (h : cs.all (· ≠ quoteMark) = true) :
    Quoteless (String.ofList cs) := by
  rw [Quoteless, String.toList_ofList]
  intro hmem
  have hne := List.all_eq_true.1 h quoteMark hmem
  simp at hne

@[simp] theorem quoteless_append {s t : String} :
    Quoteless (s ++ t) ↔ Quoteless s ∧ Quoteless t := by
  rw [Quoteless, String.toList_append, List.mem_append, not_or, Quoteless, Quoteless]

/-- The wording of a script has no single quotes of its own. -/
def Unquoted (s : Script) : Prop := ∀ text, Piece.fixed text ∈ s → Quoteless text

@[simp] theorem unquoted_nil : Unquoted [] := by
  intro text hmem
  cases hmem

@[simp] theorem unquoted_fixed {text : String} {s : Script} :
    Unquoted (.fixed text :: s) ↔ Quoteless text ∧ Unquoted s := by
  simp [Unquoted, or_imp, forall_and]

@[simp] theorem unquoted_embedded {text : String} {s : Script} :
    Unquoted (.embedded text :: s) ↔ Unquoted s := by
  simp [Unquoted]

@[simp] theorem unquoted_append {s t : Script} : Unquoted (s ++ t) ↔ Unquoted s ∧ Unquoted t := by
  simp [Unquoted, or_imp, forall_and]

theorem unquoted_flatMap {α : Type} {f : α → Script} {as : List α}
    (h : ∀ a ∈ as, Unquoted (f a)) : Unquoted (as.flatMap f) := by
  intro text hmem
  obtain ⟨a, ha, htext⟩ := List.mem_flatMap.1 hmem
  exact h a ha text htext

theorem unquoted_map_fixed {α : Type} {f : α → String} {as : List α}
    (h : ∀ a ∈ as, Quoteless (f a)) : Unquoted (as.map fun a => .fixed (f a)) := by
  intro text hmem
  obtain ⟨a, ha, htext⟩ := List.mem_map.1 hmem
  cases htext
  exact h a ha

/-- If the wording has no quotes then a script is delivered as it is meant, with every quote
doubled. -/
theorem render_eq_doubled {s : Script} (h : Unquoted s) :
    s.render.toList = doubled s.plain.toList := by
  rw [Script.render, Script.plain, String.toList_ofList, String.toList_ofList]
  induction s with
  | nil => rfl
  | cons piece rest ih =>
      rw [List.flatMap_cons, List.flatMap_cons, doubled_append]
      cases piece with
      | fixed text =>
          rw [unquoted_fixed] at h
          rw [ih h.2, Piece.render, Piece.plain, doubled_eq_self h.1]
      | embedded text =>
          rw [unquoted_embedded] at h
          rw [ih h]
          rfl

/-- A string in single quotes that a script is delivered in says what is meant. -/
theorem carries_render {s : Script} (h : Unquoted s) :
    Carries quoteMark s.render.toList s.plain.toList := by
  rw [render_eq_doubled h]
  exact carries_doubled _

end LiveTest.Quotes
