import LiveTest.Proofs.ShellStrings
import LiveTest.Text.Blank
/-!
Case statements of a shell.  A case statement compares a string with its patterns and echoes the
text of the first branch whose pattern is the same.  It is read branch by branch, so where a
pattern or a text ends early the branches after it are read from there.
-/

namespace LiveTest.Shell

open Text (isBreak)

/-- A branch of a case statement that echoes a text. -/
structure Branch where
  pattern : List Sign
  argument : List Sign
deriving DecidableEq

structure CaseStatement where
  subject : List Sign
  branches : List Branch

/-- The text without the blanks and the ends of lines at its start. -/
def skipBlanks (cs : List Char) : List Char := cs.dropWhile isBreak

/-- Read a string that starts with this text, up to the end of the string. -/
def readStringAfter (start : String) (cs : List Char) : Option (List Sign × List Char) :=
  (cs.dropPrefix? start.toList).bind readQuoted

/-- Read a branch, and what follows it. -/
def readBranch (cs : List Char) : Option (Branch × List Char) := do
  let pattern ← readStringAfter "\"" cs
  let argument ← readStringAfter ") echo \"" pattern.2
  let later ← argument.2.dropPrefix? ";;".toList
  return (⟨pattern.1, argument.1⟩, later)

theorem dropPrefix?_append (start later : List Char) :
    (start ++ later).dropPrefix? start = some later :=
  List.dropPrefix?_append_of_beq later (beq_self_eq_true start)

theorem length_le_of_dropPrefix? {start cs later : List Char}
    (h : cs.dropPrefix? start = some later) : later.length ≤ cs.length := by
  obtain ⟨before, rfl, -⟩ := List.dropPrefix?_eq_some_iff.1 h
  rw [List.length_append]
  exact Nat.le_add_left _ _

theorem length_lt_of_readStringAfter {start : String} {cs : List Char}
    {read : List Sign × List Char} (h : readStringAfter start cs = some read) :
    read.2.length < cs.length := by
  obtain ⟨string, hstring, hread⟩ := Option.bind_eq_some_iff.1 h
  have hlt := length_add_lt_of_readQuoted hread
  have hle := length_le_of_dropPrefix? hstring
  omega

theorem length_lt_of_readBranch {cs later : List Char} {branch : Branch}
    (h : readBranch cs = some (branch, later)) : later.length < cs.length := by
  obtain ⟨pattern, hpattern, h⟩ := Option.bind_eq_some_iff.1 h
  obtain ⟨argument, hargument, h⟩ := Option.bind_eq_some_iff.1 h
  obtain ⟨rest, hrest, h⟩ := Option.bind_eq_some_iff.1 h
  cases h
  have hpattern := length_lt_of_readStringAfter hpattern
  have hargument := length_lt_of_readStringAfter hargument
  have hrest := length_le_of_dropPrefix? hrest
  omega

/-- Read the branches up to the end of the statement. -/
def readBranches (cs : List Char) : Option (List Branch × List Char) :=
  match (skipBlanks cs).dropPrefix? "esac".toList with
  | some later => some ([], later)
  | none =>
    match _h : readBranch (skipBlanks cs) with
    | none => none
    | some (branch, later) => (readBranches later).map fun read => (branch :: read.1, read.2)
termination_by cs.length
decreasing_by
  exact Nat.lt_of_lt_of_le (length_lt_of_readBranch _h) (List.dropWhile_suffix _).length_le

/-- Read a script that is a case statement. -/
def readCase (cs : List Char) : Option CaseStatement := do
  let subject ← readStringAfter "case \"" (skipBlanks cs)
  let text ← subject.2.dropPrefix? " in".toList
  let branches ← readBranches text
  if skipBlanks branches.2 = [] then some ⟨subject.1, branches.1⟩ else none

/-- The text of the first branch whose pattern gives what the subject gives. -/
def CaseStatement.echoed (env : String → List Char) (c : CaseStatement) : Option (List Char) := do
  let word ← value env c.subject
  let branch ← c.branches.find? fun branch => value env branch.pattern = some word
  value env branch.argument

namespace CaseStatement

variable {env : String → List Char} {c : CaseStatement} {word text : List Char}
  (hsubject : value env c.subject = some word)

include hsubject

/-- A text is echoed if some branch is taken and each one that can be echoes the text. -/
theorem echoed_eq_some
    (hsome : ∃ branch ∈ c.branches, value env branch.pattern = some word)
    (htext : ∀ branch ∈ c.branches, value env branch.pattern = some word →
      value env branch.argument = some text) : c.echoed env = some text := by
  obtain ⟨branch, hbranch, hword⟩ := hsome
  have hfound : (c.branches.find? fun branch => value env branch.pattern = some word).isSome := by
    rw [List.find?_isSome]
    exact ⟨branch, hbranch, decide_eq_true hword⟩
  obtain ⟨taken, htaken⟩ := Option.isSome_iff_exists.1 hfound
  have hmatches := List.find?_some htaken
  rw [decide_eq_true_eq] at hmatches
  rw [echoed, hsubject]
  simp only [Option.bind_eq_bind, Option.bind_some, htaken]
  exact htext taken (List.mem_of_find?_eq_some htaken) hmatches

theorem echoed_eq_none
    (hnone : ¬∃ branch ∈ c.branches, value env branch.pattern = some word) :
    c.echoed env = none := by
  have hfound : c.branches.find? (fun branch => value env branch.pattern = some word) = none := by
    rw [List.find?_eq_none]
    intro branch hbranch hword
    exact hnone ⟨branch, hbranch, of_decide_eq_true hword⟩
  rw [echoed, hsubject]
  simp only [Option.bind_eq_bind, Option.bind_some, hfound, Option.bind_none]

end CaseStatement

/-- A branch as it is written. -/
def branchText (pattern argument : List Char) : List Char :=
  "            ".toList ++ ("\"".toList ++ (pattern ++ '"' :: (") echo \"".toList ++
    (argument ++ '"' :: (";;".toList ++ ['\n'])))))

/-- A case statement as it is written. -/
def caseText (subject branches : List Char) : List Char :=
  "\n        ".toList ++ ("case \"".toList ++ (subject ++ '"' :: (" in".toList ++
    '\n' :: (branches ++ ("        ".toList ++ ("esac".toList ++ "\n    ".toList))))))

-- Unfolding by these instead of by name keeps the literals from being decoded.

theorem branchText_eq (pattern argument : List Char) :
    branchText pattern argument = "            ".toList ++ ("\"".toList ++ (pattern ++ '"' ::
      (") echo \"".toList ++ (argument ++ '"' :: (";;".toList ++ ['\n']))))) := rfl

theorem caseText_eq (subject branches : List Char) :
    caseText subject branches = "\n        ".toList ++ ("case \"".toList ++ (subject ++ '"' ::
      (" in".toList ++ '\n' :: (branches ++
        ("        ".toList ++ ("esac".toList ++ "\n    ".toList)))))) := rfl

/-- The branches of a case statement as they are written. -/
def branchesText {α : Type} (pattern argument : α → List Char) (as : List α) : List Char :=
  as.flatMap fun a => branchText (pattern a) (argument a)

theorem readStringAfter_append (start : String) (cs : List Char) :
    readStringAfter start (start.toList ++ cs) = readQuoted cs := by
  rw [readStringAfter, dropPrefix?_append, Option.bind_some]

/-- As a literal unifies with the text of its characters, this skips one without decoding it. -/
theorem skipBlanks_ofList_append {blanks : List Char} (h : blanks.all isBreak = true)
    (cs : List Char) : skipBlanks ((String.ofList blanks).toList ++ cs) = skipBlanks cs := by
  rw [String.toList_ofList]
  exact List.dropWhile_append_of_pos (List.all_eq_true.1 h)

theorem skipBlanks_cons {c : Char} (h : isBreak c = false) (cs : List Char) :
    skipBlanks (c :: cs) = c :: cs :=
  List.dropWhile_cons_of_neg (by simp [h])

theorem readBranches_congr {cs cs' : List Char} (h : skipBlanks cs = skipBlanks cs') :
    readBranches cs = readBranches cs' := by
  rw [readBranches, readBranches, h]

theorem readBranches_newline (cs : List Char) : readBranches ('\n' :: cs) = readBranches cs :=
  readBranches_congr rfl

theorem skipBlanks_branchText (pattern argument rest : List Char) :
    skipBlanks (branchText pattern argument ++ rest) =
      "\"".toList ++ (pattern ++ '"' :: (") echo \"".toList ++
        (argument ++ '"' :: (";;".toList ++ '\n' :: rest)))) := by
  have hindent : ∀ cs, skipBlanks ("            ".toList ++ cs) = skipBlanks cs :=
    skipBlanks_ofList_append rfl
  have hquote : "\"".toList = ['"'] := rfl
  simp only [branchText_eq, List.append_assoc, List.cons_append, List.nil_append]
  rw [hindent, hquote, List.singleton_append,
    skipBlanks_cons rfl]

/-- A branch whose pattern says what is meant ends where it is written to if and only if its text
does. -/
theorem readBranch_branchText_iff {pattern argument : List Char} {signs : List Sign}
    (hpattern : Says pattern signs) {branch : Branch} {later : List Char} :
    readBranch (skipBlanks (branchText pattern argument ++ later)) =
        some (branch, '\n' :: later) ↔
      branch.pattern = signs ∧ readQuoted (argument ++ '"' :: (";;".toList ++ '\n' :: later)) =
        some (branch.argument, ";;".toList ++ '\n' :: later) := by
  simp only [skipBlanks_branchText, readBranch, readStringAfter_append, hpattern _,
    Option.bind_eq_bind, Option.bind_some, Option.bind_eq_some_iff, Option.pure_def]
  constructor
  · rintro ⟨read, hread, rest, hrest, heq⟩
    cases heq
    obtain ⟨mark, hmark, heq⟩ := List.dropPrefix?_eq_some_iff.1 hrest
    rw [eq_of_beq heq] at hmark
    exact ⟨rfl, hmark ▸ hread⟩
  · rintro ⟨rfl, hargument⟩
    exact ⟨_, hargument, '\n' :: later, dropPrefix?_append _ _, rfl⟩

/-- A branch ends where it is written to and its text gives what is written, whatever the values of
variables are, if and only if none of the characters of the text has a meaning. -/
theorem branch_says_iff_verbatim {pattern argument : List Char} {signs : List Sign}
    (hpattern : Says pattern signs) :
    (∀ later, ∃ branch,
      readBranch (skipBlanks (branchText pattern argument ++ later)) =
          some (branch, '\n' :: later) ∧
        branch.pattern = signs ∧ ∀ env, value env branch.argument = some argument) ↔
      Verbatim '"' argument := by
  constructor
  · intro hreads
    obtain ⟨branch, hbranch, -, hvalue⟩ := hreads []
    obtain ⟨-, hread⟩ := (readBranch_branchText_iff hpattern).1 hbranch
    exact (says_iff_verbatim _ _).1 ⟨_, hread, hvalue⟩
  · intro hverbatim later
    obtain ⟨a, hread, hvalue⟩ := (says_iff_verbatim _ (";;".toList ++ '\n' :: later)).2 hverbatim
    have hbranch : readBranch (skipBlanks (branchText pattern argument ++ later)) =
        some (⟨signs, a⟩, '\n' :: later) :=
      (readBranch_branchText_iff hpattern).2 ⟨rfl, hread⟩
    exact ⟨_, hbranch, rfl, hvalue⟩

theorem readBranches_branchText {pattern argument : List Char} {p a : List Sign}
    (hpattern : Says pattern p) (hargument : Says argument a) (rest : List Char) :
    readBranches (branchText pattern argument ++ rest) =
      (readBranches rest).map fun read => (⟨p, a⟩ :: read.1, read.2) := by
  have hquote : "\"".toList = ['"'] := rfl
  have hread : readBranch (skipBlanks (branchText pattern argument ++ rest)) =
      some (⟨p, a⟩, '\n' :: rest) :=
    (readBranch_branchText_iff hpattern).2 ⟨rfl, hargument _⟩
  have hstatement : (skipBlanks (branchText pattern argument ++ rest)).dropPrefix?
      "esac".toList = none := by
    rw [skipBlanks_branchText, hquote]
    rfl
  rw [readBranches, hstatement]
  dsimp only
  split
  · next hnone => rw [hread] at hnone; cases hnone
  · next hsome =>
      rw [hread] at hsome
      cases hsome
      rw [readBranches_newline]

theorem readBranches_end (rest : List Char) :
    readBranches ("        ".toList ++ ("esac".toList ++ rest)) = some ([], rest) := by
  have hindent : ∀ cs, skipBlanks ("        ".toList ++ cs) = skipBlanks cs :=
    skipBlanks_ofList_append rfl
  have hesac : "esac".toList = 'e' :: "sac".toList := by decide
  have hskip : skipBlanks ("        ".toList ++ ("esac".toList ++ rest)) =
      "esac".toList ++ rest := by
    rw [hindent, hesac, List.cons_append,
      skipBlanks_cons rfl]
  rw [readBranches, hskip, dropPrefix?_append]

section Branches

variable {α : Type} {pattern argument : α → List Char} {p a : α → List Sign} {as : List α}

theorem readBranches_branchesText (hpattern : ∀ x ∈ as, Says (pattern x) (p x))
    (hargument : ∀ x ∈ as, Says (argument x) (a x)) (rest : List Char) :
    readBranches (branchesText pattern argument as ++ rest) =
      (readBranches rest).map fun read => (as.map (fun x => ⟨p x, a x⟩) ++ read.1, read.2) := by
  induction as with
  | nil => simp [branchesText]
  | cons x as ih =>
      obtain ⟨hx, hpattern⟩ := List.forall_mem_cons.1 hpattern
      obtain ⟨hx', hargument⟩ := List.forall_mem_cons.1 hargument
      have hcons : branchesText pattern argument (x :: as) ++ rest =
          branchText (pattern x) (argument x) ++ (branchesText pattern argument as ++ rest) := by
        rw [branchesText, List.flatMap_cons, List.append_assoc]
        rfl
      rw [hcons, readBranches_branchText hx hx', ih hpattern hargument, Option.map_map]
      rfl

/-- A case statement whose strings say what is meant is read as it is meant. -/
theorem readCase_caseText {subject : List Char} {s : List Sign} (hsubject : Says subject s)
    (hpattern : ∀ x ∈ as, Says (pattern x) (p x)) (hargument : ∀ x ∈ as, Says (argument x) (a x)) :
    readCase (caseText subject (branchesText pattern argument as)) =
      some ⟨s, as.map fun x => ⟨p x, a x⟩⟩ := by
  have hindent : ∀ cs, skipBlanks ("\n        ".toList ++ cs) = skipBlanks cs :=
    skipBlanks_ofList_append rfl
  have hcase : "case \"".toList = 'c' :: "ase \"".toList := by decide
  have hskip : skipBlanks (caseText subject (branchesText pattern argument as)) =
      "case \"".toList ++ (subject ++ '"' :: (" in".toList ++ '\n' ::
        (branchesText pattern argument as ++
          ("        ".toList ++ ("esac".toList ++ "\n    ".toList))))) := by
    rw [caseText_eq, hindent, hcase, List.cons_append,
      skipBlanks_cons rfl]
  have hend : skipBlanks "\n    ".toList = [] := by decide
  have hbranches := readBranches_branchesText hpattern hargument
    ("        ".toList ++ ("esac".toList ++ "\n    ".toList))
  simp only [readBranches_end, Option.map_some, List.append_nil] at hbranches
  simp only [readCase, hskip, readStringAfter_append, hsubject _, Option.bind_eq_bind,
    Option.bind_some, dropPrefix?_append, readBranches_newline, hbranches, hend, if_true]

end Branches

end LiveTest.Shell
