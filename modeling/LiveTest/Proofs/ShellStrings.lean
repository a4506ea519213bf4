import LiveTest.Editor.Script
import Mathlib.Data.List.Basic
/-!
Double-quoted strings of a shell.  The commands that open a list and the details of a line run
scripts, whose texts stand in double quotes.  There a backslash may take the meaning from the
character after it, and a dollar sign or a backquote may start an expansion.  So an escaped text
gives what it was, and one that is not escaped does so exactly if none of its characters has a
meaning where it stands.
-/

namespace LiveTest.Shell

open Quoting (isShellSpecial inShellQuotes)

/-- What a double-quoted string says. -/
inductive Sign
  /-- A character that stands for itself. -/
  | char (c : Char)
  /-- A dollar sign that no backslash stands before. -/
  | dollar
  /-- A backquote that no backslash stands before. -/
  | backquote
deriving DecidableEq

/-- A character that no backslash stands before. -/
def signOf (c : Char) : Sign :=
  if c = '$' then .dollar else if c = '\x60' then .backquote else .char c

/-- Read the rest of a double-quoted string: what it says, and what follows the quote that ends it.
A backslash vanishes with the end of a line after it, and before a special character. -/
def readQuoted : List Char → Option (List Sign × List Char)
  | [] => none
  | [c] => if c = '"' then some ([], []) else none
  | c :: d :: rest =>
    if c = '"' then some ([], d :: rest)
    else if c = '\\' ∧ d = '\n' then readQuoted rest
    else if c = '\\' ∧ isShellSpecial d then
      (readQuoted rest).map fun read => (.char d :: read.1, read.2)
    else (readQuoted (d :: rest)).map fun read => (signOf c :: read.1, read.2)

theorem readQuoted_quote (rest : List Char) : readQuoted ('"' :: rest) = some ([], rest) := by
  cases rest with
  | nil => rfl
  | cons d rest => rw [readQuoted, if_pos rfl]

theorem readQuoted_escaped {d : Char} (hd : isShellSpecial d = true) (rest : List Char) :
    readQuoted ('\\' :: d :: rest) =
      (readQuoted rest).map fun read => (.char d :: read.1, read.2) := by
  have hline : d ≠ '\n' := by
    rintro rfl
    exact absurd hd (by decide)
  rw [readQuoted, if_neg (by decide), if_neg (fun h => hline h.2), if_pos ⟨rfl, hd⟩]

theorem readQuoted_cons {c d : Char} (hquote : c ≠ '"')
    (hescape : ¬(c = '\\' ∧ (d = '\n' ∨ isShellSpecial d = true))) (rest : List Char) :
    readQuoted (c :: d :: rest) =
      (readQuoted (d :: rest)).map fun read => (signOf c :: read.1, read.2) := by
  rw [readQuoted, if_neg hquote, if_neg (fun h => hescape ⟨h.1, .inl h.2⟩),
    if_neg (fun h => hescape ⟨h.1, .inr h.2⟩)]

theorem signOf_of_not_special {c : Char} (hc : isShellSpecial c = false) :
    signOf c = .char c := by
  simp only [isShellSpecial, Bool.or_eq_false_iff, decide_eq_false_iff_not] at hc
  rw [signOf, if_neg hc.1.2, if_neg hc.2]

theorem readQuoted_of_not_special {c : Char} (hc : isShellSpecial c = false) (rest : List Char) :
    readQuoted (c :: rest) =
      (readQuoted rest).map fun read => (.char c :: read.1, read.2) := by
  have hsign := signOf_of_not_special hc
  simp only [isShellSpecial, Bool.or_eq_false_iff, decide_eq_false_iff_not] at hc
  cases rest with
  | nil => simp [readQuoted, hc.1.1.2]
  | cons d rest =>
      rw [readQuoted_cons hc.1.1.2 (fun h => hc.1.1.1 h.1), hsign]

/-- Between double quotes, what is written says these signs. -/
def Says (written : List Char) (signs : List Sign) : Prop :=
  ∀ rest, readQuoted (written ++ '"' :: rest) = some (signs, rest)

/-- Escaped text says what it was. -/
theorem says_inShellQuotes (cs : List Char) : Says (cs.flatMap inShellQuotes) (cs.map .char) := by
  intro rest
  induction cs with
  | nil => exact readQuoted_quote rest
  | cons c cs ih =>
      rw [List.flatMap_cons, List.append_assoc, inShellQuotes]
      cases hc : isShellSpecial c with
      | true =>
          rw [if_pos rfl, List.cons_append, List.cons_append, List.nil_append,
            readQuoted_escaped hc, ih]
          rfl
      | false =>
          rw [if_neg (by decide), List.cons_append, List.nil_append,
            readQuoted_of_not_special hc, ih]
          rfl

/-- A text without quotes and backslashes ends at the quote after it. -/
theorem says_map_signOf {cs : List Char} (h : cs.all (fun c => c ≠ '"' ∧ c ≠ '\\') = true) :
    Says cs (cs.map signOf) := by
  intro rest
  induction cs with
  | nil => exact readQuoted_quote rest
  | cons c cs ih =>
      rw [List.all_cons, Bool.and_eq_true, decide_eq_true_eq] at h
      obtain ⟨⟨hquote, hbackslash⟩, hcs⟩ := h
      obtain ⟨d, tail, htail⟩ := List.exists_cons_of_ne_nil
        (List.append_ne_nil_of_right_ne_nil cs (List.cons_ne_nil '"' rest))
      rw [List.cons_append, htail, readQuoted_cons hquote (fun hescape => hbackslash hescape.1),
        ← htail, ih hcs]
      rfl

/-- A text has no special characters. -/
def Inert (cs : List Char) : Prop := ∀ c ∈ cs, isShellSpecial c = false

/-- A literal unifies with the text of its characters, so that this finds out without decoding
it. -/
theorem inert_ofList {cs : List Char} (h : cs.all (fun c => !isShellSpecial c) = true) :
    Inert (String.ofList cs).toList := by
  rw [String.toList_ofList]
  intro c hc
  have hnot := List.all_eq_true.1 h c hc
  rwa [Bool.not_eq_true'] at hnot

@[simp] theorem inert_append {as bs : List Char} : Inert (as ++ bs) ↔ Inert as ∧ Inert bs := by
  simp [Inert, or_imp, forall_and]

theorem inert_of_isDigit {cs : List Char} (h : ∀ c ∈ cs, c.isDigit = true) : Inert cs := by
  intro c hc
  have hdigit := h c hc
  by_contra hspecial
  simp only [isShellSpecial, Bool.not_eq_false, Bool.or_eq_true, decide_eq_true_eq] at hspecial
  rcases hspecial with ((rfl | rfl) | rfl) | rfl <;> exact absurd hdigit (by decide)

theorem Inert.map_signOf {cs : List Char} (h : Inert cs) : cs.map signOf = cs.map .char :=
  List.map_congr_left fun c hc => signOf_of_not_special (h c hc)

/-- A text without special characters says what is written. -/
theorem says_of_inert {cs : List Char} (h : Inert cs) : Says cs (cs.map .char) := by
  rw [← h.map_signOf]
  apply says_map_signOf
  rw [List.all_eq_true]
  intro c hc
  have hspecial := h c hc
  simp only [isShellSpecial, Bool.or_eq_false_iff, decide_eq_false_iff_not] at hspecial
  exact decide_eq_true ⟨hspecial.1.1.2, hspecial.1.1.1⟩

/-- A string says no more signs than it has characters, and ends with a quote. -/
theorem length_add_lt_of_readQuoted {cs : List Char} {signs : List Sign} {later : List Char}
    (h : readQuoted cs = some (signs, later)) : signs.length + later.length < cs.length := by
  fun_induction readQuoted cs generalizing signs with
  | case1 => cases h
  | case2 => cases h; exact Nat.one_pos
  | case3 => cases h
  | case4 d rest =>
      cases h
      rw [List.length_nil, Nat.zero_add]
      exact Nat.lt_succ_self _
  | case5 c d rest _ _ ih =>
      have hlt := ih h
      simp only [List.length_cons]
      omega
  | case6 c d rest _ _ _ ih =>
      obtain ⟨read, hread, heq⟩ := Option.map_eq_some_iff.1 h
      cases heq
      have hlt := ih hread
      simp only [List.length_cons]
      omega
  | case7 c d rest _ _ _ ih =>
      obtain ⟨read, hread, heq⟩ := Option.map_eq_some_iff.1 h
      cases heq
      have hlt := ih hread
      simp only [List.length_cons] at hlt ⊢
      omega

/-- A character of the name of a variable. -/
def isNameChar (c : Char) : Bool := c.isAlphanum || c = '_'

/-- A character that stands for a parameter, or starts an expansion of another kind. -/
def isParameterMark (c : Char) : Bool :=
  c ∈ ['@', '*', '#', '?', '-', '!', '\x7b', '(']

/-- What starts an expansion after a dollar sign.  Before anything else it stands for itself. -/
def Sign.startsExpansion : Sign → Bool
  | .char c => isNameChar c || isParameterMark c
  | .dollar => true
  | .backquote => false

/-- The name of a variable starts there. -/
def Sign.startsName : Sign → Bool
  | .char c => isNameChar c && !c.isDigit
  | .dollar | .backquote => false

/-- The characters of a name at the start of a string. -/
def leadingName : List Sign → List Char
  | .char c :: rest => if isNameChar c then c :: leadingName rest else []
  | _ => []

/-- What a string gives with these values of variables.  Expansions of other kinds are not carried
out. -/
def value (env : String → List Char) (signs : List Sign) : Option (List Char) :=
  match signs with
  | [] => some []
  | .char c :: rest => (value env rest).map (c :: ·)
  | .backquote :: _ => none
  | .dollar :: rest =>
    if rest.head?.any Sign.startsName then
      (value env (rest.drop (leadingName rest).length)).map
        (env (String.ofList (leadingName rest)) ++ ·)
    else if rest.head?.any Sign.startsExpansion then none
    else (value env rest).map ('$' :: ·)
termination_by signs.length
decreasing_by
  · exact Nat.lt_succ_self _
  · exact Nat.lt_succ_of_le (List.length_drop ▸ Nat.sub_le _ _)
  · exact Nat.lt_succ_self _

section Values

variable {env : String → List Char}

theorem value_nil : value env [] = some [] := by
  rw [value]

theorem value_char (c : Char) (rest : List Sign) :
    value env (.char c :: rest) = (value env rest).map (c :: ·) := by
  rw [value]

theorem value_map_char_append (cs : List Char) (rest : List Sign) :
    value env (cs.map .char ++ rest) = (value env rest).map (cs ++ ·) := by
  induction cs with
  | nil => simp
  | cons c cs ih =>
      rw [List.map_cons, List.cons_append, value_char, ih, Option.map_map]
      rfl

theorem value_map_char (cs : List Char) : value env (cs.map .char) = some cs := by
  rw [← List.append_nil (cs.map _), value_map_char_append, value_nil, Option.map_some,
    List.append_nil]

/-- The name of a variable ends where it is meant to. -/
theorem leadingName_append {name : List Char} (hname : name.all isNameChar = true)
    {rest : List Sign} (hrest : leadingName rest = []) :
    leadingName (name.map .char ++ rest) = name := by
  induction name with
  | nil => exact hrest
  | cons c name ih =>
      rw [List.all_cons, Bool.and_eq_true] at hname
      obtain ⟨hc, hname⟩ := hname
      rw [List.map_cons, List.cons_append, leadingName, if_pos hc, ih hname]

theorem value_variable {name : List Char}
    (hstart : (name.map Sign.char).head?.any Sign.startsName = true)
    (hname : name.all isNameChar = true) {rest : List Sign} (hrest : leadingName rest = []) :
    value env (.dollar :: (name.map .char ++ rest)) =
      (value env rest).map (env (String.ofList name) ++ ·) := by
  have hhead : (name.map Sign.char ++ rest).head?.any Sign.startsName = true := by
    cases name with
    | nil => cases hstart
    | cons c name => exact hstart
  have hdrop : (name.map Sign.char ++ rest).drop name.length = rest := by
    rw [← List.length_map (f := Sign.char), List.drop_left]
  rw [value, if_pos hhead, leadingName_append hname hrest, hdrop]

/-- Without values of variables a string gives no more characters than it says. -/
theorem length_le_of_value {signs : List Sign} {cs : List Char}
    (h : value (fun _ => []) signs = some cs) : cs.length ≤ signs.length := by
  fun_induction value (fun _ => []) signs generalizing cs with
  | case1 => cases h; exact Nat.le_refl 0
  | case2 c rest ih =>
      obtain ⟨later, hlater, rfl⟩ := Option.map_eq_some_iff.1 h
      exact Nat.succ_le_succ (ih hlater)
  | case3 => cases h
  | case4 rest _ ih =>
      obtain ⟨later, hlater, rfl⟩ := Option.map_eq_some_iff.1 h
      have hle := ih hlater
      rw [List.length_drop] at hle
      rw [List.nil_append, List.length_cons]
      omega
  | case5 => cases h
  | case6 rest _ _ ih =>
      obtain ⟨later, hlater, rfl⟩ := Option.map_eq_some_iff.1 h
      exact Nat.succ_le_succ (ih hlater)

end Values

/-- Whether a character has a meaning between double quotes, before the character `next`. -/
def hasMeaning (c next : Char) : Bool :=
  c = '"' || (c = '\\' && (next = '\n' || isShellSpecial next)) ||
    c = '\x60' || (c = '$' && (signOf next).startsExpansion)

/-- No character of a text has a meaning between double quotes where `next` follows the text. -/
def Verbatim (next : Char) : List Char → Prop
  | [] => True
  | c :: rest => hasMeaning c (rest.headD next) = false ∧ Verbatim next rest

instance decidableVerbatim (next : Char) : (cs : List Char) → Decidable (Verbatim next cs)
  | [] => inferInstanceAs (Decidable True)
  | c :: rest =>
    have := decidableVerbatim next rest
    inferInstanceAs (Decidable (hasMeaning c (rest.headD next) = false ∧ Verbatim next rest))

theorem verbatim_append {next : Char} {as bs : List Char} :
    Verbatim next (as ++ bs) ↔ Verbatim (bs.headD next) as ∧ Verbatim next bs := by
  induction as with
  | nil => simp [Verbatim]
  | cons c as ih =>
      have hhead : (as ++ bs).headD next = as.headD (bs.headD next) := by
        cases as <;> rfl
      rw [List.cons_append, Verbatim, Verbatim, ih, hhead, and_assoc]

theorem hasMeaning_of_not_special {c : Char} (hc : isShellSpecial c = false) (next : Char) :
    hasMeaning c next = false := by
  simp only [isShellSpecial, Bool.or_eq_false_iff, decide_eq_false_iff_not] at hc
  simp [hasMeaning, hc.1.1.1, hc.1.1.2, hc.1.2, hc.2]

/-- A text without special characters is read as it is, whatever follows it. -/
theorem Inert.verbatim {cs : List Char} (h : Inert cs) (next : Char) : Verbatim next cs := by
  induction cs with
  | nil => trivial
  | cons c cs ih =>
      obtain ⟨hc, hcs⟩ := List.forall_mem_cons.1 h
      exact ⟨hasMeaning_of_not_special hc _, ih hcs⟩

section Reading

variable {c next : Char}

theorem hasMeaning_eq_false_iff :
    hasMeaning c next = false ↔
      c ≠ '"' ∧ ¬(c = '\\' ∧ (next = '\n' ∨ isShellSpecial next = true)) ∧ c ≠ '\x60' ∧
        (c = '$' → (signOf next).startsExpansion = false) := by
  simp only [hasMeaning, Bool.or_eq_false_iff, Bool.and_eq_false_imp, decide_eq_true_eq,
    decide_eq_false_iff_not, Ne, not_and, not_or, Bool.not_eq_true, and_assoc]

theorem readQuoted_of_not_hasMeaning {rest : List Char} (h : hasMeaning c (rest.headD '"') = false) :
    readQuoted (c :: rest) = (readQuoted rest).map fun read => (signOf c :: read.1, read.2) := by
  obtain ⟨hquote, hescape, -⟩ := hasMeaning_eq_false_iff.1 h
  cases rest with
  | nil => simp [readQuoted, hquote]
  | cons d rest => exact readQuoted_cons hquote hescape rest

/-- An escape says less than is written. -/
theorem length_add_lt_of_escape (hnext : next = '\n' ∨ isShellSpecial next = true)
    {rest later : List Char} {signs : List Sign}
    (h : readQuoted ('\\' :: next :: rest) = some (signs, later)) :
    signs.length + later.length < (next :: rest).length := by
  rw [List.length_cons]
  rcases hnext with rfl | hnext
  · rw [readQuoted, if_neg (by decide), if_pos ⟨rfl, rfl⟩] at h
    exact Nat.lt_succ_of_lt (length_add_lt_of_readQuoted h)
  · rw [readQuoted_escaped hnext] at h
    obtain ⟨read, hread, heq⟩ := Option.map_eq_some_iff.1 h
    cases heq
    have hlt := length_add_lt_of_readQuoted hread
    rw [List.length_cons]
    omega

end Reading

theorem startsExpansion_of_startsName {g : Sign} (h : g.startsName = true) :
    g.startsExpansion = true := by
  cases g with
  | char c =>
      rw [Sign.startsName, Bool.and_eq_true] at h
      rw [Sign.startsExpansion, h.1, Bool.true_or]
  | dollar => rfl
  | backquote => cases h

/-- A dollar sign that starts no expansion stands for itself. -/
theorem value_dollar {env : String → List Char} {rest : List Sign}
    (h : rest.head?.any Sign.startsExpansion = false) :
    value env (.dollar :: rest) = (value env rest).map ('$' :: ·) := by
  have hname : ¬rest.head?.any Sign.startsName = true := by
    intro hname
    obtain ⟨g, hg, hstarts⟩ := Option.any_eq_true _ _ |>.1 hname
    rw [hg, Option.any_some, startsExpansion_of_startsName hstarts] at h
    cases h
  rw [value, if_neg hname, if_neg (by simp [h])]

/-- Where no variable has a value, a character that gives one starts no expansion. -/
theorem of_value_signOf {c : Char} {rest : List Sign} {said : List Char}
    (h : value (fun _ => []) (signOf c :: rest) = some said) (hlength : rest.length < said.length) :
    c ≠ '\x60' ∧ (c = '$' → rest.head?.any Sign.startsExpansion = false) ∧
      ∃ later, value (fun _ => []) rest = some later ∧ said = c :: later := by
  rw [signOf] at h
  split at h
  · next hdollar =>
      subst hdollar
      rw [value] at h
      split at h
      · obtain ⟨later, hlater, rfl⟩ := Option.map_eq_some_iff.1 h
        have hle := length_le_of_value hlater
        rw [List.length_drop] at hle
        rw [List.nil_append] at hlength
        omega
      · split at h
        · cases h
        · next hstarts =>
            obtain ⟨later, hlater, rfl⟩ := Option.map_eq_some_iff.1 h
            exact ⟨by decide, fun _ => Bool.eq_false_iff.2 hstarts, later, hlater, rfl⟩
  · next hdollar =>
      split at h
      · rw [value] at h
        cases h
      · next hbackquote =>
          rw [value_char] at h
          obtain ⟨later, hlater, rfl⟩ := Option.map_eq_some_iff.1 h
          exact ⟨hbackquote, fun hc => absurd hc hdollar, later, hlater, rfl⟩

/-- What follows a dollar sign starts an expansion, or does not, as the next character says. -/
theorem any_head?_map_signOf (cs : List Char) :
    (cs.map signOf).head?.any Sign.startsExpansion =
      (signOf (cs.headD '"')).startsExpansion := by
  cases cs with
  | nil => decide
  | cons c cs => rfl

theorem value_map_signOf {env : String → List Char} {cs : List Char} (h : Verbatim '"' cs) :
    value env (cs.map signOf) = some cs := by
  induction cs with
  | nil => exact value_nil
  | cons c cs ih =>
      obtain ⟨hc, hcs⟩ := h
      obtain ⟨-, -, hbackquote, hdollar⟩ := hasMeaning_eq_false_iff.1 hc
      rw [List.map_cons, signOf]
      by_cases heq : c = '$'
      · rw [if_pos heq, value_dollar, ih hcs, heq]
        · rfl
        · rw [any_head?_map_signOf]
          exact hdollar heq
      · rw [if_neg heq, if_neg hbackquote, value_char, ih hcs]
        rfl

theorem says_of_verbatim {cs : List Char} (h : Verbatim '"' cs) : Says cs (cs.map signOf) := by
  intro rest
  induction cs with
  | nil => exact readQuoted_quote rest
  | cons c cs ih =>
      obtain ⟨hc, hcs⟩ := h
      have hhead : (cs ++ '"' :: rest).headD '"' = cs.headD '"' := by
        cases cs <;> rfl
      rw [List.cons_append, readQuoted_of_not_hasMeaning (hhead ▸ hc), ih hcs]
      rfl

/-- A character of a string that says as much as is written neither ends the string nor takes the
meaning from the next one. -/
theorem of_readQuoted_cons {c : Char} {cs rest : List Char} {signs : List Sign}
    (h : readQuoted (c :: (cs ++ '"' :: rest)) = some (signs, rest))
    (hlength : cs.length < signs.length) :
    c ≠ '"' ∧ ¬(c = '\\' ∧ (cs.headD '"' = '\n' ∨ isShellSpecial (cs.headD '"') = true)) ∧
      ∃ later, readQuoted (cs ++ '"' :: rest) = some (later, rest) ∧
        signs = signOf c :: later := by
  obtain ⟨tail, htail⟩ : ∃ tail, cs ++ '"' :: rest = cs.headD '"' :: tail := by
    cases cs with
    | nil => exact ⟨rest, rfl⟩
    | cons d cs => exact ⟨cs ++ '"' :: rest, rfl⟩
  have hquote : c ≠ '"' := by
    rintro rfl
    rw [readQuoted_quote, Option.some.injEq, Prod.mk.injEq] at h
    rw [← h.1] at hlength
    exact absurd hlength (Nat.not_lt_zero _)
  have hescape : ¬(c = '\\' ∧ (cs.headD '"' = '\n' ∨ isShellSpecial (cs.headD '"') = true)) := by
    rintro ⟨rfl, hnext⟩
    rw [htail] at h
    have hlt := length_add_lt_of_escape hnext h
    rw [← htail, List.length_append, List.length_cons] at hlt
    omega
  refine ⟨hquote, hescape, ?_⟩
  rw [htail, readQuoted_cons hquote hescape, ← htail] at h
  obtain ⟨read, hread, heq⟩ := Option.map_eq_some_iff.1 h
  rw [Prod.mk.injEq] at heq
  exact ⟨read.1, heq.2 ▸ hread, heq.1.symm⟩

/-- A text that loses nothing is read as it is written. -/
theorem verbatim_of_readQuoted {cs rest : List Char} {signs : List Sign} {said : List Char}
    (hread : readQuoted (cs ++ '"' :: rest) = some (signs, rest))
    (hvalue : value (fun _ => []) signs = some said) (hlength : cs.length ≤ said.length) :
    signs = cs.map signOf ∧ Verbatim '"' cs := by
  induction cs generalizing signs said with
  | nil =>
      rw [List.nil_append, readQuoted_quote] at hread
      cases hread
      exact ⟨rfl, trivial⟩
  | cons c cs ih =>
      have hsaid : said.length ≤ signs.length := length_le_of_value hvalue
      have hsigns : signs.length ≤ cs.length + 1 := by
        have hlt := length_add_lt_of_readQuoted hread
        simp only [List.length_append, List.length_cons] at hlt
        omega
      rw [List.length_cons] at hlength
      obtain ⟨hquote, hescape, later, hlater, rfl⟩ := of_readQuoted_cons hread (by omega)
      rw [List.length_cons] at hsigns
      obtain ⟨hbackquote, hdollar, text, htext, rfl⟩ := of_value_signOf hvalue (by omega)
      rw [List.length_cons] at hlength
      obtain ⟨rfl, hcs⟩ := ih hlater htext (by omega)
      rw [any_head?_map_signOf] at hdollar
      exact ⟨rfl, hasMeaning_eq_false_iff.2 ⟨hquote, hescape, hbackquote, hdollar⟩, hcs⟩

/-- Where a quote follows it, a text ends with that quote and gives what is written, whatever the
values of variables are, if and only if none of its characters has a meaning. -/
theorem says_iff_verbatim (cs rest : List Char) :
    (∃ signs, readQuoted (cs ++ '"' :: rest) = some (signs, rest) ∧
      ∀ env, value env signs = some cs) ↔ Verbatim '"' cs := by
  constructor
  · rintro ⟨signs, hread, hvalue⟩
    exact (verbatim_of_readQuoted hread (hvalue _) (Nat.le_refl _)).2
  · intro hverbatim
    exact ⟨_, says_of_verbatim hverbatim rest, fun _ => value_map_signOf hverbatim⟩

end LiveTest.Shell
