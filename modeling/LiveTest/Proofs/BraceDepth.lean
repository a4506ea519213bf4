import LiveTest.Editor.Script
import Mathlib.Algebra.BigOperators.Group.List.Basic
/-!
Strings between braces.  The editor reads a string that starts with a per cent sign and an opening
brace up to the closing brace that balances it.  Quotes and backslashes make no difference to that,
so all that counts of a text is its effect on the depth.  Effects form a monoid, and the ways of
quoting a text do not change its effect.
-/

namespace LiveTest.Braces

def openBrace : Char := '\x7b'

def closeBrace : Char := '\x7d'

/-- The effect of a text on the depth: it closes some braces that were open before it, and it
leaves some of its own open. -/
@[ext] structure Effect where
  closes : Nat
  opens : Nat
deriving DecidableEq

namespace Effect

instance : One Effect := ⟨⟨0, 0⟩⟩

/-- The second text closes what the first one left open before it closes anything else. -/
instance : Mul Effect :=
  ⟨fun a b => ⟨a.closes + (b.closes - a.opens), b.opens + (a.opens - b.closes)⟩⟩

@[simp] theorem closes_one : (1 : Effect).closes = 0 := rfl

@[simp] theorem opens_one : (1 : Effect).opens = 0 := rfl

@[simp] theorem closes_mul (a b : Effect) :
    (a * b).closes = a.closes + (b.closes - a.opens) := rfl

@[simp] theorem opens_mul (a b : Effect) :
    (a * b).opens = b.opens + (a.opens - b.closes) := rfl

instance : Monoid Effect where
  mul_assoc a b c := by
    ext
    · simp only [closes_mul, opens_mul]
      omega
    · simp only [closes_mul, opens_mul]
      omega
  one_mul a := by ext <;> simp
  mul_one a := by ext <;> simp

/-- The effect of an opening brace. -/
def opening : Effect := ⟨0, 1⟩

/-- The effect of a closing brace. -/
def closing : Effect := ⟨1, 0⟩

@[simp] theorem opening_mul_closing_mul (e : Effect) : opening * (closing * e) = e := by
  have hpair : opening * closing = 1 := rfl
  rw [← mul_assoc, hpair, one_mul]

/-- What has this effect leads from the depth `d` back to it and to no negative depth between. -/
def Keeps (d : Nat) (e : Effect) : Prop := e.closes ≤ d ∧ e.opens = e.closes

theorem Keeps.mul {d : Nat} {a b : Effect} (ha : a.Keeps d) (hb : b.Keeps d) :
    (a * b).Keeps d := by
  obtain ⟨hacloses, haopens⟩ := ha
  obtain ⟨hbcloses, hbopens⟩ := hb
  constructor
  · rw [closes_mul]
    omega
  · rw [closes_mul, opens_mul]
    omega

theorem Keeps.pow {d : Nat} {e : Effect} (he : e.Keeps d) (n : Nat) : (e ^ n).Keeps d := by
  induction n with
  | zero => exact ⟨Nat.zero_le d, rfl⟩
  | succ n ih =>
      rw [pow_succ]
      exact ih.mul he

/-- Braces are neither lost nor made by repetition. -/
theorem opens_pow_add (e : Effect) (n : Nat) :
    (e ^ n).opens + n * e.closes = (e ^ n).closes + n * e.opens := by
  induction n with
  | zero => simp
  | succ n ih =>
      rw [pow_succ, opens_mul, closes_mul, Nat.succ_mul, Nat.succ_mul]
      omega

/-- Repetition keeps the depth exactly if one time does. -/
theorem keeps_pow_succ_iff {d : Nat} {e : Effect} (n : Nat) :
    (e ^ (n + 1)).Keeps d ↔ e.Keeps d := by
  constructor
  · rintro ⟨hcloses, hopens⟩
    have hcount := opens_pow_add e (n + 1)
    rw [hopens, Nat.add_left_cancel_iff] at hcount
    rw [pow_succ', closes_mul] at hcloses
    exact ⟨by omega, (Nat.eq_of_mul_eq_mul_left n.succ_pos hcount).symm⟩
  · exact fun he => he.pow (n + 1)

theorem opening_mul_mul_closing_iff (e : Effect) :
    opening * e * closing = 1 ↔ e.Keeps 1 := by
  simp only [Effect.ext_iff, Keeps, opening, closing, closes_mul, opens_mul, closes_one, opens_one]
  omega

end Effect

open Effect (opening closing)

/-- The effect of a character. -/
def charEffect (c : Char) : Effect :=
  if c = openBrace then opening else if c = closeBrace then closing else 1

@[simp] theorem charEffect_openBrace : charEffect openBrace = opening := rfl

@[simp] theorem charEffect_closeBrace : charEffect closeBrace = closing := rfl

/-- The effect of a text. -/
def effect (cs : List Char) : Effect := (cs.map charEffect).prod

/-- Every brace of the text has its partner in the text. -/
def Paired (cs : List Char) : Prop := effect cs = 1

instance (cs : List Char) : Decidable (Paired cs) :=
  inferInstanceAs (Decidable (effect cs = 1))

@[simp] theorem effect_nil : effect [] = 1 := rfl

@[simp] theorem effect_cons (c : Char) (cs : List Char) :
    effect (c :: cs) = charEffect c * effect cs := by
  simp [effect]

@[simp] theorem effect_append (as bs : List Char) :
    effect (as ++ bs) = effect as * effect bs := by
  simp [effect]

theorem effect_flatMap {α : Type} (f : α → List Char) (as : List α) :
    effect (as.flatMap f) = (as.map fun a => effect (f a)).prod := by
  induction as with
  | nil => rfl
  | cons a rest ih => simp [ih]

/-- Writing every character in a way that keeps its effect keeps the effect of the text. -/
theorem effect_flatMap_of_charEffect {f : Char → List Char}
    (h : ∀ c, effect (f c) = charEffect c) (cs : List Char) :
    effect (cs.flatMap f) = effect cs := by
  rw [effect_flatMap, List.map_congr_left fun c _ => h c, effect]

theorem charEffect_eq_one {c : Char} (hopen : c ≠ openBrace) (hclose : c ≠ closeBrace) :
    charEffect c = 1 := by
  rw [charEffect, if_neg hopen, if_neg hclose]

theorem effect_eq_one {cs : List Char} (h : ∀ c ∈ cs, charEffect c = 1) : effect cs = 1 := by
  apply List.prod_eq_one
  intro e he
  obtain ⟨c, hc, rfl⟩ := List.mem_map.1 he
  exact h c hc

/-- The number of braces open inside the string after a character, unless the character closes the
string itself. -/
def stepDepth (d : Nat) (c : Char) : Option Nat :=
  if c = openBrace then some (d + 1)
  else if c = closeBrace then if d = 0 then none else some (d - 1)
  else some d

/-- Read the rest of a string with this many braces open inside it: the text up to the brace that
closes the string, and what follows the brace. -/
def readBraced : Nat → List Char → Option (List Char × List Char)
  | _, [] => none
  | d, c :: rest =>
    match stepDepth d c with
    | none => some ([], rest)
    | some e => (readBraced e rest).map fun read => (c :: read.1, read.2)

theorem stepDepth_closeBrace_iff {d : Nat} : stepDepth d closeBrace = none ↔ d = 0 := by
  simp [stepDepth, openBrace, closeBrace]

/-- A character and a text after it close a string at a depth together if the text does so at the
depth after the character. -/
theorem charEffect_mul_eq_iff (d : Nat) (c : Char) (e : Effect) :
    charEffect c * e = ⟨d, 0⟩ ↔ ∃ d', stepDepth d c = some d' ∧ e = ⟨d', 0⟩ := by
  rw [charEffect, stepDepth]
  split
  · simp only [Effect.ext_iff, opening, Effect.closes_mul, Effect.opens_mul, Option.some.injEq,
      exists_eq_left']
    omega
  · split
    · by_cases hd : d = 0
      · simp [Effect.ext_iff, closing, hd]
      · simp only [Effect.ext_iff, closing, Effect.closes_mul, Effect.opens_mul, if_neg hd,
          Option.some.injEq, exists_eq_left']
        omega
    · simp

/-- A string ends at the brace that is written after its body exactly if the body closes what was
open and nothing else. -/
theorem readBraced_append_iff (d : Nat) (body rest : List Char) :
    readBraced d (body ++ closeBrace :: rest) = some (body, rest) ↔ effect body = ⟨d, 0⟩ := by
  induction body generalizing d with
  | nil =>
      rw [List.nil_append, readBraced]
      by_cases hd : d = 0
      · rw [stepDepth_closeBrace_iff.2 hd, hd]
        exact iff_of_true rfl rfl
      · obtain ⟨e, he⟩ := Option.ne_none_iff_exists'.1 fun h => hd (stepDepth_closeBrace_iff.1 h)
        simp [he, Effect.ext_iff, Ne.symm hd]
  | cons c body ih =>
      rw [List.cons_append, readBraced, effect_cons, charEffect_mul_eq_iff]
      cases hstep : stepDepth d c with
      | none => simp
      | some e => simp [← ih, Prod.ext_iff]

theorem eq_closeBrace_of_stepDepth {d : Nat} {c : Char} (h : stepDepth d c = none) :
    c = closeBrace := by
  rw [stepDepth] at h
  split at h
  · cases h
  · split at h
    · assumption
    · cases h

/-- What is read of a string is what stands before the brace that closes it. -/
theorem eq_append_of_readBraced {d : Nat} {cs string later : List Char}
    (h : readBraced d cs = some (string, later)) : cs = string ++ closeBrace :: later := by
  induction cs generalizing d string with
  | nil => cases h
  | cons c cs ih =>
      rw [readBraced] at h
      cases hstep : stepDepth d c with
      | none =>
          rw [hstep] at h
          cases h
          rw [eq_closeBrace_of_stepDepth hstep]
          rfl
      | some e =>
          rw [hstep] at h
          obtain ⟨read, hread, heq⟩ := Option.map_eq_some_iff.1 h
          cases heq
          rw [ih hread]
          rfl

/-- A string says what is written exactly if its body closes what was open and nothing else. -/
theorem map_fst_readBraced_iff (d : Nat) (body rest : List Char) :
    (readBraced d (body ++ closeBrace :: rest)).map Prod.fst = some body ↔
      effect body = ⟨d, 0⟩ := by
  rw [← readBraced_append_iff d body rest]
  constructor
  · intro hfst
    obtain ⟨⟨string, later⟩, hread, rfl⟩ := Option.map_eq_some_iff.1 hfst
    have hlater := List.append_cancel_left (eq_append_of_readBraced hread)
    rw [hread, (List.cons.inj hlater).2]
  · intro hread
    rw [hread]
    rfl

section Quoting

open Quoting

theorem effect_doubleQuoteMark (c : Char) : effect (doubleQuoteMark c) = charEffect c := by
  rw [doubleQuoteMark]
  split
  · next hc => rw [hc]; rfl
  · simp

theorem effect_inDoubleQuotes (c : Char) : effect (inDoubleQuotes c) = charEffect c := by
  rw [inDoubleQuotes]
  split
  · next hc => rcases hc with rfl | rfl <;> rfl
  · simp

theorem effect_inBars (c : Char) : effect (inBars c) = charEffect c := by
  rw [inBars]
  split
  · next hc => rw [hc]; rfl
  · simp

theorem effect_inShellQuotes (c : Char) : effect (inShellQuotes c) = charEffect c := by
  have hbackslash : charEffect '\\' = 1 := by decide
  rw [inShellQuotes]
  split <;> simp [hbackslash]

theorem effect_inLineSpec (c : Char) : effect (inLineSpec c) = charEffect c := by
  rw [inLineSpec]
  split_ifs with hbackslash hquote hpercent hbrace hbar
  · rw [hbackslash]; rfl
  · rw [hquote]; rfl
  · rw [hpercent]; rfl
  · rw [hbrace]; rfl
  · rw [hbar]; rfl
  · simp

end Quoting

/-- The effect of a text that is given as a string. -/
def textEffect (s : String) : Effect := effect s.toList

@[simp] theorem effect_toList (s : String) : effect s.toList = textEffect s := rfl

/-- A literal unifies with the text of its characters, so that this finds its effect without
decoding it. -/
theorem textEffect_ofList {cs : List Char} {e : Effect} (h : effect cs = e) :
    textEffect (String.ofList cs) = e := by
  rw [textEffect, String.toList_ofList, h]

@[simp] theorem textEffect_append (s t : String) :
    textEffect (s ++ t) = textEffect s * textEffect t := by
  rw [textEffect, String.toList_append, effect_append, textEffect, textEffect]

theorem textEffect_substitute {f : Char → List Char} (h : ∀ c, effect (f c) = charEffect c)
    (s : String) : textEffect (Text.substitute f s) = textEffect s := by
  rw [textEffect, Text.substitute, String.toList_ofList, effect_flatMap_of_charEffect h, textEffect]

theorem textEffect_between_quotes (s : String) : textEffect ("\"" ++ s ++ "\"") = textEffect s := by
  have hquote : textEffect "\"" = 1 := textEffect_ofList rfl
  rw [textEffect_append, textEffect_append, hquote, one_mul, mul_one]

@[simp] theorem textEffect_doubleQuoted (s : String) :
    textEffect (Quoting.doubleQuoted s) = textEffect s := by
  rw [Quoting.doubleQuoted, textEffect_between_quotes, textEffect_substitute effect_inDoubleQuotes]

@[simp] theorem textEffect_shellQuoted (s : String) :
    textEffect (Quoting.shellQuoted s) = textEffect s := by
  rw [Quoting.shellQuoted, textEffect_between_quotes, textEffect_substitute effect_inShellQuotes]

@[simp] theorem textEffect_barred (s : String) : textEffect (Quoting.barred s) = textEffect s :=
  textEffect_substitute effect_inBars s

@[simp] theorem textEffect_lineSpecText (s : String) :
    textEffect (Quoting.lineSpecText s) = textEffect s :=
  textEffect_substitute effect_inLineSpec s

@[simp] theorem textEffect_newline : textEffect "\n" = 1 := textEffect_ofList rfl

theorem charEffect_digitChar (n : Nat) : charEffect (Nat.digitChar n) = 1 :=
  charEffect_eq_one (Nat.digitChar_ne openBrace (by decide))
    (Nat.digitChar_ne closeBrace (by decide))

theorem charEffect_of_isDigit {c : Char} (hc : c.isDigit = true) : charEffect c = 1 := by
  apply charEffect_eq_one
  · rintro rfl
    exact absurd hc (by decide)
  · rintro rfl
    exact absurd hc (by decide)

@[simp] theorem textEffect_repr_nat (n : Nat) : textEffect n.repr = 1 := by
  rw [textEffect, Nat.repr_eq_ofList_toDigits, String.toList_ofList]
  exact effect_eq_one fun c hc =>
    charEffect_of_isDigit (Nat.isDigit_of_mem_toDigits (by decide) (by decide) hc)

@[simp] theorem textEffect_repr_int (n : Int) : textEffect n.repr = 1 := by
  cases n with
  | ofNat n => exact textEffect_repr_nat n
  | negSucc n =>
      have hsign : textEffect "-" = 1 := textEffect_ofList rfl
      change textEffect ("-" ++ (n + 1).repr) = 1
      rw [textEffect_append, hsign, textEffect_repr_nat, mul_one]

theorem textEffect_join_eq_one {sep : String} (hsep : textEffect sep = 1) {texts : List String}
    (h : ∀ s ∈ texts, textEffect s = 1) : textEffect (Text.join sep texts) = 1 := by
  induction texts with
  | nil => rfl
  | cons s rest ih =>
      obtain ⟨hs, hrest⟩ := List.forall_mem_cons.1 h
      cases rest with
      | nil => exact hs
      | cons t rest =>
          rw [Text.join, textEffect_append, textEffect_append, hs, hsep, ih hrest, one_mul, one_mul]
          simp

/-- The characters of a command as it is delivered. -/
def delivered (s : Script) : List Char := s.flatMap Piece.render

theorem toList_render (s : Script) : s.render.toList = delivered s := String.toList_ofList

@[simp] theorem delivered_append (s t : Script) : delivered (s ++ t) = delivered s ++ delivered t :=
  List.flatMap_append

@[simp] theorem delivered_cons (p : Piece) (s : Script) :
    delivered (p :: s) = p.render ++ delivered s :=
  List.flatMap_cons

@[simp] theorem delivered_nil : delivered [] = [] := rfl

/-- The effect of a command as it is delivered. -/
def scriptEffect (s : Script) : Effect := effect (delivered s)

@[simp] theorem scriptEffect_nil : scriptEffect [] = 1 := rfl

@[simp] theorem scriptEffect_append (s t : Script) :
    scriptEffect (s ++ t) = scriptEffect s * scriptEffect t := by
  rw [scriptEffect, delivered_append, effect_append, scriptEffect, scriptEffect]

theorem scriptEffect_flatMap {α : Type} (f : α → Script) (as : List α) :
    scriptEffect (as.flatMap f) = (as.map fun a => scriptEffect (f a)).prod := by
  rw [scriptEffect, delivered, List.flatMap_assoc, effect_flatMap]
  rfl

@[simp] theorem scriptEffect_fixed (text : String) (s : Script) :
    scriptEffect (.fixed text :: s) = textEffect text * scriptEffect s := by
  rw [scriptEffect, delivered_cons, effect_append]
  rfl

theorem scriptEffect_map_fixed {α : Type} {f : α → String} {as : List α}
    (h : ∀ a ∈ as, textEffect (f a) = 1) : scriptEffect (as.map fun a => .fixed (f a)) = 1 := by
  induction as with
  | nil => rfl
  | cons a rest ih =>
      obtain ⟨ha, hrest⟩ := List.forall_mem_cons.1 h
      rw [List.map_cons, scriptEffect_fixed, ha, ih hrest, one_mul]

/-- Doubling the single quotes of an embedded text does not change its effect. -/
@[simp] theorem scriptEffect_embedded (text : String) (s : Script) :
    scriptEffect (.embedded text :: s) = textEffect text * scriptEffect s := by
  rw [scriptEffect, delivered_cons, effect_append, Piece.render,
    effect_flatMap_of_charEffect effect_doubleQuoteMark]
  rfl

/-- A piece that ends with the start of a string, as what stands before it and the brace. -/
theorem toList_starting {piece before : List Char}
    (h : piece = before ++ ['%', openBrace, '\n']) :
    (String.ofList piece).toList =
      (String.ofList before).toList ++ '%' :: openBrace :: "\n".toList := by
  rw [String.toList_ofList, String.toList_ofList, h]
  rfl

/-- A command that defines another one in a string between braces. -/
structure Definition where
  opening : Script
  /-- What the defined command does. -/
  body : Script
  /-- What follows the definition. -/
  rest : Script

namespace Definition

def text (d : Definition) : List Char :=
  delivered d.opening ++ '%' :: openBrace :: (delivered d.body ++ closeBrace :: delivered d.rest)

/-- The editor reads the body that was written, and what follows it as what follows. -/
def EndsAsMeant (d : Definition) : Prop :=
  readBraced 0 (delivered d.body ++ closeBrace :: delivered d.rest) =
    some (delivered d.body, delivered d.rest)

theorem endsAsMeant_iff (d : Definition) : d.EndsAsMeant ↔ scriptEffect d.body = 1 :=
  readBraced_append_iff 0 _ _

end Definition

end LiveTest.Braces
