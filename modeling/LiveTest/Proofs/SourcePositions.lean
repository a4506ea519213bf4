import LiveTest.Proofs.ReportStages
/-!
Positions in sources, in numbers of 32 bits.  A map that can be read holds its tokens in the order
of their places, each with numbers of 32 bits, so a place in the generated code belongs to the first
token exactly there or else to the last one before it.  Counting from one instead of from zero adds
one to the token's line and column.  This has no number of 32 bits if the line or the column is the
largest one already, which the differences in a map can lead to.
-/

namespace LiveTest

open SourceMap (wordLimit wrap placeLe findToken)

/-- If the token has a target then its source is there, and its line has a number of 32 bits. -/
def SourceToken.Within (sources : Nat) (t : SourceToken) : Prop :=
  ∀ target, t.target = some target → target.source < sources ∧ target.line < wordLimit

namespace SourceMap

theorem wrap_lt (n : Int) : wrap n < wordLimit := by
  have hlimit : (0 : Int) < (wordLimit : Int) := by decide
  have hle := Int.emod_nonneg n (Int.ne_of_gt hlimit)
  have hlt := Int.emod_lt_of_pos n hlimit
  rw [wrap]
  omega

section Reading

variable {sources names line : Nat} {r r' : Running}

/-- One segment. -/
theorem within_of_token? {isRange : Bool} {col col' : Nat} {ns : List Int} {t : SourceToken}
    (h : token? sources names line isRange col r ns = some (t, col', r')) :
    t.Within sources := by
  rw [token?.eq_def] at h
  split at h
  · cases h
    intro target htarget
    cases htarget
  · simp only at h
    split at h
    · cases h
    · next hsource =>
        have hsource := Nat.lt_of_not_le hsource
        split at h
        · cases h
          rintro target htarget
          cases htarget
          exact ⟨hsource, wrap_lt _⟩
        · split at h
          · cases h
          · cases h
            rintro target htarget
            cases htarget
            exact ⟨hsource, wrap_lt _⟩
        · cases h
  · cases h

/-- The segments of a line. -/
theorem within_of_lineTokens? {marks : List Bool} {col : Nat} {segments : List (List Char)}
    {tokens : List SourceToken}
    (h : lineTokens? sources names line marks col r segments = some (tokens, r')) :
    ∀ t ∈ tokens, t.Within sources := by
  induction segments generalizing marks col r tokens with
  | nil =>
      cases h
      intro t ht
      cases ht
  | cons segment rest ih =>
      rw [lineTokens?] at h
      split at h
      · exact ih h
      · obtain ⟨ns, -, h⟩ := Option.bind_eq_some_iff.1 h
        obtain ⟨⟨token, col', next⟩, htoken, h⟩ := Option.bind_eq_some_iff.1 h
        obtain ⟨⟨later, last⟩, hlater, h⟩ := Option.bind_eq_some_iff.1 h
        cases h
        exact List.forall_mem_cons.2 ⟨within_of_token? htoken, ih hlater⟩

/-- The segments of all lines. -/
theorem within_of_allTokens? {lines marks : List (List Char)} {tokens : List SourceToken}
    (h : allTokens? sources names line r lines marks = some tokens) :
    ∀ t ∈ tokens, t.Within sources := by
  induction lines generalizing line r marks tokens with
  | nil =>
      cases h
      intro t ht
      cases ht
  | cons text rest ih =>
      rw [allTokens?] at h
      split at h
      · exact ih h
      · obtain ⟨bits, -, h⟩ := Option.bind_eq_some_iff.1 h
        obtain ⟨⟨here, next⟩, hhere, h⟩ := Option.bind_eq_some_iff.1 h
        obtain ⟨later, hlater, h⟩ := Option.bind_eq_some_iff.1 h
        cases h
        exact List.forall_mem_append.2 ⟨within_of_lineTokens? hhere, ih hlater⟩

end Reading

theorem placeLe_iff {a b : Nat × Nat} :
    placeLe a b = true ↔ a.1 < b.1 ∨ a.1 = b.1 ∧ a.2 ≤ b.2 := by
  simp [placeLe]

theorem placeLe_total (a b : Nat × Nat) : (placeLe a b || placeLe b a) = true := by
  rw [Bool.or_eq_true, placeLe_iff, placeLe_iff]
  omega

theorem placeLe_trans {a b c : Nat × Nat} (hab : placeLe a b = true) (hbc : placeLe b c = true) :
    placeLe a c = true := by
  rw [placeLe_iff] at hab hbc ⊢
  omega

/-- What holds of every map that can be read. -/
structure Readable (m : SourceMap) : Prop where
  within : ∀ t ∈ m.tokens, t.Within m.sources.length
  ascending : m.tokens.Pairwise fun a b => placeLe a.place b.place = true

theorem readable_of_tokens? {sources names : List String} {mappings rangeMappings : List Char}
    {tokens : List SourceToken}
    (h : tokens? sources.length names.length mappings rangeMappings = some tokens) (root : String) :
    Readable ⟨sources.map (withRoot root), names, tokens⟩ := by
  obtain ⟨unordered, hunordered, rfl⟩ := Option.map_eq_some_iff.1 h
  constructor
  · intro t ht
    rw [List.length_map]
    exact within_of_allTokens? hunordered t (List.mem_mergeSort.1 ht)
  · apply List.pairwise_mergeSort
    · intro a b c
      exact placeLe_trans
    · intro a b
      exact placeLe_total a.place b.place

theorem readable_of_read {draft : Draft} {m : SourceMap} (h : read draft = .ok m) :
    m.Readable := by
  rw [read.eq_def] at h
  split at h
  · obtain ⟨fs, -, h⟩ := bind_eq_ok.1 h
    obtain ⟨sources, -, h⟩ := bind_eq_ok.1 h
    obtain ⟨names, -, h⟩ := bind_eq_ok.1 h
    obtain ⟨mappings, -, h⟩ := bind_eq_ok.1 h
    obtain ⟨rangeMappings, -, h⟩ := bind_eq_ok.1 h
    obtain ⟨root, -, h⟩ := bind_eq_ok.1 h
    split at h
    · next htokens =>
        cases h
        exact readable_of_tokens? (by simpa using htokens) _
    · cases h
  · cases h

theorem readable_of_parse {text : String} {m : SourceMap} (h : parse text = .ok m) :
    m.Readable := by
  rw [parse] at h
  split at h
  · cases h
  · split at h
    · next hrun =>
        cases h
        rw [Reader.run] at hrun
        split at hrun
        split at hrun
        · next hread _ =>
            cases hrun
            exact readable_of_read hread
        · cases hrun
        · cases hrun
    · cases h

/-- A place strictly before another one. -/
def Precedes (a b : Nat × Nat) : Prop := a.1 < b.1 ∨ a.1 = b.1 ∧ a.2 < b.2

theorem precedes_iff {a b : Nat × Nat} : Precedes a b ↔ placeLe a b = true ∧ a ≠ b := by
  rw [Precedes, placeLe_iff, Ne, Prod.ext_iff]
  omega

theorem not_placeLe_iff {a b : Nat × Nat} : ¬placeLe a b = true ↔ Precedes b a := by
  rw [Precedes, placeLe_iff]
  omega

theorem Precedes.ne {a b : Nat × Nat} (h : Precedes a b) : a ≠ b := (precedes_iff.1 h).2

theorem Precedes.trans_le {a b c : Nat × Nat} (h : Precedes a b) (hle : placeLe b c = true) :
    Precedes a c := by
  rw [placeLe_iff] at hle
  rw [Precedes] at h ⊢
  omega

theorem Precedes.not_of_le {a b : Nat × Nat} (hle : placeLe a b = true) : ¬Precedes b a := by
  rw [← not_placeLe_iff]
  exact not_not_intro hle

/-- The token that a place belongs to: the first one exactly there, or else the last one before
it. -/
def TokenAt (tokens : List SourceToken) (place : Nat × Nat) (t : SourceToken) : Prop :=
  ∃ before after, tokens = before ++ t :: after ∧
    (t.place = place ∧ (∀ u ∈ before, u.place ≠ place) ∨
      Precedes t.place place ∧ ∀ u ∈ after, Precedes place u.place)

section TokenAt

variable {place : Nat × Nat} {head t : SourceToken} {tokens : List SourceToken}

theorem not_tokenAt_nil : ¬TokenAt [] place t := by
  rintro ⟨before, after, hsplit, -⟩
  cases before <;> cases hsplit

/-- A token before the place is passed over if there is a later one. -/
theorem tokenAt_cons_of_precedes (hhead : Precedes head.place place) :
    TokenAt (head :: tokens) place t ↔
      TokenAt tokens place t ∨ head = t ∧ ∀ u ∈ tokens, Precedes place u.place := by
  constructor
  · rintro ⟨before, after, hsplit, hplace⟩
    cases before with
    | nil =>
        cases hsplit
        rcases hplace with ⟨hexact, -⟩ | ⟨-, hafter⟩
        · exact absurd hexact hhead.ne
        · exact .inr ⟨rfl, hafter⟩
    | cons first before =>
        cases hsplit
        refine .inl ⟨before, after, rfl, hplace.imp_left ?_⟩
        rintro ⟨hexact, hbefore⟩
        exact ⟨hexact, fun u hu => hbefore u (List.mem_cons_of_mem _ hu)⟩
  · rintro (⟨before, after, rfl, hplace⟩ | ⟨rfl, hafter⟩)
    · refine ⟨head :: before, after, rfl, hplace.imp_left ?_⟩
      rintro ⟨hexact, hbefore⟩
      exact ⟨hexact, List.forall_mem_cons.2 ⟨hhead.ne, hbefore⟩⟩
    · exact ⟨[], tokens, rfl, .inr ⟨hhead, hafter⟩⟩

variable (hascending : (head :: tokens).Pairwise fun a b => placeLe a.place b.place = true)

include hascending

/-- The tokens of an ascending list are not before its first one. -/
theorem placeLe_of_split {before after : List SourceToken}
    (hsplit : head :: tokens = before ++ t :: after) : placeLe head.place t.place = true := by
  cases before with
  | nil =>
      cases hsplit
      exact placeLe_iff.2 (.inr ⟨rfl, Nat.le_refl _⟩)
  | cons first before =>
      cases hsplit
      exact List.rel_of_pairwise_cons hascending (List.mem_append_right _ List.mem_cons_self)

theorem tokenAt_cons_of_eq (hhead : head.place = place) :
    TokenAt (head :: tokens) place t ↔ head = t := by
  constructor
  · rintro ⟨before, after, hsplit, hplace⟩
    rcases hplace with ⟨-, hbefore⟩ | ⟨hprecedes, -⟩
    · cases before with
      | nil =>
          cases hsplit
          rfl
      | cons first before =>
          cases hsplit
          exact absurd hhead (hbefore head List.mem_cons_self)
    · exact absurd (hhead ▸ hprecedes) (Precedes.not_of_le (placeLe_of_split hascending hsplit))
  · rintro rfl
    exact ⟨[], tokens, rfl, .inl ⟨hhead, fun u hu => by cases hu⟩⟩

theorem not_tokenAt_cons (hhead : Precedes place head.place) :
    ¬TokenAt (head :: tokens) place t := by
  rintro ⟨before, after, hsplit, hplace⟩
  have hafter := hhead.trans_le (placeLe_of_split hascending hsplit)
  rcases hplace with ⟨hexact, -⟩ | ⟨hprecedes, -⟩
  · exact hafter.ne hexact.symm
  · exact Precedes.not_of_le (precedes_iff.1 hafter).1 hprecedes

end TokenAt

/-- Looking on in an ascending list, with a token that was passed over or none. -/
theorem findToken_eq_some_iff {tokens : List SourceToken}
    (hascending : tokens.Pairwise fun a b => placeLe a.place b.place = true) {place : Nat × Nat}
    {best : Option SourceToken} {t : SourceToken} :
    findToken place best tokens = some t ↔
      TokenAt tokens place t ∨ best = some t ∧ ∀ u ∈ tokens, Precedes place u.place := by
  induction tokens generalizing best with
  | nil => simp [findToken, not_tokenAt_nil]
  | cons head rest ih =>
      have hrest := hascending.of_cons
      rw [findToken]
      split
      · next hexact =>
          have hnot : ¬Precedes place head.place := fun h => h.ne hexact.symm
          rw [tokenAt_cons_of_eq hascending hexact, Option.some.injEq, List.forall_mem_cons]
          simp [hnot]
      · next hne =>
          split
          · next hle =>
              have hhead : Precedes head.place place := precedes_iff.2 ⟨hle, hne⟩
              have hnot : ¬Precedes place head.place := Precedes.not_of_le hle
              rw [ih hrest, tokenAt_cons_of_precedes hhead, Option.some.injEq,
                List.forall_mem_cons]
              simp [hnot]
          · next hle =>
              have hhead : Precedes place head.place := not_placeLe_iff.1 hle
              have hall : ∀ u ∈ head :: rest, Precedes place u.place :=
                List.forall_mem_cons.2 ⟨hhead, fun u hu =>
                  hhead.trans_le (List.rel_of_pairwise_cons hascending hu)⟩
              simp only [not_tokenAt_cons hascending hhead, false_or, iff_self_and]
              intro _
              exact hall

end SourceMap

/-- The place as a map counts, from zero. -/
def LineColumn.fromZero (p : LineColumn) : Nat × Nat := (p.line - 1, p.col - 1)

/-- How many columns after the token's own a column counts on in the source. -/
def SourceToken.distance (t : SourceToken) (col : Nat) : Nat := if t.isRange then col - t.col else 0

/-- The distance, unless it is negative. -/
def SourceToken.checkedDistance (t : SourceToken) (col : Nat) : Except CoordinateOverflow Nat :=
  if t.isRange then SourceMap.difference32 col t.col else .ok 0

/-- Numbers of 32 bits are not enough at a column of the generated code: the column comes before
one that it should count on from, or the line or the column in the source is the largest one. -/
def SourceToken.Overflows (t : SourceToken) (col : Nat) : Prop :=
  t.isRange = true ∧ col < t.col ∨
    ∃ target, t.target = some target ∧
      (target.line + 1 = 0x100000000 ∨ 0x100000000 ≤ target.col + t.distance col + 1)

namespace SourceMap

/-- The place that a target stands for, so many columns on. -/
def sourcePlace (m : SourceMap) (target : TokenSource) (distance : Nat) : Option SourcePlace :=
  (m.sources[target.source]?).map fun source =>
    ⟨source, target.line + 1, target.col + distance + 1, target.name.bind fun n => m.names[n]?⟩

/-- The place that a token leads to, so many columns on, as far as 32 bits can tell it. -/
def targetPlace (m : SourceMap) (t : SourceToken) (distance : Nat) :
    Except CoordinateOverflow (Option SourcePlace) :=
  match t.target with
  | none => .ok none
  | some target => do
    let line ← sum32 target.line 1
    let col ← sum32 (min (target.col + distance) (wordLimit - 1)) 1
    return (m.sources[target.source]?).map fun source =>
      ⟨source, line, col, target.name.bind fun n => m.names[n]?⟩

section Locate

variable {m : SourceMap} {generated : LineColumn} {t : SourceToken} {col : Nat}

theorem sum32_of_lt {a b : Nat} (h : a + b < wordLimit) : sum32 a b = .ok (a + b) := if_pos h

theorem sum32_of_le {a b : Nat} (h : wordLimit ≤ a + b) : sum32 a b = .error .overflow :=
  if_neg (Nat.not_lt.2 h)

theorem locate_of_no_token (h : findToken generated.fromZero none m.tokens = none) :
    m.locate generated = .ok none := by
  rw [locate]
  split
  · rfl
  · rw [LineColumn.fromZero] at h
    simp only [h]

theorem checkedDistance_of_before (h : t.isRange = true ∧ col < t.col) :
    t.checkedDistance col = .error .overflow := by
  rw [SourceToken.checkedDistance, if_pos h.1, difference32, if_neg (Nat.not_le.2 h.2)]

theorem checkedDistance_of_not_before (h : ¬(t.isRange = true ∧ col < t.col)) :
    t.checkedDistance col = .ok (t.distance col) := by
  rw [SourceToken.checkedDistance, SourceToken.distance]
  split
  · next hrange =>
      have hle : t.col ≤ col := Nat.le_of_not_lt fun hlt => h ⟨hrange, hlt⟩
      rw [difference32, if_pos hle]
  · rfl

/-- A place in a source is counted from one, unless one of its numbers is the largest already. -/
theorem targetPlace_of_last {target : TokenSource} {distance : Nat} (htarget : t.target = some target)
    (h : target.line + 1 = wordLimit ∨ wordLimit ≤ target.col + distance + 1) :
    m.targetPlace t distance = .error .overflow := by
  rw [targetPlace, htarget]
  simp only [bind, Except.bind]
  rcases h with hline | hcol
  · rw [sum32_of_le (Nat.le_of_eq hline.symm)]
  · rw [sum32_of_le (show wordLimit ≤ min _ (wordLimit - 1) + 1 by omega)]
    cases sum32 target.line 1 <;> rfl

theorem targetPlace_of_not_last {distance : Nat} (hwithin : t.Within m.sources.length)
    (h : ∀ target, t.target = some target →
      ¬(target.line + 1 = wordLimit ∨ wordLimit ≤ target.col + distance + 1)) :
    m.targetPlace t distance = .ok (t.target.bind fun target => m.sourcePlace target distance) := by
  rw [targetPlace]
  cases htarget : t.target with
  | none => rfl
  | some target =>
      have hlast := h target htarget
      have hlt := (hwithin target htarget).2
      have hcol : min (target.col + distance) (wordLimit - 1) = target.col + distance :=
        Nat.min_eq_left (by omega)
      simp only [hcol, sum32_of_lt (show target.line + 1 < wordLimit by omega),
        sum32_of_lt (show target.col + distance + 1 < wordLimit by omega)]
      rfl

/-- Looking up in the token that was found. -/
theorem locate_of_token (hline : generated.line ≠ 0)
    (htoken : findToken generated.fromZero none m.tokens = some t) :
    m.locate generated = (t.checkedDistance generated.fromZero.2).bind (m.targetPlace t) := by
  rw [locate, if_neg hline]
  rw [LineColumn.fromZero] at htoken
  simp only [htoken, SourceToken.checkedDistance]
  split
  · rfl
  · rfl

theorem locate_of_overflows (hline : generated.line ≠ 0)
    (htoken : findToken generated.fromZero none m.tokens = some t)
    (h : t.Overflows generated.fromZero.2) : m.locate generated = .error .overflow := by
  rw [locate_of_token hline htoken]
  by_cases hbefore : t.isRange = true ∧ generated.fromZero.2 < t.col
  · rw [checkedDistance_of_before hbefore]
    rfl
  · obtain ⟨target, htarget, hlast⟩ := h.resolve_left hbefore
    rw [checkedDistance_of_not_before hbefore]
    exact targetPlace_of_last htarget hlast

theorem locate_of_not_overflows (hline : generated.line ≠ 0)
    (htoken : findToken generated.fromZero none m.tokens = some t)
    (hwithin : t.Within m.sources.length) (h : ¬t.Overflows generated.fromZero.2) :
    m.locate generated =
      .ok (t.target.bind fun target => m.sourcePlace target (t.distance generated.fromZero.2)) := by
  rw [SourceToken.Overflows, not_or] at h
  rw [locate_of_token hline htoken, checkedDistance_of_not_before h.1]
  apply targetPlace_of_not_last hwithin
  intro target htarget hlast
  exact h.2 ⟨target, htarget, hlast⟩

/-- A place that is given counts from one, in 32 bits. -/
theorem sourcePlace_bounds {target : TokenSource} {p : SourcePlace}
    (hwithin : t.Within m.sources.length) (h : ¬t.Overflows col) (htarget : t.target = some target)
    (hp : m.sourcePlace target (t.distance col) = some p) :
    (1 ≤ p.line ∧ p.line < wordLimit) ∧ 1 ≤ p.col ∧ p.col < wordLimit := by
  obtain ⟨source, -, rfl⟩ := Option.map_eq_some_iff.1 hp
  have hlt := (hwithin target htarget).2
  have hlast : ¬(target.line + 1 = wordLimit ∨ wordLimit ≤ target.col + t.distance col + 1) :=
    fun hlast => h (.inr ⟨target, htarget, hlast⟩)
  dsimp only
  omega

/-- The token that a place of the generated code belongs to. -/
def Covers (m : SourceMap) (generated : LineColumn) (t : SourceToken) : Prop :=
  generated.line ≠ 0 ∧ TokenAt m.tokens generated.fromZero t

theorem Readable.covers_iff (h : m.Readable) :
    m.Covers generated t ↔
      generated.line ≠ 0 ∧ findToken generated.fromZero none m.tokens = some t := by
  rw [Covers, findToken_eq_some_iff h.ascending]
  simp

theorem Readable.within_of_covers (h : m.Readable) (hcovers : m.Covers generated t) :
    t.Within m.sources.length := by
  obtain ⟨-, before, after, hsplit, -⟩ := hcovers
  exact h.within t (hsplit ▸ List.mem_append_right before List.mem_cons_self)

theorem Readable.covers_unique (h : m.Readable) {t' : SourceToken} (ht : m.Covers generated t)
    (ht' : m.Covers generated t') : t = t' :=
  Option.some.inj ((h.covers_iff.1 ht).2.symm.trans (h.covers_iff.1 ht').2)

theorem Readable.locate_of_not_covered (h : m.Readable)
    (hnone : ∀ t, ¬m.Covers generated t) : m.locate generated = .ok none := by
  by_cases hline : generated.line = 0
  · rw [locate, if_pos hline]
  · apply locate_of_no_token
    rw [Option.eq_none_iff_forall_ne_some]
    intro t htoken
    exact hnone t (h.covers_iff.2 ⟨hline, htoken⟩)

theorem exists_sourcePlace {target : TokenSource} (hwithin : t.Within m.sources.length)
    (htarget : t.target = some target) (distance : Nat) :
    ∃ p, m.sourcePlace target distance = some p := by
  rw [sourcePlace, List.getElem?_eq_getElem (hwithin target htarget).1]
  exact ⟨_, rfl⟩

/-- Looking up a place in a map that can be read.  It overflows if and only if the token of the
place does.  Otherwise nothing is found if there is no such token or it has no target, and else a
place in a source whose line and column count from one, in 32 bits. -/
theorem locate_overflows_iff {text : String} {m : SourceMap} (hparse : parse text = .ok m)
    (generated : LineColumn) :
    (m.locate generated = .error .overflow ↔
      ∃ t, m.Covers generated t ∧ t.Overflows generated.fromZero.2) ∧
    (m.locate generated = .ok none ↔
      ∀ t, m.Covers generated t → t.target = none ∧ ¬t.Overflows generated.fromZero.2) ∧
    ∀ p, m.locate generated = .ok (some p) →
      ((1 ≤ p.line ∧ p.line < 0x100000000) ∧ 1 ≤ p.col ∧ p.col < 0x100000000) ∧
      ∃ t target, m.Covers generated t ∧ t.target = some target ∧
        m.sourcePlace target (t.distance generated.fromZero.2) = some p := by
  have hreadable := readable_of_parse hparse
  by_cases hcovered : ∃ t, m.Covers generated t
  · obtain ⟨t, ht⟩ := hcovered
    obtain ⟨hline, htoken⟩ := hreadable.covers_iff.1 ht
    have hwithin := hreadable.within_of_covers ht
    have honly : ∀ {q : SourceToken → Prop}, (∀ u, m.Covers generated u → q u) ↔ q t :=
      ⟨fun h => h t ht, fun h u hu => hreadable.covers_unique ht hu ▸ h⟩
    by_cases hover : t.Overflows generated.fromZero.2
    · rw [locate_of_overflows hline htoken hover, honly]
      refine ⟨iff_of_true rfl ⟨t, ht, hover⟩, ?_, fun p h => by cases h⟩
      simp [hover]
    · have hno : ¬∃ u, m.Covers generated u ∧ u.Overflows generated.fromZero.2 := by
        rintro ⟨u, hu, h⟩
        exact hover (hreadable.covers_unique ht hu ▸ h)
      rw [locate_of_not_overflows hline htoken hwithin hover, honly]
      refine ⟨iff_of_false (by simp) hno, ?_, ?_⟩
      · rw [and_iff_left hover, Except.ok.injEq]
        cases htarget : t.target with
        | none => simp
        | some target =>
            obtain ⟨p, hp⟩ := exists_sourcePlace hwithin htarget (t.distance generated.fromZero.2)
            simp [hp]
      · intro p hp
        obtain ⟨target, htarget, hplace⟩ := Option.bind_eq_some_iff.1 (Except.ok.inj hp)
        exact ⟨sourcePlace_bounds hwithin hover htarget hplace, t, target, ht, htarget, hplace⟩
  · have hnone := not_exists.1 hcovered
    rw [hreadable.locate_of_not_covered hnone]
    refine ⟨iff_of_false (by simp) ?_, iff_of_true rfl fun t ht => absurd ht (hnone t), ?_⟩
    · rintro ⟨t, ht, -⟩
      exact hnone t ht
    · intro p hp
      cases hp

end Locate

namespace SourcePositionsWitness

theorem eq_ok_of_toOption {ε α : Type} {x : Except ε α} {a : α} (h : x.toOption = some a) :
    x = .ok a := by
  cases x with
  | error e => cases h
  | ok b => exact congrArg Except.ok (Option.some.inj h)

/-- A map whose token lies one line before the first line of its source. -/
def beforeSource : SourceMap := ⟨["a.ts"], [], [⟨0, 0, some ⟨0, 0xffffffff, 0, none⟩, false⟩]⟩

/-- The line before the first one is the largest number of 32 bits, so there is none after it. -/
theorem locate_overflows_before_source :
    parse "\x7b\"sources\":[\"a.ts\"],\"mappings\":\"AADA\"\x7d" = .ok beforeSource ∧
      beforeSource.locate ⟨1, 1⟩ = .error .overflow :=
  ⟨eq_ok_of_toOption (by decide +kernel), rfl⟩

/-- A map whose token starts at the sixth column, with the columns after it. -/
def ranged : SourceMap := ⟨["a.ts"], [], [⟨0, 5, some ⟨0, 1, 0, none⟩, true⟩]⟩

def rangedText : String :=
  "\x7b\"sources\":[\"a.ts\"],\"mappings\":\"KACA\",\"rangeMappings\":\"B\"\x7d"

/-- Two columns after the token are two columns on in the source.  The next line belongs to the
token as well, but its first column does not come after that of the token. -/
theorem locate_overflows_iff_ranged :
    parse rangedText = .ok ranged ∧
      (ranged.locate ⟨1, 8⟩ = .ok (some ⟨"a.ts", 2, 3, none⟩) ∧ 3 < 0x100000000) ∧
      ranged.locate ⟨2, 1⟩ = .error .overflow ∧ ∃ t, ranged.Covers ⟨2, 1⟩ t ∧ t.Overflows 0 := by
  have hparse : parse rangedText = .ok ranged := eq_ok_of_toOption (by decide +kernel)
  have htold : ranged.locate ⟨1, 8⟩ = .ok (some ⟨"a.ts", 2, 3, none⟩) := rfl
  have hfails : ranged.locate ⟨2, 1⟩ = .error .overflow := rfl
  obtain ⟨-, -, hbounds⟩ := locate_overflows_iff hparse ⟨1, 8⟩
  obtain ⟨hiff, -, -⟩ := locate_overflows_iff hparse ⟨2, 1⟩
  exact ⟨hparse, ⟨htold, (hbounds _ htold).1.2.2⟩, hfails, hiff.1 hfails⟩

end SourcePositionsWitness

end SourceMap
end LiveTest
