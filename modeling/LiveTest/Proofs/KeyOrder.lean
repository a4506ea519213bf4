import LiveTest.Path
import LiveTest.Position
/-!
The keys of the maps are lawful.  Every order here is a lexicographic one in disguise, so the
comparison theory of the standard library carries over: it is enough to write each order as
`compare` on numbers or as `List.compareLex` on what a key consists of.
-/

namespace LiveTest

universe u v

open Std

section Comparisons

variable {α : Type u} {β : Type v}

/-- Comparing what `f` makes of two values is as transitive as the comparison itself. -/
theorem transCmp_comap (cmp : β → β → Ordering) [TransCmp cmp] (f : α → β) :
    TransCmp fun a b => cmp (f a) (f b) where
  eq_swap := OrientedCmp.eq_swap
  isLE_trans := TransCmp.isLE_trans

theorem orderNat_eq_compare : orderNat = compare := by
  funext a b
  rw [orderNat, Nat.compare_eq_ite_lt]
  rcases Nat.lt_trichotomy a b with hlt | heq | hgt
  · simp [hlt]
  · simp [heq]
  · have hne : a ≠ b := by omega
    have hnlt : ¬ a < b := by omega
    simp [hgt, hne, hnlt]

instance orderNat_transCmp : TransCmp orderNat :=
  orderNat_eq_compare ▸ inferInstanceAs (TransCmp (compare : Nat → Nat → Ordering))

/-- The order of texts, on the numbers of their characters. -/
def orderChar (a b : Char) : Ordering := orderNat a.toNat b.toNat

theorem orderChars_eq_compareLex : orderChars = List.compareLex orderChar := by
  funext as bs
  induction as generalizing bs with
  | nil => cases bs <;> rfl
  | cons a as ih =>
      cases bs with
      | nil => rfl
      | cons b bs =>
          rw [orderChars, List.compareLex_cons_cons, ih bs]
          rfl

instance orderChars_transCmp : TransCmp orderChars := by
  have hchar : TransCmp orderChar := transCmp_comap orderNat Char.toNat
  rw [orderChars_eq_compareLex]
  infer_instance

end Comparisons

namespace Path

/-- The characters of a component; only a name has some. -/
def Component.chars : Component → List Char
  | .normal name => name
  | _ => []

theorem Component.order_eq_compareLex :
    Component.order = compareLex (fun a b => orderNat a.rank b.rank)
      (fun a b => orderChars a.chars b.chars) := by
  funext a b
  cases a <;> cases b <;> rfl

instance componentOrder_transCmp : TransCmp Component.order := by
  have hrank : TransCmp fun a b : Component => orderNat a.rank b.rank :=
    transCmp_comap orderNat Component.rank
  have hchars : TransCmp fun a b : Component => orderChars a.chars b.chars :=
    transCmp_comap orderChars Component.chars
  rw [Component.order_eq_compareLex]
  infer_instance

theorem orderComponents_eq_compareLex :
    orderComponents = List.compareLex Component.order := by
  funext as bs
  induction as generalizing bs with
  | nil => cases bs <;> rfl
  | cons a as ih =>
      cases bs with
      | nil => rfl
      | cons b bs => rw [orderComponents, List.compareLex_cons_cons, ih bs]

instance orderComponents_transCmp : TransCmp orderComponents := by
  rw [orderComponents_eq_compareLex]
  infer_instance

end Path

theorem LawfulKey.of_transCmp {κ : Type u} [Key κ]
    [TransCmp (Key.order : κ → κ → Ordering)] : LawfulKey κ where
  order_self _ := ReflCmp.compare_self
  order_swap _ _ := OrientedCmp.eq_swap
  order_trans _ _ _ hab hbc :=
    Ordering.isLE_iff_ne_gt.1 (TransCmp.isLE_trans
      (Ordering.isLE_iff_ne_gt.2 hab) (Ordering.isLE_iff_ne_gt.2 hbc))

instance natLawfulKey : LawfulKey Nat :=
  have : TransCmp (Key.order : Nat → Nat → Ordering) := orderNat_transCmp
  .of_transCmp

instance stringLawfulKey : LawfulKey String :=
  have : TransCmp (Key.order : String → String → Ordering) :=
    transCmp_comap orderChars String.toList
  .of_transCmp

instance fileHandleLawfulKey : LawfulKey FileHandle :=
  have : TransCmp (Key.order : FileHandle → FileHandle → Ordering) :=
    transCmp_comap orderNat FileHandle.id
  .of_transCmp

instance pathLawfulKey : LawfulKey Path :=
  have : TransCmp (Key.order : Path → Path → Ordering) :=
    transCmp_comap Path.orderComponents Path.components
  .of_transCmp

/-- A line of a file: the path comes first. -/
instance pathLineLawfulKey : LawfulKey (Path × Nat) :=
  have : TransCmp fun a b : Path × Nat =>
      Path.orderComponents a.1.components b.1.components :=
    transCmp_comap Path.orderComponents fun a : Path × Nat => a.1.components
  have : TransCmp fun a b : Path × Nat => orderNat a.2 b.2 :=
    transCmp_comap orderNat Prod.snd
  have : TransCmp (Key.order : Path × Nat → Path × Nat → Ordering) :=
    inferInstanceAs (TransCmp (compareLex
      (fun a b : Path × Nat => Path.orderComponents a.1.components b.1.components)
      fun a b => orderNat a.2 b.2))
  .of_transCmp

namespace Key

variable {κ : Type u} [Key κ] {a b c : κ}

theorem same_iff : same a b = true ↔ order a b = .eq := by
  simp [same]

variable [LawfulKey κ]

@[simp] theorem same_self (a : κ) : same a a = true :=
  same_iff.2 (LawfulKey.order_self a)

theorem same_symm (h : same a b = true) : same b a = true := by
  rw [same_iff] at h ⊢
  rw [LawfulKey.order_swap a b, h]
  rfl

theorem same_trans (hab : same a b = true) (hbc : same b c = true) : same a c = true := by
  have hba := same_symm hab
  have hcb := same_symm hbc
  rw [same_iff] at hab hbc hba hcb ⊢
  have hac : order a c ≠ .gt := LawfulKey.order_trans a b c (by simp [hab]) (by simp [hbc])
  have hca : order c a ≠ .gt := LawfulKey.order_trans c b a (by simp [hcb]) (by simp [hba])
  rw [LawfulKey.order_swap a c] at hca
  cases h : order a c with
  | eq => rfl
  | gt => exact absurd h hac
  | lt => simp [h] at hca

/-- Two spellings of one key are the same as the same other keys. -/
theorem same_congr (h : same a b = true) (c : κ) : same a c = same b c :=
  Bool.eq_iff_iff.2 ⟨same_trans (same_symm h), same_trans h⟩

/-- A number has one spelling. -/
theorem same_nat_iff {a b : Nat} : same a b = true ↔ a = b := by
  rw [same_iff]
  change orderNat a b = .eq ↔ a = b
  rw [orderNat_eq_compare]
  exact Nat.compare_eq_eq

/-- So does a file handle. -/
theorem same_fileHandle_iff {a b : FileHandle} : same a b = true ↔ a = b := by
  obtain ⟨m⟩ := a
  obtain ⟨n⟩ := b
  rw [FileHandle.mk.injEq]
  exact same_nat_iff

/-- So does a text. -/
theorem same_string_iff {a b : String} : same a b = true ↔ a = b := by
  have hchars : ∀ as bs : List Char, orderChars as bs = .eq ↔ as = bs := by
    intro as bs
    induction as generalizing bs with
    | nil => cases bs <;> simp [orderChars]
    | cons a as ih =>
        cases bs with
        | nil => simp [orderChars]
        | cons b bs =>
            rw [orderChars, Ordering.then_eq_eq, ih, orderNat_eq_compare, Nat.compare_eq_eq,
              Char.toNat_inj, List.cons.injEq]
  rw [same_iff, ← String.toList_inj]
  exact hchars a.toList b.toList

/-- Two spellings of a pair are spellings of its parts. -/
theorem same_prod_iff {α : Type u} {β : Type v} [Key α] [Key β] {a b : α × β} :
    same a b = true ↔ same a.1 b.1 = true ∧ same a.2 b.2 = true := by
  rw [same_iff, same_iff, same_iff]
  exact Ordering.then_eq_eq

end Key

end LiveTest
