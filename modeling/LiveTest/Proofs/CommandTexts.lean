import LiveTest.Editor.Commands
import LiveTest.Proofs.Lookup
/-!
The texts that stand in commands as they are: numbers, hashes and selections.  Whatever the files
and messages may be, these consist of digits and of wording that is known.
-/

namespace LiveTest

theorem isDigit_of_mem_repr {n : Nat} {c : Char} (hc : c ∈ n.repr.toList) :
    c.isDigit = true := by
  rw [Nat.repr_eq_ofList_toDigits, String.toList_ofList] at hc
  exact Nat.isDigit_of_mem_toDigits (by decide) (by decide) hc

/-- A number is written in digits alone. -/
theorem not_mem_repr {c : Char} (hc : c.isDigit = false) (n : Nat) : c ∉ n.repr.toList := by
  intro hmem
  rw [isDigit_of_mem_repr hmem] at hc
  cases hc

theorem mem_repr_int {n : Int} {c : Char} (hc : c ∈ n.repr.toList) :
    c = '-' ∨ c.isDigit = true := by
  cases n with
  | ofNat n => exact .inr (isDigit_of_mem_repr hc)
  | negSucc n =>
      change c ∈ ("-" ++ (n + 1).repr).toList at hc
      rw [String.toList_append] at hc
      rcases List.mem_append.1 hc with hc | hc
      · exact .inl (List.mem_singleton.1 hc)
      · exact .inr (isDigit_of_mem_repr hc)

/-- A number is told from its digits. -/
theorem repr_toList_inj {m n : Nat} (h : m.repr.toList = n.repr.toList) : m = n := by
  rw [Nat.repr_eq_ofList_toDigits, Nat.repr_eq_ofList_toDigits, String.toList_ofList,
    String.toList_ofList] at h
  rw [← Nat.ofDigitChars_toDigits (b := 10) (n := m) (by decide) (by decide), h,
    Nat.ofDigitChars_toDigits (by decide) (by decide)]

/-- The key of a place tells its file and its line: the last colon stands between them. -/
theorem placeKey_inj {file file' : Path} {line line' : Nat} :
    placeKey file line = placeKey file' line' ↔ file = file' ∧ line = line' := by
  constructor
  · intro h
    have hcolon : ∀ n : Nat, ':' ∉ n.repr.toList := not_mem_repr rfl
    have hchars : file.text.toList ++ ':' :: line.repr.toList =
        file'.text.toList ++ ':' :: line'.repr.toList := by
      have hlists := congrArg String.toList h
      simp only [placeKey, String.toList_append] at hlists
      rwa [List.append_assoc, List.append_assoc] at hlists
    have hparts : file.text.toList = file'.text.toList ∧
        line.repr.toList = line'.repr.toList := by
      rcases List.append_eq_append_iff.1 hchars with ⟨between, hfile, hrest⟩ |
        ⟨between, hfile, hrest⟩
      · rcases List.cons_eq_append_iff.1 hrest with ⟨rfl, hline⟩ | ⟨digits, rfl, hline⟩
        · rw [List.append_nil] at hfile
          exact ⟨hfile.symm, (List.cons.inj hline).2.symm⟩
        · exact absurd (hline ▸ List.mem_append_right _ List.mem_cons_self) (hcolon line)
      · rcases List.cons_eq_append_iff.1 hrest with ⟨rfl, hline⟩ | ⟨digits, rfl, hline⟩
        · rw [List.append_nil] at hfile
          exact ⟨hfile, (List.cons.inj hline).2⟩
        · exact absurd (hline ▸ List.mem_append_right _ List.mem_cons_self) (hcolon line')
    exact ⟨congrArg Path.mk (String.toList_inj.1 hparts.1), repr_toList_inj hparts.2⟩
  · rintro ⟨rfl, rfl⟩
    rfl

/-- A hash is written in digits. -/
theorem Sha256.exists_digitChar_of_mem_hash {s : String} {c : Char}
    (hc : c ∈ (Sha256.hash s).toList) : ∃ n, c = Nat.digitChar n := by
  rw [Sha256.hash, String.toList_ofList] at hc
  obtain ⟨word, -, hc⟩ := List.mem_flatMap.1 hc
  obtain ⟨byte, -, hc⟩ := List.mem_flatMap.1 hc
  rcases List.mem_cons.1 hc with rfl | hc
  · exact ⟨_, rfl⟩
  · exact ⟨_, List.mem_singleton.1 hc⟩

namespace Commands

/-- What holds of the text of every selection holds of all that a list selects. -/
theorem forall_mem_selections {P : String → Prop} (h : ∀ first last, P (selectionText first last))
    (locations : List Location) : ∀ e ∈ (selections locations).entries, ∀ s ∈ e.2, P s := by
  refine List.foldlRecOn
    (motive := fun m : SortedMap String (List String) => ∀ e ∈ m.entries, ∀ s ∈ e.2, P s)
    _ _ ?_ ?_
  · intro e he
    cases he
  · intro m hm range _
    apply SortedMap.forall_mem_upsert (P := fun texts => ∀ s ∈ texts, P s) hm
    · intro s hs
      rw [List.mem_singleton.1 hs]
      exact h _ _
    · intro texts htexts s hs
      rcases List.mem_append.1 hs with hs | hs
      · exact htexts s hs
      · rw [List.mem_singleton.1 hs]
        exact h _ _

end Commands
end LiveTest
