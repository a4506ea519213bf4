import LiveTest.FileTree
import LiveTest.Proofs.Lookup
import Mathlib.Data.List.Basic
/-!
Files that are written and read back.  A file in a directory is told from the others by its name.
What was written there is read back until something is written under the same name again: neither
making directories nor writing files of other names changes it.
-/

namespace LiveTest

namespace Text

variable {sep : Char}

/-- Splitting at a character is `List.splitOn`. -/
theorem splitAll_eq_splitOn (sep : Char) (cs : List Char) : splitAll sep cs = cs.splitOn sep := by
  induction cs with
  | nil => rfl
  | cons c rest ih =>
      rw [splitAll, List.splitOn_cons_eq_if_modifyHead, ← ih]
      by_cases hc : c = sep
      · rw [if_pos hc, if_pos (beq_iff_eq.2 hc)]
      · rw [if_neg hc, if_neg (fun hsame => hc (eq_of_beq hsame))]
        cases hrest : splitAll sep rest with
        | nil => exact absurd hrest (splitAll_ne_nil sep rest)
        | cons piece pieces => rfl

theorem splitAll_append_sep (sep : Char) (xs ys : List Char) :
    splitAll sep (xs ++ sep :: ys) = splitAll sep xs ++ splitAll sep ys := by
  simp only [splitAll_eq_splitOn, List.splitOn_append_cons_self]

theorem splitAll_of_not_mem {cs : List Char} (h : sep ∉ cs) : splitAll sep cs = [cs] := by
  rw [splitAll_eq_splitOn, List.splitOn_eq_singleton h]

theorem join_concat (sep a : String) (texts : List String) :
    join sep (texts ++ [a]) = if texts = [] then a else join sep texts ++ sep ++ a := by
  induction texts with
  | nil => rfl
  | cons head tail ih =>
      cases tail with
      | nil => rfl
      | cons next rest =>
          have hjoin : ∀ texts : List String, join sep (head :: next :: texts) =
              head ++ sep ++ join sep (next :: texts) := fun texts => rfl
          rw [if_neg (List.cons_ne_nil _ _)] at ih ⊢
          rw [List.cons_append, List.cons_append, hjoin, ← List.cons_append, ih, hjoin]
          simp only [String.append_assoc]

end Text

namespace Path

/-- A text that is a name, and nothing but one name. -/
structure IsPlain (name : List Char) : Prop where
  noSlash : '/' ∉ name
  ne_nil : name ≠ []
  ne_here : name ≠ ['.']
  ne_up : name ≠ ['.', '.']

theorem innerComponents_append (xs ys : List (List Char)) :
    innerComponents (xs ++ ys) = innerComponents xs ++ innerComponents ys :=
  List.filterMap_append

theorem IsPlain.innerComponents {name : List Char} (h : IsPlain name) :
    innerComponents [name] = [.normal name] := by
  simp [Path.innerComponents, h.ne_nil, h.ne_here, h.ne_up]

/-- The text of a name in a directory. -/
theorem toList_join (dir : Path) {name : String} (h : IsPlain name.toList) :
    dir.text.toList = [] ∧ (dir.join ⟨name⟩).text.toList = name.toList ∨
      dir.text.toList ≠ [] ∧ ∃ before,
        (dir.text.toList = before ∨ dir.text.toList = before ++ ['/']) ∧
        (dir.join ⟨name⟩).text.toList = before ++ '/' :: name.toList := by
  have hrelative : isAbsolute ⟨name⟩ = false := by
    rw [isAbsolute, Bool.eq_false_iff]
    intro habsolute
    exact h.noSlash (List.mem_of_head? (eq_of_beq habsolute))
  rw [join, hrelative, if_neg Bool.false_ne_true]
  rcases List.eq_nil_or_concat dir.text.toList with hnil | ⟨before, c, hconcat⟩
  · simp [hnil]
  · right
    rw [List.concat_eq_append] at hconcat
    rw [hconcat, List.getLast?_concat]
    dsimp only
    refine ⟨by simp, ?_⟩
    split
    · next hslash =>
        refine ⟨before, Or.inr (by rw [hslash]), ?_⟩
        simp [hconcat, hslash]
    · refine ⟨before ++ [c], Or.inl rfl, ?_⟩
      simp [hconcat]

theorem components_join (dir : Path) {name : String} (h : IsPlain name.toList) :
    (dir.join ⟨name⟩).components = dir.components ++ [.normal name.toList] := by
  have hname : Text.splitAll '/' name.toList = [name.toList] :=
    Text.splitAll_of_not_mem h.noSlash
  rw [components, components, isAbsolute, isAbsolute]
  rcases toList_join dir h with ⟨hdir, hpath⟩ | ⟨hdir, before, hbefore, hpath⟩
  · have hhead : name.toList.head? ≠ some '/' := fun hhead => h.noSlash (List.mem_of_head? hhead)
    simp [hdir, hpath, hname, hhead, h.ne_here, Text.splitAll, h.innerComponents]
    rfl
  · have hpieces : Text.splitAll '/' (dir.join ⟨name⟩).text.toList =
        Text.splitAll '/' before ++ [name.toList] := by
      rw [hpath, Text.splitAll_append_sep, hname]
    have hfirst : ∀ pieces : List (List Char),
        (Text.splitAll '/' before ++ pieces).head? = (Text.splitAll '/' before).head? := by
      intro pieces
      rw [List.head?_append_of_ne_nil _ (Text.splitAll_ne_nil '/' before)]
    rw [hpieces, hpath, hfirst, innerComponents_append, h.innerComponents]
    rcases hbefore with rfl | hslash
    · rw [List.head?_append_of_ne_nil _ hdir, List.append_assoc]
    · have hdirPieces : Text.splitAll '/' dir.text.toList = Text.splitAll '/' before ++ [[]] := by
        rw [hslash, Text.splitAll_append_sep]
        rfl
      have hhead : (before ++ '/' :: name.toList).head? = (before ++ ['/']).head? := by
        cases before <;> rfl
      rw [hdirPieces, hslash, hfirst, innerComponents_append, hhead]
      simp [innerComponents]

/-- A path that ends in a name does not have to name a directory. -/
theorem not_namesDirectory_join (dir : Path) {name : String} (h : IsPlain name.toList) :
    FileTree.namesDirectory (dir.join ⟨name⟩) = false := by
  have hname : Text.splitAll '/' name.toList = [name.toList] :=
    Text.splitAll_of_not_mem h.noSlash
  have hlast : (Text.splitAll '/' (dir.join ⟨name⟩).text.toList).getLast? = some name.toList := by
    rcases toList_join dir h with ⟨-, hpath⟩ | ⟨-, before, -, hpath⟩
    · rw [hpath, hname]
      rfl
    · rw [hpath, Text.splitAll_append_sep, hname, List.getLast?_concat]
  rw [FileTree.namesDirectory, hlast]
  simp [h.ne_nil, h.ne_here]

end Path

namespace Place

theorem names_child_ne_nil (p : Place) (name : String) : (p.child name).names ≠ [] :=
  List.concat_ne_nil name p.names

/-- Two names in one directory name two places. -/
theorem child_text_inj {p : Place} {name name' : String}
    (h : (p.child name).text = (p.child name').text) : name = name' := by
  have hjoin : ∀ texts : List String,
      Text.join "/" (texts ++ [name]) = Text.join "/" (texts ++ [name']) → name = name' := by
    intro texts htexts
    rw [Text.join_concat, Text.join_concat] at htexts
    split at htexts
    · exact htexts
    · exact (String.append_right_inj _).1 htexts
  rw [text, text, child, child] at h
  dsimp only at h
  split at h
  · exact hjoin _ ((String.append_right_inj _).1 h)
  · rw [← List.append_assoc, ← List.append_assoc] at h
    exact hjoin _ h

end Place

namespace FileTree

variable {t t' : FileTree}

/-- Whatever is somewhere stays there. -/
def Extends (t t' : FileTree) : Prop := ∀ p node, t.node? p = some node → t'.node? p = some node

/-- All directories stay. -/
def KeepsDirectories (t t' : FileTree) : Prop :=
  ∀ p, t.isDirectory p = true → t'.isDirectory p = true

theorem Extends.trans {t'' : FileTree} (h : Extends t t') (h' : Extends t' t'') :
    Extends t t'' :=
  fun p node hnode => h' p node (h p node hnode)

theorem isDirectory_iff {p : Place} : t.isDirectory p = true ↔ t.node? p = some .directory := by
  rw [isDirectory, beq_iff_eq]

theorem Extends.keepsDirectories (h : Extends t t') : KeepsDirectories t t' := by
  intro p hp
  rw [isDirectory_iff] at hp ⊢
  exact h p _ hp

theorem node?_of_names {p : Place} (hp : p.names ≠ []) : t.node? p = t.nodes.get? p.text :=
  if_neg hp

theorem node?_insert (place p : Place) (node : Node) (hp : p.names ≠ []) :
    node? ⟨t.nodes.insert place.text node⟩ p =
      if p.text = place.text then some node else t.node? p := by
  rw [node?_of_names hp, node?_of_names hp, SortedMap.get?_insert]
  simp only [Key.same_string_iff]

theorem extends_insert {place : Place} {node : Node} (hplace : place.names ≠ [])
    (hnew : t.node? place = none) : Extends t ⟨t.nodes.insert place.text node⟩ := by
  intro p old hold
  by_cases hp : p.names = []
  · rwa [node?, if_pos hp] at hold ⊢
  · rw [node?_insert place p node hp, if_neg, hold]
    intro htext
    rw [node?_of_names hp, htext, ← node?_of_names hplace, hnew] at hold
    cases hold

theorem keepsDirectories_insert {place : Place} {node : Node} (hplace : place.names ≠ [])
    (hnode : t.node? place ≠ some .directory) :
    KeepsDirectories t ⟨t.nodes.insert place.text node⟩ := by
  intro p hold
  rw [isDirectory_iff] at hold ⊢
  by_cases hp : p.names = []
  · rw [node?, if_pos hp]
  · rw [node?_insert place p node hp, if_neg, hold]
    intro htext
    -- Two places with one text would be the same directory, which no file replaces.
    rw [node?_of_names hp, htext, ← node?_of_names hplace] at hold
    exact hnode hold

theorem extends_makeDirectories {p : Place} {components : List Path.Component}
    (h : t.makeDirectories p components = some t') : Extends t t' := by
  induction components generalizing t p with
  | nil =>
      cases h
      exact fun p node hnode => hnode
  | cons c rest ih =>
      cases c with
      | root => exact ih h
      | here => exact ih h
      | up => exact ih h
      | normal name =>
          simp only [makeDirectories] at h
          split at h
          · exact ih h
          · cases h
          · next hnew =>
              split at h
              · exact (extends_insert (Place.names_child_ne_nil _ _) hnew).trans (ih h)
              · cases h

theorem extends_createDirectory {dir : Path} (h : t.createDirectory dir = some t') :
    Extends t t' := by
  rw [createDirectory] at h
  split at h
  · cases h
  · exact extends_makeDirectories h

theorem walk_append (t : FileTree) (p : Place) (components rest : List Path.Component) :
    t.walk p (components ++ rest) = (t.walk p components).bind fun q => t.walk q rest := by
  induction components generalizing p with
  | nil => rfl
  | cons c components ih =>
      cases c with
      | root => exact ih _
      | here => exact ih _
      | up =>
          rw [List.cons_append, walk, walk]
          split
          · exact ih _
          · rfl
      | normal name =>
          rw [List.cons_append, walk, walk]
          split
          · exact ih _
          · rfl

theorem KeepsDirectories.walk (h : KeepsDirectories t t') {p q : Place}
    {components : List Path.Component} (hwalk : t.walk p components = some q) :
    t'.walk p components = some q := by
  induction components generalizing p with
  | nil => exact hwalk
  | cons c rest ih =>
      cases c with
      | root => exact ih hwalk
      | here => exact ih hwalk
      | up =>
          rw [FileTree.walk] at hwalk ⊢
          split at hwalk
          · next hp =>
              rw [if_pos (h p hp)]
              exact ih hwalk
          · cases hwalk
      | normal name =>
          rw [FileTree.walk] at hwalk ⊢
          split at hwalk
          · next hp =>
              rw [if_pos (h p hp)]
              exact ih hwalk
          · cases hwalk

/-- The way to a name in a directory. -/
theorem walk_join_iff {dir : Path} {name : String} (hname : Path.IsPlain name.toList)
    {place : Place} :
    t.walk .here (dir.join ⟨name⟩).components = some place ↔
      ∃ d, t.walk .here dir.components = some d ∧ t.isDirectory d = true ∧
        place = d.child name := by
  rw [Path.components_join dir hname, walk_append, Option.bind_eq_some_iff]
  constructor
  · rintro ⟨d, hd, hwalk⟩
    rw [walk] at hwalk
    split at hwalk
    · next hdirectory =>
        rw [walk, Option.some.injEq, String.ofList_toList] at hwalk
        exact ⟨d, hd, hdirectory, hwalk.symm⟩
    · cases hwalk
  · rintro ⟨d, hd, hdirectory, rfl⟩
    refine ⟨d, hd, ?_⟩
    rw [walk, if_pos hdirectory, walk, String.ofList_toList]

/-- The directory holds a file of this name with this text. -/
def Holds (t : FileTree) (dir : Path) (name text : String) : Prop :=
  ∃ d, t.walk .here dir.components = some d ∧ t.isDirectory d = true ∧
    t.node? (d.child name) = some (.file text)

variable {dir : Path} {name text : String}

/-- A file that a directory holds is read. -/
theorem Holds.read? (h : t.Holds dir name text) (hname : Path.IsPlain name.toList)
    (husable : isUsable (dir.join ⟨name⟩) = true) :
    t.read? (dir.join ⟨name⟩) = some text := by
  obtain ⟨d, hd, hdirectory, hnode⟩ := h
  have hwalk : t.walk .here (dir.join ⟨name⟩).components = some (d.child name) :=
    (walk_join_iff hname).2 ⟨d, hd, hdirectory, rfl⟩
  rw [FileTree.read?, husable, Path.not_namesDirectory_join dir hname, hwalk, Option.bind_some,
    hnode]
  rfl

theorem Holds.extends (h : t.Holds dir name text) (hextends : Extends t t') :
    t'.Holds dir name text := by
  obtain ⟨d, hd, hdirectory, hnode⟩ := h
  exact ⟨d, hextends.keepsDirectories.walk hd, hextends.keepsDirectories d hdirectory,
    hextends _ _ hnode⟩

/-- Everything that writing a file in a directory can do if it succeeds. -/
theorem write_join_eq_some (hname : Path.IsPlain name.toList)
    (hwrite : t.write (dir.join ⟨name⟩) text = some t') :
    isUsable (dir.join ⟨name⟩) = true ∧
      ∃ d, t.walk .here dir.components = some d ∧ t.isDirectory d = true ∧
        t.node? (d.child name) ≠ some .directory ∧
        t' = ⟨t.nodes.insert (d.child name).text (.file text)⟩ := by
  rw [write] at hwrite
  split at hwrite
  · cases hwrite
  · next hallowed =>
      have husable : isUsable (dir.join ⟨name⟩) = true := by
        cases husable : isUsable (dir.join ⟨name⟩) with
        | true => rfl
        | false => simp [husable] at hallowed
      split at hwrite
      · cases hwrite
      · next place hwalk =>
          obtain ⟨d, hd, hdirectory, rfl⟩ := (walk_join_iff hname).1 hwalk
          split at hwrite
          · cases hwrite
          · next hnode =>
              exact ⟨husable, d, hd, hdirectory, hnode, (Option.some.inj hwrite).symm⟩

/-- A directory holds what was written there. -/
theorem holds_of_write (hname : Path.IsPlain name.toList)
    (hwrite : t.write (dir.join ⟨name⟩) text = some t') : t'.Holds dir name text := by
  obtain ⟨-, d, hd, hdirectory, hnode, rfl⟩ := write_join_eq_some hname hwrite
  have hplace := Place.names_child_ne_nil d name
  have hkeeps : KeepsDirectories t ⟨t.nodes.insert (d.child name).text (.file text)⟩ :=
    keepsDirectories_insert hplace hnode
  refine ⟨d, hkeeps.walk hd, hkeeps d hdirectory, ?_⟩
  rw [node?_insert _ _ _ hplace, if_pos rfl]

/-- Writing under another name changes nothing about a file. -/
theorem Holds.write (h : t.Holds dir name text) {name' text' : String}
    (hname' : Path.IsPlain name'.toList) (hne : name ≠ name')
    (hwrite : t.write (dir.join ⟨name'⟩) text' = some t') : t'.Holds dir name text := by
  obtain ⟨d, hd, hdirectory, hfile⟩ := h
  obtain ⟨-, d', hd', -, hnode, rfl⟩ := write_join_eq_some hname' hwrite
  obtain rfl : d = d' := Option.some.inj (hd.symm.trans hd')
  have hkeeps : KeepsDirectories t ⟨t.nodes.insert (d.child name').text (.file text')⟩ :=
    keepsDirectories_insert (Place.names_child_ne_nil d name') hnode
  refine ⟨d, hkeeps.walk hd, hkeeps d hdirectory, ?_⟩
  rw [node?_insert _ _ _ (Place.names_child_ne_nil d name), if_neg, hfile]
  exact fun htext => hne (Place.child_text_inj htext)

end FileTree
end LiveTest
