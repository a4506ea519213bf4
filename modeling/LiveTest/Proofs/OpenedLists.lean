import LiveTest.Proofs.CaseStatements
import LiveTest.Proofs.CommandEnds
import LiveTest.Proofs.Delivery
import LiveTest.Proofs.ListSelections
/-!
Opening a list on a line.  A command that opens a list looks up the line that the cursor was on by
a case statement, whose patterns are paths with lines.  Their special characters are escaped, so
whatever a path may be, its pattern is the path with the line and nothing expands in it.  The
branch that is taken is therefore the one of that path and line, and it selects their entries.
-/

namespace LiveTest.Commands

open Braces Quotes
open Piece (fixed embedded)
open Shell (Sign Branch CaseStatement Says)

/-- The variable that tells the file that the cursor was in. -/
def fileVariable : String := "kak_opt_kiwi_prev_buffile"

/-- The variable that tells the line that the cursor was on. -/
def lineVariable : String := "kak_opt_kiwi_prev_cursor_line"

/-- The variables tell the file and the line that the cursor was on. -/
structure TellsCursor (env : String → List Char) (file : Path) (line : Nat) : Prop where
  file_eq : env fileVariable = file.text.toList
  line_eq : env lineVariable = (toString line).toList

/-- The string that the patterns are compared with. -/
def cursorSubject : List Char :=
  '$' :: (fileVariable.toList ++ ':' :: '$' :: lineVariable.toList)

/-- What selects these selections. -/
def selectText (texts : List String) : String := "select " ++ Text.join " " texts

/-- The branch of an entry as it is meant. -/
def selectionBranch (e : String × List String) : Branch :=
  ⟨e.1.toList.map .char, (selectText e.2).toList.map .char⟩

/-- The case statement as it is meant. -/
def selectionStatement (locations : List Location) : CaseStatement :=
  ⟨cursorSubject.map Shell.signOf, (selections locations).entries.map selectionBranch⟩

/-- The script of a list as it is written. -/
def selectionScript (locations : List Location) : List Char :=
  Shell.caseText cursorSubject
    (Shell.branchesText (fun e => e.1.toList.flatMap Quoting.inShellQuotes)
      (fun e => (selectText e.2).toList) (selections locations).entries)

theorem toList_shellQuoted (s : String) :
    (Quoting.shellQuoted s).toList =
      "\"".toList ++ (s.toList.flatMap Quoting.inShellQuotes ++ ['"']) := by
  have hquote : "\"".toList = ['"'] := rfl
  rw [Quoting.shellQuoted, String.toList_append, String.toList_append, hquote, Text.substitute,
    String.toList_ofList, List.append_assoc]

theorem plain_selectionCase (key : String) (texts : List String) :
    [fixed "            ", embedded (Quoting.shellQuoted key),
        fixed (") echo \"select " ++ Text.join " " texts ++ "\";;\n")].flatMap Piece.plain =
      Shell.branchText (key.toList.flatMap Quoting.inShellQuotes) (selectText texts).toList := by
  have hecho : ") echo \"select ".toList = ") echo \"".toList ++ "select ".toList := by decide
  have hend : "\";;\n".toList = '"' :: (";;".toList ++ ['\n']) := by decide
  simp only [List.flatMap_cons, List.flatMap_nil, Piece.plain, toList_shellQuoted,
    Shell.branchText_eq, selectText, String.toList_append, hecho, hend, List.append_assoc,
    List.cons_append, List.nil_append, List.append_nil]

/-- What is written for a list is the script between the braces of a nested command. -/
theorem plain_selectionCases (locations : List Location) :
    (selectionCases locations).flatMap Piece.plain =
      "    eval %sh\x7b".toList ++ (selectionScript locations ++ "\x7d\n".toList) := by
  have hstart : "    eval %sh\x7b\n        case ".toList =
      "    eval %sh\x7b".toList ++ ("\n        ".toList ++ "case ".toList) := by decide
  have hsubject : "\"$kak_opt_kiwi_prev_buffile:$kak_opt_kiwi_prev_cursor_line\" in\n".toList =
      "\"".toList ++ (cursorSubject ++ '"' :: (" in".toList ++ ['\n'])) := by
    decide
  have hcase : "case \"".toList = "case ".toList ++ "\"".toList := by decide
  have hend : "        esac\n    \x7d\n".toList =
      "        ".toList ++ ("esac".toList ++ ("\n    ".toList ++ "\x7d\n".toList)) := by decide
  have hbranches : ((selections locations).entries.flatMap fun e =>
      [fixed "            ", embedded (Quoting.shellQuoted e.1),
        fixed (") echo \"select " ++ Text.join " " e.2 ++ "\";;\n")]).flatMap Piece.plain =
      Shell.branchesText (fun e => e.1.toList.flatMap Quoting.inShellQuotes)
        (fun e => (selectText e.2).toList) (selections locations).entries := by
    rw [List.flatMap_assoc]
    apply List.flatMap_congr
    intro e _
    exact plain_selectionCase e.1 e.2
  rw [selectionCases, List.flatMap_append, List.flatMap_append, hbranches]
  simp only [List.flatMap_cons, List.flatMap_nil, Piece.plain, String.toList_append, hstart,
    hsubject, hend, selectionScript, Shell.caseText_eq, hcase, List.append_assoc,
    List.cons_append, List.nil_append, List.append_nil]

theorem inert_selectText {locations : List Location} {e : String × List String}
    (he : e ∈ (selections locations).entries) : Shell.Inert (selectText e.2).toList := by
  have hselection : ∀ first last, Shell.Inert (selectionText first last).toList := by
    intro first last
    have hcomma : Shell.Inert ".1,".toList := Shell.inert_ofList rfl
    have hend : Shell.Inert ".999".toList := Shell.inert_ofList rfl
    have hdigits : ∀ n : Nat, Shell.Inert n.repr.toList := fun n =>
      Shell.inert_of_isDigit fun c hc => isDigit_of_mem_repr hc
    simp only [selectionText, String.toList_append, Nat.toString_eq_repr, Shell.inert_append]
    exact ⟨⟨⟨hdigits first, hcomma⟩, hdigits last⟩, hend⟩
  have hselect : Shell.Inert "select ".toList := Shell.inert_ofList rfl
  have hblank : Shell.Inert " ".toList := Shell.inert_ofList rfl
  have htexts := forall_mem_selections (P := fun s => Shell.Inert s.toList) hselection locations e he
  rw [selectText, String.toList_append, Shell.inert_append]
  refine ⟨hselect, ?_⟩
  intro c hc
  by_contra hspecial
  apply Text.not_mem_join _ _ hc
  · exact fun hmem => hspecial (hblank c hmem)
  · exact fun s hs hmem => hspecial (htexts s hs c hmem)

/-- The script is read as it is meant, whatever characters the paths have. -/
theorem readCase_selectionScript (locations : List Location) :
    Shell.readCase (selectionScript locations) = some (selectionStatement locations) := by
  apply Shell.readCase_caseText
  · apply Shell.says_map_signOf
    decide
  · intro e _
    exact Shell.says_inShellQuotes e.1.toList
  · intro e he
    exact Shell.says_of_inert (inert_selectText he)

section Cursor

variable {env : String → List Char} {file : Path} {line : Nat}

/-- The subject gives the key of the place that the cursor was on. -/
theorem value_cursorSubject (h : TellsCursor env file line) :
    Shell.value env (cursorSubject.map Shell.signOf) = some (placeKey file line).toList := by
  have hcolon : ":".toList = [':'] := rfl
  have hfile : Shell.Inert fileVariable.toList := Shell.inert_ofList rfl
  have hline : Shell.Inert lineVariable.toList := Shell.inert_ofList rfl
  have hsubject : cursorSubject.map Shell.signOf =
      .dollar :: (fileVariable.toList.map .char ++
        .char ':' :: .dollar :: (lineVariable.toList.map .char ++ [])) := by
    rw [← hfile.map_signOf, ← hline.map_signOf, List.append_nil, cursorSubject, List.map_cons,
      List.map_append]
    rfl
  rw [hsubject, Shell.value_variable rfl rfl rfl, Shell.value_char,
    Shell.value_variable rfl rfl rfl, Shell.value_nil, String.ofList_toList,
    String.ofList_toList, h.file_eq, h.line_eq, placeKey]
  simp [hcolon]

end Cursor

theorem selectionsAt_eq_nil_iff {locations : List Location} {file : Path} {line : Nat} :
    selectionsAt locations file line = [] ↔ ¬∃ l ∈ locations, l.file = file ∧ l.line = line := by
  rw [selectionsAt, List.map_eq_nil_iff, List.filter_eq_nil_iff, not_exists]
  constructor
  · rintro hnone l ⟨hl, hplace⟩
    rw [← fst_lineRanges 1 locations] at hl
    obtain ⟨r, hr, rfl⟩ := List.mem_map.1 hl
    exact hnone r hr (decide_eq_true hplace)
  · intro hnone r hr hplace
    have hl : r.1 ∈ locations := fst_lineRanges 1 locations ▸ List.mem_map_of_mem hr
    exact hnone r.1 ⟨hl, of_decide_eq_true hplace⟩

/-- What a branch is for: a place whose selections it selects. -/
theorem exists_place_of_mem_branches {locations : List Location} {branch : Branch}
    (h : branch ∈ (selectionStatement locations).branches) :
    ∃ l ∈ locations, branch = selectionBranch
      (placeKey l.file l.line, selectionsAt locations l.file l.line) := by
  obtain ⟨e, he, rfl⟩ := List.mem_map.1 h
  obtain ⟨l, hl, rfl⟩ := of_mem_selections he
  exact ⟨l, hl, rfl⟩

/-- Every place has a branch. -/
theorem exists_branch_of_mem {locations : List Location} {l : Location} (hl : l ∈ locations) :
    selectionBranch (placeKey l.file l.line, selectionsAt locations l.file l.line) ∈
      (selectionStatement locations).branches := by
  have hsome : ¬selectionsAt locations l.file l.line = [] := by
    rw [selectionsAt_eq_nil_iff, not_not]
    exact ⟨l, hl, rfl, rfl⟩
  have hget := get?_selections locations l.file l.line
  rw [if_neg hsome] at hget
  obtain ⟨⟨key, texts⟩, he, hkey, rfl⟩ := SortedMap.exists_mem_of_get? hget
  rw [Key.same_string_iff] at hkey
  subst hkey
  exact List.mem_map_of_mem he

theorem value_selectionBranch {env : String → List Char} {key key' : String}
    {texts : List String} :
    Shell.value env (selectionBranch (key, texts)).pattern = some key'.toList ↔ key = key' := by
  rw [selectionBranch, Shell.value_map_char, Option.some.injEq, String.toList_inj]

theorem nodup_patterns (locations : List Location) :
    ((selectionStatement locations).branches.map Branch.pattern).Nodup := by
  rw [selectionStatement, List.map_map, List.Nodup, List.pairwise_map]
  apply (ascending_selections locations).imp
  intro e e' hbefore heq
  have hchars : Function.Injective Sign.char := fun _ _ h => Sign.char.inj h
  have hsigns : e.1.toList.map Sign.char = e'.1.toList.map Sign.char := heq
  have hkeys : e.1.toList = e'.1.toList := List.map_injective_iff.2 hchars hsigns
  rw [String.toList_inj.1 hkeys, Key.before_iff, LawfulKey.order_self] at hbefore
  cases hbefore

/-- The case statement finds the entries of the line that the cursor was on: there is a branch for
every place, no two for one place, and the one that is taken selects the entries of the file and the
line that the variables tell. -/
structure SelectsCursorLine (locations : List Location) (c : CaseStatement) : Prop where
  patterns : ∀ branch ∈ c.branches, ∃ l ∈ locations,
    branch.pattern = (placeKey l.file l.line).toList.map .char
  distinct : (c.branches.map Branch.pattern).Nodup
  subject : ∀ {env file line}, TellsCursor env file line →
    Shell.value env c.subject = some (placeKey file line).toList
  taken_iff : ∀ {env file line}, TellsCursor env file line →
    ((∃ branch ∈ c.branches, Shell.value env branch.pattern = some (placeKey file line).toList) ↔
      ∃ l ∈ locations, l.file = file ∧ l.line = line)
  selects : ∀ {env file line}, TellsCursor env file line →
    (∃ l ∈ locations, l.file = file ∧ l.line = line) →
      c.echoed env = some ("select " ++ Text.join " " (selectionsAt locations file line)).toList
  selects_nothing : ∀ {env file line}, TellsCursor env file line →
    (¬∃ l ∈ locations, l.file = file ∧ l.line = line) → c.echoed env = none

theorem taken_iff (locations : List Location) (env : String → List Char) (file : Path)
    (line : Nat) :
    (∃ branch ∈ (selectionStatement locations).branches,
        Shell.value env branch.pattern = some (placeKey file line).toList) ↔
      ∃ l ∈ locations, l.file = file ∧ l.line = line := by
  constructor
  · rintro ⟨branch, hbranch, hvalue⟩
    obtain ⟨l, hl, rfl⟩ := exists_place_of_mem_branches hbranch
    exact ⟨l, hl, placeKey_inj.1 (value_selectionBranch.1 hvalue)⟩
  · rintro ⟨l, hl, rfl, rfl⟩
    exact ⟨_, exists_branch_of_mem hl, value_selectionBranch.2 rfl⟩

theorem selectsCursorLine (locations : List Location) :
    SelectsCursorLine locations (selectionStatement locations) where
  patterns := by
    intro branch hbranch
    obtain ⟨l, hl, rfl⟩ := exists_place_of_mem_branches hbranch
    exact ⟨l, hl, rfl⟩
  distinct := nodup_patterns locations
  subject := value_cursorSubject
  taken_iff := fun {env file line} _ => taken_iff locations env file line
  selects := by
    intro env file line htells hplace
    apply CaseStatement.echoed_eq_some (value_cursorSubject htells)
      ((taken_iff locations env file line).2 hplace)
    intro branch hbranch hvalue
    obtain ⟨l, -, rfl⟩ := exists_place_of_mem_branches hbranch
    obtain ⟨rfl, rfl⟩ := placeKey_inj.1 (value_selectionBranch.1 hvalue)
    exact Shell.value_map_char _
  selects_nothing := by
    intro env file line htells hnone
    apply CaseStatement.echoed_eq_none (value_cursorSubject htells)
    rwa [taken_iff]

theorem render_openList (name : String) (listPath : Path) {locations : List Location}
    (h : locations ≠ []) :
    ∃ before, (openList name listPath locations true).render.toList =
      before ++ (delivered (selectionCases locations) ++ [closeBrace]) := by
  have hselect : (true && !locations.isEmpty) = true := by
    simpa using h
  have hclose : "\x7d".toList = [closeBrace] := rfl
  rw [toList_render, openList, hselect, if_pos rfl, delivered_append, delivered_append,
    List.append_assoc]
  exact ⟨_, congrArg _ (congrArg _ hclose)⟩

/-- Opening a list on a line selects the entries of that line and no others: read as a shell reads
it, the script that is delivered compares the path and the line with those of the places, each of
which stands in one pattern as it is, and the branch that is taken selects the entries of the places
with that path and that line.  The text of a path with a line tells both. -/
theorem current_line_selected {locations : List Location} (h : locations ≠ []) :
    (∀ name listPath, ∃ before, (openList name listPath locations true).render.toList =
      before ++ (delivered (selectionCases locations) ++ [closeBrace])) ∧
    (∃ script c, Carries quoteMark (delivered (selectionCases locations))
        ("    eval %sh\x7b".toList ++ (script ++ "\x7d\n".toList)) ∧
      Shell.readCase script = some c ∧ SelectsCursorLine locations c) ∧
    ∀ file line file' line', placeKey file line = placeKey file' line' ↔
      file = file' ∧ line = line' := by
  refine ⟨fun name listPath => render_openList name listPath h,
    ⟨selectionScript locations, selectionStatement locations, ?_,
      readCase_selectionScript locations, selectsCursorLine locations⟩,
    fun _ _ _ _ => placeKey_inj⟩
  have hcarries := carries_render (unquoted_selectionCases locations)
  rwa [toList_render, Script.plain, String.toList_ofList, plain_selectionCases] at hcarries

namespace OpenedListsWitness

/-- A path with every character that a shell or the editor takes for more than itself. -/
def path : Path := ⟨"/p/it's \"$a\" \x60b\x60 \\c.ts"⟩

/-- Two entries of one line, and between them one whose key begins with theirs. -/
def failures : List Location :=
  [⟨path, 3, "first"⟩, ⟨⟨path.text ++ ":3"⟩, 9, ""⟩, ⟨path, 3, "again\n"⟩]

/-- The variables when the cursor was on a line. -/
def cursor (file : Path) (line : Nat) (name : String) : List Char :=
  if name = fileVariable then file.text.toList else (toString line).toList

theorem tellsCursor (file : Path) (line : Nat) : TellsCursor (cursor file line) file line where
  file_eq := rfl
  line_eq := rfl

theorem current_line_selected_special :
    failures ≠ [] ∧ ∃ script c, Carries quoteMark (delivered (selectionCases failures))
        ("    eval %sh\x7b".toList ++ (script ++ "\x7d\n".toList)) ∧
      Shell.readCase script = some c ∧
      c.echoed (cursor path 3) = some "select 1.1,1.999 3.1,4.999".toList ∧
      c.echoed (cursor path 9) = none := by
  have hfailures : failures ≠ [] := List.cons_ne_nil _ _
  obtain ⟨-, ⟨script, c, hcarries, hread, hselects⟩, -⟩ := current_line_selected hfailures
  have hthree : selectionsAt failures path 3 = ["1.1,1.999", "3.1,4.999"] := by decide +kernel
  refine ⟨hfailures, script, c, hcarries, hread, ?_, ?_⟩
  · rw [hselects.selects (tellsCursor path 3) ⟨_, List.mem_cons_self, rfl, rfl⟩, hthree]
    rfl
  · exact hselects.selects_nothing (tellsCursor path 9) (by decide)

end OpenedListsWitness

end LiveTest.Commands
