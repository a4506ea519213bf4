import LiveTest.Proofs.CaseStatements
import LiveTest.Proofs.CommandEnds
import LiveTest.Proofs.Delivery
import LiveTest.Proofs.OpenedDetails
/-!
Scripts that open details.  The command that opens the details of a line embeds the path of their
file in a text that a shell echoes, without escaping it for the shell.  So the file that was written
is the file that opens only as long as the shell finds nothing in the directory's path to expand or
to unescape, and the editor finds no brace in it without its partner.
-/

namespace LiveTest.Commands

open Braces Quotes
open Piece (fixed embedded)
open Shell (Sign Branch Says Verbatim)

theorem inert_detailsHash (file : Path) (line : Nat) :
    Shell.Inert (detailsHash file line).toList := by
  intro c hc
  obtain ⟨n, rfl⟩ := Sha256.exists_digitChar_of_mem_hash hc
  have hbackslash : Nat.digitChar n ≠ '\\' := Nat.digitChar_ne '\\' (by decide)
  have hquote : Nat.digitChar n ≠ '"' := Nat.digitChar_ne '"' (by decide)
  have hdollar : Nat.digitChar n ≠ '$' := Nat.digitChar_ne '$' (by decide)
  have hbackquote : Nat.digitChar n ≠ '\x60' := Nat.digitChar_ne '\x60' (by decide)
  simp [Quoting.isShellSpecial, hbackslash, hquote, hdollar, hbackquote]

theorem inert_detailsName (file : Path) (line : Nat) :
    Shell.Inert (detailsName file line).toList := by
  have hname : Shell.Inert "notification_".toList := Shell.inert_ofList rfl
  have hextension : Shell.Inert ".json".toList := Shell.inert_ofList rfl
  rw [detailsName, String.toList_append, String.toList_append, Shell.inert_append,
    Shell.inert_append]
  exact ⟨⟨hname, inert_detailsHash file line⟩, hextension⟩

/-- A file whose name has no special characters is as plain as its directory. -/
theorem verbatim_join {base path : Path} (hrelative : path.isAbsolute = false)
    (hpath : Shell.Inert path.text.toList) (next : Char) :
    Verbatim next (base.join path).text.toList ↔ Verbatim '/' base.text.toList := by
  have hslash : "/".toList = ['/'] := rfl
  have hneutral : ∀ next, Verbatim next ['/'] :=
    Shell.Inert.verbatim (hslash ▸ Shell.inert_ofList rfl)
  rw [Path.join, hrelative, if_neg (by decide)]
  split
  · next hlast =>
      rw [List.getLast?_eq_none_iff.1 hlast]
      exact iff_of_true (hpath.verbatim next) trivial
  · next c hlast =>
      obtain ⟨dir, hdir⟩ := List.getLast?_eq_some_iff.1 hlast
      split
      · next hc =>
          rw [String.toList_append, Shell.verbatim_append, hdir, hc, Shell.verbatim_append,
            Shell.verbatim_append, and_iff_left (hpath.verbatim next), and_iff_left (hneutral _),
            and_iff_left (hneutral _)]
          rfl
      · rw [String.toList_append, String.toList_append, hslash, List.append_assoc,
          Shell.verbatim_append, Shell.verbatim_append, and_iff_left ⟨hneutral _, hpath.verbatim next⟩]
        rfl

/-- The file of a line's details is as plain as the directory that it is in. -/
theorem verbatim_detailsPath (tempDir file : Path) (line : Nat) (next : Char) :
    Verbatim next (detailsPath tempDir file line).text.toList ↔
      Verbatim '/' tempDir.text.toList := by
  have hrelative : (⟨detailsName file line⟩ : Path).isAbsolute = false := by
    rw [Path.isAbsolute, detailsName, String.toList_append, String.toList_append]
    rfl
  exact verbatim_join hrelative (inert_detailsName file line) next

/-- What stands before the file that is edited. -/
def editText : String :=
  "try %\x7b delete-buffer! " ++ detailsBuffer ++ " \x7d; edit! -existing %\x7b"

/-- What stands between the file that is edited and its buffer. -/
def renameText : String :=
  "\x7d; rename-buffer -scratch " ++ detailsBuffer ++ "; try %\x7b delete-buffer! %\x7b"

-- As in the case statements, the literals are kept from being decoded.

theorem editText_eq : editText =
    "try %\x7b delete-buffer! " ++ detailsBuffer ++ " \x7d; edit! -existing %\x7b" := rfl

theorem renameText_eq : renameText =
    "\x7d; rename-buffer -scratch " ++ detailsBuffer ++ "; try %\x7b delete-buffer! %\x7b" := rfl

theorem inert_editText : Shell.Inert editText.toList := by
  have hdelete : Shell.Inert "try %\x7b delete-buffer! ".toList := Shell.inert_ofList rfl
  have hbuffer : Shell.Inert detailsBuffer.toList := Shell.inert_ofList rfl
  have hedit : Shell.Inert " \x7d; edit! -existing %\x7b".toList := Shell.inert_ofList rfl
  rw [editText_eq, String.toList_append, String.toList_append, Shell.inert_append,
    Shell.inert_append]
  exact ⟨⟨hdelete, hbuffer⟩, hedit⟩

theorem inert_renameText : Shell.Inert renameText.toList := by
  have hrename : Shell.Inert "\x7d; rename-buffer -scratch ".toList := Shell.inert_ofList rfl
  have hbuffer : Shell.Inert detailsBuffer.toList := Shell.inert_ofList rfl
  have hdelete : Shell.Inert "; try %\x7b delete-buffer! %\x7b".toList := Shell.inert_ofList rfl
  rw [renameText_eq, String.toList_append, String.toList_append, Shell.inert_append,
    Shell.inert_append]
  exact ⟨⟨hrename, hbuffer⟩, hdelete⟩

theorem exists_renameText : ∃ rest, renameText.toList = closeBrace :: rest := by
  have hclose : "\x7d; rename-buffer -scratch ".toList =
      closeBrace :: "; rename-buffer -scratch ".toList := by decide
  rw [renameText_eq, String.toList_append, String.toList_append, hclose]
  exact ⟨_, rfl⟩

/-- The commands that show a file in a scratch buffer. -/
def detailsCommands (path : String) : String :=
  editText ++ path ++ renameText ++ path ++ "\x7d \x7d"

/-- The file that such commands edit, as the editor reads them. -/
def editedFile? (commands : List Char) : Option (List Char) :=
  (commands.dropPrefix? editText.toList).bind fun file => (readBraced 0 file).map Prod.fst

/-- The editor edits the file that is meant exactly if the braces of its path balance. -/
theorem editedFile?_detailsCommands (path : String) :
    editedFile? (detailsCommands path).toList = some path.toList ↔ Paired path.toList := by
  obtain ⟨rest, hrest⟩ := exists_renameText
  rw [editedFile?, detailsCommands, String.toList_append, String.toList_append,
    String.toList_append, String.toList_append, hrest, List.append_assoc, List.append_assoc,
    List.append_assoc, Shell.dropPrefix?_append, Option.bind_some, List.cons_append,
    map_fst_readBraced_iff]
  rfl

/-- The shell echoes the commands as they are written exactly if it finds nothing to expand or to
unescape in the path. -/
theorem verbatim_detailsCommands (path : String) :
    Verbatim '"' (detailsCommands path).toList ↔ Verbatim '\x7d' path.toList := by
  have hend : Shell.Inert "\x7d \x7d".toList := Shell.inert_ofList rfl
  have hlast : ∀ next, "\x7d \x7d".toList.headD next = '\x7d' := fun _ => rfl
  have hafter : ∀ next, renameText.toList.headD next = '\x7d' := by
    intro next
    obtain ⟨rest, hrest⟩ := exists_renameText
    rw [hrest]
    rfl
  simp only [detailsCommands, String.toList_append, Shell.verbatim_append, hlast, hafter]
  constructor
  · rintro ⟨⟨⟨⟨-, hpath⟩, -⟩, -⟩, -⟩
    exact hpath
  · intro hpath
    exact ⟨⟨⟨⟨inert_editText.verbatim _, hpath⟩, inert_renameText.verbatim _⟩, hpath⟩,
      hend.verbatim _⟩

/-- The pattern of a case: what the tool that hashes the line gives. -/
def detailsPattern (hash : String) : String := hash ++ "  -"

/-- The case of a line as it is meant, where this stands for its details. -/
theorem plain_detailsCase (tempDir : Path) (n : Notification) :
    (detailsCase tempDir n).flatMap Piece.plain =
      Shell.branchText (detailsPattern (detailsHash n.file n.line)).toList
        (detailsCommands (detailsPath tempDir n.file n.line).text).toList := by
  have hindent : "            \"".toList = "            ".toList ++ "\"".toList := by decide
  have hecho : "  -\") echo \"try %\x7b delete-buffer! ".toList =
      "  -".toList ++ '"' :: (") echo \"".toList ++ "try %\x7b delete-buffer! ".toList) := by
    decide
  have hend : "\x7d \x7d\";;\n".toList = "\x7d \x7d".toList ++ '"' :: (";;".toList ++ ['\n']) := by
    decide
  simp only [detailsCase, detailsPattern, detailsCommands, editText_eq, renameText_eq,
    List.flatMap_cons, List.flatMap_nil, Piece.plain, Shell.branchText_eq, String.toList_append,
    hindent, hecho, hend, List.append_assoc, List.cons_append, List.append_nil]

/-- Read by a shell as a branch of a case statement, the text ends where it is written to, it is
taken for this hash, and whatever the values of variables are it echoes the commands that show this
file.  The editor then edits this file. -/
def OpensAsMeant (text : List Char) (hash path : String) : Prop :=
  (∀ later, ∃ branch,
    Shell.readBranch (Shell.skipBlanks (text ++ later)) = some (branch, '\n' :: later) ∧
    branch.pattern = (detailsPattern hash).toList.map .char ∧
    ∀ env, Shell.value env branch.argument = some (detailsCommands path).toList) ∧
  editedFile? (detailsCommands path).toList = some path.toList

theorem inert_detailsPattern (file : Path) (line : Nat) :
    Shell.Inert (detailsPattern (detailsHash file line)).toList := by
  have hend : Shell.Inert "  -".toList := Shell.inert_ofList rfl
  rw [detailsPattern, String.toList_append, Shell.inert_append]
  exact ⟨inert_detailsHash file line, hend⟩

theorem says_detailsPattern (file : Path) (line : Nat) :
    Says (detailsPattern (detailsHash file line)).toList
      ((detailsPattern (detailsHash file line)).toList.map .char) :=
  Shell.says_of_inert (inert_detailsPattern file line)

/-- The case of a line opens its details exactly if neither the shell nor the editor finds a meaning
in the path of the directory. -/
theorem opensAsMeant_iff (tempDir : Path) (n : Notification) :
    OpensAsMeant ((detailsCase tempDir n).flatMap Piece.plain) (detailsHash n.file n.line)
        (detailsPath tempDir n.file n.line).text ↔
      Verbatim '/' tempDir.text.toList ∧ Paired tempDir.text.toList := by
  have hbraces : Paired (detailsPath tempDir n.file n.line).text.toList ↔
      Paired tempDir.text.toList := by
    rw [Paired, effect_toList, textEffect_detailsPath]
    rfl
  rw [OpensAsMeant, plain_detailsCase, editedFile?_detailsCommands, hbraces,
    Shell.branch_says_iff_verbatim (says_detailsPattern n.file n.line), verbatim_detailsCommands,
    verbatim_detailsPath]

theorem render_openDetails (tempDir : Path) {notifications : List Notification} {n : Notification}
    (hn : n ∈ notifications) :
    ∃ before after, (openDetails tempDir notifications).render.toList =
      before ++ (delivered (detailsCase tempDir n) ++ after) := by
  obtain ⟨earlier, later, rfl⟩ := List.append_of_mem hn
  have hsome : (earlier ++ n :: later).isEmpty = false := by
    simp
  rw [toList_render, openDetails, hsome, if_neg (by decide), detailsCases, List.flatMap_append,
    List.flatMap_cons]
  simp only [delivered_append, List.append_assoc]
  rw [← List.append_assoc, ← List.append_assoc]
  exact ⟨_, _, rfl⟩

/-- Whether a line opens its details.  The text that its case echoes is delivered as it is meant, and
it is the commands that edit the file of the details if and only if no character of the directory's
path has a meaning for the shell and its braces balance.  That file is the one that the details are
written to. -/
theorem details_open_iff (tempDir : Path) (notifications : List Notification) :
    (∀ n ∈ notifications,
      (∃ before after, (openDetails tempDir notifications).render.toList =
        before ++ (delivered (detailsCase tempDir n) ++ after)) ∧
      ∃ text, Carries quoteMark (delivered (detailsCase tempDir n)) text ∧
        (OpensAsMeant text (detailsHash n.file n.line) (detailsPath tempDir n.file n.line).text ↔
          Verbatim '/' tempDir.text.toList ∧ Paired tempDir.text.toList)) ∧
    ∀ (e : Editor) (o : Outlet), e.settings.tempDir = tempDir →
      (e.writeDetails o notifications).2 = .ok () →
      (notifications.Pairwise fun n n' =>
        detailsName n.file n.line ≠ detailsName n'.file n'.line) →
      ∀ n ∈ notifications, (e.writeDetails o notifications).1.tree.read?
        (detailsPath tempDir n.file n.line) = some n.json := by
  constructor
  · intro n hn
    have hcarries := carries_render (unquoted_detailsCase tempDir n)
    rw [toList_render, Script.plain, String.toList_ofList] at hcarries
    exact ⟨render_openDetails tempDir hn, _, hcarries, opensAsMeant_iff tempDir n⟩
  · rintro e o rfl hwritten hnames n hn
    exact Editor.read?_writeDetails hwritten hnames n hn

namespace DetailsScriptsWitness

def failure : Notification := ⟨⟨"/p/a.ts"⟩, 3, "\x7b\x7d"⟩

/-- In a directory whose name has a dollar sign, the shell looks for a variable and the details do
not open. -/
theorem variable_in_directory :
    ∃ text, Carries quoteMark (delivered (detailsCase ⟨"/tmp/$kiwi"⟩ failure)) text ∧
      ¬OpensAsMeant text (detailsHash failure.file failure.line)
        (detailsPath ⟨"/tmp/$kiwi"⟩ failure.file failure.line).text := by
  have hcarries := carries_render (unquoted_detailsCase ⟨"/tmp/$kiwi"⟩ failure)
  rw [toList_render, Script.plain, String.toList_ofList] at hcarries
  refine ⟨_, hcarries, ?_⟩
  rw [opensAsMeant_iff]
  decide

/-- A directory whose name has a quote, a dollar sign before a blank and a backslash that takes no
meaning. -/
def editor : Editor := .ofSettings { EditorSettings.standard with tempDir := ⟨"/tmp/it's $ \\k"⟩ }

def outlet : Outlet := .ofTree .empty fun _ => true

theorem details_open_iff_unusual :
    (∃ text, Carries quoteMark (delivered (detailsCase editor.settings.tempDir failure)) text ∧
      OpensAsMeant text (detailsHash failure.file failure.line)
        (detailsPath editor.settings.tempDir failure.file failure.line).text) ∧
    (editor.writeDetails outlet [failure]).2 = .ok () ∧
    (editor.writeDetails outlet [failure]).1.tree.read?
      (detailsPath editor.settings.tempDir failure.file failure.line) = some "\x7b\x7d" := by
  obtain ⟨hopens, hread⟩ := details_open_iff editor.settings.tempDir [failure]
  obtain ⟨-, text, hcarries, hiff⟩ := hopens failure List.mem_cons_self
  have hwritten : (editor.writeDetails outlet [failure]).2 = .ok () := by decide +kernel
  exact ⟨⟨text, hcarries, hiff.2 (by decide)⟩, hwritten,
    hread editor outlet rfl hwritten (List.pairwise_singleton _ _) failure List.mem_cons_self⟩

end DetailsScriptsWitness

end LiveTest.Commands
