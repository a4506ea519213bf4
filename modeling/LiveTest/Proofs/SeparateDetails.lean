import LiveTest.Proofs.DetailsScripts
/-!
Details of different lines.  A report has the details of a line once, and the text that is hashed
for them tells the file and the line.  As long as no two of these texts have one hash, the details
go to different files, and writing some of them leaves the others as they are.  The command that
follows has one case for each of them, in their order.
-/

namespace LiveTest

namespace Path

/-- What two paths begin with alike makes no difference to their order. -/
theorem orderComponents_append (shared as bs : List Component) :
    orderComponents (shared ++ as) (shared ++ bs) = orderComponents as bs := by
  induction shared with
  | nil => rfl
  | cons c rest ih =>
      have hself : c.order c = .eq := Std.ReflCmp.compare_self
      rw [List.cons_append, List.cons_append, orderComponents, hself, ih]
      rfl

/-- Two names in one directory are two paths, whatever the directory is. -/
theorem same_join_iff (dir : Path) {name name' : String} (hname : IsPlain name.toList)
    (hname' : IsPlain name'.toList) :
    Key.same (dir.join ⟨name⟩) (dir.join ⟨name'⟩) = true ↔ name = name' := by
  have horder : Key.order (dir.join ⟨name⟩) (dir.join ⟨name'⟩) = Key.order name name' := by
    change orderComponents (dir.join ⟨name⟩).components (dir.join ⟨name'⟩).components =
      orderChars name.toList name'.toList
    rw [components_join dir hname, components_join dir hname', orderComponents_append,
      orderComponents, orderComponents, Ordering.then_eq]
    rfl
  rw [Key.same_iff, horder, ← Key.same_iff, Key.same_string_iff]

end Path

namespace Shell

/-- A branch that is taken for a text and echoes another one, whatever the values of variables are. -/
structure Branch.Echoes (branch : Branch) (pattern argument : List Char) : Prop where
  pattern_eq : branch.pattern = pattern.map .char
  value_eq : ∀ env, value env branch.argument = some argument

/-- Branches in which no character has a meaning are read one by one, and each says what it is
written to say. -/
theorem readBranches_of_verbatim {α : Type} {pattern argument : α → List Char} {as : List α}
    (hpattern : ∀ x ∈ as, Inert (pattern x)) (hargument : ∀ x ∈ as, Verbatim '"' (argument x))
    (rest : List Char) :
    ∃ branches, readBranches (branchesText pattern argument as ++
        ("        ".toList ++ ("esac".toList ++ rest))) = some (branches, rest) ∧
      List.Forall₂ (fun branch x => Branch.Echoes branch (pattern x) (argument x)) branches as := by
  refine ⟨as.map fun x => ⟨(pattern x).map .char, (argument x).map signOf⟩, ?_, ?_⟩
  · rw [readBranches_branchesText (fun x hx => says_of_inert (hpattern x hx))
      fun x hx => says_of_verbatim (hargument x hx), readBranches_end, Option.map_some,
      List.append_nil]
  · rw [List.forall₂_map_left_iff, List.forall₂_same]
    exact fun x hx => ⟨rfl, fun env => value_map_signOf (hargument x hx)⟩

end Shell

namespace Commands

open Quotes
open Shell (Branch Verbatim)

theorem same_detailsPath_iff (tempDir : Path) {file file' : Path} {line line' : Nat} :
    Key.same (detailsPath tempDir file line) (detailsPath tempDir file' line') = true ↔
      detailsHash file line = detailsHash file' line' :=
  (Path.same_join_iff tempDir (isPlain_detailsName file line)
    (isPlain_detailsName file' line')).trans detailsName_inj

/-- The cases as they are meant. -/
def casesText (arms : List Arm) : List Char :=
  Shell.branchesText (fun a : Arm => (detailsPattern a.hash).toList)
    (fun a => (detailsCommands a.path.text).toList) arms

/-- What follows the cases. -/
def afterCases : List Char := "        ".toList ++ ("esac".toList ++ "\n    \x7d\n".toList)

-- As in the case statements, the literals are kept from being decoded.
theorem afterCases_eq :
    afterCases = "        ".toList ++ ("esac".toList ++ "\n    \x7d\n".toList) := rfl

/-- The command with these cases as it is meant. -/
def openText (arms : List Arm) : List Char :=
  "define-command -override kiwi-open-notification %\x7b\n".toList ++
    ((if arms.isEmpty then [] else
      ("    eval %sh\x7b\n        case " ++
        "$(printf %s \"$kak_buffile:$kak_cursor_line\" | sha256sum) in\n").toList ++
          (casesText arms ++ afterCases)) ++ "\x7d".toList)

theorem openText_eq (arms : List Arm) :
    openText arms = "define-command -override kiwi-open-notification %\x7b\n".toList ++
      ((if arms.isEmpty then [] else
        ("    eval %sh\x7b\n        case " ++
          "$(printf %s \"$kak_buffile:$kak_cursor_line\" | sha256sum) in\n").toList ++
            (casesText arms ++ afterCases)) ++ "\x7d".toList) := rfl

theorem casesText_map_arm (tempDir : Path) (notifications : List Notification) :
    casesText (notifications.map (arm tempDir)) =
      (notifications.flatMap (detailsCase tempDir)).flatMap Piece.plain := by
  rw [casesText, Shell.branchesText, List.flatMap_map, List.flatMap_assoc]
  apply List.flatMap_congr
  intro n _
  exact (plain_detailsCase tempDir n).symm

/-- The command has a case for each of the notifications, in their order. -/
theorem toList_plain_openDetails (tempDir : Path) (notifications : List Notification) :
    (openDetails tempDir notifications).plain.toList =
      openText (notifications.map (arm tempDir)) := by
  have hend : "        esac\n    \x7d\n".toList =
      "        ".toList ++ ("esac".toList ++ "\n    \x7d\n".toList) := by decide
  rw [Script.plain, String.toList_ofList, openText_eq, casesText_map_arm, afterCases_eq, ← hend,
    openDetails, List.isEmpty_map]
  split
  · simp only [List.flatMap_append, List.flatMap_cons, List.flatMap_nil, Piece.plain,
      List.append_nil, List.nil_append]
  · simp only [detailsCases, List.flatMap_append, List.flatMap_cons, List.flatMap_nil, Piece.plain,
      List.append_nil, List.append_assoc]

/-- A shell takes the branch of a case for its hash, and echoes the commands that show its file. -/
def IsBranchOf (branch : Branch) (a : Arm) : Prop :=
  branch.Echoes (detailsPattern a.hash).toList (detailsCommands a.path.text).toList

/-- A shell finds a branch for each case where it finds nothing to expand or to unescape in the path
of the directory. -/
theorem readBranches_casesText {tempDir : Path} (h : Verbatim '/' tempDir.text.toList)
    (notifications : List Notification) :
    ∃ branches, Shell.readBranches (casesText (notifications.map (arm tempDir)) ++ afterCases) =
        some (branches, "\n    \x7d\n".toList) ∧
      List.Forall₂ IsBranchOf branches (notifications.map (arm tempDir)) := by
  have hpattern : ∀ a ∈ notifications.map (arm tempDir),
      Shell.Inert (detailsPattern a.hash).toList := by
    rw [List.forall_mem_map]
    exact fun n _ => inert_detailsPattern n.file n.line
  have hargument : ∀ a ∈ notifications.map (arm tempDir),
      Verbatim '"' (detailsCommands a.path.text).toList := by
    rw [List.forall_mem_map]
    intro n _
    rw [arm, verbatim_detailsCommands, verbatim_detailsPath]
    exact h
  rw [casesText, afterCases_eq]
  exact Shell.readBranches_of_verbatim hpattern hargument _

end Commands

namespace Editor

open Commands Outlet

/-- Everything that making details ready to open does if it succeeds. -/
theorem publishDetails_eq_ok {e : Editor} {o : Outlet} {notifications : List Notification}
    (hok : (e.publishDetails o notifications).2 = .ok ()) :
    (e.writeDetails o notifications).2 = .ok () ∧
      (e.publishDetails o notifications).1.tree = (e.writeDetails o notifications).1.tree ∧
      (e.publishDetails o notifications).1.sent =
        o.sent ++ [(openDetails e.settings.tempDir notifications).render] := by
  have harrived := (e.delivers_publishDetails notifications).all o hok
  rw [publishDetails_eq_andThen] at hok
  obtain ⟨hwritten, -⟩ := Stage.andThen_eq_ok.1 hok
  refine ⟨hwritten, ?_, ?_⟩
  · rw [publishDetails_eq_andThen, Stage.andThen_of_ok hwritten, tree_send]
  · rw [sent, harrived, List.map_append]
    rfl

end Editor

namespace Report

open Commands Quotes
open Shell (Verbatim)

section

variable {project : Project} {lookup : SourceLookup} {outcome : RunOutcome} {report : Report}
  (hreport : ofOutcome project lookup outcome = .ok report)
  (hapart : HashesApart (report.notifications.map Notification.key))

include hreport hapart

/-- The details of different lines never replace each other.  Their files are different, whatever
the directory is, and once they are all written each file holds the details of its line.  The
command that is sent then has exactly one case for each line with details, in their order: the
hash is that of the file and the line, and the file is the one that was written. -/
theorem details_kept_apart (tempDir : Path) :
    (report.notifications.Pairwise fun n n' =>
      Key.same (detailsPath tempDir n.file n.line) (detailsPath tempDir n'.file n'.line) =
        false) ∧
    ∀ (e : Editor) (o : Outlet), e.settings.tempDir = tempDir →
      (e.publishDetails o report.notifications).2 = .ok () →
      (∀ n ∈ report.notifications, (e.publishDetails o report.notifications).1.tree.read?
        (detailsPath tempDir n.file n.line) = some n.json) ∧
      ∃ command arms, (e.publishDetails o report.notifications).1.sent = o.sent ++ [command] ∧
        arms = report.notifications.map (fun n =>
          ⟨Sha256.hash (n.file.text ++ ":" ++ toString n.line),
            detailsPath tempDir n.file n.line⟩) ∧
        (arms.map Arm.hash).Nodup ∧ Carries quoteMark command.toList (openText arms) ∧
        (Verbatim '/' tempDir.text.toList → ∃ branches,
          Shell.readBranches (casesText arms ++ afterCases) =
            some (branches, "\n    \x7d\n".toList) ∧
          List.Forall₂ IsBranchOf branches arms) := by
  obtain ⟨stages⟩ := stages_of_ofOutcome hreport
  have hnames := hapart.pairwise_detailsName (pairwise_notifications stages)
  constructor
  · refine hnames.imp fun hname => ?_
    rw [← Bool.not_eq_true, same_detailsPath_iff, ← detailsName_inj]
    exact hname
  · rintro e o rfl hok
    obtain ⟨hwritten, htree, hsent⟩ := Editor.publishDetails_eq_ok hok
    refine ⟨?_, _, report.notifications.map (arm e.settings.tempDir), hsent, rfl, ?_, ?_, ?_⟩
    · rw [htree]
      exact Editor.read?_writeDetails hwritten hnames
    · rw [List.map_map, List.Nodup, List.pairwise_map]
      exact hnames.imp fun hname hhash => hname (detailsName_inj.2 hhash)
    · have hcarries := carries_render (unquoted_openDetails e.settings.tempDir report.notifications)
      rwa [toList_plain_openDetails] at hcarries
    · exact fun hverbatim => readBranches_casesText hverbatim report.notifications

end

namespace SeparateDetailsWitness

def place : Project := ⟨⟨"/p"⟩, ⟨"t.ts"⟩⟩

/-- Errors at one line under two spellings of its file, and one in a file whose name looks like the
start of that line's key. -/
def outcome : RunOutcome where
  state := .done
  records := []
  errors := [⟨"first", none, none, .probe ⟨⟨1⟩, 11, 5⟩, .setup⟩,
    ⟨"second", none, none, .probe ⟨⟨2⟩, 1, 5⟩, .setup⟩,
    ⟨"third", none, none, .compiler ⟨⟨"./a.ts"⟩, 11, 1⟩, .setup⟩]
  files := ⟨[(⟨1⟩, ⟨"a.ts"⟩), (⟨2⟩, ⟨"a.ts:1"⟩)]⟩
  catalog := .empty
  logs := []
  stats := .zero
  codePath := none

def editor : Editor := .ofSettings { EditorSettings.standard with tempDir := ⟨"/tmp/it's"⟩ }

def outlet : Outlet := .ofTree .empty fun _ => true

theorem course_of_publishing :
    (ofOutcome place (fun _ => none) outcome).map (fun r =>
      (r.notifications.map Notification.key,
        (editor.publishDetails outlet r.notifications).2)) =
      .ok (["/p/a.ts:11", "/p/a.ts:1:1"], .ok ()) := by
  decide +kernel

theorem details_kept_apart_two_lines :
    ∃ r, ofOutcome place (fun _ => none) outcome = .ok r ∧
      HashesApart (r.notifications.map Notification.key) ∧ r.notifications.length = 2 ∧
      ∀ n ∈ r.notifications, (editor.publishDetails outlet r.notifications).1.tree.read?
        (detailsPath ⟨"/tmp/it's"⟩ n.file n.line) = some n.json := by
  obtain ⟨r, hreport, hcourse⟩ := map_eq_ok.1 course_of_publishing
  obtain ⟨hkeys, hok⟩ := Prod.mk.inj hcourse
  have hapart : HashesApart (r.notifications.map Notification.key) := by
    rw [hkeys]
    decide +kernel
  obtain ⟨-, hpublished⟩ := details_kept_apart hreport hapart ⟨"/tmp/it's"⟩
  refine ⟨r, hreport, hapart, ?_, (hpublished editor outlet rfl hok).1⟩
  rw [← List.length_map Notification.key, hkeys]
  rfl

end SeparateDetailsWitness

end Report

end LiveTest
