import LiveTest.Proofs.FailedBuilds
import LiveTest.Proofs.FileShapes
import LiveTest.Proofs.ShownErrors
import Mathlib.Data.List.Forall2
/-!
A source map only decorates.  Whatever it knows, and whether or not it can be read, a build is run
and shown in the same way: all that changes is what the details of an error say about the origin of
a place that code reported.
-/

namespace LiveTest

/-- An object without the member of this name.  Any other value stays as it is. -/
def Json.without (name : String) : Json → Json
  | .object members => .object (members.filter fun m => m.1 != name)
  | v => v

namespace Report

/-- The member of an error's details that names the origin of its place. -/
def originMember : String := "original"

/-- Details of an error.  They name an origin only if code reported a place. -/
structure Details (e : ThrownError) (item : Json) : Prop where
  message : item.member? "message" = some (.text e.message)
  origin : (item.member? originMember).isSome = true →
    ∃ p, e.site = .probe p ∧ p.isSentinel = false

/-- Two notifications of one line that give the same details of its errors but for the origins. -/
structure SameLine (placed : List PlacedError) (n n' : Notification) : Prop where
  file : n.file = n'.file
  line : n.line = n'.line
  details : ∃ items items',
    n.json = (Json.array items).pretty ∧ n'.json = (Json.array items').pretty ∧
    items.map (Json.without originMember) = items'.map (Json.without originMember) ∧
    List.Forall₂ Details (errorsAt placed n.file n.line) items ∧
    List.Forall₂ Details (errorsAt placed n.file n.line) items'

/-- Two reports that are the same but for the origins in the details. -/
structure SameButOrigins (placed : List PlacedError) (r r' : Report) : Prop where
  statuses : r.statuses = r'.statuses
  labels : r.labels = r'.labels
  failures : r.failures = r'.failures
  notifications : List.Forall₂ (SameLine placed) r.notifications r'.notifications
  suiteFailed : r.suiteFailed = r'.suiteFailed

section

variable (o : RunOutcome) (lookup : SourceLookup) (e : ThrownError)

/-- Without the origin, details are those that are given if no origin is known. -/
theorem without_detail :
    (detail o lookup e).without originMember = detail o (fun _ => none) e := by
  have hnone : sourceOf (fun _ => none) e.site = none := by
    rcases e.site with p | l
    · exact ite_self _
    · rfl
  rw [detail, detail, hnone]
  cases e.actual <;> cases e.expected <;> cases sourceOf lookup e.site <;> rfl

theorem origin_detail :
    (detail o lookup e).member? originMember = (sourceOf lookup e.site).map sourceJson :=
  (members_detail o lookup e).2.2.2.2.2

theorem details_detail : Details e (detail o lookup e) where
  message := message_detail o lookup e
  origin := by
    rw [origin_detail, Option.isSome_map]
    intro hsource
    rcases hsite : e.site with p | l
    · rw [hsite, sourceOf] at hsource
      cases hsentinel : p.isSentinel with
      | false => exact ⟨p, rfl, hsentinel⟩
      | true =>
          rw [hsentinel] at hsource
          cases hsource
    · rw [hsite] at hsource
      cases hsource

end

theorem forall₂_details (o : RunOutcome) (lookup : SourceLookup) (errors : List ThrownError) :
    List.Forall₂ Details errors (errors.map (detail o lookup)) := by
  rw [List.forall₂_map_right_iff, List.forall₂_same]
  intro e _
  exact details_detail o lookup e

section

variable (project : Project) (lookup lookup' : SourceLookup) (o : RunOutcome)

theorem sameLine_of_mem_groupErrors {placed : List PlacedError}
    {group : (Path × Nat) × List ThrownError} (hgroup : group ∈ (groupErrors placed).entries) :
    SameLine placed (notification o lookup group.1.1 group.1.2 group.2)
      (notification o lookup' group.1.1 group.1.2 group.2) where
  file := rfl
  line := rfl
  details := by
    have herrors : errorsAt placed group.1.1 group.1.2 = group.2 :=
      (snd_of_mem_groupErrors hgroup).symm
    refine ⟨_, _, rfl, rfl, ?_, ?_, ?_⟩
    · rw [List.map_map, List.map_map]
      apply List.map_congr_left
      intro e _
      exact (without_detail o lookup e).trans (without_detail o lookup' e).symm
    · exact herrors.symm ▸ forall₂_details o lookup group.2
    · exact herrors.symm ▸ forall₂_details o lookup' group.2

/-- An outcome is reported with the same error, or in the same way but for the origins. -/
theorem ofOutcome_sameButOrigins :
    (∃ err, ofOutcome project lookup o = .error err ∧
      ofOutcome project lookup' o = .error err) ∨
    ∃ placed r r', placeErrors project o.files o.errors = .ok placed ∧
      ofOutcome project lookup o = .ok r ∧ ofOutcome project lookup' o = .ok r' ∧
      SameButOrigins placed r r' := by
  -- No stage before the details looks at origins, so both reports fail together at each of them.
  simp only [ofOutcome, bind, Except.bind]
  rcases coverCatalog project o.files .empty o.catalog.entries with err | covered
  · exact Or.inl ⟨err, rfl, rfl⟩
  dsimp only
  rcases traceRecords project o.files covered o.records with err | traced
  · exact Or.inl ⟨err, rfl, rfl⟩
  dsimp only
  rcases placeErrors project o.files o.errors with err | placed
  · exact Or.inl ⟨err, rfl, rfl⟩
  dsimp only
  rcases logLabels project o.files (errorLabels (groupErrors placed)) o.logs with err | labels
  · exact Or.inl ⟨err, rfl, rfl⟩
  refine Or.inr ⟨placed, _, _, rfl, rfl, rfl, rfl, rfl, rfl, ?_, rfl⟩
  dsimp only
  rw [List.forall₂_map_left_iff, List.forall₂_map_right_iff, List.forall₂_same]
  intro group hgroup
  exact sameLine_of_mem_groupErrors lookup lookup' o hgroup

end

theorem SameButOrigins.places {placed : List PlacedError} {r r' : Report}
    (h : SameButOrigins placed r r') :
    r.notifications.map Notification.place = r'.notifications.map Notification.place := by
  rw [← List.forall₂_eq_eq_eq, List.forall₂_map_left_iff, List.forall₂_map_right_iff]
  exact h.notifications.imp fun n n' hn => Prod.ext hn.file hn.line

end Report

namespace Session

open Outlet

/-- Two reports that differ in origins alone are published alike. -/
theorem sameOutline_publish {placed : List Report.PlacedError} {r r' : Report}
    (h : r.SameButOrigins placed r') (e : Editor) (mode : PublishMode) :
    SameOutline (fun o => (publish e o r mode).2) fun o => (publish e o r' mode).2 := by
  simp only [publish_eq_andThen, h.statuses, h.labels, h.failures]
  apply (Editor.sameOutline_applyStatuses e r'.statuses mode).andThen
  apply (Editor.sameOutline_applyLabels e r'.labels mode).andThen
  apply (Editor.sameOutline_publishList e failuresList r'.failures true).andThen
  exact Editor.sameOutline_publishDetails e h.places

theorem editor_publish_eq {placed : List Report.PlacedError} {r r' : Report}
    (h : r.SameButOrigins placed r') (e : Editor) (mode : PublishMode) {o o' : Outlet}
    (halike : o.outline = o'.outline) : (publish e o r mode).1 = (publish e o' r' mode).1 := by
  have hstage := Editor.sameOutline_applyStatuses e r'.statuses mode o o' halike
  have hresult : (e.applyStatuses o r'.statuses mode).2.2 =
      (e.applyStatuses o' r'.statuses mode).2.2 :=
    (Stage.outline_eq_iff.1 hstage).2
  rw [editor_publish, editor_publish, h.statuses, hresult, remembering, remembering, h.statuses,
    h.labels]
  rfl

/-- Two results of a build: the same error, or two reports that differ in origins alone. -/
def ResultsAgree (placing : Except ReportError (List Report.PlacedError)) :
    Except SessionError Report → Except SessionError Report → Prop
  | .error e, .error e' => e = e'
  | .ok r, .ok r' => ∃ placed, placing = .ok placed ∧ r.SameButOrigins placed r'
  | _, _ => False

/-- A build, processed twice, with the same outcome but for the origins in the details. -/
structure Agree (s : Session) (build : Build) (m : Module) (p p' : Processed) : Prop where
  session : p.session = p'.session
  sent : p.outlet.sent = p'.outlet.sent
  tree : p.outlet.tree.shape = p'.outlet.tree.shape
  seen : p.seen = p'.seen
  result : ResultsAgree (s.placing build m) p.result p'.result

section

variable (s : Session) (o : Outlet) (build : Build) (m : Module)

/-- What is known of origins changes nothing else. -/
theorem processWith_agree (lookup lookup' : SourceLookup) (notes notes' : List LogLine) :
    s.Agree build m (s.processWith o build m lookup notes)
      (s.processWith o build m lookup' notes') := by
  simp only [processWith]
  rcases hrun : (execute s.settings.persistDir o.tree build m).result with err | outcome
  · exact ⟨rfl, rfl, rfl, rfl, rfl⟩
  · dsimp only
    rcases Report.ofOutcome_sameButOrigins ⟨s.settings.root, build.entryPoint⟩ lookup lookup'
      outcome with ⟨err, herr, herr'⟩ | ⟨placed, r, r', hplaced, hr, hr', halike⟩
    · rw [herr, herr']
      exact ⟨rfl, rfl, rfl, rfl, rfl⟩
    · rw [hr, hr']
      dsimp only
      generalize hp : Outlet.note _ _ = p
      generalize hq : Outlet.note _ _ = q
      have hstart : p.outline = q.outline := by
        rw [← hp, ← hq]
        exact outline_eq_iff.2 ⟨rfl, rfl, rfl, rfl⟩
      have heditor := editor_publish_eq halike s.editor (publishMode outcome.state) hstart
      have hstage := sameOutline_publish halike s.editor (publishMode outcome.state) p q hstart
      obtain ⟨houtlet, hresult⟩ := Stage.outline_eq_iff.1 hstage
      obtain ⟨htree, -, -, hsent⟩ := outline_eq_iff.1 houtlet
      rw [heditor, hresult]
      refine ⟨rfl, hsent, htree, rfl, ?_⟩
      rcases (publish s.editor q r' (publishMode outcome.state)).2.2 with err | _
      · rfl
      · rw [eq_knownOutcome hrun] at hplaced
        exact ⟨placed, hplaced, halike⟩

/-- Running a build does not look at its source map. -/
theorem execute_sourceMap (persistDir : Option Path) (tree : FileTree) (map : Option String) :
    execute persistDir tree { build with sourceMap := map } m =
      execute persistDir tree build m := by
  simp only [execute, runLoaded, persistCode, codePathIn, Build.hasErrors]
  rfl

theorem process_sourceMap (map : Option String) :
    ∃ lookup notes, s.process o { build with sourceMap := map } m =
      s.processWith o build m lookup notes := by
  refine ⟨(sourceLookup { build with sourceMap := map }).1,
    (sourceLookup { build with sourceMap := map }).2, ?_⟩
  simp only [process, processWith, execute_sourceMap]

/-- A build whose origins can be told is processed as if that were not in question. -/
theorem eq_process_of_processChecked {p : Processed} (h : s.processChecked o build m = .ok p) :
    p = s.process o build m := by
  rw [processChecked] at h
  split at h
  · obtain ⟨report, -, rfl⟩ := map_eq_ok.1 h
    rfl
  · cases h
    rfl

/-- Of a build with two source maps, or with one that cannot be read, or with none, everything is
the same but the origins of places that code reported, unless one of the maps leads to an origin
that cannot be told. -/
theorem source_map_only_decorates :
    (∀ (lookup lookup' : SourceLookup) (notes notes' : List LogLine),
      s.Agree build m (s.processWith o build m lookup notes)
        (s.processWith o build m lookup' notes')) ∧
    ∀ (map map' : Option String) (p p' : Processed),
      s.processChecked o { build with sourceMap := map } m = .ok p →
      s.processChecked o { build with sourceMap := map' } m = .ok p' →
      s.Agree build m p p' := by
  constructor
  · exact processWith_agree s o build m
  · intro map map' p p' hp hp'
    obtain ⟨lookup, notes, hprocess⟩ := process_sourceMap s o build m map
    obtain ⟨lookup', notes', hprocess'⟩ := process_sourceMap s o build m map'
    rw [eq_process_of_processChecked s o _ m hp, eq_process_of_processChecked s o _ m hp',
      hprocess, hprocess']
    exact processWith_agree s o build m lookup lookup' notes notes'

end

namespace SourceDecorationWitness

def session : Session := .ofSettings ⟨⟨"/p"⟩, none, .standard⟩

def outlet : Outlet := .ofTree .empty fun _ => true

def build : Build := ⟨"a();", none, [], ⟨"t.ts"⟩⟩

/-- The code fails in the first expression of a file. -/
def failing : Module :=
  [.run (.call (.registerFile ⟨0⟩ ⟨"a.ts"⟩)), .run (.call (.begins ⟨⟨0⟩, 1, 1⟩)),
    .run (.fail (.ofMessage "first"))]

/-- The code comes from the start of a source. -/
def fromStart : String := "\x7b\"sources\":[\"b.ts\"],\"mappings\":\"AAAA\"\x7d"

/-- The code comes from the line before the first one of a source. -/
def fromBefore : String := "\x7b\"sources\":[\"b.ts\"],\"mappings\":\"AADA\"\x7d"

theorem exists_of_isOk {ε α : Type} {x : Except ε α} (h : x.isOk = true) : ∃ a, x = .ok a := by
  cases x with
  | error e => cases h
  | ok a => exact ⟨a, rfl⟩

/-- The member that names the start of the source. -/
def origin : String :=
  ",\n    \"original\": \x7b\n      \"source\": \"b.ts\",\n" ++
    "      \"line\": 1,\n      \"col\": 1\n    \x7d"

/-- The details of the failure, with this member or without any. -/
def details (origin : String) : String :=
  "[\n  \x7b\n    \"message\": \"first\",\n    \"unit\": \"(setup)\",\n" ++
    "    \"unit-index\": -1" ++ origin ++ "\n  \x7d\n]"

/-- The details that are reported of the failure, with what a map tells. -/
def detailsOf (map : Option String) : Option (List String) := do
  let outcome ← (execute none .empty build failing).result.toOption
  let lookup := (sourceLookup { build with sourceMap := map }).1
  let report ← (Report.ofOutcome ⟨⟨"/p"⟩, build.entryPoint⟩ lookup outcome).toOption
  return report.notifications.map Notification.json

/-- A map whose origins can be told shows in the details alone, and one whose origins cannot be told
ends the build. -/
theorem source_map_only_decorates_start :
    ∃ p p',
      session.processChecked outlet { build with sourceMap := none } failing = .ok p ∧
      session.processChecked outlet { build with sourceMap := some fromStart } failing = .ok p' ∧
      session.Agree build failing p p' ∧
      detailsOf none = some [details ""] ∧ detailsOf (some fromStart) = some [details origin] ∧
      (session.processChecked outlet { build with sourceMap := some fromBefore } failing).isOk =
        false := by
  obtain ⟨p, hp⟩ := exists_of_isOk (x := session.processChecked outlet
    { build with sourceMap := none } failing) (by decide +kernel)
  obtain ⟨p', hp'⟩ := exists_of_isOk (x := session.processChecked outlet
    { build with sourceMap := some fromStart } failing) (by decide +kernel)
  obtain ⟨-, hagree⟩ := source_map_only_decorates session outlet build failing
  exact ⟨p, p', hp, hp', hagree none (some fromStart) p p' hp hp', by decide +kernel,
    by decide +kernel, by decide +kernel⟩

end SourceDecorationWitness

end Session

end LiveTest
