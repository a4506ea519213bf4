import LiveTest.Failure
import LiveTest.Position
/-!
Charging failures to places.  An error is charged to the expression that had started but not
finished, and also to the last place that the unit reached in every other file, so that each file
on the way to a failure shows it.
-/

namespace LiveTest

/-- A unit of a run: the top-level code of a module, or one of its tests. -/
inductive UnitIndex
  | setup
  | test (index : Nat)
deriving DecidableEq, Inhabited

namespace UnitIndex

def text : UnitIndex → String
  | .setup => "setup"
  | .test index => "test " ++ toString index

/-- The largest index that can be told to the editor. -/
def numberLimit : Nat := 0x7fffffffffffffff

/-- The unit as a number: minus one for the setup. -/
def number : UnitIndex → Int
  | .setup => -1
  | .test index => (min index numberLimit : Nat)

/-- The setup comes before the tests. -/
def order : UnitIndex → UnitIndex → Ordering
  | .setup, .setup => .eq
  | .setup, .test _ => .lt
  | .test _, .setup => .gt
  | .test a, .test b => orderNat a b

instance : Key UnitIndex := ⟨order⟩

end UnitIndex

/-- Where an error is charged. -/
inductive ErrorSite
  | probe (position : Position)
  | compiler (location : SourceLocation)
deriving DecidableEq

namespace ErrorSite

/-- The file that the site accounts for; the sentinel and places of the compiler account for
none. -/
def file? : ErrorSite → Option FileHandle
  | .probe p => if p.isSentinel then none else some p.file
  | .compiler _ => none

end ErrorSite

/-- An error charged to a place. -/
structure ThrownError where
  message : String
  actual : Option Json
  expected : Option Json
  site : ErrorSite
  unit : UnitIndex

/-- The error of a failure of a unit at a place. -/
def Failure.at (f : Failure) (unit : UnitIndex) (site : ErrorSite) : ThrownError :=
  ⟨f.message, f.actual, f.expected, site, unit⟩

/-- The first entry of every file that is not among `seen`. -/
def freshFiles (seen : List FileHandle) : List TraceEntry → List TraceEntry
  | [] => []
  | e :: rest =>
    if e.file ∈ seen then freshFiles seen rest else e :: freshFiles (e.file :: seen) rest

/-- The same by a scan that ends as soon as all of `touched` are seen. -/
def scanFresh (touched seen : List FileHandle) : List TraceEntry → List TraceEntry
  | [] => []
  | e :: rest =>
    if touched.all (· ∈ seen) then []
    else if e.file ∈ seen then scanFresh touched seen rest
    else e :: scanFresh touched (e.file :: seen) rest

/-- The place that a failure is charged to first: the pending position, else the place that the
failure names, else the sentinel. -/
def primarySite (f : Failure) (pending : Option Position) : ErrorSite :=
  match pending, f.location with
  | some p, _ => .probe p
  | none, some l => .compiler l
  | none, none => .probe .sentinel

/-- The errors of a failure: one at its first place, then one at the last entry of the trace in
every other file, the latest first. -/
def Failure.charge (f : Failure) (unit : UnitIndex) (pending : Option Position)
    (trace : List TraceEntry) : List ThrownError :=
  let primary := primarySite f pending
  let touched := trace.map TraceEntry.file
  f.at unit primary ::
    (scanFresh touched primary.file?.toList trace.reverse).map fun e => f.at unit (.probe e.start)

theorem freshFiles_eq_nil {seen : List FileHandle} {entries : List TraceEntry}
    (h : ∀ e ∈ entries, e.file ∈ seen) : freshFiles seen entries = [] := by
  induction entries with
  | nil => rfl
  | cons e rest ih =>
      obtain ⟨hhead, htail⟩ := List.forall_mem_cons.1 h
      rw [freshFiles, if_pos hhead, ih htail]

/-- A scan that ends early misses nothing, as long as no entry lies outside the files it counts. -/
theorem scanFresh_eq_freshFiles {touched seen : List FileHandle} {entries : List TraceEntry}
    (h : ∀ e ∈ entries, e.file ∈ touched) :
    scanFresh touched seen entries = freshFiles seen entries := by
  induction entries generalizing seen with
  | nil => rfl
  | cons e rest ih =>
      obtain ⟨-, htail⟩ := List.forall_mem_cons.1 h
      rw [scanFresh]
      split
      · next hall =>
          symm
          apply freshFiles_eq_nil
          intro entry hentry
          simpa using List.all_eq_true.1 hall entry.file (h entry hentry)
      · rw [freshFiles, ih htail, ih htail]

/-- The errors of a failure by a scan of the whole trace. -/
theorem Failure.charge_eq (f : Failure) (unit : UnitIndex) (pending : Option Position)
    (trace : List TraceEntry) :
    f.charge unit pending trace =
      f.at unit (primarySite f pending) ::
        (freshFiles (primarySite f pending).file?.toList trace.reverse).map fun e =>
          f.at unit (.probe e.start) := by
  rw [charge, scanFresh_eq_freshFiles]
  intro e he
  exact List.mem_map_of_mem (List.mem_reverse.1 he)

end LiveTest
