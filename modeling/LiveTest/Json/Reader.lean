import LiveTest.Json.Draft
import LiveTest.Json.Printer
import LiveTest.Text.Quoted
/-!
Reading values of known shapes from a draft.  Values are read in the order of the text, and the
first thing that is wrong is reported, be it a fault of the text or a value of the wrong kind.
-/

namespace LiveTest

/-- What stands where something else is wanted. -/
inductive Found
  | null
  | bool (b : Bool)
  | int (n : Int)
  | float (x : Double)
  | text (s : String)
  | sequence
  | map

namespace Found

def describe : Found → String
  | .null => "null"
  | .bool b => "boolean `" ++ (if b then "true" else "false") ++ "`"
  | .int n => "integer `" ++ toString n ++ "`"
  | .float x => "floating point `" ++ Json.numberStyle.render x ++ "`"
  | .text s => "string " ++ Text.quoted s
  | .sequence => "sequence"
  | .map => "map"

end Found

/-- A well-formed value that is not the one wanted. -/
inductive Mismatch
  | wrongType (found : Found) (expected : String)
  | outOfRange (value : Int) (expected : String)
  | wrongLength (length : Nat) (expected : String)
  | missingField (name : String)
  | duplicateField (name : String)
  | unknownVariant (name : String) (known : List String)

namespace Mismatch

/-- A choice of names. -/
def choice (names : List String) : String :=
  match names.map fun n => "`" ++ n ++ "`" with
  | [a] => a
  | [a, b] => a ++ " or " ++ b
  | quoted => "one of " ++ Text.join ", " quoted

def message : Mismatch → String
  | .wrongType found expected => "invalid type: " ++ found.describe ++ ", expected " ++ expected
  | .outOfRange value expected =>
    "invalid value: integer `" ++ toString value ++ "`, expected " ++ expected
  | .wrongLength length expected =>
    "invalid length " ++ toString length ++ ", expected " ++ expected
  | .missingField name => "missing field `" ++ name ++ "`"
  | .duplicateField name => "duplicate field `" ++ name ++ "`"
  | .unknownVariant name known => "unknown variant `" ++ name ++ "`, expected " ++ choice known

end Mismatch

/-- Why a value could not be read. -/
inductive ReadError
  | fault (fault : Fault)
  | mismatch (mismatch : Mismatch)

/-- A reader of values of one type. -/
abbrev Reader (α : Type) := Draft → Except ReadError α

namespace Reader

def ofFault {α : Type} : Except Fault α → Except ReadError α
  | .ok a => .ok a
  | .error f => .error (.fault f)

/-- The error of a value where `expected` is wanted. -/
def wrongType {α : Type} (expected : String) (d : Draft) : Except ReadError α :=
  let found : Except Fault Found := match d with
    | .null => .ok .null
    | .bool b => .ok (.bool b)
    | .number none => .error .malformed
    | .number (some (.int n)) => .ok (.int n)
    | .number (some (.float x)) => .ok (.float x)
    | .text s => s.map Found.text
    | .list _ _ => .ok .sequence
    | .record _ _ => .ok .map
    | .brokenNumber f => .error f
    | .broken f => .error f
    | .absent => .error .truncated
  match found with
  | .ok found => .error (.mismatch (.wrongType found expected))
  | .error f => .error (.fault f)

mutual

/-- Pass over a value of any kind, however deep it nests.  A number that breaks off at the end of
the text counts as malformed here. -/
def skip : Draft → Except Fault Unit
  | .list items close => skipItems close items
  | .record members close => skipMembers close members
  | .brokenNumber _ => .error .malformed
  | .broken f => .error f
  | .absent => .error .truncated
  | _ => .ok ()

def skipItems (close : Close) : List Draft → Except Fault Unit
  | [] => match close with
    | .closed => .ok ()
    | .broken f _ => .error f
  | item :: rest => (skip item).bind fun _ => skipItems close rest

def skipMembers (close : Close) : List (Draft.Name × Draft) → Except Fault Unit
  | [] => match close with
    | .closed => .ok ()
    | .broken f _ => .error f
  | (_, value) :: rest => (skip value).bind fun _ => skipMembers close rest

end

/-- A value of any kind that stands inside `enclosing` lists and objects. -/
def anythingWithin (enclosing : Nat) : Reader Json := fun d =>
  ofFault (d.toJson (Draft.depthLimit - enclosing))

/-- The first number of more than 32 bits. -/
def wordLimit : Int := 0x100000000

/-- A whole number of 32 bits. -/
def nat32OfNumber (n : JsonNumber) : Except ReadError Nat :=
  match n with
  | .int n =>
    if 0 ≤ n ∧ n < wordLimit then .ok n.toNat else .error (.mismatch (.outOfRange n "u32"))
  | .float x => .error (.mismatch (.wrongType (.float x) "u32"))

def nat32 : Reader Nat
  | .number (some n) => nat32OfNumber n
  | d => wrongType "u32" d

def textWanted (expected : String) : Reader String
  | .text s => ofFault s
  | d => wrongType expected d

def text : Reader String := textWanted "a string"

def bool : Reader Bool
  | .bool b => .ok b
  | d => wrongType "a boolean" d

/-- A value or null. -/
def optional {α : Type} (read : Reader α) : Reader (Option α)
  | .null => .ok none
  | d => (read d).map some

/-- The end of a list after its last wanted item. -/
def endOfList (rest : List Draft) (close : Close) : Except ReadError Unit :=
  match rest, close with
  | [], .closed => .ok ()
  | [], .broken f false => .error (.fault f)
  | _, _ => .error (.fault .malformed)

def readItems {α : Type} (read : Reader α) (close : Close) : List Draft → Except ReadError (List α)
  | [] => match close with
    | .closed => .ok []
    | .broken f _ => .error (.fault f)
  | item :: rest => do
    let a ← read item
    return a :: (← readItems read close rest)

/-- A list of values of one type. -/
def list {α : Type} (read : Reader α) : Reader (List α)
  | .list items close => readItems read close items
  | d => wrongType "a sequence" d

/-- A reader of the names of members. -/
abbrev NameReader (κ : Type) := Draft.Name → Except ReadError κ

def readMembers {κ α : Type} (key : NameReader κ) (read : Reader α) (close : Close) :
    List (Draft.Name × Draft) → Except ReadError (List (κ × α))
  | [] => match close with
    | .closed => .ok []
    | .broken f _ => .error (.fault f)
  | (name, value) :: rest => do
    let k ← key name
    let a ← read value
    return (k, a) :: (← readMembers key read close rest)

/-- An object with members of one type. -/
def members {κ α : Type} (key : NameReader κ) (read : Reader α) : Reader (List (κ × α))
  | .record ms close => readMembers key read close ms
  | d => wrongType "a map" d

def textName : NameReader String := fun name => ofFault name.text

/-- The number that a member's name consists of, in the form of a JSON number. -/
def nat32Name : NameReader Nat := fun name =>
  match name.source with
  | c :: _ =>
    if c = '-' || Json.isDigit c then
      match Json.readNumber name.source with
      | .error f => .error (.fault f)
      | .ok (none, _) => .error (.fault .malformed)
      | .ok (some n, rest) => do
        let n ← nat32OfNumber n
        if rest.head? = some '"' then return n else .error (.fault .malformed)
    else .error (.fault .malformed)
  | [] => .error (.fault .malformed)

/-- A field of a structure. -/
structure Field where
  name : String
  required : Bool
  /-- The value of the field is as it must be. -/
  check : Draft → Except ReadError Unit

def field {α : Type} (name : String) (read : Reader α) : Field :=
  ⟨name, true, fun d => (read d).map fun _ => ()⟩

def optionalField {α : Type} (name : String) (read : Reader α) : Field :=
  ⟨name, false, fun d => (read d).map fun _ => ()⟩

/-- The fields that were found, by name. -/
abbrev Fields := List (String × Draft)

namespace Fields

def get? {α : Type} (fs : Fields) (name : String) (read : Reader α) :
    Except ReadError (Option α) :=
  match fs.find? fun f => f.1 == name with
  | some f => (read f.2).map some
  | none => .ok none

def get {α : Type} (fs : Fields) (name : String) (read : Reader α) : Except ReadError α :=
  match fs.find? fun f => f.1 == name with
  | some f => read f.2
  | none => .error (.mismatch (.missingField name))

end Fields

/-- The fields among the members of an object.  Of a member of another name `other` says whether
its value will do. -/
def collectFields (other : Draft → Except Fault Unit) (fields : List Field) (close : Close)
    (seen : Fields) : List (Draft.Name × Draft) → Except ReadError Fields
  | [] => match close with
    | .closed => .ok seen
    | .broken f _ => .error (.fault f)
  | (name, value) :: rest => do
    let name ← textName name
    match fields.find? fun f => f.name == name with
    | none => do
      ofFault (other value)
      collectFields other fields close seen rest
    | some f =>
      if seen.any fun s => s.1 == name then .error (.mismatch (.duplicateField name))
      else do
        f.check value
        collectFields other fields close (seen ++ [(name, value)]) rest

/-- The fields of a structure written as a list in their order: the fields, the items left over,
and how many fields there were. -/
def alignFields (tooShort : Nat → ReadError) (close : Close) (count : Nat) :
    List Field → List Draft → Except ReadError (Fields × List Draft)
  | [], rest => .ok ([], rest)
  | f :: fields, [] =>
    match close with
    | .broken fault _ => .error (.fault fault)
    | .closed =>
      if f.required then .error (tooShort count)
      else alignFields tooShort close (count + 1) fields []
  | f :: fields, item :: rest => do
    f.check item
    let (found, left) ← alignFields tooShort close (count + 1) fields rest
    return ((f.name, item) :: found, left)

/-- The first field that must be there and is not. -/
def checkMissing (fields : List Field) (found : Fields) : Except ReadError Fields :=
  match fields.find? fun f => f.required && !found.any fun s => s.1 == f.name with
  | some f => .error (.mismatch (.missingField f.name))
  | none => .ok found

/-- Where a structure is read from: straight from a text, where a longer list is a fault, or from
a value that was read before, where its length is reported. -/
inductive Origin
  | stream
  | value
deriving DecidableEq

/-- The fields of a structure, from an object or from a list in the order of the fields. -/
def structure? (origin : Origin) (name : String) (fields : List Field) (d : Draft) :
    Except ReadError Fields :=
  match d with
  | .record ms close => do
    let found ← collectFields skip fields close [] ms
    checkMissing fields found
  | .list items close => do
    let tooShort := fun count => ReadError.mismatch (.wrongLength count
      ("struct " ++ name ++ " with " ++ Text.counted fields.length "element"))
    let (found, left) ← alignFields tooShort close 0 fields items
    match origin with
    | .stream => endOfList left close
    | .value =>
      if left = [] then .ok () else
        .error (.mismatch (.wrongLength items.length
          (Text.counted fields.length "element" ++ " in sequence")))
    return found
  | d => wrongType ("struct " ++ name) d

def lookUp {α : Type} (variants : List (String × α)) (name : String) : Except ReadError α :=
  match variants.find? fun v => v.1 == name with
  | some v => .ok v.2
  | none => .error (.mismatch (.unknownVariant name (variants.map Prod.fst)))

/-- The name of a variant. -/
def variantName {α : Type} (variants : List (String × α)) : Reader α
  | .text s => (ofFault s).bind (lookUp variants)
  | d => (textWanted "variant identifier" d).bind (lookUp variants)

/-- A variant without content, by its name or as the only member of an object, with null. -/
def variant {α : Type} (variants : List (String × α)) : Reader α
  | .text s => (ofFault s).bind (lookUp variants)
  | .record [] close =>
    match close with
    | .broken .truncated false => .error (.fault .truncated)
    | _ => .error (.fault .malformed)
  | .record ((name, value) :: rest) close => do
    let a ← (textName name).bind (lookUp variants)
    match value with
    | .null => pure ()
    | d => wrongType "unit" d
    match rest, close with
    | [], .closed => return a
    | [], .broken .truncated false => .error (.fault .truncated)
    | _, _ => .error (.fault .malformed)
  | .absent => .error (.fault .truncated)
  | _ => .error (.fault .malformed)

/-- Read a whole text. -/
def run {α : Type} (read : Reader α) (s : String) : Except ReadError α :=
  let (draft, ending) := Draft.ofChars s.toList
  match read draft, ending with
  | .ok a, .ok () => .ok a
  | .ok _, .error f => .error (.fault f)
  | .error e, _ => .error e

end Reader
end LiveTest
