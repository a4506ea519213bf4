/-!
Maps with their entries in ascending order of the keys.  Keys are compared by an order that may
call two different spellings equal; an entry then keeps the spelling that was entered first.
-/

namespace LiveTest

universe u v

/-- A type whose values serve as keys, with the order that maps keep them in. -/
class Key (κ : Type u) where
  order : κ → κ → Ordering

namespace Key

variable {κ : Type u} [Key κ]

/-- Two spellings of one key. -/
def same (a b : κ) : Bool := order a b == .eq

/-- The first key comes strictly before the second. -/
def before (a b : κ) : Bool := order a b == .lt

end Key

/-- Keys whose order is a total preorder: `same` is an equivalence that the order respects. -/
class LawfulKey (κ : Type u) [Key κ] : Prop where
  order_self : ∀ a : κ, Key.order a a = .eq
  order_swap : ∀ a b : κ, Key.order b a = (Key.order a b).swap
  order_trans : ∀ a b c : κ, Key.order a b ≠ .gt → Key.order b c ≠ .gt → Key.order a c ≠ .gt

/-- Numbers in their usual order. -/
def orderNat (a b : Nat) : Ordering :=
  if a < b then .lt else if a = b then .eq else .gt

instance : Key Nat := ⟨orderNat⟩

/-- Texts by the code points of their characters, which is also the order of their UTF-8 bytes. -/
def orderChars : List Char → List Char → Ordering
  | [], [] => .eq
  | [], _ :: _ => .lt
  | _ :: _, [] => .gt
  | a :: as, b :: bs => (orderNat a.toNat b.toNat).then (orderChars as bs)

instance : Key String := ⟨fun a b => orderChars a.toList b.toList⟩

instance {α : Type u} {β : Type v} [Key α] [Key β] : Key (α × β) :=
  ⟨fun a b => (Key.order a.1 b.1).then (Key.order a.2 b.2)⟩

/-- Entries in ascending order of their keys. -/
structure SortedMap (κ : Type u) (α : Type v) where
  entries : List (κ × α)
deriving DecidableEq

namespace SortedMap

variable {κ : Type u} {α : Type v}

def empty : SortedMap κ α := ⟨[]⟩

instance : Inhabited (SortedMap κ α) := ⟨empty⟩

def keys (m : SortedMap κ α) : List κ := m.entries.map Prod.fst

def size (m : SortedMap κ α) : Nat := m.entries.length

def isEmpty (m : SortedMap κ α) : Bool := m.entries.isEmpty

def mapValues {β : Type v} (m : SortedMap κ α) (f : α → β) : SortedMap κ β :=
  ⟨m.entries.map fun e => (e.1, f e.2)⟩

variable [Key κ]

/-- The value of the first entry whose key is `k`. -/
def find? (k : κ) : List (κ × α) → Option α
  | [] => none
  | e :: rest => if Key.same k e.1 then some e.2 else find? k rest

/-- The value stored for `k`. -/
def get? (m : SortedMap κ α) (k : κ) : Option α := find? k m.entries

def contains (m : SortedMap κ α) (k : κ) : Bool := (m.get? k).isSome

/-- Put a new entry before the first one with a greater key. -/
def place (k : κ) (a : α) : List (κ × α) → List (κ × α)
  | [] => [(k, a)]
  | e :: rest => if Key.before k e.1 then (k, a) :: e :: rest else e :: place k a rest

/-- Change the value of `k`, which keeps its spelling, or enter `k` as a new key. -/
def upsert (m : SortedMap κ α) (k : κ) (f : Option α → α) : SortedMap κ α :=
  if m.contains k then
    ⟨m.entries.map fun e => if Key.same k e.1 then (e.1, f (some e.2)) else e⟩
  else ⟨place k (f none) m.entries⟩

/-- Set the value of `k`. -/
def insert (m : SortedMap κ α) (k : κ) (a : α) : SortedMap κ α := m.upsert k fun _ => a

/-- Enter `k` with value `a` unless it is there already. -/
def insertIfNew (m : SortedMap κ α) (k : κ) (a : α) : SortedMap κ α :=
  m.upsert k fun old => old.getD a

/-- Enter the pairs one by one, so that of an equal key the first spelling and the last value
stay. -/
def ofList (pairs : List (κ × α)) : SortedMap κ α :=
  pairs.foldl (fun m e => m.insert e.1 e.2) empty

end SortedMap
end LiveTest
