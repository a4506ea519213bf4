import LiveTest.SortedMap
/-!
Places in instrumented code: file handles, positions, spans of lines and the entries of a trace.
-/

namespace LiveTest

/-- A small number that stands for a file in the calls of instrumented code. -/
structure FileHandle where
  id : Nat
deriving DecidableEq, Inhabited

namespace FileHandle

def text (h : FileHandle) : String := "#" ++ toString h.id

instance : Key FileHandle := ⟨fun a b => orderNat a.id b.id⟩

end FileHandle

/-- A point in a file.  Lines count from one. -/
structure Position where
  file : FileHandle
  line : Nat
  col : Nat
deriving DecidableEq, Inhabited

namespace Position

/-- The position that an error is charged to when nothing better is known. -/
def sentinel : Position := ⟨⟨0⟩, 0, 0⟩

def isSentinel (p : Position) : Bool := p = sentinel

def text (p : Position) : String :=
  p.file.text ++ ":" ++ toString p.line ++ ":" ++ toString p.col

instance : Key Position :=
  ⟨fun a b => (Key.order a.file b.file).then ((orderNat a.line b.line).then (orderNat a.col b.col))⟩

end Position

/-- A covered span, such as a statement or a block.  Its last line belongs to it. -/
structure Span where
  start : Position
  endLine : Nat
  endCol : Nat
deriving DecidableEq, Inhabited

namespace Span

/-- The span does not end before it starts. -/
def WellFormed (s : Span) : Prop :=
  s.start.line < s.endLine ∨ s.start.line = s.endLine ∧ s.start.col ≤ s.endCol

instance (s : Span) : Decidable s.WellFormed := by unfold WellFormed; infer_instance

def file (s : Span) : FileHandle := s.start.file

def firstLine (s : Span) : Nat := s.start.line

/-- A span that ends before it starts has only its start line. -/
def lastLine (s : Span) : Nat := if s.start.line ≤ s.endLine then s.endLine else s.start.line

def lines (s : Span) : List Nat := List.range' s.firstLine (s.lastLine - s.firstLine + 1)

instance : Key Span :=
  ⟨fun a b => (Key.order a.start b.start).then
    ((orderNat a.endLine b.endLine).then (orderNat a.endCol b.endCol))⟩

theorem firstLine_le_lastLine (s : Span) : s.firstLine ≤ s.lastLine := by
  unfold firstLine lastLine; split <;> omega

theorem mem_lines {s : Span} {n : Nat} : n ∈ s.lines ↔ s.firstLine ≤ n ∧ n ≤ s.lastLine := by
  have := s.firstLine_le_lastLine
  simp only [lines, List.mem_range'_1]
  omega

end Span

/-- What a unit reports while it runs: an expression that was evaluated, or a span that was
entered. -/
inductive TraceEntry
  | point (position : Position)
  | span (span : Span)
deriving DecidableEq

namespace TraceEntry

def start : TraceEntry → Position
  | .point p => p
  | .span s => s.start

def file (e : TraceEntry) : FileHandle := e.start.file

def lastLine : TraceEntry → Nat
  | .point p => p.line
  | .span s => s.lastLine

def lines : TraceEntry → List Nat
  | .point p => [p.line]
  | .span s => s.lines

end TraceEntry
end LiveTest
