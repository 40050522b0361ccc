/-! # Spans

A span is a range of byte offsets, start included and stop excluded.  Nothing
keeps the stop from lying before the start: such a span is empty, and no slice
of a text answers to it.
-/

namespace ModalHighlight

/-- A range of byte offsets of a text. -/
structure Span where
  start : Nat
  stop : Nat
  deriving DecidableEq, Repr

namespace Span

/-- The span at the start of a text that holds nothing. -/
def zero : Span := ⟨0, 0⟩

instance : Inhabited Span := ⟨zero⟩

/-- The number of bytes in a span; none if it is reversed. -/
def length (s : Span) : Nat := s.stop - s.start

/-- No offset lies in the span. -/
def isEmpty (s : Span) : Bool := s.stop ≤ s.start

/-- An offset lies in the span. -/
def contains (s : Span) (offset : Nat) : Bool := s.start ≤ offset && offset < s.stop

/-- Another span starts and stops within this one. -/
def encloses (s other : Span) : Bool := s.start ≤ other.start && other.stop ≤ s.stop

/-- The span from the first start to the last stop of two. -/
def merge (s other : Span) : Span := ⟨min s.start other.start, max s.stop other.stop⟩

/-- The span moved to the right. -/
def shift (distance : Nat) (s : Span) : Span := ⟨s.start + distance, s.stop + distance⟩

/-- Spans are ordered by their starts, and those with one start by their stops. -/
instance : Ord Span where
  compare s other := (compare s.start other.start).then (compare s.stop other.stop)

instance : ToString Span where
  toString s := s!"{s.start}..{s.stop}"

/-- The piece of a text that a span covers.  There is none if the span is
reversed, reaches past the end, or starts or stops inside a character. -/
def slice? (s : Span) (text : String) : Option String :=
  if h : s.start ≤ s.stop ∧ (⟨s.start⟩ : String.Pos.Raw).IsValid text ∧
      (⟨s.stop⟩ : String.Pos.Raw).IsValid text then
    some (text.extract ⟨⟨s.start⟩, h.2.1⟩ ⟨⟨s.stop⟩, h.2.2⟩)
  else
    none

theorem contains_eq_true {s : Span} {offset : Nat} :
    s.contains offset = true ↔ s.start ≤ offset ∧ offset < s.stop := by
  simp [contains]

theorem encloses_eq_true {s other : Span} :
    s.encloses other = true ↔ s.start ≤ other.start ∧ other.stop ≤ s.stop := by
  simp [encloses]

end Span

end ModalHighlight
