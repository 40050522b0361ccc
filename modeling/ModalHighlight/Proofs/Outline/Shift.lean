import ModalHighlight.Proofs.Outline.Segments
import ModalHighlight.Proofs.Token.Condensed

/-! # Outlines one behind the other

An outline can be moved to the right and put behind another one.  Its scopes and
segments move along, and neighbours that make up one token still do, since the
chains of modes move with the modes.
-/

namespace ModalHighlight

variable {distance : Nat}

/-! ## Moving to the right -/

@[simp] theorem Span.isEmpty_shift (distance : Nat) (s : Span) :
    (s.shift distance).isEmpty = s.isEmpty := by
  simp [Span.isEmpty, Span.shift]

def Piece.shift (distance : Nat) (p : Piece) : Piece := { p with span := p.span.shift distance }

def Scope.shift (distance : Nat) (s : Scope) : Scope := { s with span := s.span.shift distance }

/-- The ground chain stays where it is. -/
def Chain.shift (distance : Nat) : Chain → Chain
  | ground => ground
  | openedAt start => openedAt (start + distance)

def Segment.shift (distance : Nat) (segment : Segment) : Segment :=
  ⟨segment.piece.shift distance, segment.chain.map (Chain.shift distance)⟩

theorem Chain.shift_injective (distance : Nat) : Function.Injective (Chain.shift distance) := by
  intro left right same
  cases left <;> cases right <;> simp_all [Chain.shift]

namespace Segment

variable {left right : Segment}

theorem joins_shift (distance : Nat) (left right : Segment) :
    (left.shift distance).joins (right.shift distance) = left.joins right := by
  have chains : (left.chain.map (Chain.shift distance) == right.chain.map (Chain.shift distance)) =
      (left.chain == right.chain) := by
    rw [Bool.eq_iff_iff, beq_iff_eq, beq_iff_eq]
    exact (Option.map_injective (Chain.shift_injective distance)).eq_iff
  simp only [joins, shift, Piece.shift, Option.isSome_map, chains]

theorem push_shift (distance : Nat) (segment : Segment) (later : List Segment) :
    push (segment.shift distance) (later.map (shift distance)) =
      (push segment later).map (shift distance) := by
  cases later with
  | nil => rfl
  | cons next later =>
    simp only [List.map_cons, push, joins_shift]
    split <;> rfl

theorem condense_shift (distance : Nat) (segments : List Segment) :
    condense (segments.map (shift distance)) = (condense segments).map (shift distance) := by
  induction segments with
  | nil => rfl
  | cons first segments ih =>
    rw [condense_cons, ← push_shift, ← ih]
    rfl

end Segment

/-! ## Outlines -/

namespace Outline

def shift (distance : Nat) : Outline → Outline
  | nil => nil
  | piece earlier p => piece (earlier.shift distance) (p.shift distance)
  | scope earlier s inside =>
    scope (earlier.shift distance) (s.shift distance) (inside.shift distance)

/-- The second outline, with all of it behind the first. -/
def append (first : Outline) : Outline → Outline
  | nil => first
  | piece earlier p => piece (first.append earlier) p
  | scope earlier s inside => scope (first.append earlier) s inside

theorem scopes_append (first second : Outline) :
    (first.append second).scopes = first.scopes ++ second.scopes := by
  induction second with
  | nil => simp [append]
  | piece earlier p ih => exact ih
  | scope earlier s inside ih _ => simp [append, ih]

theorem scopes_shift (distance : Nat) (outline : Outline) :
    (outline.shift distance).scopes = outline.scopes.map (Scope.shift distance) := by
  induction outline with
  | nil => rfl
  | piece earlier p ih => exact ih
  | scope earlier s inside ih ihInside => simp [shift, ih, ihInside]

theorem segments_append (first second : Outline) :
    (first.append second).segments = first.segments ++ second.segments := by
  unfold segments
  induction second with
  | nil => simp [append, segmentsOnto]
  | piece earlier p ih => rw [append, segmentsOnto_piece, ih, segmentsOnto_piece, List.append_assoc]
  | scope earlier s inside ih _ =>
    rw [append, segmentsOnto_scope, ih, segmentsOnto_scope, List.append_assoc]

theorem innerChain_shift (distance : Nat) (kind : Kind) (chain : Chain) (s : Scope) :
    innerChain kind (chain.shift distance) (s.shift distance) =
      (innerChain kind chain s).shift distance := by
  have same : (s.shift distance).kind = s.kind := rfl
  simp only [innerChain, same]
  split <;> rfl

theorem segmentsOnto_shift (distance : Nat) (outline : Outline) (kind : Kind) (chain : Chain) :
    (outline.shift distance).segmentsOnto kind (chain.shift distance) [] =
      (outline.segmentsOnto kind chain []).map (Segment.shift distance) := by
  induction outline generalizing kind chain with
  | nil => rfl
  | piece earlier p ih =>
    have same : (p.shift distance).kind = p.kind := rfl
    rw [shift, segmentsOnto_piece, ih, segmentsOnto_piece, List.map_append, same]
    simp only [List.map_singleton, Segment.shift]
    split <;> rfl
  | scope earlier s inside ih ihInside =>
    have same : (s.shift distance).kind = s.kind := rfl
    rw [shift, segmentsOnto_scope, ih, segmentsOnto_scope, List.map_append, same,
      innerChain_shift, ihInside]

end Outline

/-! ## Problems and diagnostics -/

def Problem.shift (distance : Nat) : Problem → Problem
  | malformed rule span => malformed rule (span.shift distance)
  | unterminated rule span => unterminated rule (span.shift distance)
  | nestingLimit maxDepth span => nestingLimit maxDepth (span.shift distance)
  | suspectMarkup span => suspectMarkup (span.shift distance)

@[simp] theorem Problem.shift_zero : Problem.shift 0 = id := by
  funext problem
  cases problem <;> rfl

def Diagnostic.shift (distance : Nat) (diagnostic : Diagnostic) : Diagnostic :=
  { diagnostic with span := diagnostic.span.shift distance }

theorem Problem.diagnostic_shift (distance : Nat) (problem : Problem) :
    (problem.shift distance).diagnostic = problem.diagnostic.shift distance := by
  cases problem <;> rfl

end ModalHighlight
