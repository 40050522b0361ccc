import Mathlib.Data.List.SplitBy
import ModalHighlight.Token

/-! # Segments and chains

What the tokens of a text should be can be read off its outline.  A piece that has
the kind of the mode around it is content of that mode.  Modes of one kind that are
nested directly in one another form a chain, and neighbouring content of one chain
is one token, across the borders of its modes.  Any other piece is a token of its
own.
-/

namespace ModalHighlight

/-! ## Chains -/

/-- What the content of a mode belongs to. -/
inductive Chain where
  /-- The text outside all modes. -/
  | ground
  /-- The chain whose outermost mode opened at an offset. -/
  | openedAt (start : Nat)
  deriving DecidableEq, Repr

/-- A piece, with the chain whose content it is. -/
structure Segment where
  piece : Piece
  /-- None for a piece that is not content. -/
  chain : Option Chain
  deriving DecidableEq, Repr

namespace Segment

/-- Two neighbouring segments belong to one token. -/
def joins (left right : Segment) : Bool :=
  left.chain.isSome && left.chain == right.chain && left.piece.kind == right.piece.kind

/-- The span from the start of the first of some segments to the stop of the last. -/
def cover (first : Segment) (others : List Segment) : Span :=
  ⟨first.piece.span.start, ((first :: others).getLast (by simp)).piece.span.stop⟩

end Segment

namespace Outline

/-- The chain of a mode inside another one. -/
def innerChain (kind : Kind) (chain : Chain) (inner : Scope) : Chain :=
  if inner.kind = kind then chain else .openedAt inner.span.start

/-- The segments of an outline that is inside a mode of a kind and a chain, in
front of further ones. -/
def segmentsOnto (kind : Kind) (chain : Chain) : Outline → List Segment → List Segment
  | nil, later => later
  | piece earlier p, later =>
    earlier.segmentsOnto kind chain (⟨p, if p.kind = kind then some chain else none⟩ :: later)
  | scope earlier s inside, later =>
    earlier.segmentsOnto kind chain
      (inside.segmentsOnto s.kind (innerChain kind chain s) later)

/-- All segments, in the order of the text. -/
def segments (outline : Outline) : List Segment := outline.segmentsOnto .plain .ground []

/-- The pieces behind the segments are those of the outline. -/
theorem map_piece_segmentsOnto (outline : Outline) (kind : Kind) (chain : Chain)
    (later : List Segment) :
    (outline.segmentsOnto kind chain later).map Segment.piece =
      outline.piecesOnto (later.map Segment.piece) := by
  induction outline generalizing kind chain later with
  | nil => rfl
  | piece earlier p ih => simp only [segmentsOnto, piecesOnto, ih, List.map_cons]
  | scope earlier s inside ih ihInside => simp only [segmentsOnto, piecesOnto, ih, ihInside]

end Outline

/-! ## Tokens of an outline -/

namespace Token

/-- The token that a run of segments makes up. -/
def ofRun? (text : String) : List Segment → Option Token
  | [] => none
  | first :: others =>
    some (ofPiece text ⟨first.piece.kind, Segment.cover first others⟩)

/-- The tokens of segments: each is a longest run of neighbours that join. -/
def ofSegments (text : String) (segments : List Segment) : List Token :=
  (segments.splitBy Segment.joins).filterMap (ofRun? text)

/-- The tokens of the outline of a text. -/
def ofOutline (text : String) (outline : Outline) : List Token :=
  ofSegments text outline.segments

end Token

end ModalHighlight
