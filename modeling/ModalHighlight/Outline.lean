import ModalHighlight.Kind
import ModalHighlight.Span

/-! # Outlines

An outline is what a scan makes of a text: classified pieces in the order of
the text, gathered into the scopes of the modes that they belong to.  It is a
forest that grows at its right end, so a scan adds to it in one step, and the
flat views of it (its pieces, its scopes) are folds from right to left.
-/

namespace ModalHighlight

/-- A stretch of text and what it is classified as. -/
structure Piece where
  kind : Kind
  span : Span
  deriving DecidableEq, Repr

/-- The extent of a mode that is no longer open. -/
structure Scope where
  kind : Kind
  span : Span
  deriving DecidableEq, Repr

/-- Pieces and scopes in the order of the text. -/
inductive Outline where
  | nil
  /-- A piece after what came earlier. -/
  | piece (earlier : Outline) (piece : Piece)
  /-- A scope, with what is inside it, after what came earlier. -/
  | scope (earlier : Outline) (scope : Scope) (inside : Outline)
  deriving DecidableEq, Repr

namespace Outline

instance : Inhabited Outline := ⟨nil⟩

/-! ## Views -/

/-- The pieces of an outline in front of further ones. -/
def piecesOnto : Outline → List Piece → List Piece
  | nil, later => later
  | piece earlier p, later => earlier.piecesOnto (p :: later)
  | scope earlier _ inside, later => earlier.piecesOnto (inside.piecesOnto later)

def pieces (outline : Outline) : List Piece := outline.piecesOnto []

/-- The scopes of an outline in front of further ones. -/
def scopesOnto : Outline → List Scope → List Scope
  | nil, later => later
  | piece earlier _, later => earlier.scopesOnto later
  | scope earlier s inside, later => earlier.scopesOnto (s :: inside.scopesOnto later)

/-- All scopes, each before the scopes inside it. -/
def scopes (outline : Outline) : List Scope := outline.scopesOnto []

/-- The most scopes that lie inside one another. -/
def depth : Outline → Nat
  | nil => 0
  | piece earlier _ => earlier.depth
  | scope earlier _ inside => max earlier.depth (inside.depth + 1)

theorem piecesOnto_eq (outline : Outline) (later : List Piece) :
    outline.piecesOnto later = outline.pieces ++ later := by
  unfold pieces
  induction outline generalizing later with
  | nil => rfl
  | piece earlier p ih => simp only [piecesOnto]; rw [ih, ih [p]]; simp
  | scope earlier s inside ih ihInside =>
    simp only [piecesOnto]
    rw [ihInside, ih, ih (inside.piecesOnto []), List.append_assoc]

theorem scopesOnto_eq (outline : Outline) (later : List Scope) :
    outline.scopesOnto later = outline.scopes ++ later := by
  unfold scopes
  induction outline generalizing later with
  | nil => rfl
  | piece earlier p ih => simp only [scopesOnto]; rw [ih]
  | scope earlier s inside ih ihInside =>
    simp only [scopesOnto]
    rw [ihInside, ih, ih (s :: inside.scopesOnto []), List.append_assoc, List.cons_append]

@[simp] theorem pieces_nil : pieces nil = [] := rfl

@[simp] theorem pieces_piece (earlier : Outline) (p : Piece) :
    (piece earlier p).pieces = earlier.pieces ++ [p] :=
  piecesOnto_eq earlier [p]

@[simp] theorem pieces_scope (earlier inside : Outline) (s : Scope) :
    (scope earlier s inside).pieces = earlier.pieces ++ inside.pieces :=
  piecesOnto_eq earlier inside.pieces

@[simp] theorem scopes_nil : scopes nil = [] := rfl

@[simp] theorem scopes_piece (earlier : Outline) (p : Piece) :
    (piece earlier p).scopes = earlier.scopes := rfl

@[simp] theorem scopes_scope (earlier inside : Outline) (s : Scope) :
    (scope earlier s inside).scopes = earlier.scopes ++ s :: inside.scopes :=
  scopesOnto_eq earlier (s :: inside.scopes)

end Outline

end ModalHighlight
