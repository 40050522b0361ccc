import ModalHighlight.Outline
import ModalHighlight.Search

/-! # Tokens

Tokens are the flat view of what a scan finds: stretches of text that follow one
another from the start of the text to its end, each with its kind.
-/

namespace ModalHighlight

/-- A classified stretch of text. -/
structure Token where
  kind : Kind
  span : Span
  text : String
  deriving DecidableEq, Repr

namespace Token

/-- The token of a text that a piece makes up. -/
def ofPiece (text : String) (p : Piece) : Token :=
  ⟨p.kind, p.span, (p.span.slice? text).getD ""⟩

/-- Where an offset lies to a token: its span is below, above or around it. -/
def side (offset : Nat) (token : Token) : Ordering :=
  if token.span.stop ≤ offset then .lt else if offset < token.span.start then .gt else .eq

/-- The token that covers an offset, among tokens in the order of the text. -/
def covering? (tokens : Array Token) (offset : Nat) : Option Token :=
  Search.find? (side offset) tokens

end Token

end ModalHighlight
