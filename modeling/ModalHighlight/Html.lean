import ModalHighlight.Outline

/-! # HTML

An outline is rendered as nested `span` elements.  Every scope is an element
around all that is inside it.  A piece is an element of its own unless it is
plain or has the kind of the scope around it, which styles it already.
-/

namespace ModalHighlight.Html

/-- A part of the rendered text. -/
inductive Part where
  /-- The start of an element for text of a kind. -/
  | openTag (kind : Kind)
  /-- The end of the innermost element. -/
  | closeTag
  | text (content : String)
  deriving DecidableEq, Repr

/-- The parts of a piece inside a scope of a kind, in front of further ones. -/
def pieceOnto (source : String) (around : Kind) (piece : Piece) (later : List Part) : List Part :=
  let text := .text ((piece.span.slice? source).getD "")
  if piece.kind.isPlain || piece.kind == around then text :: later
  else .openTag piece.kind :: text :: .closeTag :: later

/-- The parts of an outline inside a scope of a kind, in front of further ones. -/
def partsOnto (source : String) (around : Kind) : Outline → List Part → List Part
  | .nil, later => later
  | .piece earlier p, later =>
    partsOnto source around earlier (pieceOnto source around p later)
  | .scope earlier s inside, later =>
    partsOnto source around earlier
      (.openTag s.kind :: partsOnto source s.kind inside (.closeTag :: later))

/-- The parts of the outline of a text.  Outside all scopes text is plain. -/
def parts (source : String) (outline : Outline) : List Part :=
  partsOnto source .plain outline []

/-- A character as it is written in HTML text and in attributes. -/
def entity (c : Char) : List Char :=
  match c with
  | '&' => "&amp;".toList
  | '<' => "&lt;".toList
  | '>' => "&gt;".toList
  | '"' => "&quot;".toList
  | '\'' => "&#x27;".toList
  | c => [c]

/-- A text in which no character can be taken for markup. -/
def escaped (text : String) : String := String.ofList (text.toList.flatMap entity)

def Part.write : Part → String
  | openTag kind => "<span class=\"hljs-" ++ kind.className ++ "\">"
  | closeTag => "</span>"
  | text content => escaped content

/-- A text as HTML, by its outline. -/
def render (source : String) (outline : Outline) : String :=
  String.join ((parts source outline).map Part.write)

end ModalHighlight.Html
