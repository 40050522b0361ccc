import ModalHighlight.Highlighter

/-! # Statistics

How many tokens of each kind a text has, how many bytes they cover, and how
large and how deeply nested the text is.
-/

namespace ModalHighlight

/-- The tokens of one kind. -/
structure KindStats where
  kind : Kind
  tokens : Nat
  bytes : Nat
  deriving DecidableEq, Repr

/-- The figures of a highlighted text. -/
structure Stats where
  language : String
  bytes : Nat
  lines : Nat
  tokens : Nat
  /-- The kinds that occur, in their order. -/
  kinds : List KindStats
  scopes : Nat
  maxNesting : Nat
  diagnostics : Nat
  deriving DecidableEq, Repr

/-- The number of lines of a text.  A line feed ends a line; what follows the
last one is a line only if there is something. -/
def Text.lineCount (text : String) : Nat :=
  let bytes := Text.bytes text
  let ended := bytes.countP (· == Byte.newline)
  match bytes.getLast? with
  | none => ended
  | some last => if last == Byte.newline then ended else ended + 1

namespace KindStats

/-- The figures of the tokens of one kind among others. -/
def ofTokens (tokens : List Token) (kind : Kind) : KindStats :=
  let own := tokens.filter fun token => token.kind == kind
  ⟨kind, own.length, own.foldr (fun token total => token.span.length + total) 0⟩

end KindStats

namespace Stats

/-- The figures of a text and its result. -/
def ofHighlighted (text : String) (result : Highlighted) : Stats :=
  let tokens := result.tokens.toList
  { language := result.language.name
    bytes := text.utf8ByteSize
    lines := Text.lineCount text
    tokens := tokens.length
    kinds := (Kind.all.map (KindStats.ofTokens tokens)).filter fun row => 0 < row.tokens
    scopes := result.scopes.length
    maxNesting := result.outline.depth
    diagnostics := result.problems.length }

end Stats

end ModalHighlight
