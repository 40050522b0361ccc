import ModalHighlight.Byte

/-! # Words

Identifiers and the lexemes that are told apart by how an identifier begins,
how it is spelled and what follows it.  Whether a word may begin at all is a
question about the byte in front of it, and is asked where the recognisers are
put to use.
-/

namespace ModalHighlight.Lexeme

/-- The identifier bytes in front of a text. -/
def wordLength (text : List UInt8) : Nat := Byte.runLength Byte.isIdentifier text

/-- A word whose first byte is in a class. -/
def wordFrom (starts : UInt8 → Bool) : List UInt8 → Option Nat
  | [] => none
  | lead :: more => if starts lead then some (wordLength (lead :: more)) else none

/-- `[A-Za-z_]\w*` -/
def identifier (text : List UInt8) : Option Nat := wordFrom Byte.isIdentifierStart text

/-- `[A-Z_]\w*` -/
def capitalized (text : List UInt8) : Option Nat :=
  wordFrom (fun lead => Byte.isUpper lead || lead == Byte.underscore) text

/-- `[A-Z_][A-Z0-9_]*`, and no lower-case letter after it. -/
def screamingCase (text : List UInt8) : Option Nat :=
  (capitalized text).filter fun length => (text.take length).all fun b => !Byte.isLower b

/-- One of the given words, with a blank after it.  The blank is not part of
the lexeme. -/
def keywordBeforeBlank (words : List String) (text : List UInt8) : Option Nat :=
  (identifier text).filter fun length =>
    words.any (fun word => Text.bytes word == text.take length) &&
      (text[length]?).any Byte.isBlank

/-- `identifier::`, as the length of the identifier and that of the whole. -/
def qualifiedPath (text : List UInt8) : Option (Nat × Nat) :=
  match identifier text with
  | none => none
  | some length =>
    if (Text.bytes "::").isPrefixOf (text.drop length) then some (length, length + 2) else none

/-- `[a-z_]\w*`, with blanks and `(` after it.  Only the word is the lexeme. -/
def call (text : List UInt8) : Option Nat :=
  (wordFrom (fun lead => Byte.isLower lead || lead == Byte.underscore) text).filter fun length =>
    ((text.drop length).dropWhile Byte.isBlank).head? == some Byte.parenthesis

/-- `'` and an identifier. -/
def symbol : List UInt8 → Option Nat
  | [] => none
  | b :: more => if b == Byte.apostrophe then (identifier more).map (· + 1) else none

end ModalHighlight.Lexeme
