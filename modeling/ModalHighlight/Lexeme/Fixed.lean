import ModalHighlight.Byte

/-! # Fixed texts, byte sets and line comments

A lexeme is recognised at the front of the text that follows a cursor.  A
recogniser answers with the number of bytes of the lexeme, or with nothing if
the text does not begin with one.
-/

namespace ModalHighlight.Lexeme

/-- Exactly the given bytes. -/
def literal (expected text : List UInt8) : Option Nat :=
  if expected.isPrefixOf text then some expected.length else none

/-- One byte out of a set. -/
def oneOf (set : List UInt8) : List UInt8 → Option Nat
  | [] => none
  | b :: _ => if set.contains b then some 1 else none

/-- One character whose first byte is neither an identifier byte nor in a set. -/
def stray (allowed : List UInt8) : List UInt8 → Option Nat
  | [] => none
  | b :: more =>
    if Byte.isIdentifier b || allowed.contains b then none else some (Byte.charLength (b :: more))

/-- `//` and everything up to the end of the line, the line feed excluded. -/
def lineComment (text : List UInt8) : Option Nat :=
  match literal (Text.bytes "//") text with
  | none => none
  | some slashes => some (slashes + Byte.runLength (· != Byte.newline) (text.drop slashes))

end ModalHighlight.Lexeme
