import ModalHighlight.Byte

/-! # Operators

The longest operator in front of a text.  No operator has more than two bytes,
so the two-byte ones are tried first; a lone `?` counts only in front of `(`.
-/

namespace ModalHighlight.Lexeme

/-- The operators of two bytes. -/
def longOperators : List (List UInt8) :=
  ["++", "--", "==", "!=", "<=", ">=", "+=", "-=", "*=", "/=", ":=", "::", "|>", "?.", "??",
    "!."].map Text.bytes

/-- The operators of one byte that need nothing after them. -/
def shortOperators : List UInt8 := Text.bytes "=<>+-*/&!%"

/-- The longest operator in front of a text. -/
def operator : List UInt8 → Option Nat
  | [] => none
  | lead :: more =>
    if longOperators.contains ((lead :: more).take 2) then some 2
    else if shortOperators.contains lead then some 1
    else if lead == Byte.question && more.head? == some Byte.parenthesis then some 1
    else none

end ModalHighlight.Lexeme
