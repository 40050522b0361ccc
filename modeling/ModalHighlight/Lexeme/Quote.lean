import ModalHighlight.Byte

/-! # Quotes

The delimiters of quoted and raw strings, character literals and escapes.  A
raw string is closed by a quote with exactly as many hashes after it as stood
in front of the quote that opened it.  A character literal may be read in
several ways; the reading that takes a leading backslash as an escape is tried
first.
-/

namespace ModalHighlight.Lexeme

/-- `"` or `b"`. -/
def quoteOpen : List UInt8 → Option Nat
  | [] => none
  | lead :: more =>
    if lead == Byte.quote then some 1
    else if lead == Byte.letterB && more.head? == some Byte.quote then some 2
    else none

/-- The most hashes that a raw string can have on a side. -/
def mostHashes : Nat := 65535

/-- `r`, hashes and `"`, as the length of the whole and the number of hashes. -/
def rawOpen : List UInt8 → Option (Nat × Nat)
  | [] => none
  | lead :: more =>
    if lead == Byte.letterR then
      let hashes := Byte.runLength (· == Byte.hash) more
      if more[hashes]? == some Byte.quote && hashes ≤ mostHashes then some (hashes + 2, hashes)
      else none
    else none

/-- `"` and exactly the given number of hashes. -/
def rawClose (hashes : Nat) : List UInt8 → Option Nat
  | [] => none
  | lead :: more =>
    if lead == Byte.quote && Byte.runLength (· == Byte.hash) more == hashes then some (hashes + 1)
    else none

/-- A backslash and one character. -/
def escape : List UInt8 → Option Nat
  | lead :: next :: more =>
    if lead == Byte.backslash then some (1 + Byte.charLength (next :: more)) else none
  | _ => none

/-! ## Character literals -/

/-- `length` bytes with a closing `'` after them, the `'` counted in. -/
def closedAfter (length : Nat) (text : List UInt8) : Option Nat :=
  if text[length]? == some Byte.apostrophe then some (length + 1) else none

/-- A letter, `count` identifier bytes and a closing `'`. -/
def countedEscape (letter : UInt8) (count : Nat) : List UInt8 → Option Nat
  | [] => none
  | lead :: more =>
    if lead == letter && (more.take count).length == count &&
        (more.take count).all Byte.isIdentifier then
      closedAfter (1 + count) (lead :: more)
    else none

/-- One character other than a line feed, and a closing `'`. -/
def closedChar : List UInt8 → Option Nat
  | [] => none
  | lead :: more =>
    if lead == Byte.newline then none
    else closedAfter (Byte.charLength (lead :: more)) (lead :: more)

/-- What may follow the opening `'` and an optional backslash: `x` with two
identifier bytes, `u` with four, `U` with eight, or any one character but a
line feed; and the closing `'`. -/
def charBody (text : List UInt8) : Option Nat :=
  (countedEscape 0x78 2 text).or <| (countedEscape 0x75 4 text).or <|
    (countedEscape 0x55 8 text).or (closedChar text)

/-- What follows the opening `'` of a character literal.  A backslash is first
taken as the start of an escape, then as the character itself. -/
def charContent : List UInt8 → Option Nat
  | [] => none
  | lead :: more =>
    if lead == Byte.backslash then ((charBody more).map (· + 1)).or (charBody (lead :: more))
    else charBody (lead :: more)

/-- `'`, a character or escape, and `'`. -/
def quotedChar : List UInt8 → Option Nat
  | [] => none
  | lead :: more => if lead == Byte.apostrophe then (charContent more).map (· + 1) else none

/-- A character literal, which a `b` may begin. -/
def charLiteral : List UInt8 → Option Nat
  | [] => none
  | lead :: more =>
    if lead == Byte.letterB then (quotedChar more).map (· + 1) else quotedChar (lead :: more)

end ModalHighlight.Lexeme
