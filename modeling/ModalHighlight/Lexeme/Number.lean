import ModalHighlight.Byte

/-! # Numbers

A number is binary, octal or hexadecimal with a prefix, or decimal with an
optional fraction and an optional exponent.  Underscores may stand wherever a
digit may follow the first.  A part that would hold no digit is not taken, so
what stands in front of it is the number: `0b2` is the number `0`, `7e` is `7`.
-/

namespace ModalHighlight.Lexeme

/-- A digit of a class, or an underscore between digits. -/
def isDigitOf (inClass : UInt8 → Bool) (b : UInt8) : Bool := inClass b || b == Byte.underscore

/-- The digits that a letter after a leading `0` announces. -/
def digitsAnnouncedBy (letter : UInt8) : Option (UInt8 → Bool) :=
  if letter == 0x62 then some Byte.isBinaryDigit
  else if letter == 0x6f then some Byte.isOctalDigit
  else if letter == 0x78 then some Byte.isHexDigit
  else none

/-- `0b[01_]+`, `0o[0-7_]+` or `0x[0-9A-Fa-f_]+`. -/
def radixNumber : List UInt8 → Option Nat
  | lead :: letter :: more =>
    if lead == Byte.zero then
      match digitsAnnouncedBy letter with
      | none => none
      | some inClass =>
        match Byte.runLength (isDigitOf inClass) more with
        | 0 => none
        | digits + 1 => some (digits + 3)
    else none
  | _ => none

/-- The length of `\.[0-9_]+` in front of a text, or nothing of it. -/
def fractionLength : List UInt8 → Nat
  | [] => 0
  | b :: more =>
    if b == Byte.dot then
      match Byte.runLength (isDigitOf Byte.isDigit) more with
      | 0 => 0
      | digits + 1 => digits + 2
    else 0

/-- The length of the sign in front of a text, or nothing of it. -/
def signLength : List UInt8 → Nat
  | [] => 0
  | b :: _ => if b == Byte.plus || b == Byte.minus then 1 else 0

/-- The length of `[eE][+-]?[0-9_]+` in front of a text, or nothing of it. -/
def exponentLength : List UInt8 → Nat
  | [] => 0
  | b :: more =>
    if b == 0x65 || b == 0x45 then
      let sign := signLength more
      match Byte.runLength (isDigitOf Byte.isDigit) (more.drop sign) with
      | 0 => 0
      | digits + 1 => sign + digits + 2
    else 0

/-- The length of `[0-9_]*(\.[0-9_]+)?([eE][+-]?[0-9_]+)?` in front of a text. -/
def decimalLength (text : List UInt8) : Nat :=
  let whole := Byte.runLength (isDigitOf Byte.isDigit) text
  let fraction := fractionLength (text.drop whole)
  whole + fraction + exponentLength (text.drop (whole + fraction))

/-- A numeric literal, which begins with a digit. -/
def number : List UInt8 → Option Nat
  | [] => none
  | lead :: more =>
    if Byte.isDigit lead then
      match radixNumber (lead :: more) with
      | some length => some length
      | none => some (decimalLength (lead :: more))
    else none

end ModalHighlight.Lexeme
