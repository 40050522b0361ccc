/-! # Bytes of a text

Texts are scanned as their UTF-8 bytes.  This module holds the view of a text
as bytes, the byte classes the lexemes are made of, and the width that a lead
byte announces.  Every class is ASCII: a byte of a longer character is in none
of them, which is why a lexeme can never end inside a character by accident.
-/

namespace ModalHighlight

/-- The UTF-8 bytes of a text, in order. -/
def Text.bytes (text : String) : List UInt8 := text.toUTF8.data.toList

namespace Byte

/-! ## Single bytes -/

/-- Line feed. -/
abbrev newline : UInt8 := 0x0a
/-- `!` -/
abbrev bang : UInt8 := 0x21
/-- `"` -/
abbrev quote : UInt8 := 0x22
/-- `#` -/
abbrev hash : UInt8 := 0x23
/-- `'` -/
abbrev apostrophe : UInt8 := 0x27
/-- `(` -/
abbrev parenthesis : UInt8 := 0x28
/-- `+` -/
abbrev plus : UInt8 := 0x2b
/-- `-` -/
abbrev minus : UInt8 := 0x2d
/-- `.` -/
abbrev dot : UInt8 := 0x2e
/-- `0` -/
abbrev zero : UInt8 := 0x30
/-- `?` -/
abbrev question : UInt8 := 0x3f
/-- The backslash. -/
abbrev backslash : UInt8 := 0x5c
/-- `_` -/
abbrev underscore : UInt8 := 0x5f
/-- `b` -/
abbrev letterB : UInt8 := 0x62
/-- `r` -/
abbrev letterR : UInt8 := 0x72

/-! ## Classes -/

/-- `[0-9]` -/
def isDigit (b : UInt8) : Bool := 0x30 ≤ b && b ≤ 0x39

/-- `[A-Z]` -/
def isUpper (b : UInt8) : Bool := 0x41 ≤ b && b ≤ 0x5a

/-- `[a-z]` -/
def isLower (b : UInt8) : Bool := 0x61 ≤ b && b ≤ 0x7a

/-- `[01]` -/
def isBinaryDigit (b : UInt8) : Bool := 0x30 ≤ b && b ≤ 0x31

/-- `[0-7]` -/
def isOctalDigit (b : UInt8) : Bool := 0x30 ≤ b && b ≤ 0x37

/-- `[0-9A-Fa-f]` -/
def isHexDigit (b : UInt8) : Bool :=
  isDigit b || (0x41 ≤ b && b ≤ 0x46) || (0x61 ≤ b && b ≤ 0x66)

/-- `[A-Za-z_]` -/
def isIdentifierStart (b : UInt8) : Bool := isUpper b || isLower b || b == underscore

/-- `[A-Za-z0-9_]` -/
def isIdentifier (b : UInt8) : Bool := isIdentifierStart b || isDigit b

/-- Space, tab, line feed, carriage return and form feed. -/
def isBlank (b : UInt8) : Bool := b == 0x20 || b == 0x09 || b == newline || b == 0x0d || b == 0x0c

/-! ## Widths and runs -/

/-- The width of the character that `lead` begins.  A continuation byte, which
begins none, counts as one. -/
def charWidth (lead : UInt8) : Nat :=
  if lead < 0xc0 then 1 else if lead < 0xe0 then 2 else if lead < 0xf0 then 3 else 4

/-- The number of bytes of the character in front of a text, no more than the
text has. -/
def charLength : List UInt8 → Nat
  | [] => 0
  | lead :: more => ((lead :: more).take (charWidth lead)).length

/-- The number of leading bytes of a text that are in a class. -/
def runLength (inClass : UInt8 → Bool) (text : List UInt8) : Nat :=
  (text.takeWhile inClass).length

theorem charWidth_pos (lead : UInt8) : 0 < charWidth lead := by
  unfold charWidth; split <;> (try split) <;> (try split) <;> omega

theorem charLength_le (text : List UInt8) : charLength text ≤ text.length := by
  cases text with
  | nil => exact Nat.le_refl 0
  | cons lead more => simp only [charLength, List.length_take]; exact Nat.min_le_right _ _

theorem charLength_pos (lead : UInt8) (more : List UInt8) : 0 < charLength (lead :: more) := by
  have := charWidth_pos lead
  simp only [charLength, List.length_take, List.length_cons]
  omega

theorem runLength_le (inClass : UInt8 → Bool) (text : List UInt8) :
    runLength inClass text ≤ text.length :=
  (List.takeWhile_prefix inClass).length_le

/-- A run is a piece of the text in front of which it was counted. -/
theorem take_runLength (inClass : UInt8 → Bool) (text : List UInt8) :
    text.take (runLength inClass text) = text.takeWhile inClass :=
  (List.prefix_iff_eq_take.1 (List.takeWhile_prefix inClass)).symm

/-- What is left of a text behind a run. -/
theorem drop_runLength (inClass : UInt8 → Bool) (text : List UInt8) :
    text.drop (runLength inClass text) = text.dropWhile inClass := by
  have whole : text.take (runLength inClass text) ++ text.drop (runLength inClass text) =
      text.take (runLength inClass text) ++ text.dropWhile inClass := by
    rw [List.take_append_drop, take_runLength, List.takeWhile_append_dropWhile]
  exact List.append_cancel_left whole

end Byte

end ModalHighlight
