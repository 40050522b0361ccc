/-! # Hexadecimal digits

Numbers in base sixteen.  They are written in lower case and without leading
zeros, and their digits are read in either case.
-/

namespace ModalHighlight.Text

/-- The hexadecimal digit of a value below sixteen. -/
def hexDigit (value : Nat) : Char :=
  if value < 10 then Char.ofNat ('0'.toNat + value) else Char.ofNat ('a'.toNat + value - 10)

/-- The value of a hexadecimal digit. -/
def hexValue? (c : Char) : Option Nat :=
  if '0' ≤ c ∧ c ≤ '9' then some (c.toNat - '0'.toNat)
  else if 'a' ≤ c ∧ c ≤ 'f' then some (c.toNat - 'a'.toNat + 10)
  else if 'A' ≤ c ∧ c ≤ 'F' then some (c.toNat - 'A'.toNat + 10)
  else none

/-- The hexadecimal digits of a number, in front of further text.  A number
below `16 ^ (places + 1)` has no digits beyond these. -/
def hexOnto : (places : Nat) → Nat → List Char → List Char
  | 0, n, later => hexDigit (n % 16) :: later
  | places + 1, n, later =>
    if n < 16 then hexDigit n :: later else hexOnto places (n / 16) (hexDigit (n % 16) :: later)

/-- A code point in hexadecimal digits, without padding. -/
def hex (codePoint : Nat) : List Char := hexOnto 7 codePoint []

end ModalHighlight.Text
