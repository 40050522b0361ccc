/-! # Reading natural numbers

A numeral is a sequence of decimal digits, with a plus sign in front of it or
without.  Digits are read from left to right, and the first problem that is
met is the one that is reported.
-/

namespace ModalHighlight.Text

/-- Why a text is no numeral. -/
inductive NumeralError where
  | empty
  | invalidDigit
  /-- The number is greater than the greatest one allowed. -/
  | tooLarge
  deriving DecidableEq, Repr

namespace NumeralError

def message : NumeralError → String
  | empty => "cannot parse integer from empty string"
  | invalidDigit => "invalid digit found in string"
  | tooLarge => "number too large to fit in target type"

end NumeralError

/-- The value of a decimal digit. -/
def digitValue? (c : Char) : Option Nat :=
  if '0' ≤ c ∧ c ≤ '9' then some (c.toNat - '0'.toNat) else none

/-- Reads digits after those that have made up `value` already. -/
def readDigits (greatest : Nat) : (value : Nat) → List Char → Except NumeralError Nat
  | value, [] => .ok value
  | value, c :: rest =>
    match digitValue? c with
    | none => .error .invalidDigit
    | some digit =>
      if greatest < 10 * value + digit then .error .tooLarge
      else readDigits greatest (10 * value + digit) rest

/-- Reads a number that is at most `greatest`. -/
def readNumeral (greatest : Nat) (text : String) : Except NumeralError Nat :=
  match text.toList with
  | [] => .error .empty
  | ['+'] => .error .invalidDigit
  | '+' :: digits => readDigits greatest 0 digits
  | digits => readDigits greatest 0 digits

end ModalHighlight.Text
