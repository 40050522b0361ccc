import ModalHighlight.Log.Pattern.Reader
import ModalHighlight.Log.Pattern.Support

/-! # Patterns

A directive of a filter may ask for a field with a value, which it describes by
a number or by a regular expression.  Almost every number is an expression too,
so numbers matter only where they start with a plus sign.

Like the filters themselves, patterns follow the documented behaviour of the
`EnvFilter` of `tracing-subscriber`, and no theorem rests on them.
-/

namespace ModalHighlight.Log.Pattern

/-- How deep an expression may be nested. -/
def maxDepth : Nat := 250

/-- The text is a regular expression that can be matched. -/
def isExpression (text : List Char) : Bool :=
  match Expression.read? text with
  | none => false
  | some expression => expression.depth ≤ maxDepth && expression.isMatchable

/-! ## Numbers -/

/-- The text consists of decimal digits, and is not empty. -/
def isDigits (text : List Char) : Bool := !text.isEmpty && text.all Char.isDigit

/-- The text consists of digits, with a decimal point among them, in front of
them or behind them, or without one. -/
def isFraction (text : List Char) : Bool :=
  text.count '.' ≤ 1 && isDigits (text.filter (· != '.'))

/-- The text is an exponent, with or without a sign. -/
def isExponent : List Char → Bool
  | '+' :: digits => isDigits digits
  | '-' :: digits => isDigits digits
  | digits => isDigits digits

/-- The text stands for a number that is infinite or undefined. -/
def isSpecialNumber (text : List Char) : Bool :=
  ["inf", "infinity", "nan"].contains (String.ofList text).toLower

/-- The text is a number without a sign in front of it. -/
def isNumber (text : List Char) : Bool :=
  let fraction := text.takeWhile fun c => c != 'e' && c != 'E'
  match text.drop fraction.length with
  | [] => isFraction fraction || isSpecialNumber text
  | _ :: exponent => isFraction fraction && isExponent exponent

/-- The text is a number with a plus sign. -/
def isSignedNumber : List Char → Bool
  | '+' :: number => isNumber number
  | _ => false

/-- The text describes values of a field. -/
def isPattern (text : List Char) : Bool := isSignedNumber text || isExpression text

end ModalHighlight.Log.Pattern
