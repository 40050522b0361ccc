import ModalHighlight.Log.Pattern.Expression
import ModalHighlight.Log.Pattern.Verbose
import ModalHighlight.Text.Hexadecimal

/-! # Elements of patterns

A class in brackets consists of the same elements as a pattern outside of them:
characters, and escapes, which start with a backslash.  What an escape means is
the same in both, but not all of them may stand in a class.
-/

namespace ModalHighlight.Log.Pattern

/-- What a character or an escape stands for. -/
inductive Element where
  | literal (literal : Literal)
  /-- A class such as `\d`, or the complement of one. -/
  | shorthand (negated : Bool)
  /-- An edge of the text. -/
  | edge
  /-- An edge of a word, or the lack of one. -/
  | wordEdge
  deriving DecidableEq, Repr

namespace Element

/-- The control character that a letter stands for when escaped. -/
def control? : Char → Option Char
  | 'a' => some '\x07'
  | 't' => some '\t'
  | 'n' => some '\n'
  | 'v' => some '\x0b'
  | 'f' => some '\x0c'
  | 'r' => some '\r'
  | _ => none

/-- The character stands for itself when escaped. -/
def isEscapable (c : Char) : Bool :=
  c.toNat < 0x80 && !c.isAlphanum && c != '<' && c != '>'

/-- What an escape of one character stands for. -/
def ofEscaped? (c : Char) : Option Element :=
  if "dsw".toList.contains c then some (shorthand false)
  else if "DSW".toList.contains c then some (shorthand true)
  else if "Az".toList.contains c then some edge
  else if "bB<>".toList.contains c then some wordEdge
  else if isEscapable c then some (literal ⟨c, false⟩)
  else (control? c).map fun control => literal ⟨control, false⟩

/-- How many hexadecimal digits follow a letter when escaped. -/
def hexPlaces? : Char → Option Nat
  | 'x' => some 2
  | 'u' => some 4
  | 'U' => some 8
  | _ => none

/-- Reads hexadecimal digits after those that have made up `value` already. -/
def readHex? (verbose : Bool) : (places value : Nat) → List Char → Option (Nat × List Char)
  | 0, value, text => some (value, text)
  | places + 1, value, text =>
    match Verbose.skip verbose text with
    | [] => none
    | c :: rest =>
      match Text.hexValue? c with
      | none => none
      | some digit => readHex? verbose places (16 * value + digit) rest

/-- Reads an escape behind its backslash. -/
def readEscape? (verbose : Bool) : List Char → Option (Element × List Char)
  | [] => none
  | c :: rest =>
    match hexPlaces? c with
    | none => (ofEscaped? c).map (·, rest)
    | some places =>
      match readHex? verbose places 0 rest with
      | none => none
      | some (value, rest) =>
        if value.isValidChar then some (literal ⟨Char.ofNat value, places = 2⟩, rest) else none

def read? (verbose : Bool) : List Char → Option (Element × List Char)
  | [] => none
  | '\\' :: rest => readEscape? verbose rest
  | c :: rest => some (literal ⟨c, false⟩, rest)

/-- The element outside of brackets. -/
def toExpression (flags : List Flag) : Element → Expression
  | literal content => .literal flags content
  | shorthand negated => .set flags (.shorthand negated)
  | edge => .edge
  | wordEdge => .wordEdge flags

/-- The element as a member of a class. -/
def toSet? : Element → Option CharSet
  | literal content => some (.literal content)
  | shorthand negated => some (.shorthand negated)
  | edge => none
  | wordEdge => none

/-- The members of a class from one element to another, the first of which comes
no later in the order of code points. -/
def range? : Element → Element → Option CharSet
  | literal first, literal last =>
    if first.char.toNat ≤ last.char.toNat then some (.range first last) else none
  | _, _ => none

end Element

end ModalHighlight.Log.Pattern
