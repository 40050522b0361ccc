import ModalHighlight.Cursor
import ModalHighlight.KeywordTable
import ModalHighlight.Lexeme.Fixed
import ModalHighlight.Lexeme.Number
import ModalHighlight.Lexeme.Operator
import ModalHighlight.Lexeme.Quote
import ModalHighlight.Lexeme.Word

/-! # Matchers

A matcher is a pattern that a rule may use for where it opens, where it closes
and what it rejects.  A matcher sees the text after a place, and of the text
in front of it only whether a word may start there.  Its hit is measured from
that place, so the same text gives the same hit wherever it stands.
-/

namespace ModalHighlight

/-- A pattern. -/
inductive Matcher where
  /-- Exactly this text. -/
  | literal (text : String)
  /-- One byte out of a set. -/
  | anyOf (set : List UInt8)
  /-- One of these words at a word start, with a blank after it. -/
  | keywordThenSpace (words : List String)
  /-- A character that is neither an identifier byte nor begins in a set. -/
  | stray (allowed : List UInt8)
  | lineComment
  | quoteOpen
  | rawOpen
  /-- Closes a raw string that was opened with as many hashes. -/
  | rawClose
  | charLiteral
  | symbol
  | screamingCase
  | capitalized
  | operator
  | number
  | identifier
  /-- `identifier::`, of which the identifier is the head. -/
  | qualifiedPath
  /-- An identifier in front of `(` that a table does not reserve. -/
  | call (reserved : KeywordTable)
  | escape
  deriving DecidableEq, Repr

/-- What a matcher found, measured from where it looked. -/
structure Hit where
  /-- The end of the matched text. -/
  stop : Nat
  /-- The end of its head; that of the whole unless the match is split. -/
  headStop : Nat
  /-- The hashes that a raw string was opened with. -/
  hashes : Nat
  deriving DecidableEq, Repr

namespace Hit

/-- A hit that is not split. -/
def whole (stop : Nat) : Hit := ⟨stop, stop, 0⟩

/-- The same hit, measured from a place further left. -/
def shift (distance : Nat) (hit : Hit) : Hit :=
  ⟨distance + hit.stop, distance + hit.headStop, hit.hashes⟩

end Hit

namespace Matcher

/-- Tries a matcher in front of a text.  `hashes` is the number of hashes that
closes the raw string in progress. -/
def match? (matcher : Matcher) (wordStart : Bool) (hashes : Nat) (text : List UInt8) :
    Option Hit :=
  match matcher with
  | literal expected => (Lexeme.literal (Text.bytes expected) text).map Hit.whole
  | anyOf set => (Lexeme.oneOf set text).map Hit.whole
  | keywordThenSpace words =>
    if wordStart then (Lexeme.keywordBeforeBlank words text).map Hit.whole else none
  | stray allowed => (Lexeme.stray allowed text).map Hit.whole
  | lineComment => (Lexeme.lineComment text).map Hit.whole
  | quoteOpen => (Lexeme.quoteOpen text).map Hit.whole
  | rawOpen => (Lexeme.rawOpen text).map fun found => ⟨found.1, found.1, found.2⟩
  | rawClose => (Lexeme.rawClose hashes text).map Hit.whole
  | charLiteral => (Lexeme.charLiteral text).map Hit.whole
  | symbol => (Lexeme.symbol text).map Hit.whole
  | screamingCase => if wordStart then (Lexeme.screamingCase text).map Hit.whole else none
  | capitalized => if wordStart then (Lexeme.capitalized text).map Hit.whole else none
  | operator => (Lexeme.operator text).map Hit.whole
  | number => if wordStart then (Lexeme.number text).map Hit.whole else none
  | identifier => (Lexeme.identifier text).map Hit.whole
  | qualifiedPath =>
    if wordStart then
      (Lexeme.qualifiedPath text).map fun found => ⟨found.2, found.1, 0⟩
    else none
  | call reserved =>
    if wordStart then
      ((Lexeme.call text).filter fun stop => !reserved.reserves (text.take stop)).map Hit.whole
    else none
  | escape => (Lexeme.escape text).map Hit.whole

/-- Whether a matcher may be asked at the very end of a text.  The others look
at the byte that follows. -/
def acceptsEnd : Matcher → Bool
  | literal _ => true
  | lineComment => true
  | _ => false

/-- Tries a matcher at a place of a text. -/
def matchAt? (matcher : Matcher) (hashes : Nat) (place : Cursor) : Option Hit :=
  matcher.match? place.atWordStart hashes place.rest

/-- Tries a matcher at an offset of a text; the hit is in offsets of the text. -/
def find (matcher : Matcher) (text : List UInt8) (offset hashes : Nat) :
    Except OutOfText (Option Hit) :=
  let place :=
    if matcher.acceptsEnd then Cursor.upToEnd text offset else Cursor.inside text offset
  place.map fun place => (matcher.matchAt? hashes place).map (Hit.shift offset)

/-- Inside a text, every matcher is tried. -/
theorem find_of_lt (matcher : Matcher) {text : List UInt8} {offset : Nat} (hashes : Nat)
    (inside : offset < text.length) : matcher.find text offset hashes =
      .ok ((matcher.matchAt? hashes (Cursor.ofOffset text offset)).map (Hit.shift offset)) := by
  rw [find, Cursor.inside, Cursor.upToEnd, if_pos inside, if_pos (Nat.le_of_lt inside), ite_self]
  rfl

end Matcher

end ModalHighlight
