import ModalHighlight.Search
import ModalHighlight.Text.Alphabetic
import ModalHighlight.Text.GraphemeExtend
import ModalHighlight.Text.Numeric
import ModalHighlight.Text.Unprintable

/-! # Classes of characters

A class of characters is a table of closed ranges of code points in ascending
order, in which a character is found by binary search.
-/

namespace ModalHighlight.Text

/-- Where a code point lies to a range: the range is below, above or around it. -/
def rangeSide (codePoint : Nat) (range : Nat × Nat) : Ordering :=
  if range.2 < codePoint then .lt else if codePoint < range.1 then .gt else .eq

/-- A code point lies in one of some ascending ranges. -/
def inRanges (ranges : Array (Nat × Nat)) (codePoint : Nat) : Bool :=
  (Search.find? (rangeSide codePoint) ranges).isSome

/-- The character is drawn together with the one before it. -/
def isGraphemeExtend (c : Char) : Bool := inRanges graphemeExtendRanges c.toNat

/-- The character leaves a mark of its own. -/
def isPrintable (c : Char) : Bool := !inRanges unprintableRanges c.toNat

/-- The character is a letter or stands for one. -/
def isAlphabetic (c : Char) : Bool := inRanges alphabeticRanges c.toNat

/-- The character belongs to a number. -/
def isNumeric (c : Char) : Bool := inRanges numericRanges c.toNat

/-- The character is a letter or belongs to a number. -/
def isAlphanumeric (c : Char) : Bool := isAlphabetic c || isNumeric c

/-- The ranges of the characters with the Unicode property `White_Space`. -/
def blankRanges : Array (Nat × Nat) :=
  #[(0x9, 0xd), (0x20, 0x20), (0x85, 0x85), (0xa0, 0xa0), (0x1680, 0x1680), (0x2000, 0x200a),
    (0x2028, 0x2029), (0x202f, 0x202f), (0x205f, 0x205f), (0x3000, 0x3000)]

def isBlank (c : Char) : Bool := inRanges blankRanges c.toNat

end ModalHighlight.Text
