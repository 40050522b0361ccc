import ModalHighlight.Log.Pattern.Expression

/-! # Which expressions can be matched

Expressions are matched without tables of Unicode properties, and only against
whole characters.

* With the flag for Unicode in force, classes such as `\d`, edges of words, and
  characters in either case would need the tables.
* Without it, a dot, a complement, or a character that is no ASCII one and is
  written as a byte or stands in a class would match single bytes of a
  character.

An expression with any of these cannot be matched, wherever it stands in it.
-/

namespace ModalHighlight.Log.Pattern

namespace Literal

def isAscii (content : Literal) : Bool := content.char.toNat < 0x80

/-- The character can be matched outside of classes. -/
def isMatchable (flags : List Flag) (content : Literal) : Bool :=
  if flags.contains .unicode then !flags.contains .ignoreCase
  else content.isAscii || !content.asByte

/-- The character can be matched as a member of a class. -/
def isMatchableMember (flags : List Flag) (content : Literal) : Bool :=
  if flags.contains .unicode then !flags.contains .ignoreCase else content.isAscii

end Literal

namespace CharSet

mutual

def isMatchable (flags : List Flag) : CharSet → Bool
  | empty => true
  | literal content => content.isMatchableMember flags
  | range first last => first.isMatchableMember flags && last.isMatchableMember flags
  | named negated => if flags.contains .unicode then !flags.contains .ignoreCase else !negated
  | shorthand negated => !flags.contains .unicode && !negated
  | union sets => areMatchable flags sets
  | combination left right => left.isMatchable flags && right.isMatchable flags
  | bracketed negated set => (flags.contains .unicode || !negated) && set.isMatchable flags

def areMatchable (flags : List Flag) : List CharSet → Bool
  | [] => true
  | set :: rest => set.isMatchable flags && areMatchable flags rest

end

end CharSet

namespace Expression

mutual

def isMatchable : Expression → Bool
  | empty => true
  | literal flags content => content.isMatchable flags
  | dot flags => flags.contains .unicode
  | edge => true
  | wordEdge flags => !flags.contains .unicode
  | set flags content => content.isMatchable flags
  | change => true
  | group inner => inner.isMatchable
  | repetition repeated => repeated.isMatchable
  | sequence parts => areMatchable parts
  | choice branches => areMatchable branches

def areMatchable : List Expression → Bool
  | [] => true
  | expression :: rest => expression.isMatchable && areMatchable rest

end

end Expression

end ModalHighlight.Log.Pattern
