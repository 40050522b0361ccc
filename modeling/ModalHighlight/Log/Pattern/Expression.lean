/-! # Regular expressions

A pattern describes the values of a field by a regular expression.  A filter
never matches one, because no event lies in a span, but it cannot be read if
one of its patterns is ill-formed or cannot be matched at all.  So an expression
keeps what decides that: how it is nested, which flags are in force where, and
how its characters are written.
-/

namespace ModalHighlight.Log.Pattern

/-! ## Flags -/

/-- A setting of how an expression is meant. -/
inductive Flag where
  /-- Letters stand for both of their cases. -/
  | ignoreCase
  /-- `^` and `$` stand for the edges of lines. -/
  | manyLines
  /-- A dot stands for line feeds too. -/
  | dotMatchesLineFeed
  /-- Repetitions prefer to be short. -/
  | swapGreed
  /-- Characters are those of Unicode, and not bytes. -/
  | unicode
  /-- Lines end in a carriage return and a line feed. -/
  | carriageReturns
  /-- White space and comments between elements are skipped. -/
  | verbose
  deriving DecidableEq, Repr

/-- The flag that a letter stands for. -/
def Flag.ofLetter? : Char → Option Flag
  | 'i' => some ignoreCase
  | 'm' => some manyLines
  | 's' => some dotMatchesLineFeed
  | 'U' => some swapGreed
  | 'u' => some unicode
  | 'R' => some carriageReturns
  | 'x' => some verbose
  | _ => none

/-- The flags in force where a pattern starts. -/
def Flag.initial : List Flag := [unicode]

/-- Which flags a group turns on and off. -/
structure FlagChange where
  on : List Flag
  off : List Flag
  deriving DecidableEq, Repr

namespace FlagChange

/-- Reads the letters of the flags to turn on and, behind a hyphen, of those to
turn off.  No letter stands twice, and a hyphen stands in front of a letter. -/
def read? (letters : List Char) : Option FlagChange :=
  let on := letters.takeWhile (· != '-')
  if letters.Nodup ∧ letters.getLast? ≠ some '-' then
    match on.mapM Flag.ofLetter?, (letters.drop (on.length + 1)).mapM Flag.ofLetter? with
    | some on, some off => some ⟨on, off⟩
    | _, _ => none
  else none

/-- The flags in force behind a change, each of them once. -/
def apply (change : FlagChange) (flags : List Flag) : List Flag :=
  change.on ++ flags.filter fun flag => !(change.on ++ change.off).contains flag

end FlagChange

/-! ## Expressions -/

/-- A character that stands for itself. -/
structure Literal where
  char : Char
  /-- It is written by two hexadecimal digits, as a byte is. -/
  asByte : Bool
  deriving DecidableEq, Repr

/-- A set of characters, as a class in brackets describes it. -/
inductive CharSet where
  | empty
  | literal (literal : Literal)
  | range (first last : Literal)
  /-- A class such as `[:alpha:]`, or the complement of one. -/
  | named (negated : Bool)
  | shorthand (negated : Bool)
  | union (sets : List CharSet)
  /-- The intersection or a difference of two sets. -/
  | combination (left right : CharSet)
  /-- A set in brackets of its own, or the complement of one. -/
  | bracketed (negated : Bool) (set : CharSet)

/-- A regular expression.  What its flags bear on comes with those in force. -/
inductive Expression where
  | empty
  | literal (flags : List Flag) (literal : Literal)
  | dot (flags : List Flag)
  /-- An edge of a line or of the text. -/
  | edge
  | wordEdge (flags : List Flag)
  | set (flags : List Flag) (content : CharSet)
  /-- A change of the flags for what follows. -/
  | change
  | group (inner : Expression)
  | repetition (repeated : Expression)
  | sequence (parts : List Expression)
  | choice (branches : List Expression)

namespace CharSet

/-- The union of the members of a class. -/
def ofMembers : List CharSet → CharSet
  | [] => empty
  | [set] => set
  | sets => union sets

mutual

/-- How deep unions, combinations and brackets are nested in a set. -/
def depth : CharSet → Nat
  | empty => 0
  | literal _ => 0
  | range .. => 0
  | named _ => 0
  | shorthand _ => 0
  | union sets => depths sets + 1
  | combination left right => max left.depth right.depth + 1
  | bracketed _ set => set.depth + 1

def depths : List CharSet → Nat
  | [] => 0
  | set :: rest => max set.depth (depths rest)

end

end CharSet

namespace Expression

/-- The expression that consists of some parts. -/
def ofParts : List Expression → Expression
  | [] => empty
  | [part] => part
  | parts => sequence parts

/-- The expression can be repeated. -/
def isRepeatable : Expression → Bool
  | change => false
  | _ => true

mutual

/-- How deep groups, repetitions, sequences, choices and classes are nested in
an expression. -/
def depth : Expression → Nat
  | empty => 0
  | literal .. => 0
  | dot _ => 0
  | edge => 0
  | wordEdge _ => 0
  | set _ content => content.depth
  | change => 0
  | group inner => inner.depth + 1
  | repetition repeated => repeated.depth + 1
  | sequence parts => depths parts + 1
  | choice branches => depths branches + 1

def depths : List Expression → Nat
  | [] => 0
  | expression :: rest => max expression.depth (depths rest)

end

end Expression

end ModalHighlight.Log.Pattern
