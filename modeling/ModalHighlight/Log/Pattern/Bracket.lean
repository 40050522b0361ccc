import ModalHighlight.Log.Pattern.Element

/-! # Classes in brackets

A class stands between brackets and lists its members: characters, ranges,
named classes, and further classes in brackets.  A `^` in front of them stands
for the complement.  Between `&&`, `--` and `~~` stand sets, which these combine
from left to right.  Hyphens in front of all other members are members, and so
is a closing bracket that comes first.
-/

namespace ModalHighlight.Log.Pattern

/-- A class whose closing bracket has not been reached. -/
structure OpenSet where
  negated : Bool
  /-- No member but hyphens has been read. -/
  atStart : Bool
  /-- What stands to the left of the last operator. -/
  left : Option CharSet
  /-- The members behind it, the last first. -/
  members : List CharSet

namespace OpenSet

/-- A class behind its opening bracket and its `^`, if that is there. -/
def start (negated : Bool) : OpenSet := ⟨negated, true, none, []⟩

/-- The character is a member because nothing but hyphens stands in front of it. -/
def isLeading (current : OpenSet) (c : Char) : Bool :=
  current.atStart && (c == '-' || c == ']' && current.members.isEmpty)

/-- Adds a hyphen or a closing bracket that is a member. -/
def addLeading (current : OpenSet) (c : Char) : OpenSet :=
  { current with atStart := c == '-', members := .literal ⟨c, false⟩ :: current.members }

def add (current : OpenSet) (member : CharSet) : OpenSet :=
  { current with atStart := false, members := member :: current.members }

/-- The set that has been described so far. -/
def content (current : OpenSet) : CharSet :=
  let right := CharSet.ofMembers current.members.reverse
  match current.left with
  | none => right
  | some left => .combination left right

/-- The class behind an operator. -/
def combine (current : OpenSet) : OpenSet :=
  { current with atStart := false, left := some current.content, members := [] }

def close (current : OpenSet) : CharSet := .bracketed current.negated current.content

/-- Reads the start of a class behind its opening bracket. -/
def readStart (verbose : Bool) (text : List Char) : OpenSet × List Char :=
  match Verbose.skip verbose text with
  | '^' :: rest => (start true, rest)
  | rest => (start false, rest)

end OpenSet

namespace CharSet

/-- The names of classes. -/
def names : List String :=
  ["alnum", "alpha", "ascii", "blank", "cntrl", "digit", "graph", "lower", "print", "punct",
    "space", "upper", "word", "xdigit"]

/-- Reads a named class behind its opening bracket: a name between colons, with a
`^` in front of it for the complement. -/
def readNamed? : List Char → Option (CharSet × List Char)
  | ':' :: text =>
    let negated := text.head? = some '^'
    let text := if negated then text.drop 1 else text
    let name := text.takeWhile (· != ':')
    match text.drop name.length with
    | ':' :: ']' :: rest =>
      if names.contains (String.ofList name) then some (named negated, rest) else none
    | _ => none
  | _ => none

/-- Reads an element, or the elements between which a range reaches.  A hyphen
in front of a closing bracket or of another hyphen makes no range. -/
def readMember? (verbose : Bool) (text : List Char) : Option (CharSet × List Char) :=
  match Element.read? verbose text with
  | none => none
  | some (first, rest) =>
    match Verbose.skip verbose rest with
    | '-' :: behind =>
      let next := Verbose.peek verbose behind
      if next = some ']' ∨ next = some '-' then first.toSet?.map (·, '-' :: behind)
      else
        match Element.read? verbose (Verbose.skip verbose behind) with
        | none => none
        | some (last, rest) => (first.range? last).map (·, rest)
    | rest => first.toSet?.map (·, rest)

/-- Reads a class from inside its brackets on.  Each step takes a character from
the text, so there are no more steps than characters. -/
def readFrom? (verbose : Bool) :
    (steps : Nat) → OpenSet → (outer : List OpenSet) → List Char → Option (CharSet × List Char)
  | 0, _, _, _ => none
  | steps + 1, current, outer, text =>
    match Verbose.skip verbose text with
    | [] => none
    | c :: rest =>
      if current.isLeading c then readFrom? verbose steps (current.addLeading c) outer rest
      else
        match c :: rest with
        | ']' :: rest =>
          match outer with
          | [] => some (current.close, rest)
          | parent :: outer => readFrom? verbose steps (parent.add current.close) outer rest
        | '&' :: '&' :: rest => readFrom? verbose steps current.combine outer rest
        | '-' :: '-' :: rest => readFrom? verbose steps current.combine outer rest
        | '~' :: '~' :: rest => readFrom? verbose steps current.combine outer rest
        | '[' :: rest =>
          match readNamed? rest with
          | some (member, rest) => readFrom? verbose steps (current.add member) outer rest
          | none =>
            let (inner, rest) := OpenSet.readStart verbose rest
            readFrom? verbose steps inner (current :: outer) rest
        | text =>
          match readMember? verbose text with
          | none => none
          | some (member, rest) => readFrom? verbose steps (current.add member) outer rest

/-- Reads a class behind its opening bracket. -/
def read? (verbose : Bool) (text : List Char) : Option (CharSet × List Char) :=
  let (current, rest) := OpenSet.readStart verbose text
  readFrom? verbose rest.length current [] rest

end CharSet

end ModalHighlight.Log.Pattern
