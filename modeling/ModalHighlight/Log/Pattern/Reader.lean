import ModalHighlight.Log.Pattern.Bracket

/-! # Reading patterns

A pattern is read element by element.  Those of the branch that is being read
are kept with the branches in front of it, and a group that is not closed keeps
what stands outside of it for later.
-/

namespace ModalHighlight.Log.Pattern

/-- A group whose closing parenthesis has not been reached, or the whole pattern. -/
structure OpenGroup where
  /-- The flags in force where the reading stands. -/
  flags : List Flag
  /-- The branches that have been read, the last first. -/
  branches : List Expression
  /-- The parts of the branch that is being read, the last first. -/
  parts : List Expression

namespace OpenGroup

def start (flags : List Flag) : OpenGroup := ⟨flags, [], []⟩

def verbose (group : OpenGroup) : Bool := group.flags.contains .verbose

def add (group : OpenGroup) (part : Expression) : OpenGroup :=
  { group with parts := part :: group.parts }

def branch (group : OpenGroup) : Expression := Expression.ofParts group.parts.reverse

/-- Ends a branch and starts another. -/
def endBranch (group : OpenGroup) : OpenGroup :=
  { group with branches := group.branch :: group.branches, parts := [] }

/-- The last part is repeated. -/
def repeatLast? (group : OpenGroup) : Option OpenGroup :=
  match group.parts with
  | [] => none
  | part :: parts =>
    if part.isRepeatable then some { group with parts := .repetition part :: parts } else none

/-- What the group describes. -/
def content (group : OpenGroup) : Expression :=
  match group.branches with
  | [] => group.branch
  | branches => .choice (group.branch :: branches).reverse

end OpenGroup

/-- What has been read of a pattern. -/
structure Reader where
  /-- The names of groups. -/
  names : List (List Char)
  /-- The innermost group that is not closed. -/
  group : OpenGroup
  /-- The groups around it, from the inside to the outside. -/
  outer : List OpenGroup

namespace Reader

def start : Reader := ⟨[], OpenGroup.start Flag.initial, []⟩

def add (reader : Reader) (part : Expression) : Reader :=
  { reader with group := reader.group.add part }

/-- Opens a group with some flags. -/
def openGroup (reader : Reader) (flags : List Flag) : Reader :=
  { reader with group := OpenGroup.start flags, outer := reader.group :: reader.outer }

def closeGroup? (reader : Reader) : Option Reader :=
  match reader.outer with
  | [] => none
  | parent :: outer =>
    some { reader with group := parent.add (.group reader.group.content), outer }

/-- The text can name a group. -/
def isName : List Char → Bool
  | [] => false
  | first :: rest =>
    (first == '_' || Text.isAlphabetic first) &&
      rest.all fun c => "_.[]".toList.contains c || Text.isAlphanumeric c

/-- Reads the name of a group, and the angle bracket behind it.  No two groups
have the same name. -/
def readName? (reader : Reader) (text : List Char) : Option (Reader × List Char) :=
  let name := text.takeWhile (· != '>')
  match text.drop name.length with
  | [] => none
  | _ :: rest =>
    if isName name && !reader.names.contains name then
      some ({ reader with names := name :: reader.names }.openGroup reader.group.flags, rest)
    else none

/-- Reads flags and what ends them: a colon in front of the group that they are
for, or the parenthesis that makes them count for the rest of the group in which
they stand. -/
def readFlags? (reader : Reader) (text : List Char) : Option (Reader × List Char) :=
  let letters := text.takeWhile fun c => c != ':' && c != ')'
  match text.drop letters.length, FlagChange.read? letters with
  | ':' :: rest, some change => some (reader.openGroup (change.apply reader.group.flags), rest)
  | ')' :: rest, some change =>
    if letters.isEmpty then none
    else
      let flags := change.apply reader.group.flags
      some ({ reader with group := { reader.group.add .change with flags } }, rest)
  | _, _ => none

/-- Reads the start of a group behind its parenthesis. -/
def readGroup? (reader : Reader) (text : List Char) : Option (Reader × List Char) :=
  match Verbose.skip reader.group.verbose text with
  | '?' :: 'P' :: '<' :: rest => reader.readName? rest
  | '?' :: '<' :: rest => reader.readName? rest
  | '?' :: rest => reader.readFlags? rest
  | rest => some (reader.openGroup reader.group.flags, rest)

/-- Repeats the last part.  A question mark behind the repetition belongs to it. -/
def readRepetition? (reader : Reader) (text : List Char) : Option (Reader × List Char) :=
  let rest := if text.head? = some '?' then text.drop 1 else text
  reader.group.repeatLast?.map fun group => ({ reader with group }, rest)

/-- Reads on from a character.  No brace opens a count of repetitions, because
the brace that would close it ends the pattern. -/
def step? (reader : Reader) (c : Char) (rest : List Char) : Option (Reader × List Char) :=
  let flags := reader.group.flags
  match c with
  | '(' => reader.readGroup? rest
  | ')' => reader.closeGroup?.map (·, rest)
  | '|' => some ({ reader with group := reader.group.endBranch }, rest)
  | '?' => reader.readRepetition? rest
  | '*' => reader.readRepetition? rest
  | '+' => reader.readRepetition? rest
  | '\x7b' => none
  | '[' =>
    (CharSet.read? reader.group.verbose rest).map fun (content, rest) =>
      (reader.add (.set flags content), rest)
  | '.' => some (reader.add (.dot flags), rest)
  | '^' => some (reader.add .edge, rest)
  | '$' => some (reader.add .edge, rest)
  | c =>
    (Element.read? reader.group.verbose (c :: rest)).map fun (element, rest) =>
      (reader.add (element.toExpression flags), rest)

/-- Reads on to the end of the text.  Each step takes a character from it, so
there are no more steps than characters. -/
def finish? : (steps : Nat) → Reader → List Char → Option Expression
  | steps, reader, text =>
    match Verbose.skip reader.group.verbose text, steps with
    | [], _ => if reader.outer.isEmpty then some reader.group.content else none
    | _ :: _, 0 => none
    | c :: rest, steps + 1 =>
      match reader.step? c rest with
      | none => none
      | some (reader, rest) => finish? steps reader rest

end Reader

def Expression.read? (text : List Char) : Option Expression :=
  Reader.start.finish? text.length text

end ModalHighlight.Log.Pattern
