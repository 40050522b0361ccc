import ModalHighlight.Text.Hexadecimal

/-! # JSON documents

The JSON values that reports consist of, and two ways to write them: on one
line, and indented by two spaces for each level.  The fields of an object are
written in the order in which they are given.
-/

namespace ModalHighlight

/-- A JSON value with natural numbers. -/
inductive Json where
  | bool (value : Bool)
  | number (value : Nat)
  | text (value : String)
  | list (items : List Json)
  | object (fields : List (String × Json))

namespace Json

/-- A character as it stands in a JSON string.  Only quotes, backslashes and
control characters are escaped. -/
def escapedChar (c : Char) : List Char :=
  match c with
  | '"' => ['\\', '"']
  | '\\' => ['\\', '\\']
  | '\x08' => ['\\', 'b']
  | '\x0c' => ['\\', 'f']
  | '\n' => ['\\', 'n']
  | '\r' => ['\\', 'r']
  | '\t' => ['\\', 't']
  | c =>
    if c.toNat < 0x20 then ['\\', 'u', '0', '0', Text.hexDigit (c.toNat / 16),
      Text.hexDigit (c.toNat % 16)]
    else [c]

def quoted (text : String) : String :=
  String.ofList ('"' :: text.toList.flatMap escapedChar ++ ['"'])

def boolText (value : Bool) : String := if value then "true" else "false"

/-! ## On one line -/

mutual

/-- A value on one line, after what is written already. -/
def compactAfter (written : String) : Json → String
  | bool value => written ++ boolText value
  | number value => written ++ toString value
  | text value => written ++ quoted value
  | list items => compactItemsAfter (written ++ "[") "" items ++ "]"
  | object fields => compactFieldsAfter (written ++ "\x7b") "" fields ++ "\x7d"

/-- The items of a list on one line. -/
def compactItemsAfter (written separator : String) : List Json → String
  | [] => written
  | item :: rest => compactItemsAfter (compactAfter (written ++ separator) item) "," rest

/-- The fields of an object on one line. -/
def compactFieldsAfter (written separator : String) : List (String × Json) → String
  | [] => written
  | (name, value) :: rest =>
    compactFieldsAfter (compactAfter (written ++ separator ++ quoted name ++ ":") value) "," rest

end

/-- A value on one line. -/
def compact (value : Json) : String := compactAfter "" value

/-! ## Indented -/

/-- The start of a line at a level. -/
def lineStart (level : Nat) : String := "\n" ++ String.ofList (List.replicate (2 * level) ' ')

mutual

/-- An indented value, after what is written already. -/
def prettyAfter (level : Nat) (written : String) : Json → String
  | bool value => written ++ boolText value
  | number value => written ++ toString value
  | text value => written ++ quoted value
  | list [] => written ++ "[]"
  | list (item :: rest) =>
    prettyItemsAfter (level + 1)
      (prettyAfter (level + 1) (written ++ "[" ++ lineStart (level + 1)) item) rest ++
      lineStart level ++ "]"
  | object [] => written ++ "\x7b\x7d"
  | object ((name, value) :: rest) =>
    prettyFieldsAfter (level + 1)
      (prettyAfter (level + 1)
        (written ++ "\x7b" ++ lineStart (level + 1) ++ quoted name ++ ": ") value) rest ++
      lineStart level ++ "\x7d"

def prettyItemsAfter (level : Nat) (written : String) : List Json → String
  | [] => written
  | item :: rest =>
    prettyItemsAfter level (prettyAfter level (written ++ "," ++ lineStart level) item) rest

def prettyFieldsAfter (level : Nat) (written : String) : List (String × Json) → String
  | [] => written
  | (name, value) :: rest =>
    prettyFieldsAfter level
      (prettyAfter level (written ++ "," ++ lineStart level ++ quoted name ++ ": ") value) rest

end

/-- An indented value. -/
def pretty (value : Json) : String := prettyAfter 0 "" value

end Json

end ModalHighlight
