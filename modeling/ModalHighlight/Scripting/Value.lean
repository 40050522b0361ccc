import ModalHighlight.Highlighter

/-! # Values of a scripting host

A host passes values of its own as arguments.  An argument that is not of the
type a call expects is an error that names the argument and the type found;
numbers must also fit the range they are read into.
-/

namespace ModalHighlight.Scripting

/-- A value of the host, as far as calls look into it. -/
inductive Value where
  | none
  | bool (value : Bool)
  | int (value : Int)
  | float
  | text (value : String)
  | list
  | dict
  deriving DecidableEq, Repr

/-- The host's name for the type of a value. -/
def Value.typeName : Value → String
  | none => "NoneType"
  | bool _ => "bool"
  | int _ => "int"
  | float => "float"
  | text _ => "str"
  | list => "list"
  | dict => "dict"

/-- Why a call failed. -/
inductive CallError where
  | notText (argument : String) (found : Value)
  | notBool (argument : String) (found : Value)
  | notInteger (argument : String) (found : Value)
  /-- A number that counts something is negative. -/
  | negative
  /-- A number has more than 64 bits. -/
  | tooLarge
  /-- No language is called by a name. -/
  | unknownLanguage (name : String)
  deriving DecidableEq, Repr

namespace CallError

/-- The host's class for the error. -/
def className : CallError → String
  | notText .. => "TypeError"
  | notBool .. => "TypeError"
  | notInteger .. => "TypeError"
  | negative => "OverflowError"
  | tooLarge => "OverflowError"
  | unknownLanguage _ => "ValueError"

def message : CallError → String
  | notText argument found =>
    s!"argument '{argument}': '{found.typeName}' object cannot be converted to 'PyString'"
  | notBool argument found =>
    s!"argument '{argument}': '{found.typeName}' object cannot be converted to 'PyBool'"
  | notInteger argument found =>
    s!"argument '{argument}': '{found.typeName}' object cannot be interpreted as an integer"
  | negative => "can't convert negative int to unsigned"
  | tooLarge => "int too big to convert"
  | unknownLanguage name => s!"unknown language: {name}"

end CallError

/-! ## Arguments -/

def textArgument (argument : String) : Value → Except CallError String
  | .text value => .ok value
  | found => .error (.notText argument found)

def boolArgument (argument : String) : Value → Except CallError Bool
  | .bool value => .ok value
  | found => .error (.notBool argument found)

/-- A limit on open modes.  Truth values count as zero and one. -/
def maxDepthArgument (argument : String) : Value → Except CallError Nat
  | .bool value => .ok value.toNat
  | .int value =>
    if value < 0 then .error .negative
    else if greatestMaxDepth < value.toNat then .error .tooLarge
    else .ok value.toNat
  | found => .error (.notInteger argument found)

/-- An argument that may be left out. -/
def optionalArgument {α : Type} (read : Value → Except CallError α) (otherwise : α) :
    Option Value → Except CallError α
  | none => .ok otherwise
  | some value => read value

end ModalHighlight.Scripting
