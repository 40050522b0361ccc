/-! # Kinds of text

Every piece of a highlighted text has one of sixteen kinds.  A kind has a class
name, which style sheets refer to, and a constant name, which programs refer
to.  The order of the constructors is the order in which kinds are listed.
-/

namespace ModalHighlight

/-- The classification of a piece of text. -/
inductive Kind where
  /-- Text that no rule claims. -/
  | plain
  /-- A reserved word. -/
  | keyword
  /-- A literal constant, such as `true` or `MAX_SIZE`. -/
  | literal
  /-- The name of a built-in type. -/
  | builtIn
  /-- A capitalized identifier. -/
  | type
  /-- An operator or arrow. -/
  | operator
  /-- A numeric literal. -/
  | number
  /-- A string or character literal. -/
  | string
  /-- A substitution in an interpolated string. -/
  | subst
  /-- A line or block comment. -/
  | comment
  /-- A symbol literal, such as `'name`. -/
  | symbol
  /-- A function header, or the name of a called function. -/
  | function
  /-- The name that a header declares. -/
  | title
  /-- The header of a type declaration. -/
  | classHeader
  /-- The text of a mode that was abandoned. -/
  | error
  /-- Text that looks like markup. -/
  | illegal
  deriving DecidableEq, Repr

namespace Kind

def all : List Kind :=
  [plain, keyword, literal, builtIn, type, operator, number, string, subst, comment, symbol,
    function, title, classHeader, error, illegal]

/-- The name that style sheets know the kind by. -/
def className : Kind → String
  | plain => "plain"
  | keyword => "keyword"
  | literal => "literal"
  | builtIn => "built_in"
  | type => "type"
  | operator => "operator"
  | number => "number"
  | string => "string"
  | subst => "subst"
  | comment => "comment"
  | symbol => "symbol"
  | function => "function"
  | title => "title"
  | classHeader => "class"
  | error => "error"
  | illegal => "illegal"

/-- The name that programs know the kind by. -/
def constantName : Kind → String
  | plain => "Plain"
  | keyword => "Keyword"
  | literal => "Literal"
  | builtIn => "BuiltIn"
  | type => "Type"
  | operator => "Operator"
  | number => "Number"
  | string => "String"
  | subst => "Subst"
  | comment => "Comment"
  | symbol => "Symbol"
  | function => "Function"
  | title => "Title"
  | classHeader => "ClassHeader"
  | error => "Error"
  | illegal => "Illegal"

instance : ToString Kind := ⟨className⟩

/-- The position of a kind in the list of all kinds. -/
def rank (kind : Kind) : Nat := all.idxOf kind

/-- Whether a renderer leaves text of this kind unstyled. -/
def isPlain : Kind → Bool
  | plain => true
  | _ => false

/-- Kinds in the order of the list of all kinds. -/
def sort (kinds : List Kind) : List Kind := kinds.mergeSort fun a b => a.rank ≤ b.rank

def ofClassName? (name : String) : Option Kind := all.find? fun kind => kind.className == name

def ofConstantName? (name : String) : Option Kind := all.find? fun kind => kind.constantName == name

@[simp] theorem isPlain_iff {kind : Kind} : kind.isPlain = true ↔ kind = plain := by
  cases kind <;> decide

@[simp] theorem isPlain_eq_false_iff {kind : Kind} : kind.isPlain = false ↔ kind ≠ plain := by
  cases kind <;> decide

theorem mem_all (kind : Kind) : kind ∈ all := by cases kind <;> decide

theorem ofClassName?_className (kind : Kind) : ofClassName? kind.className = some kind := by
  cases kind <;> decide

theorem ofConstantName?_constantName (kind : Kind) :
    ofConstantName? kind.constantName = some kind := by
  cases kind <;> decide

end Kind

end ModalHighlight
