import ModalHighlight.Matcher

/-! # Grammars

A grammar is a numbered list of lexical rules, one of which is its root.  Rules
refer to the rules allowed inside them by number, so a rule can be allowed
inside itself.  A grammar is built by adding rules first and nesting them
afterwards.
-/

namespace ModalHighlight

/-! ## Rules -/

/-- The number of a rule in its grammar. -/
structure RuleId where
  number : UInt16
  deriving DecidableEq, Repr

/-- The position of the rule in its grammar. -/
def RuleId.index (id : RuleId) : Nat := id.number.toNat

/-- The number of the rule at a position.  Numbers have sixteen bits. -/
def RuleId.ofIndex (index : Nat) : RuleId := ⟨index.toUInt16⟩

/-- How the text that opens a rule is classified. -/
inductive Head where
  /-- As the rule is. -/
  | rule
  /-- As a kind of its own. -/
  | kind (kind : Kind)
  /-- As a table has it, or as a kind of its own if the table has it not. -/
  | lookup (table : KeywordTable) (fallback : Kind)
  deriving DecidableEq, Repr

/-- A lexical rule.  A rule with a closing matcher opens a mode, in which the
rules that it contains apply until it closes.  One without is a leaf: its
match is all there is to it. -/
structure Rule where
  /-- The name that diagnostics call the rule by. -/
  name : String
  kind : Kind
  head : Head
  opening : Matcher
  closing : Option Matcher
  /-- The mode closes in front of the closing text, not after it. -/
  excludesClosing : Bool
  /-- What the mode must not contain. -/
  illegal : Option Matcher
  /-- How identifiers among the mode's own content are classified. -/
  keywords : Option KeywordTable
  /-- The rules tried inside the mode, those to be tried first in front. -/
  contains : List RuleId
  /-- The bytes at which unclaimed content is looked at again.  Where there
  are none, content is taken one character or one identifier at a time. -/
  stops : List UInt8
  deriving DecidableEq, Repr

namespace Rule

/-- A rule whose match is one piece of text. -/
def leaf (name : String) (kind : Kind) (opening : Matcher) : Rule :=
  ⟨name, kind, .rule, opening, none, false, none, none, [], []⟩

/-- A rule that opens a mode. -/
def mode (name : String) (kind : Kind) (opening closing : Matcher) : Rule :=
  { leaf name kind opening with closing := some closing }

def isMode (rule : Rule) : Bool := rule.closing.isSome

end Rule

/-! ## Grammars -/

/-- A numbered list of rules and the number of the root among them. -/
structure Grammar where
  rules : Array Rule
  root : RuleId
  deriving DecidableEq, Repr

namespace Grammar

def rule? (grammar : Grammar) (id : RuleId) : Option Rule := grammar.rules[id.index]?

/-- The rule of the text outside all modes.  A grammar whose root is not among
its rules leaves all text plain. -/
def rootRule (grammar : Grammar) : Rule :=
  (grammar.rule? grammar.root).getD (Rule.leaf "" .plain (.literal ""))

/-- The rules with their numbers, in order. -/
def numbered (grammar : Grammar) : List (RuleId × Rule) :=
  grammar.rules.toList.zipIdx.map fun (rule, index) => (RuleId.ofIndex index, rule)

/-- The number of the first rule with a name. -/
def find? (grammar : Grammar) (name : String) : Option RuleId :=
  (grammar.rules.findIdx? fun rule => rule.name == name).map RuleId.ofIndex

/-- The first of some rules that opens at a place, with how it does. -/
def firstMatch? (grammar : Grammar) (ids : List RuleId) (place : Cursor) : Option (Rule × Hit) :=
  ids.findSome? fun id =>
    match grammar.rule? id with
    | none => none
    | some rule => (rule.opening.matchAt? 0 place).map fun hit => (rule, hit)

/-! ## Building -/

/-- A grammar in the making. -/
structure Builder where
  rules : Array Rule
  deriving DecidableEq, Repr

namespace Builder

def empty : Builder := ⟨#[]⟩

/-- Adds a rule, which gets the next number.  Its keyword table is taken to be sorted.  The
assertion of debug builds that it is has no part here. -/
def add (builder : Builder) (rule : Rule) : Builder × RuleId :=
  (⟨builder.rules.push rule⟩, RuleId.ofIndex builder.rules.size)

/-- Sets the rules allowed inside a rule.  Those set before are allowed no longer. -/
def nest (builder : Builder) (parent : RuleId) (children : List RuleId) : Builder :=
  ⟨builder.rules.modify parent.index fun rule => { rule with contains := children }⟩

def addAll (builder : Builder) (rules : List Rule) : Builder :=
  rules.foldl (fun builder rule => (builder.add rule).1) builder

def nestAll (builder : Builder) (nesting : List (RuleId × List RuleId)) : Builder :=
  nesting.foldl (fun builder entry => builder.nest entry.1 entry.2) builder

/-- The grammar with one of its rules as the root. -/
def build (builder : Builder) (root : RuleId) : Grammar := ⟨builder.rules, root⟩

end Builder

end Grammar

end ModalHighlight
