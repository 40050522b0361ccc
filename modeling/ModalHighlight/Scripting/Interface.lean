import ModalHighlight.Scripting.Value

/-! # The interface for scripting hosts

What a host can call, and how the objects that it gets present themselves.
Arguments are read in the order in which a call declares them, before anything
is done with them; the first that is at fault decides the error.
-/

namespace ModalHighlight.Scripting

/-! ## Calls -/

/-- The language that a host asks for by name. -/
def findLanguage (name : String) : Except CallError Language :=
  match Language.named? name with
  | some language => .ok language
  | none => .error (.unknownLanguage name)

/-- A highlighter with the given options.  Those left out are the usual ones. -/
def makeHighlighter (language maxDepth flagMarkup : Option Value) :
    Except CallError Highlighter := do
  let name ← optionalArgument (textArgument "language") Language.flint.id language
  let maxDepth ← optionalArgument (maxDepthArgument "max_depth") defaultMaxDepth maxDepth
  let flagMarkup ← optionalArgument (boolArgument "flag_markup") true flagMarkup
  let language ← findLanguage name
  return ((Highlighter.ofLanguage language).withMaxDepth maxDepth).withFlagMarkup flagMarkup

def highlightWith (highlighter : Highlighter) (input : Value) : Except CallError Highlighted := do
  return highlighter.highlight (← textArgument "input" input)

/-- Highlights a text in a language, with the usual options. -/
def highlightAs (input : Value) (language : Option Value) : Except CallError Highlighted := do
  let text ← textArgument "input" input
  let name ← optionalArgument (textArgument "language") Language.flint.id language
  return (Highlighter.ofLanguage (← findLanguage name)).highlight text

/-! ## How objects present themselves -/

/-- A truth value in a presentation. -/
def boolText (value : Bool) : String := if value then "true" else "false"

def showHighlighter (highlighter : Highlighter) : String :=
  s!"Highlighter(language={Text.quoted highlighter.language.id}, " ++
    s!"max_depth={highlighter.options.maxDepth}, " ++
    s!"flag_markup={boolText highlighter.options.flagMarkup})"

def showHighlighted (result : Highlighted) : String :=
  s!"HighlightResult(language={Text.quoted result.language.id}, " ++
    s!"tokens={result.tokens.size}, scopes={result.scopes.length}, " ++
    s!"diagnostics={result.problems.length})"

def showSpan (span : Span) : String := s!"Span({span.start}, {span.stop})"

def showToken (token : Token) : String :=
  s!"Token({token.kind.constantName}, {Text.quoted token.text})"

def showScope (scope : Scope) : String := s!"Scope({scope.kind.constantName}, {scope.span})"

def showDiagnostic (diagnostic : Diagnostic) : String :=
  s!"Diagnostic({Text.quoted diagnostic.message}, {diagnostic.kind.constantName})"

/-! ## Constants -/

/-- A constant that a host can compare: the name of its class, its own name and
its number. -/
structure Constant where
  className : String
  name : String
  number : Nat
  deriving DecidableEq, Repr

namespace Constant

def ofKind (kind : Kind) : Constant := ⟨"TokenKind", kind.constantName, kind.rank⟩

def ofDiagnosticKind (kind : DiagnosticKind) : Constant :=
  ⟨"DiagnosticKind", kind.constantName, kind.rank⟩

/-- The constant with a class and a name. -/
def named? (className name : String) : Option Constant :=
  (Kind.all.map ofKind ++ DiagnosticKind.all.map ofDiagnosticKind).find? fun constant =>
    constant.className == className && constant.name == name

/-- A constant is equal to itself and to its number, and to nothing else. -/
def equals (constant : Constant) : Value → Bool
  | .int value => value == constant.number
  | .bool value => value.toNat == constant.number
  | _ => false

def present (constant : Constant) : String := constant.className ++ "." ++ constant.name

end Constant

end ModalHighlight.Scripting
