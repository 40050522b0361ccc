import ModalHighlight.Span

/-! # Problems and diagnostics

Highlighting never fails.  What goes wrong is mended on the spot and recorded
as a problem, which names its cause and the span it concerns.  A diagnostic is
the form in which a problem is reported: a kind, a message and the span.
-/

namespace ModalHighlight

/-- The category of a diagnostic. -/
inductive DiagnosticKind where
  /-- A mode met what it must not contain and was abandoned. -/
  | malformedMode
  /-- The text ended before a mode was closed. -/
  | unterminated
  /-- Modes were nested too deeply, and all of them were closed. -/
  | nestingLimit
  /-- `</` stands outside strings and comments. -/
  | suspectMarkup
  deriving DecidableEq, Repr

namespace DiagnosticKind

def all : List DiagnosticKind := [malformedMode, unterminated, nestingLimit, suspectMarkup]

/-- The name that reports use. -/
def name : DiagnosticKind → String
  | malformedMode => "malformed_mode"
  | unterminated => "unterminated"
  | nestingLimit => "nesting_limit"
  | suspectMarkup => "suspect_markup"

/-- The name that programs know the kind by. -/
def constantName : DiagnosticKind → String
  | malformedMode => "MalformedMode"
  | unterminated => "Unterminated"
  | nestingLimit => "NestingLimit"
  | suspectMarkup => "SuspectMarkup"

/-- The position of a kind in the list of all kinds. -/
def rank (kind : DiagnosticKind) : Nat := all.idxOf kind

def named? (name : String) : Option DiagnosticKind := all.find? fun kind => kind.name == name

def ofConstantName? (name : String) : Option DiagnosticKind :=
  all.find? fun kind => kind.constantName == name

end DiagnosticKind

/-! ## Diagnostics -/

/-- A report of something that went wrong. -/
structure Diagnostic where
  kind : DiagnosticKind
  message : String
  span : Span
  deriving DecidableEq, Repr

namespace Diagnostic

/-- A mode was abandoned. -/
def malformed (rule : String) (span : Span) : Diagnostic :=
  ⟨.malformedMode, "malformed " ++ rule, span⟩

/-- A mode was still open at the end of the text. -/
def unterminated (rule : String) (span : Span) : Diagnostic :=
  ⟨.unterminated, "unterminated " ++ rule, span⟩

/-- More modes would have been open than are allowed. -/
def nestingLimit (maxDepth : Nat) (span : Span) : Diagnostic :=
  ⟨.nestingLimit, s!"nesting deeper than {maxDepth} modes", span⟩

/-- Text looks like markup. -/
def suspectMarkup (span : Span) : Diagnostic :=
  ⟨.suspectMarkup, "markup-like `</` outside string or comment", span⟩

instance : ToString Diagnostic where
  toString diagnostic := s!"{diagnostic.message} at bytes {diagnostic.span}"

/-- The diagnostics of one kind are counted. -/
def count (kind : DiagnosticKind) (diagnostics : List Diagnostic) : Nat :=
  diagnostics.countP fun diagnostic => diagnostic.kind == kind

/-- One of the diagnostics is of a kind. -/
def reported (kind : DiagnosticKind) (diagnostics : List Diagnostic) : Bool :=
  diagnostics.any fun diagnostic => diagnostic.kind == kind

end Diagnostic

/-! ## Problems -/

/-- Something that went wrong while a text was scanned. -/
inductive Problem where
  | malformed (rule : String) (span : Span)
  | unterminated (rule : String) (span : Span)
  | nestingLimit (maxDepth : Nat) (span : Span)
  | suspectMarkup (span : Span)
  deriving DecidableEq, Repr

/-- The diagnostic that reports a problem. -/
def Problem.diagnostic : Problem → Diagnostic
  | malformed rule span => .malformed rule span
  | unterminated rule span => .unterminated rule span
  | nestingLimit maxDepth span => .nestingLimit maxDepth span
  | suspectMarkup span => .suspectMarkup span

end ModalHighlight
