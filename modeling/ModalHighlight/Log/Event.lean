import ModalHighlight.Highlighter

/-! # Log events

What happens while a text is highlighted can be logged.  An event comes from a
source, has a level, and consists of a message and named particulars, which
together make up its line in the log.
-/

namespace ModalHighlight.Log

/-- How severe an event is, the most severe first. -/
inductive Level where
  | error
  | warn
  | info
  | debug
  | trace
  deriving DecidableEq, Repr

namespace Level

def all : List Level := [error, warn, info, debug, trace]

/-- The name of a level in filters. -/
def name : Level → String
  | error => "error"
  | warn => "warn"
  | info => "info"
  | debug => "debug"
  | trace => "trace"

/-- The position of a level, from one on. -/
def rank (level : Level) : Nat := all.idxOf level + 1

end Level

/-- Something worth a line in the log. -/
inductive Event where
  | registering (language : Language)
  | highlighting (language : Language) (bytes : Nat)
  | problem (problem : Problem)
  | highlighted (bytes : Nat) (result : Highlighted)

namespace Event

/-- Where an event comes from: the program, or the part of the highlighting
library that looks up languages or scans texts. -/
def source : Event → String
  | registering _ => "flint_highlight_core::registry"
  | highlighting .. => "fhl"
  | problem _ => "flint_highlight_core::highlighter"
  | highlighted .. => "flint_highlight_core::highlighter"

def level : Event → Level
  | highlighted .. => .trace
  | _ => .debug

def message : Event → String
  | registering _ => "registering language"
  | highlighting .. => "highlighting"
  | problem (.suspectMarkup _) => "markup-like sequence in source"
  | problem (.malformed ..) => "abandoned malformed mode"
  | problem (.nestingLimit ..) => "nesting limit reached"
  | problem (.unterminated ..) => "unterminated mode closed at end of input"
  | highlighted .. => "highlighted"

/-- The particulars of an event, each with its name. -/
def particulars : Event → List (String × String)
  | registering language =>
    [("language", Text.quoted language.id), ("aliases", Text.quotedList language.aliases)]
  | highlighting language bytes =>
    [("language", Text.quoted language.id), ("bytes", toString bytes)]
  | problem (.suspectMarkup span) => [("span", toString span)]
  | problem (.malformed rule span) => [("mode", Text.quoted rule), ("span", toString span)]
  | problem (.nestingLimit maxDepth span) =>
    [("max_depth", toString maxDepth), ("span", toString span)]
  | problem (.unterminated rule span) => [("mode", Text.quoted rule), ("span", toString span)]
  | highlighted bytes result =>
    [("language", Text.quoted result.language.id), ("bytes", toString bytes),
      ("tokens", toString result.tokens.size), ("scopes", toString result.scopes.length),
      ("diagnostics", toString result.problems.length)]

/-- The names under which an event holds its message and its particulars. -/
def fields (event : Event) : List String := "message" :: event.particulars.map Prod.fst

/-- The line of an event, without its line feed. -/
def line (event : Event) : String :=
  String.intercalate " " <|
    event.level.name.toUpper :: event.message ::
      event.particulars.map fun (name, value) => name ++ "=" ++ value

end Event

end ModalHighlight.Log
