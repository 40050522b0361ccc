import ModalHighlight.Language
import ModalHighlight.Scan.Numbering
import ModalHighlight.Token

/-! # Highlighters

A highlighter is a language with options.  Its result holds the outline of the
text and the flat views that hosts ask for: tokens that cover the text, scopes
in the order in which they open, and diagnostics in the order in which they
were met.  The tokens are made along with the scan.
-/

namespace ModalHighlight

/-- The limit on open modes unless another is chosen. -/
def defaultMaxDepth : Nat := 64

/-- The least limit on open modes: the ground mode and one more. -/
def leastMaxDepth : Nat := 2

/-- The greatest limit on open modes that can be asked for.  Limits have 64 bits. -/
def greatestMaxDepth : Nat := 0xffffffffffffffff

/-- The options unless others are chosen. -/
def Scan.Options.default : Scan.Options := ⟨defaultMaxDepth, true⟩

/-- What highlighting a text results in. -/
structure Highlighted where
  language : Language
  outline : Outline
  tokens : Array Token
  scopes : List Scope
  problems : List Problem

namespace Highlighted

/-- The problems as they are reported. -/
def diagnostics (result : Highlighted) : List Diagnostic :=
  result.problems.map Problem.diagnostic

def isClean (result : Highlighted) : Bool := result.problems.isEmpty

def tokenAt? (result : Highlighted) (offset : Nat) : Option Token :=
  Token.covering? result.tokens offset

def tokensOf (result : Highlighted) (kind : Kind) : List Token :=
  result.tokens.toList.filter fun token => token.kind == kind

/-- The texts of the tokens, put together. -/
def reconstruct (result : Highlighted) : String :=
  String.join (result.tokens.toList.map Token.text)

end Highlighted

/-- A language and options that let a scan make progress. -/
structure Highlighter where
  language : Language
  options : Scan.Options
  leastMaxDepth_le : leastMaxDepth ≤ options.maxDepth := by decide

namespace Highlighter

/-- A highlighter with the options unless others are chosen. -/
def ofLanguage (language : Language) : Highlighter where
  language := language
  options := .default

def default : Highlighter := ofLanguage .flint

instance : Inhabited Highlighter := ⟨default⟩

/-- The highlighter for the language that is called by a name. -/
def named? (name : String) : Option Highlighter := (Language.named? name).map ofLanguage

/-- The same highlighter with other options.  A limit on open modes that is too
low is raised to the least one. -/
def withOptions (highlighter : Highlighter) (options : Scan.Options) : Highlighter where
  language := highlighter.language
  options := { options with maxDepth := max options.maxDepth leastMaxDepth }
  leastMaxDepth_le := Nat.le_max_right _ _

def withMaxDepth (highlighter : Highlighter) (maxDepth : Nat) : Highlighter :=
  highlighter.withOptions { highlighter.options with maxDepth }

/-- The same highlighter, flagging what looks like markup or not. -/
def withFlagMarkup (highlighter : Highlighter) (flagMarkup : Bool) : Highlighter :=
  { highlighter with
    options := { highlighter.options with flagMarkup }
    leastMaxDepth_le := highlighter.leastMaxDepth_le }

def highlight (highlighter : Highlighter) (text : String) : Highlighted :=
  let grammar := highlighter.language.grammar
  let found := Scan.run grammar highlighter.options (Text.bytes text)
  let pieces := Scan.Numbering.run grammar highlighter.options (Text.bytes text)
  { language := highlighter.language
    outline := found.outline
    tokens := (pieces.map (Token.ofPiece text)).toArray
    scopes := found.outline.scopes
    problems := found.problems }

end Highlighter

def highlight (text : String) : Highlighted := Highlighter.default.highlight text

end ModalHighlight
