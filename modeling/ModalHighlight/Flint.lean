import ModalHighlight.Grammar

/-! # The Flint language

The reserved words and the lexical rules of Flint.  The order of the rules
inside a mode is the order in which they are tried: constants come before type
names and the arrow before the operators, which would match as well, and
headers come before calls.
-/

namespace ModalHighlight.Flint

/-! ## Reserved words -/

def builtInTypes : Array String :=
  #["anyerror", "bool", "bool8", "bp", "const", "f32", "f32x2", "f32x3", "f32x4", "f64", "f64x2",
    "f64x3", "f64x4", "float", "fn", "i16", "i32", "i32x2", "i32x3", "i32x4", "i32x8", "i64",
    "i64x2", "i64x3", "i64x4", "i8", "int", "mut", "opaque", "str", "u16", "u32", "u64", "u8",
    "u8x2", "u8x3", "u8x4", "u8x8", "void"]

def keywords : KeywordTable where
  keyword :=
    #["as", "async", "break", "catch", "continue", "data", "def", "do", "else", "entity", "enum",
      "error", "extends", "extern", "for", "func", "hook", "if", "in", "link", "requires",
      "return", "spawn", "sync", "throw", "type", "use", "variant", "while"]
  literal := #["false", "none", "null", "true"]
  builtIn := builtInTypes

/-- The built-in types alone, for the heads of qualified paths. -/
def builtInsOnly : KeywordTable := ⟨#[], #[], builtInTypes⟩

/-- The words that begin the header of a type declaration. -/
def typeHeaderWords : List String := ["data", "func", "entity", "variant", "enum", "error"]

/-! ## Rules -/

/-- The text outside all modes. -/
def source : Rule :=
  { Rule.leaf "source" .plain (.literal "") with
    illegal := some (.literal "</"), keywords := some keywords }

def lineComment : Rule := Rule.leaf "line comment" .comment .lineComment

/-- A comment that may contain others of its kind. -/
def blockComment : Rule :=
  { Rule.mode "block comment" .comment (.literal "/*") (.literal "*/") with
    stops := Text.bytes "*/" }

def escape : Rule := Rule.leaf "escape" .string .escape

def quoted : Rule :=
  { Rule.mode "string" .string .quoteOpen (.literal "\"") with stops := Text.bytes "\"\\" }

def rawString : Rule :=
  { Rule.mode "raw string" .string .rawOpen .rawClose with stops := Text.bytes "\"" }

def charLiteral : Rule := Rule.leaf "character literal" .string .charLiteral

/-- A string in which braces hold code. -/
def interpolated : Rule :=
  { Rule.mode "interpolated string" .string (.literal "$\"") (.literal "\"") with
    stops := Text.bytes "\"\\\x7b" }

/-- The code between braces, in which braces nest. -/
def substitution : Rule := Rule.mode "substitution" .subst (.literal "\x7b") (.literal "\x7d")

def symbol : Rule := Rule.leaf "symbol" .symbol .symbol

def constant : Rule := Rule.leaf "constant" .literal .screamingCase

def typeName : Rule := Rule.leaf "type name" .type .capitalized

def arrow : Rule := Rule.leaf "arrow" .operator (.literal "->")

def operator : Rule := Rule.leaf "operator" .operator .operator

def number : Rule := Rule.leaf "number" .number .number

def title : Rule := Rule.leaf "title" .title .identifier

/-- `def` and what follows it, up to the parameters. -/
def functionHeader : Rule :=
  { Rule.mode "function header" .function (.keywordThenSpace ["def"])
      (.anyOf (Text.bytes "(<")) with
    head := .kind .keyword, excludesClosing := true }

/-- A word such as `data` and the name after it, up to and including a colon. -/
def typeHeader : Rule :=
  { Rule.mode "type header" .classHeader (.keywordThenSpace typeHeaderWords) (.literal ":") with
    head := .kind .keyword, illegal := some (.stray (Text.bytes " \t\r\n\x0c:")) }

def qualifiedPath : Rule :=
  { Rule.leaf "qualified path" .operator .qualifiedPath with head := .lookup builtInsOnly .plain }

def call : Rule := Rule.leaf "call" .function (.call keywords)

/-! ## The grammar -/

namespace Id

def source : RuleId := .ofIndex 0
def lineComment : RuleId := .ofIndex 1
def blockComment : RuleId := .ofIndex 2
def escape : RuleId := .ofIndex 3
def quoted : RuleId := .ofIndex 4
def rawString : RuleId := .ofIndex 5
def charLiteral : RuleId := .ofIndex 6
def interpolated : RuleId := .ofIndex 7
def substitution : RuleId := .ofIndex 8
def symbol : RuleId := .ofIndex 9
def constant : RuleId := .ofIndex 10
def typeName : RuleId := .ofIndex 11
def arrow : RuleId := .ofIndex 12
def operator : RuleId := .ofIndex 13
def number : RuleId := .ofIndex 14
def title : RuleId := .ofIndex 15
def functionHeader : RuleId := .ofIndex 16
def typeHeader : RuleId := .ofIndex 17
def qualifiedPath : RuleId := .ofIndex 18
def call : RuleId := .ofIndex 19

end Id

/-- The rules, in the order of their numbers. -/
def rules : List Rule :=
  [source, lineComment, blockComment, escape, quoted, rawString, charLiteral, interpolated,
    substitution, symbol, constant, typeName, arrow, operator, number, title, functionHeader,
    typeHeader, qualifiedPath, call]

/-- What code consists of, in root text and in substitutions alike. -/
def code : List RuleId :=
  [Id.lineComment, Id.blockComment, Id.quoted, Id.rawString, Id.charLiteral, Id.interpolated,
    Id.symbol, Id.constant, Id.typeName, Id.arrow, Id.operator, Id.number, Id.functionHeader,
    Id.typeHeader, Id.qualifiedPath, Id.call]

/-- The rules allowed inside each rule. -/
def nesting : List (RuleId × List RuleId) :=
  [(Id.source, code), (Id.blockComment, [Id.blockComment]), (Id.quoted, [Id.escape]),
    (Id.interpolated, [Id.escape, Id.substitution]),
    (Id.substitution, Id.substitution :: code), (Id.functionHeader, [Id.title]),
    (Id.typeHeader, [Id.title])]

def grammar : Grammar :=
  ((Grammar.Builder.empty.addAll rules).nestAll nesting).build Id.source

/-! ## Facts -/

theorem keywords_sorted : keywords.Sorted := by decide +kernel

theorem builtInsOnly_sorted : builtInsOnly.Sorted := by decide +kernel

theorem rootRule_grammar : grammar.rootRule = { source with contains := code } := by
  decide +kernel

end ModalHighlight.Flint
