import ModalHighlight.Html
import ModalHighlight.Json
import ModalHighlight.Stats
import ModalHighlight.Text.Padding

/-! # Reports

What the commands print about a highlighted text, as lines for readers and as
JSON for programs.
-/

namespace ModalHighlight.CommandLine.Report

/-! ## Lines -/

/-- Lines, each ended by a line feed. -/
def lines (texts : List String) : String := String.join (texts.map (· ++ "\n"))

def spanWidth : Nat := 12

def spanColumn (span : Span) : String := "  " ++ Text.alignRight spanWidth (toString span)

/-- A token: its span, its kind and its text. -/
def tokenLine (token : Token) : String :=
  spanColumn token.span ++ " " ++ token.kind.className ++ " " ++ Text.quoted token.text

/-- A scope: its span and its kind. -/
def scopeLine (scope : Scope) : String := spanColumn scope.span ++ " " ++ scope.kind.className

/-- The tokens as lines.  Plain tokens, and the scopes, are shown only if asked
for. -/
def tokens (verbose : Bool) (result : Highlighted) : String :=
  let shown := result.tokens.toList.filter fun token => verbose || !token.kind.isPlain
  lines <|
    [s!"Language: {result.language.name}", s!"Tokens: {result.tokens.size}"] ++
      shown.map tokenLine ++
      if verbose then
        ["", s!"Scopes: {result.scopes.length}"] ++ result.scopes.map scopeLine
      else []

/-- The figures of one kind, in columns. -/
def kindLine (row : KindStats) : String :=
  "  " ++ Text.alignLeft 12 (row.kind.className ++ ":") ++ " " ++
    Text.alignRight 7 (toString row.tokens) ++ " tokens " ++
    Text.alignRight 9 (toString row.bytes) ++ " bytes"

def stats (stats : Stats) : String :=
  lines <|
    ["Highlight Statistics", "--------------------", s!"Language:     {stats.language}",
      s!"Bytes:        {stats.bytes}", s!"Lines:        {stats.lines}", "",
      s!"Tokens:       {stats.tokens}"] ++
      stats.kinds.map kindLine ++
      ["", s!"Scopes:       {stats.scopes}", s!"Max nesting:  {stats.maxNesting}",
        s!"Diagnostics:  {stats.diagnostics}"]

def found (count : Nat) : String := s!"{count} diagnostic(s) found"

def diagnosticLine (diagnostic : Diagnostic) : String :=
  s!"  - [{diagnostic.kind.name}] {diagnostic}"

def warning (diagnostic : Diagnostic) : String := s!"warning: {diagnostic}"

/-! ## JSON -/

def spanFields (span : Span) : List (String × Json) :=
  [("start", .number span.start), ("end", .number span.stop)]

def tokenJson (token : Token) : Json :=
  .object <|
    ("kind", .text token.kind.className) :: spanFields token.span ++ [("text", .text token.text)]

def scopeJson (scope : Scope) : Json :=
  .object (("kind", .text scope.kind.className) :: spanFields scope.span)

def diagnosticJson (diagnostic : Diagnostic) : Json :=
  .object <|
    ("kind", .text diagnostic.kind.name) :: ("message", .text diagnostic.message) ::
      spanFields diagnostic.span

def resultJson (result : Highlighted) : Json :=
  .object
    [("language", .text result.language.id),
      ("tokens", .list (result.tokens.toList.map tokenJson)),
      ("scopes", .list (result.scopes.map scopeJson)),
      ("diagnostics", .list (result.diagnostics.map diagnosticJson))]

def kindJson (row : KindStats) : Json :=
  .object
    [("kind", .text row.kind.className), ("tokens", .number row.tokens),
      ("bytes", .number row.bytes)]

def statsJson (stats : Stats) : Json :=
  .object
    [("language", .text stats.language), ("bytes", .number stats.bytes),
      ("lines", .number stats.lines), ("tokens", .number stats.tokens),
      ("kinds", .list (stats.kinds.map kindJson)), ("scopes", .number stats.scopes),
      ("max_nesting", .number stats.maxNesting), ("diagnostics", .number stats.diagnostics)]

/-- A diagnostic with its fields in the order of their names. -/
def sortedDiagnosticJson (diagnostic : Diagnostic) : Json :=
  .object
    [("end", .number diagnostic.span.stop), ("kind", .text diagnostic.kind.name),
      ("message", .text diagnostic.message), ("start", .number diagnostic.span.start)]

/-- Diagnostics on one line. -/
def checkJson (diagnostics : List Diagnostic) : Json :=
  .object
    [("clean", .bool false), ("diagnostics", .list (diagnostics.map sortedDiagnosticJson))]

/-- The line for a text without diagnostics. -/
def cleanJson : String := "\x7b\"clean\": true, \"diagnostics\": []\x7d"

end ModalHighlight.CommandLine.Report
