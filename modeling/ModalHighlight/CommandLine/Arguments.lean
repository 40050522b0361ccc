import ModalHighlight.Highlighter
import ModalHighlight.Text.Numeral

/-! # Arguments

A list of arguments is read as groups, from left to right: an option together
with its value is one group, and every other argument is a group of its own.
The groups are then taken in order.  The first that asks for help, asks for
the version or is at fault ends the reading; where several set the same
choice, the last counts.
-/

namespace ModalHighlight.CommandLine

/-- What to do with a highlighted text. -/
inductive Command where
  | tokens
  | check
  | stats
  | html
  deriving DecidableEq, Repr

/-- Where a text comes from. -/
inductive Source where
  | standardInput
  | file (name : String)
  deriving DecidableEq, Repr

/-- What a list of arguments asks for. -/
structure Config where
  command : Command
  source : Source
  language : Option String
  maxDepth : Nat
  json : Bool
  verbose : Bool
  deriving DecidableEq, Repr

/-- What is wrong with a list of arguments. -/
inductive ArgumentError where
  | missingLanguage
  | missingMaxDepth
  | invalidMaxDepth (value : String) (cause : Text.NumeralError)
  | severalFiles
  | unknownOption (option : String)
  | noFile
  deriving DecidableEq, Repr

def ArgumentError.message : ArgumentError → String
  | missingLanguage => "--lang requires a language name"
  | missingMaxDepth => "--max-depth requires a number"
  | invalidMaxDepth value cause => s!"invalid --max-depth: {value}: {cause.message}"
  | severalFiles => "multiple files specified"
  | unknownOption option => s!"unknown option: {option}"
  | noFile => "no input file specified (use - for stdin)"

/-- Why a list of arguments yields no configuration. -/
inductive Halt where
  | help
  | version
  | error (cause : ArgumentError)
  deriving DecidableEq, Repr

/-! ## Groups -/

/-- An argument, or an option with its value.  An option at the end of the list
has none. -/
inductive Group where
  | help
  | version
  | verbose
  | json
  | language (value : Option String)
  | maxDepth (value : Option String)
  | command (command : Command)
  | source (source : Source)
  | unknown (option : String)
  deriving DecidableEq, Repr

/-- How an argument begins a group. -/
inductive Opening where
  /-- It is the whole group. -/
  | alone (group : Group)
  /-- The next argument, whatever it is, is its value. -/
  | withValue (group : Option String → Group)

/-- How an argument begins a group. -/
def Opening.ofArgument (argument : String) : Opening :=
  match argument with
  | "-h" => .alone .help
  | "--help" => .alone .help
  | "-V" => .alone .version
  | "--version" => .alone .version
  | "-v" => .alone .verbose
  | "--verbose" => .alone .verbose
  | "-j" => .alone .json
  | "--json" => .alone .json
  | "-l" => .withValue .language
  | "--lang" => .withValue .language
  | "-d" => .withValue .maxDepth
  | "--max-depth" => .withValue .maxDepth
  | "tokens" => .alone (.command .tokens)
  | "check" => .alone (.command .check)
  | "stats" => .alone (.command .stats)
  | "html" => .alone (.command .html)
  | "-" => .alone (.source .standardInput)
  | other =>
    if other.toList.head? = some '-' then .alone (.unknown other)
    else .alone (.source (.file other))

/-- The groups of a list of arguments. -/
def Group.ofArguments : List String → List Group
  | [] => []
  | argument :: rest =>
    match Opening.ofArgument argument with
    | .alone group => group :: ofArguments rest
    | .withValue group =>
      match rest with
      | [] => [group none]
      | value :: rest => group (some value) :: ofArguments rest

/-! ## Configurations -/

/-- The choices made by the groups so far. -/
structure Draft where
  command : Command
  source : Option Source
  language : Option String
  maxDepth : Nat
  json : Bool
  verbose : Bool
  deriving DecidableEq, Repr

namespace Draft

def initial : Draft := ⟨.tokens, none, none, defaultMaxDepth, false, false⟩

def take (draft : Draft) : Group → Except Halt Draft
  | .help => .error .help
  | .version => .error .version
  | .verbose => .ok { draft with verbose := true }
  | .json => .ok { draft with json := true }
  | .language none => .error (.error .missingLanguage)
  | .language (some name) => .ok { draft with language := some name }
  | .maxDepth none => .error (.error .missingMaxDepth)
  | .maxDepth (some value) =>
    match Text.readNumeral greatestMaxDepth value with
    | .ok maxDepth => .ok { draft with maxDepth := maxDepth }
    | .error cause => .error (.error (.invalidMaxDepth value cause))
  | .command command => .ok { draft with command := command }
  | .unknown option => .error (.error (.unknownOption option))
  | .source source =>
    match draft.source with
    | none => .ok { draft with source := some source }
    | some _ => .error (.error .severalFiles)

/-- Takes groups in order, up to the first that ends the reading. -/
def takeAll : Draft → List Group → Except Halt Draft
  | draft, [] => .ok draft
  | draft, group :: rest =>
    match draft.take group with
    | .error halt => .error halt
    | .ok draft => draft.takeAll rest

/-- The configuration of all choices, which needs a text to work on. -/
def config (draft : Draft) : Except Halt Config :=
  match draft.source with
  | none => .error (.error .noFile)
  | some source =>
    .ok ⟨draft.command, source, draft.language, draft.maxDepth, draft.json, draft.verbose⟩

end Draft

/-- The configuration that groups ask for. -/
def Config.ofGroups (groups : List Group) : Except Halt Config :=
  match Draft.initial.takeAll groups with
  | .error halt => .error halt
  | .ok draft => draft.config

/-- The configuration that arguments ask for. -/
def Config.ofArguments (arguments : List String) : Except Halt Config :=
  Config.ofGroups (Group.ofArguments arguments)

end ModalHighlight.CommandLine
