import ModalHighlight.CommandLine.FileName
import ModalHighlight.CommandLine.Input
import ModalHighlight.CommandLine.Report
import ModalHighlight.Log.Filter

/-! # Runs of the program

A run reads the arguments, then the text, then finds the language, and only
then highlights; the first of these that fails decides the error.  What a run
leaves behind is an exit code and what it has written, with log lines told
apart from the program's own.
-/

namespace ModalHighlight.CommandLine

def version : String := "fhl 0.1.0"

def help : String := Report.lines
  ["fhl - Flint syntax highlighting tokenizer",
    "",
    "USAGE:",
    "    fhl [OPTIONS] [COMMAND] <FILE|->",
    "",
    "COMMANDS:",
    "    tokens      Print the token stream (default)",
    "    check       Report diagnostics; exit status 1 when any are found",
    "    stats       Show per-kind token statistics",
    "    html        Render <span class=\"hljs-KIND\"> markup",
    "",
    "OPTIONS:",
    "    -l, --lang <NAME>       Language id or alias (default: from extension, else flint)",
    "    -d, --max-depth <N>     Maximum mode nesting depth (default: 64, minimum: 2)",
    "    -v, --verbose           Include plain tokens and scopes; debug logging",
    "    -j, --json              Output in JSON format",
    "    -h, --help              Print help information",
    "    -V, --version           Print version information",
    "",
    "ENVIRONMENT:",
    "    RUST_LOG                Log filter, e.g. RUST_LOG=flint_highlight_core=trace",
    "",
    "EXAMPLES:",
    "    fhl main.ft                 Print highlighted tokens",
    "    fhl -j main.ft              Output tokens as JSON",
    "    fhl check main.ft           Report malformed or unterminated constructs",
    "    cat main.ft | fhl html -    Render HTML from stdin"]

/-- A line on the error stream. -/
inductive Notice where
  | log (line : String)
  | own (line : String)
  deriving DecidableEq, Repr

namespace Notice

/-- The line, ended by a line feed. -/
def text : Notice → String
  | log line => line ++ "\n"
  | own line => line ++ "\n"

def isOwn : Notice → Bool
  | log _ => false
  | own _ => true

end Notice

/-- What a run leaves behind. -/
structure Outcome where
  exitCode : Nat
  output : String
  notices : List Notice
  deriving DecidableEq, Repr

namespace Outcome

/-- The error stream as it was written. -/
def errorText (outcome : Outcome) : String := String.join (outcome.notices.map Notice.text)

/-- The error stream without the log. -/
def ownErrorText (outcome : Outcome) : String :=
  String.join ((outcome.notices.filter Notice.isOwn).map Notice.text)

/-- The outcome after further notices were written first. -/
def after (outcome : Outcome) (notices : List Notice) : Outcome :=
  { outcome with notices := notices ++ outcome.notices }

def failure (message : String) : Outcome := ⟨1, "", [.own ("error: " ++ message)]⟩

def success (output : String) : Outcome := ⟨0, output, []⟩

def ofHalt : Halt → Outcome
  | .help => ⟨0, "", [.own help]⟩
  | .version => success (version ++ "\n")
  | .error cause => failure cause.message

end Outcome

/-! ## Steps of a run -/

/-- Why a text could not be had from a source. -/
def readError (source : Source) (failure : ReadFailure) : String :=
  match source with
  | .standardInput => s!"failed to read stdin: {failure.message}"
  | .file name => s!"failed to read '{name}': {failure.message}"

/-- The language to highlight as: the one asked for, or else the one that the
file's extension tells, or else Flint.  With it comes whether languages had to
be looked up. -/
def chooseLanguage (config : Config) : Bool × Except String Language :=
  match config.language with
  | some name =>
    match Language.named? name with
    | some language => (true, .ok language)
    | none => (true, .error s!"unknown language: {name}")
  | none =>
    match config.source with
    | .standardInput => (false, .ok .flint)
    | .file name =>
      match extension? name with
      | none => (false, .ok .flint)
      | some extension => (true, .ok ((Language.forExtension? extension).getD .flint))

/-- The lines of the events that a filter admits. -/
def logged (filter : Log.Filter) (events : List Log.Event) : List Notice :=
  (events.filter filter.admits).map fun event => .log event.line

/-- Does what a command says with a highlighted text. -/
def execute (config : Config) (text : String) (result : Highlighted) : Outcome :=
  let diagnostics := result.diagnostics
  let warnings := diagnostics.map fun diagnostic => Notice.own (Report.warning diagnostic)
  match config.command with
  | .tokens =>
    let report :=
      if config.json then (Report.resultJson result).pretty ++ "\n"
      else Report.tokens config.verbose result
    (Outcome.success report).after warnings
  | .html => (Outcome.success (Html.render text result.outline)).after warnings
  | .stats =>
    let stats := Stats.ofHighlighted text result
    Outcome.success <|
      if config.json then (Report.statsJson stats).pretty ++ "\n" else Report.stats stats
  | .check =>
    let found := Report.found diagnostics.length
    if diagnostics.isEmpty then
      Outcome.success <|
        if config.json then Report.cleanJson ++ "\n" else "Clean: no diagnostics\n"
    else if config.json then
      { Outcome.failure found with output := (Report.checkJson diagnostics).compact ++ "\n" }
    else
      (Outcome.failure found).after <|
        .own found :: diagnostics.map fun diagnostic => .own (Report.diagnosticLine diagnostic)

/-- The filter of the log: the one that the environment asks for, or else debug
lines if the run is verbose. -/
def logFilter (asked : Option String) (verbose : Bool) : Log.Filter :=
  (asked.bind Log.Filter.read?).getD (.upTo (if verbose then .debug else .warn))

/-- A run with a configuration, once its source has been read. -/
def conclude (logSetting : Option String) (config : Config)
    (input : Except ReadFailure (List UInt8)) : Outcome :=
  let filter := logFilter logSetting config.verbose
  match input.bind textOfBytes with
  | .error cause => Outcome.failure (readError config.source cause)
  | .ok text =>
    let (lookedUp, choice) := chooseLanguage config
    let registering := if lookedUp then Language.all.map Log.Event.registering else []
    match choice with
    | .error message => (Outcome.failure message).after (logged filter registering)
    | .ok language =>
      let highlighter := (Highlighter.ofLanguage language).withMaxDepth config.maxDepth
      let result := highlighter.highlight text
      let bytes := text.utf8ByteSize
      let events :=
        registering ++ [.highlighting language bytes] ++
          result.problems.map Log.Event.problem ++ [.highlighted bytes result]
      (execute config text result).after (logged filter events)

/-- A whole run of the program. -/
def run (environment : Environment) (logSetting : Option String) (arguments : List String) :
    Outcome :=
  match Config.ofArguments arguments with
  | .error halt => Outcome.ofHalt halt
  | .ok config => conclude logSetting config (environment.read config.source)

end ModalHighlight.CommandLine
