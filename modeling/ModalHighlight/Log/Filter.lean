import ModalHighlight.Log.Event
import ModalHighlight.Log.Pattern
import ModalHighlight.Span
import ModalHighlight.Text.Class
import ModalHighlight.Text.Numeral
import ModalHighlight.Text.Split

/-! # Log filters

A filter is a list of directives, each of which says up to which level the
events of some sources are written.  Of the directives that apply to an event,
the one that describes it most closely counts.

A directive names the start of a source, or a level for all sources, or both
with `=` between them.  In brackets it can name a span or a field of events.
No event lies in a span, because highlighting opens none; so directives for
spans are read, but apply to nothing.

This is the documented behaviour of the `EnvFilter` of `tracing-subscriber`, which
is not part of the program.  It decides what is logged, and no theorem rests on it.
-/

namespace ModalHighlight.Log

/-- Which events of its sources a directive is for. -/
inductive Concern where
  | every
  /-- Those with a field of a name. -/
  | having (field : String)
  /-- Those inside some span. -/
  | insideSpan
  deriving DecidableEq, Repr

/-- Events of the sources whose names begin with `source` are written if their
level's rank is at most `limit`. -/
structure Directive where
  source : String
  concern : Concern
  limit : Nat
  deriving DecidableEq, Repr

/-- What is written to the log. -/
structure Filter where
  directives : List Directive
  deriving DecidableEq, Repr

/-! ## Reading directives -/

namespace Directive

/-- The limit of a directive that sets none. -/
def noLimit : Nat := Level.rank .trace

/-- The limit that a word stands for: a level, `off`, or the rank of a level. -/
def limit? (word : String) : Option Nat :=
  match Text.readNumeral noLimit word with
  | .ok rank => some rank
  | .error _ =>
    if word.toLower == "off" then some 0
    else (Level.all.find? fun level => level.name == word.toLower).map Level.rank

/-- Where the parts of a directive lie. -/
structure Layout where
  /-- What stands in front of brackets and `=`. -/
  head : Span
  /-- The name of a span, in brackets. -/
  name : Option Span
  /-- What stands in braces inside the brackets. -/
  field : Option Span
  /-- Where the level starts, behind `=`. -/
  level : Option Nat
  deriving DecidableEq, Repr

namespace Layout

/-- The number of bytes of some characters. -/
def width (text : List Char) : Nat := (String.ofList text).utf8ByteSize

/-- The span of some characters from an offset on. -/
def spanFrom (start : Nat) (text : List Char) : Span := ⟨start, start + width text⟩

/-- A directive can start with the character. -/
def startsHead (c : Char) : Bool := Text.isAlphanumeric c || c == '-' || c == ':' || c == '_'

/-- Where the level starts in what follows the head and the brackets. -/
def locateLevel? (start : Nat) : List Char → Option (Option Nat)
  | '=' :: _ => some (some (start + 1))
  | rest => if rest.all Text.isBlank then some none else none

/-- The layout of a directive with brackets, the first of which is behind us.  The
name of a span may be left out in front of braces, but not between brackets. -/
def locateBrackets? (head : Span) (text : List Char) : Option Layout :=
  let name := text.takeWhile fun c => c != ']' && c != '\x7b'
  let nameSpan := spanFrom (head.stop + 1) name
  match text.drop name.length with
  | ']' :: rest =>
    (locateLevel? (nameSpan.stop + 1) rest).map fun level => ⟨head, some nameSpan, none, level⟩
  | '\x7b' :: inside =>
    let field := inside.takeWhile (· != '\x7d')
    let fieldSpan := spanFrom (nameSpan.stop + 1) field
    match inside.drop field.length with
    | '\x7d' :: ']' :: rest =>
      (locateLevel? (fieldSpan.stop + 2) rest).map fun level =>
        ⟨head, if name.isEmpty then none else some nameSpan, some fieldSpan, level⟩
    | _ => none
  | _ => none

/-- The layout of a directive that is not indented. -/
def ofUnindented? (text : List Char) : Option Layout :=
  let head := text.takeWhile fun c => c != '=' && c != '['
  let headSpan := spanFrom 0 head
  if head.head?.all startsHead then
    match text.drop head.length with
    | '[' :: inside => locateBrackets? headSpan inside
    | rest =>
      if head.isEmpty then none
      else (locateLevel? headSpan.stop rest).map fun level => ⟨headSpan, none, none, level⟩
  else none

end Layout

/-- The field that braces name, if need be with a value.  Values tell spans
apart, not events. -/
def readField? (text : String) : Option Concern :=
  let name := text.toList.takeWhile (· != '=')
  match text.toList.drop name.length with
  | [] => if name.isEmpty then none else some (.having (String.ofList name))
  | _ :: value =>
    if Pattern.isPattern (value.takeWhile (· != '=')) then some .insideSpan else none

/-- What a directive is for, by the text in its brackets. -/
def readConcern? (layout : Layout) (text : String) : Option Concern :=
  match layout.field with
  | none => some (if layout.name.isSome then .insideSpan else .every)
  | some span =>
    match (span.slice? text).bind readField? with
    | none => none
    | some concern => some (if layout.name.isSome then .insideSpan else concern)

/-- A directive with some layout.  A lone level is one for all sources. -/
def ofLayout? (layout : Layout) (text : String) : Option Directive :=
  match readConcern? layout text, layout.head.slice? text, layout.level with
  | some concern, some source, some start =>
    match (⟨start, text.utf8ByteSize⟩ : Span).slice? text with
    | none => none
    | some word =>
      if word.isEmpty then some ⟨source, concern, noLimit⟩
      else (limit? word).map (⟨source, concern, ·⟩)
  | some .every, _, none =>
    match limit? text with
    | some limit => some ⟨"", .every, limit⟩
    | none => some ⟨text, .every, noLimit⟩
  | some concern, some source, none => some ⟨source, concern, noLimit⟩
  | _, _, _ => none

/-- Reads a directive.  Blanks around it do not matter to its layout, but the
parts are cut from the text with its blanks: those in front of a directive shift
its parts, and those behind it belong to its last part. -/
def read? (text : String) : Option Directive :=
  match Layout.ofUnindented? (text.toList.dropWhile Text.isBlank) with
  | none => none
  | some layout => ofLayout? layout text

/-! ## Which directive counts -/

/-- The directive applies to an event. -/
def appliesTo (event : Event) (directive : Directive) : Bool :=
  directive.source.toList.isPrefixOf event.source.toList &&
    match directive.concern with
    | .every => true
    | .having field => event.fields.contains field
    | .insideSpan => false

def field? (directive : Directive) : Option String :=
  match directive.concern with
  | .having field => some field
  | _ => none

/-- Of two directives that apply to one event, the first describes it less
closely than the other: by a shorter start of its source, or by the same and no
field, or by a field that comes earlier in the order of names. -/
def looser (directive other : Directive) : Bool :=
  if directive.source.length = other.source.length then
    match directive.field?, other.field? with
    | none, some _ => true
    | some field, some otherField => field < otherField
    | _, none => false
  else directive.source.length < other.source.length

/-- The closer of two directives, the later of two that are equally close. -/
def closer (earlier : Option Directive) (later : Directive) : Option Directive :=
  match earlier with
  | none => some later
  | some directive => if later.looser directive then some directive else some later

end Directive

namespace Filter

/-- The filter with one level for all sources. -/
def upTo (level : Level) : Filter := ⟨[⟨"", .every, level.rank⟩]⟩

/-- Reads directives with commas between them.  A filter without any lets errors
through. -/
def read? (text : String) : Option Filter :=
  match ((Text.split ',' text).filter fun part => !part.isEmpty).mapM Directive.read? with
  | none => none
  | some [] => some (upTo .error)
  | some directives => some ⟨directives⟩

/-- The directive that counts for an event. -/
def directiveFor? (filter : Filter) (event : Event) : Option Directive :=
  (filter.directives.filter (Directive.appliesTo event)).foldl Directive.closer none

def admits (filter : Filter) (event : Event) : Bool :=
  match filter.directiveFor? event with
  | none => false
  | some directive => event.level.rank ≤ directive.limit

end Filter

end ModalHighlight.Log
