import ModalHighlight.Diagnostic
import ModalHighlight.Grammar
import ModalHighlight.Outline

/-! # The state of a scan

A scan stands at a place of the text with a stack of open modes, the ground
mode of the root rule at its bottom.  Each open mode holds the outline of what
has been scanned inside it.  Closing a mode hands its outline to the mode
around it as one scope; abandoning it throws the outline away.  So a mode that
is given up leaves the modes around it as they were when it opened.
-/

namespace ModalHighlight.Scan

/-- What a caller may choose. -/
structure Options where
  /-- The most modes that may be open at a time, the ground mode included. -/
  maxDepth : Nat
  /-- Whether `</` outside strings and comments is flagged. -/
  flagMarkup : Bool
  deriving DecidableEq, Repr

/-- A mode that is open. -/
structure OpenMode where
  rule : Rule
  /-- Where the mode was opened. -/
  start : Nat
  /-- The hashes that close the mode, if it is a raw string. -/
  hashes : Nat
  /-- What has been scanned in the mode so far. -/
  inside : Outline
  deriving DecidableEq, Repr

namespace OpenMode

/-- Adds a piece at the end of a mode.  An empty piece adds nothing. -/
def add (mode : OpenMode) (kind : Kind) (span : Span) : OpenMode :=
  if span.isEmpty then mode else { mode with inside := mode.inside.piece ⟨kind, span⟩ }

/-- Adds a mode that stops at an offset, as a scope, at the end of the mode
around it. -/
def enclose (outer inner : OpenMode) (stop : Nat) : OpenMode :=
  { outer with
    inside := outer.inside.scope ⟨inner.rule.kind, ⟨inner.start, stop⟩⟩ inner.inside }

end OpenMode

/-- A scan in progress. -/
structure State where
  place : Cursor
  /-- The innermost open mode. -/
  active : OpenMode
  /-- The modes around it, from the inside out. -/
  outer : List OpenMode
  /-- The problems so far, the latest first. -/
  problems : List Problem
  deriving DecidableEq, Repr

namespace State

/-- A scan at the start of a text. -/
def start (grammar : Grammar) (text : List UInt8) : State :=
  ⟨Cursor.start text, ⟨grammar.rootRule, 0, 0, .nil⟩, [], []⟩

/-- Where the scan stands. -/
def offset (state : State) : Nat := state.place.offset

/-- The number of open modes, the ground mode included. -/
def depth (state : State) : Nat := state.outer.length + 1

/-- Adds the next `length` bytes to the active mode as one piece, and moves past
them. -/
def take (state : State) (kind : Kind) (length : Nat) : State :=
  { state with
    place := state.place.skip length
    active := state.active.add kind ⟨state.offset, state.offset + length⟩ }

def enter (state : State) (rule : Rule) (hashes : Nat) : State :=
  { state with
    active := ⟨rule, state.offset, hashes, .nil⟩
    outer := state.active :: state.outer }

/-- Closes the active mode here.  The ground mode stays open. -/
def leave (state : State) : State :=
  match state.outer with
  | [] => state
  | around :: outer =>
    { state with active := around.enclose state.active state.offset, outer := outer }

/-- Gives up the active mode.  In the mode around it, all of its text becomes
one piece in error.  The ground mode is never given up. -/
def abandon (state : State) : State :=
  match state.outer with
  | [] => state
  | around :: outer =>
    let span : Span := ⟨state.active.start, state.offset⟩
    { state with
      active := around.add .error span
      outer := outer
      problems := .malformed state.active.rule.name span :: state.problems }

/-- The ground mode, once the modes above it have been closed at an offset. -/
def ground (stop : Nat) : OpenMode → List OpenMode → OpenMode
  | mode, [] => mode
  | mode, around :: outer => ground stop (around.enclose mode stop) outer

/-- The start of the outermost mode above the ground, or else `here`. -/
def outermostStart (here : Nat) : OpenMode → List OpenMode → Nat
  | _, [] => here
  | mode, around :: outer => outermostStart mode.start around outer

/-- Closes all modes here but the ground mode, because one more would exceed
the limit. -/
def unwind (state : State) (maxDepth : Nat) : State :=
  let span : Span := ⟨outermostStart state.offset state.active state.outer, state.offset⟩
  { state with
    active := ground state.offset state.active state.outer
    outer := []
    problems := .nestingLimit maxDepth span :: state.problems }

/-- Records that the next `length` bytes look like markup, and moves past them. -/
def flag (state : State) (length : Nat) : State :=
  let flagged := state.take .illegal length
  { flagged with
    problems := .suspectMarkup ⟨state.offset, state.offset + length⟩ :: state.problems }

/-- The problems of the modes that are still open, the innermost first reported. -/
def unterminated (stop : Nat) : OpenMode → List OpenMode → List Problem
  | _, [] => []
  | mode, around :: outer =>
    .unterminated mode.rule.name ⟨mode.start, stop⟩ :: unterminated stop around outer

end State

end ModalHighlight.Scan
