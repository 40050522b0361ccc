import ModalHighlight.Scan.Action

/-! # Whole scans

A scan repeats its step until no text is left.  A step moves on in the text or
closes a mode that was opened further left, and every open mode has text of
its own, so twice the length of the text bounds the number of steps.  Modes
that are still open when the text ends are closed there, the innermost first.
-/

namespace ModalHighlight.Scan

/-- What a scan makes of a text. -/
structure Findings where
  outline : Outline
  /-- The problems, in the order in which they were met. -/
  problems : List Problem
  deriving DecidableEq, Repr

def step (grammar : Grammar) (options : Options) (state : State) : State :=
  (Action.next grammar options state).perform options state

/-- At most `steps` steps, and none once no text is left. -/
def advance (grammar : Grammar) (options : Options) : (steps : Nat) → State → State
  | 0, state => state
  | steps + 1, state =>
    if state.place.rest.isEmpty then state
    else advance grammar options steps (step grammar options state)

/-- Closes what is still open. -/
def State.finish (state : State) : Findings where
  outline := (State.ground state.offset state.active state.outer).inside
  problems :=
    state.problems.reverse ++ State.unterminated state.offset state.active state.outer

def run (grammar : Grammar) (options : Options) (text : List UInt8) : Findings :=
  (advance grammar options (2 * text.length) (State.start grammar text)).finish

end ModalHighlight.Scan
