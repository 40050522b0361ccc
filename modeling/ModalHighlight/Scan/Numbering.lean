import ModalHighlight.Scan.Run

/-! # Tokens by numbers

The tokens are made while a text is scanned.  Every open mode has a number, which
it takes over from the mode around it if the two are of one kind, and draws from a
counter if not.  Content carries the number of its mode, any other text one that is
drawn for it, and what carries the number of the text in front of it joins the last
token if it can.  When a mode is given up, the tokens in it are taken back.

Numbers have 32 bits, and the counter comes round.  In a text of some billions of
bytes, two modes that have nothing to do with one another may get the same number.
-/

namespace ModalHighlight.Scan

/-- The tokens of a scan in progress, and the numbers that say what joins them. -/
structure Numbering where
  /-- The tokens so far, the latest first. -/
  tokens : List Piece
  /-- The number of the active mode. -/
  active : UInt32
  /-- The numbers of the modes around it, from the inside out. -/
  outer : List UInt32
  /-- The number of the text in front of the scan. -/
  last : UInt32
  /-- The number that is drawn next. -/
  next : UInt32
  deriving DecidableEq, Repr

namespace Numbering

/-! ## Making tokens -/

/-- A number that is never drawn. -/
def nobody : UInt32 := 0xffffffff

def start : Numbering := ⟨[], 0, [], nobody, 1⟩

/-- Draws the next number. -/
def draw (numbering : Numbering) : Numbering :=
  { numbering with next := (numbering.next + 1) % nobody }

/-- Tokens with a piece behind them.  If it `may`, it joins the last token of its
kind, provided that this one reaches up to it. -/
def append (may : Bool) (p : Piece) : List Piece → List Piece
  | [] => [p]
  | token :: earlier =>
    if may ∧ token.kind = p.kind ∧ token.span.stop = p.span.start then
      ⟨token.kind, ⟨token.span.start, p.span.stop⟩⟩ :: earlier
    else p :: token :: earlier

/-- Adds text that carries a number. -/
def add (owner : UInt32) (kind : Kind) (span : Span) (numbering : Numbering) : Numbering :=
  if span.isEmpty then numbering
  else
    { numbering with
      tokens := append (owner = numbering.last) ⟨kind, span⟩ numbering.tokens
      last := owner }

/-- Adds text that has a number to itself. -/
def addFresh (kind : Kind) (span : Span) (numbering : Numbering) : Numbering :=
  numbering.draw.add numbering.next kind span

/-- Adds text to the active mode, of which `own` is the kind. -/
def emit (own kind : Kind) (span : Span) (numbering : Numbering) : Numbering :=
  if kind = own then numbering.add numbering.active kind span else numbering.addFresh kind span

/-- Adds the match of a rule at an offset: its head, then what is left of it. -/
def emitMatch (own : Kind) (rule : Rule) (hit : Hit) (place : Cursor) (numbering : Numbering) :
    Numbering :=
  let head := Action.headKind rule (place.rest.take hit.headStop)
  (numbering.emit own head ⟨place.offset, place.offset + hit.headStop⟩).emit own rule.kind
    ⟨place.offset + hit.headStop, place.offset + hit.stop⟩

/-- Opens a mode inside the active one. -/
def enter (own kind : Kind) (numbering : Numbering) : Numbering :=
  let inner := if kind = own then numbering else numbering.draw
  { inner with
    active := if kind = own then numbering.active else numbering.next
    outer := numbering.active :: numbering.outer }

/-- Closes the active mode. -/
def leave (numbering : Numbering) : Numbering :=
  match numbering.outer with
  | [] => numbering
  | around :: outer => { numbering with active := around, outer }

/-- Takes back all tokens behind an offset, and the part of a token behind it. -/
def rewind (offset : Nat) (tokens : List Piece) : List Piece :=
  match tokens.dropWhile (offset ≤ ·.span.start) with
  | [] => []
  | token :: earlier => ⟨token.kind, ⟨token.span.start, min token.span.stop offset⟩⟩ :: earlier

/-- Gives up the active mode, which covers a span. -/
def abandon (span : Span) (numbering : Numbering) : Numbering :=
  match numbering.outer with
  | [] => numbering
  | around :: outer =>
    let rewound : Numbering :=
      { numbering with
        tokens := rewind span.start numbering.tokens, active := around, outer, last := nobody }
    rewound.addFresh .error span

/-- Closes all modes but the ground mode. -/
def unwind (numbering : Numbering) : Numbering :=
  { numbering with
    active := numbering.outer.getLastD numbering.active, outer := [], last := nobody }

/-- Does what a scan does next. -/
def follow (action : Action) (state : State) (numbering : Numbering) : Numbering :=
  let own := state.active.rule.kind
  match action with
  | .close hit =>
    if state.active.rule.excludesClosing then numbering.leave
    else (numbering.add numbering.active own ⟨state.offset, state.offset + hit.stop⟩).leave
  | .abandon => numbering.abandon ⟨state.active.start, state.offset⟩
  | .flag hit => numbering.addFresh .illegal ⟨state.offset, state.offset + hit.stop⟩
  | .leaf rule hit => numbering.emitMatch own rule hit state.place
  | .enter rule hit => (numbering.enter own rule.kind).emitMatch rule.kind rule hit state.place
  | .unwind => numbering.unwind
  | .content kind length => numbering.emit own kind ⟨state.offset, state.offset + length⟩

/-- Goes along with at most `steps` steps of a scan. -/
def along (grammar : Grammar) (options : Options) :
    (steps : Nat) → State → Numbering → Numbering
  | 0, _, numbering => numbering
  | steps + 1, state, numbering =>
    if state.place.rest.isEmpty then numbering
    else
      let action := Action.next grammar options state
      along grammar options steps (action.perform options state) (numbering.follow action state)

/-- The tokens that are made along with the scan of a text. -/
def run (grammar : Grammar) (options : Options) (text : List UInt8) : List Piece :=
  (along grammar options (2 * text.length) (State.start grammar text) start).tokens.reverse

end Numbering

end ModalHighlight.Scan
