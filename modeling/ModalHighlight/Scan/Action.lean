import ModalHighlight.Scan.State

/-! # What a scan does next

At each place the active mode gets to close first, then to reject what it must
not contain, then its nested rules are tried in their order.  What none of
them claims is content of the active mode.  The decision is a value of its
own, apart from what carrying it out does to the state.
-/

namespace ModalHighlight.Scan

/-- A decision about the text in front of a scan. -/
inductive Action where
  /-- The active mode closes. -/
  | close (hit : Hit)
  /-- The active mode is abandoned. -/
  | abandon
  /-- Text that looks like markup is flagged. -/
  | flag (hit : Hit)
  /-- A nested rule takes its match as it is. -/
  | leaf (rule : Rule) (hit : Hit)
  /-- A nested rule opens a mode. -/
  | enter (rule : Rule) (hit : Hit)
  /-- A nested rule would open a mode, but too many are open. -/
  | unwind
  /-- The next bytes are content of the active mode. -/
  | content (kind : Kind) (length : Nat)
  deriving DecidableEq, Repr

namespace Action

/-- The active mode closes here. -/
def closing? (state : State) : Option Action :=
  match state.active.rule.closing with
  | none => none
  | some matcher => (matcher.matchAt? state.active.hashes state.place).map close

/-- The active mode rejects what stands here.  In the ground mode that is
flagged, or let through if the options say so. -/
def rejection? (options : Options) (state : State) : Option Action :=
  match state.active.rule.illegal with
  | none => none
  | some matcher =>
    match matcher.matchAt? state.active.hashes state.place with
    | none => none
    | some hit =>
      match state.outer with
      | _ :: _ => some abandon
      | [] => if options.flagMarkup then some (flag hit) else none

/-- One of the active mode's nested rules applies here. -/
def nested? (grammar : Grammar) (options : Options) (state : State) : Option Action :=
  match grammar.firstMatch? state.active.rule.contains state.place with
  | none => none
  | some (rule, hit) =>
    if rule.isMode then
      if options.maxDepth ≤ state.depth then some unwind else some (enter rule hit)
    else some (leaf rule hit)

/-- The content of a mode that looks again at every character or identifier. -/
def eachContent (rule : Rule) (text : List UInt8) : Action :=
  match Lexeme.wordLength text with
  | 0 => content rule.kind (Byte.charLength text)
  | length + 1 =>
    let word := text.take (length + 1)
    content ((rule.keywords.bind (·.classify word)).getD rule.kind) (length + 1)

/-- The content of a mode that looks again only at certain bytes. -/
def stoppedContent (rule : Rule) (text : List UInt8) : Action :=
  let first := Byte.charLength text
  content rule.kind
    (first + Byte.runLength (fun b => !rule.stops.contains b) (text.drop first))

/-- What the active mode takes as its own content. -/
def unclaimed (state : State) : Action :=
  if state.active.rule.stops.isEmpty then eachContent state.active.rule state.place.rest
  else stoppedContent state.active.rule state.place.rest

/-- What a scan does next. -/
def next (grammar : Grammar) (options : Options) (state : State) : Action :=
  match closing? state with
  | some action => action
  | none =>
    match rejection? options state with
    | some action => action
    | none =>
      match nested? grammar options state with
      | some action => action
      | none => unclaimed state

/-- The kind of the text that opens a rule. -/
def headKind (rule : Rule) (text : List UInt8) : Kind :=
  match rule.head with
  | .rule => rule.kind
  | .kind kind => kind
  | .lookup table fallback => (table.classify text).getD fallback

/-- Takes the match of a rule: its head, then what is left of it. -/
def takeMatch (rule : Rule) (hit : Hit) (state : State) : State :=
  let head := headKind rule (state.place.rest.take hit.headStop)
  (state.take head hit.headStop).take rule.kind (hit.stop - hit.headStop)

def perform (options : Options) (action : Action) (state : State) : State :=
  match action with
  | close hit =>
    if state.active.rule.excludesClosing then state.leave
    else (state.take state.active.rule.kind hit.stop).leave
  | abandon => state.abandon
  | flag hit => state.flag hit.stop
  | leaf rule hit => takeMatch rule hit state
  | enter rule hit => takeMatch rule hit (state.enter rule hit.hashes)
  | unwind => state.unwind options.maxDepth
  | content kind length => state.take kind length

end Action

end ModalHighlight.Scan
