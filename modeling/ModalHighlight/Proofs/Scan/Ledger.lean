import ModalHighlight.Proofs.Scan.Coalescing
import ModalHighlight.Proofs.Scan.Slots

/-! # Scanning without an outline

A scan can make its tokens and list its scopes as it goes, with a number and a slot
for every open mode in place of an outline.  What it keeps that way after any number
of steps agrees with the open modes, and in the end with the outline.
-/

namespace ModalHighlight.Scan

/-- Everything that a scanner without an outline keeps: the scan itself, the tokens
with the numbers of modes, and the scopes with their slots. -/
structure Ledger where
  state : State
  numbering : Numbering
  slots : Slots

/-- What is kept of an open mode. -/
structure StackFrame where
  rule : Rule
  start : Nat
  hashes : Nat
  owner : UInt32
  slot : Option Nat
  deriving DecidableEq, Repr

namespace Ledger

def start (grammar : Grammar) (text : List UInt8) : Ledger :=
  ⟨State.start grammar text, Numbering.start, Slots.start⟩

/-- One step, as long as text is left. -/
def step (grammar : Grammar) (options : Options) (ledger : Ledger) : Ledger :=
  if ledger.state.place.rest.isEmpty then ledger
  else
    let action := Action.next grammar options ledger.state
    ⟨Scan.step grammar options ledger.state, ledger.numbering.follow action ledger.state,
      ledger.slots.follow action ledger.state⟩

/-- What is kept after a number of steps. -/
def after (grammar : Grammar) (options : Options) (text : List UInt8) (steps : Nat) : Ledger :=
  (step grammar options)^[steps] (start grammar text)

/-- The stack of open modes, the active one in front. -/
def frames (ledger : Ledger) : List StackFrame :=
  ((ledger.state.active :: ledger.state.outer).zip
      ((ledger.numbering.active :: ledger.numbering.outer).zip
        (ledger.slots.active :: ledger.slots.outer))).map
    fun (mode, owner, slot) => ⟨mode.rule, mode.start, mode.hashes, owner, slot⟩

def tokens (ledger : Ledger) : List Piece := ledger.numbering.tokens.reverse

def scopes (ledger : Ledger) : List Scope := ledger.slots.scopes

def problems (ledger : Ledger) : List Problem := ledger.state.problems.reverse

variable {grammar : Grammar} {options : Options} {text : String} {ledger : Ledger}

theorem after_succ (grammar : Grammar) (options : Options) (text : List UInt8) (steps : Nat) :
    after grammar options text (steps + 1) = step grammar options (after grammar options text steps) :=
  Function.iterate_succ_apply' ..

theorem step_of_left (left : ledger.state.place.rest ≠ []) :
    step grammar options ledger =
      ⟨Scan.step grammar options ledger.state,
        ledger.numbering.follow (Action.next grammar options ledger.state) ledger.state,
        ledger.slots.follow (Action.next grammar options ledger.state) ledger.state⟩ :=
  if_neg (by simpa using left)

theorem step_of_done (done : ledger.state.place.rest = []) : step grammar options ledger = ledger :=
  if_pos (by simpa using done)

/-! ## What is kept is what the outline says -/

/-- Tokens and numbers are made along with the scan, and slots are those of the open
modes. -/
structure Kept (grammar : Grammar) (options : Options) (text : String) (ledger : Ledger) : Prop where
  made : Numbering.Made grammar options text ledger.state ledger.numbering
  slots : ledger.slots = Slots.ofModes ledger.state.active ledger.state.outer

theorem Kept.reachable (kept : Kept grammar options text ledger) :
    Reachable grammar options text ledger.state :=
  kept.made.reachable

/-- A grammar, options and a text with which scanning goes well. -/
structure Fair (grammar : Grammar) (options : Options) (text : String) : Prop where
  lawful : grammar.Lawful
  accountable : grammar.Accountable
  grounded : grammar.Grounded
  room : leastMaxDepth ≤ options.maxDepth
  short : Numbering.Short text

theorem Fair.positive (fair : Fair grammar options text) : 0 < options.maxDepth :=
  Nat.lt_of_lt_of_le (by decide) fair.room

/-- Numbers are exact, and tokens are those of the open modes. -/
theorem Kept.along (kept : Kept grammar options text ledger) (fair : Fair grammar options text) :
    Numbering.Along (Numbering.Short text) ledger.numbering ledger.state :=
  (kept.made.along fair.lawful fair.accountable fair.grounded fair.room).1

theorem Kept.step (kept : Kept grammar options text ledger) (fair : Fair grammar options text) :
    Kept grammar options text (step grammar options ledger) := by
  by_cases done : ledger.state.place.rest = []
  · rw [step_of_done done]
    exact kept
  · rw [step_of_left done]
    refine ⟨kept.made.step done, ?_⟩
    rw [kept.slots]
    exact Slots.follow_ofModes (kept.reachable.sound fair.lawful fair.positive) fair.lawful done
      (chosen_next grammar options ledger.state)

theorem kept_after (fair : Fair grammar options text) (steps : Nat) :
    Kept grammar options text (after grammar options (Text.bytes text) steps) := by
  induction steps with
  | zero => exact ⟨.start, rfl⟩
  | succ steps ih =>
    rw [after_succ]
    exact ih.step fair

/-- Where no text is left, tokens, scopes and problems are those of the scan. -/
theorem Kept.of_done (kept : Kept grammar options text ledger) (fair : Fair grammar options text)
    (done : ledger.state.place.rest = []) :
    let found := run grammar options (Text.bytes text)
    ledger.tokens = Numbering.run grammar options (Text.bytes text) ∧
      (ledger.slots.unwind ledger.state.offset).scopes = found.outline.scopes ∧
        ledger.problems ++
          State.unterminated ledger.state.offset ledger.state.active ledger.state.outer =
            found.problems := by
  intro found
  obtain ⟨same, tokens⟩ := kept.made.run_eq fair.lawful fair.room done
  rw [show found = ledger.state.finish from same]
  refine ⟨tokens.symm, ?_, rfl⟩
  rw [kept.slots, Slots.unwind_ofModes]
  rfl

end Ledger

end ModalHighlight.Scan

namespace ModalHighlight.Highlighter

/-- What a scan of a text keeps after a number of steps. -/
def ledger (highlighter : Highlighter) (text : String) (steps : Nat) : Scan.Ledger :=
  .after highlighter.language.grammar highlighter.options (Text.bytes text) steps

/-- With any options, scanning Flint goes well. -/
theorem fair_withOptions (options : Scan.Options) {text : String}
    (small : text.utf8ByteSize ≤ 2 ^ 30) :
    Scan.Ledger.Fair Flint.grammar (default.withOptions options).options text where
  lawful := Flint.grammar_lawful
  accountable := Flint.grammar_accountable
  grounded := Flint.grammar_grounded
  room := (default.withOptions options).leastMaxDepth_le
  short := Scan.Numbering.short_of_le small

/-- In the end, what a scan has kept is the result. -/
theorem ledger_of_done (options : Scan.Options) {text : String}
    (small : text.utf8ByteSize ≤ 2 ^ 30) {steps : Nat} :
    let highlighter := default.withOptions options
    let ledger := highlighter.ledger text steps
    let result := highlighter.highlight text
    ledger.state.place.rest = [] →
      result.tokens.toList = ledger.tokens.map (Token.ofPiece text) ∧
        result.scopes = (ledger.slots.unwind ledger.state.offset).scopes ∧
          result.problems = ledger.problems ++
            Scan.State.unterminated ledger.state.offset ledger.state.active ledger.state.outer := by
  intro highlighter ledger result done
  have fair := fair_withOptions options small
  obtain ⟨tokens, scopes, problems⟩ := (Scan.Ledger.kept_after fair steps).of_done fair done
  refine ⟨?_, scopes.symm, problems.symm⟩
  have kept : ledger.tokens =
      Scan.Numbering.run highlighter.language.grammar highlighter.options (Text.bytes text) :=
    tokens
  rw [kept]
  rfl

end ModalHighlight.Highlighter
