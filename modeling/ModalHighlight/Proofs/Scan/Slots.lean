import ModalHighlight.Proofs.Scan.Growth

/-! # Scopes by slots

Scopes can be listed while a text is scanned, without an outline of it.  A mode that
opens gets the next slot of the list, with a scope in it that stops where it starts.
When the mode closes, its scope gets its stop, and when it is given up, the list is
cut off at its slot.  All along, the list and the slots can be read off the open
modes.
-/

namespace ModalHighlight.Scan

/-- The scopes of a scan in progress, and where those of open modes are. -/
structure Slots where
  /-- The scopes so far, in the order in which they opened. -/
  scopes : List Scope
  /-- The slot of the active mode.  The ground mode has none. -/
  active : Option Nat
  /-- The slots of the modes around it, from the inside out. -/
  outer : List (Option Nat)
  deriving DecidableEq, Repr

namespace Slots

def start : Slots := ⟨[], none, []⟩

/-- Says where the scope in a slot stops. -/
def settle (stop : Nat) (slot : Option Nat) (scopes : List Scope) : List Scope :=
  match slot with
  | none => scopes
  | some slot => scopes.modify slot fun s => ⟨s.kind, ⟨s.span.start, stop⟩⟩

def enter (kind : Kind) (offset : Nat) (slots : Slots) : Slots :=
  ⟨slots.scopes ++ [⟨kind, ⟨offset, offset⟩⟩], some slots.scopes.length,
    slots.active :: slots.outer⟩

def leave (stop : Nat) (slots : Slots) : Slots :=
  match slots.outer with
  | [] => slots
  | around :: outer => ⟨settle stop slots.active slots.scopes, around, outer⟩

def abandon (slots : Slots) : Slots :=
  match slots.outer with
  | [] => slots
  | around :: outer => ⟨slots.scopes.take (slots.active.getD slots.scopes.length), around, outer⟩

/-- Closes modes until only the ground mode is left. -/
def unwindFrom (stop : Nat) : List Scope → Option Nat → List (Option Nat) → Slots
  | scopes, active, [] => ⟨scopes, active, []⟩
  | scopes, active, around :: outer => unwindFrom stop (settle stop active scopes) around outer

def unwind (stop : Nat) (slots : Slots) : Slots :=
  unwindFrom stop slots.scopes slots.active slots.outer

/-- Does what a scan does next. -/
def follow (action : Action) (state : State) (slots : Slots) : Slots :=
  match action with
  | .close hit => slots.leave (state.active.closingStop hit state.offset)
  | .abandon => slots.abandon
  | .enter rule _ => slots.enter rule.kind state.offset
  | .unwind => slots.unwind state.offset
  | .flag _ | .leaf _ _ | .content _ _ => slots

/-! ## Slots of open modes -/

/-- The scopes in open modes, with one that is still empty for each of them. -/
def ofModes : OpenMode → List OpenMode → Slots
  | mode, [] => ⟨mode.inside.scopes, none, []⟩
  | mode, around :: outer =>
    let below := ofModes around outer
    ⟨below.scopes ++ ⟨mode.rule.kind, ⟨mode.start, mode.start⟩⟩ :: mode.inside.scopes,
      some below.scopes.length, below.active :: below.outer⟩

variable {mode around : OpenMode} {outer : List OpenMode}

theorem ofModes_congr {later : OpenMode} (rule : later.rule = mode.rule)
    (start : later.start = mode.start) (scopes : later.inside.scopes = mode.inside.scopes)
    (outer : List OpenMode) : ofModes later outer = ofModes mode outer := by
  cases outer with
  | nil => simp [ofModes, scopes]
  | cons => simp [ofModes, rule, start, scopes]

@[simp] theorem ofModes_add (mode : OpenMode) (kind : Kind) (span : Span) (outer : List OpenMode) :
    ofModes (mode.add kind span) outer = ofModes mode outer := by
  refine ofModes_congr (mode.rule_add kind span) (mode.start_add kind span) ?_ outer
  unfold OpenMode.add
  split <;> rfl

@[simp] theorem ofModes_enter (rule : Rule) (offset hashes : Nat) (mode : OpenMode)
    (outer : List OpenMode) :
    ofModes ⟨rule, offset, hashes, .nil⟩ (mode :: outer) =
      (ofModes mode outer).enter rule.kind offset := rfl

theorem settle_length (earlier inside : List Scope) (s : Scope) (stop : Nat) :
    settle stop (some earlier.length) (earlier ++ s :: inside) =
      earlier ++ ⟨s.kind, ⟨s.span.start, stop⟩⟩ :: inside := by
  rw [settle]
  induction earlier with
  | nil => rfl
  | cons first earlier ih =>
    rw [List.length_cons, List.cons_append, List.modify_succ_cons, ih, List.cons_append]

theorem leave_ofModes (mode around : OpenMode) (outer : List OpenMode) (stop : Nat) :
    (ofModes mode (around :: outer)).leave stop = ofModes (around.enclose mode stop) outer := by
  have closed := settle_length (ofModes around outer).scopes mode.inside.scopes
    ⟨mode.rule.kind, ⟨mode.start, mode.start⟩⟩ stop
  simp only [leave, ofModes, closed]
  cases outer with
  | nil => simp [ofModes, OpenMode.enclose]
  | cons => simp [ofModes, OpenMode.enclose]

theorem abandon_ofModes (mode around : OpenMode) (outer : List OpenMode) :
    (ofModes mode (around :: outer)).abandon = ofModes around outer := by
  simp [abandon, ofModes]

theorem unwind_ofModes (mode : OpenMode) (outer : List OpenMode) (stop : Nat) :
    (ofModes mode outer).unwind stop = ofModes (State.ground stop mode outer) [] := by
  induction outer generalizing mode with
  | nil => rfl
  | cons around outer ih =>
    rw [State.ground, ← ih, ← leave_ofModes]
    rfl

/-- Whatever a scan decides to do, slots that do the same go along. -/
theorem follow_ofModes {grammar : Grammar} {options : Options} {text : String} {state : State}
    {action : Action} (sound : state.Sound grammar options text) (lawful : grammar.Lawful)
    (left : state.place.rest ≠ []) (chosen : Chosen grammar options state action) :
    (ofModes state.active state.outer).follow action state =
      ofModes (action.perform options state).active (action.perform options state).outer := by
  have fits := chosen.fits lawful sound.layered.known left
  cases chosen with
  | @close matcher hit ends =>
    have nested := sound.layered.outer_ne_nil lawful ends
    cases modes : state.outer with
    | nil => exact absurd modes nested
    | cons around outer =>
      simp only [follow, Action.perform, OpenMode.closingStop]
      split
      next => rw [leave_ofModes, State.leave, modes]
      next =>
        -- What closes the mode is taken into it first, so its scope stops behind that.
        have moved := offset_take state state.active.rule.kind fits.whole.le_length
        have left : (state.take state.active.rule.kind hit.stop).leave =
            { state.take state.active.rule.kind hit.stop with
              active := around.enclose (state.take state.active.rule.kind hit.stop).active
                (state.take state.active.rule.kind hit.stop).offset
              outer } := by
          rw [State.leave, show (state.take _ _).outer = state.outer from rfl, modes]
        rw [left, moved, ← leave_ofModes, State.take, ofModes_add]
  | abandon _ _ _ nested =>
    cases modes : state.outer with
    | nil => exact absurd modes nested
    | cons around outer =>
      simp only [follow, Action.perform]
      rw [abandon_ofModes, State.abandon, modes]
      simp
  | flag => simp [follow, Action.perform, State.flag, State.take]
  | leaf => simp [follow, Action.perform, Action.takeMatch, State.take]
  | enter => simp [follow, Action.perform, Action.takeMatch, State.take, State.enter]
  | unwind =>
    simp only [follow, Action.perform]
    exact unwind_ofModes _ _ _
  | content => simp [follow, Action.perform, State.take]

end Slots

end ModalHighlight.Scan
