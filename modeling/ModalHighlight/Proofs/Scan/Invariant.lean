import ModalHighlight.Proofs.Outline.Tiling
import ModalHighlight.Proofs.Scan.Decision

/-! # What holds all through a scan

The text in front of a scan is covered by its open modes: each holds an outline
that reaches from where the mode was opened to where the next one was, and the
active one reaches up to the scan.  Every mode above the ground begins with
text of its own, so abandoning it gives back text and closing it makes a scope
that is not empty.  All steps keep this up, and each of them either takes text
or lowers the number of open modes.
-/

namespace ModalHighlight.Scan

open Text (Border Cut)

variable {grammar : Grammar}

/-! ## One open mode -/

section Modes

variable {border : Nat → Prop} {limit start stop : Nat} {mode around : OpenMode}
variable {outer : List OpenMode}

namespace OpenMode

theorem add_of_lt (mode : OpenMode) (kind : Kind) (nonempty : start < stop) :
    mode.add kind ⟨start, stop⟩ =
      { mode with inside := mode.inside.piece ⟨kind, ⟨start, stop⟩⟩ } := by
  simp only [add, Span.isEmpty, decide_eq_true_eq]
  exact if_neg (Nat.not_le.2 nonempty)

@[simp] theorem rule_add (mode : OpenMode) (kind : Kind) (span : Span) :
    (mode.add kind span).rule = mode.rule := by
  unfold add
  split <;> rfl

theorem add_empty (mode : OpenMode) (kind : Kind) (offset : Nat) :
    mode.add kind ⟨offset, offset⟩ = mode := by
  simp [add, Span.isEmpty]

end OpenMode

/-! ## Open modes in one another -/

/-- The open modes of a scan cover the text up to an offset, and together with
the scopes inside them no more than `limit` modes lie in one another. -/
inductive Layered (grammar : Grammar) (border : Nat → Prop) (limit : Nat) :
    OpenMode → List OpenMode → Nat → Prop
  | ground {mode : OpenMode} {stop : Nat} (root : mode.rule = grammar.rootRule)
      (first : mode.start = 0) (tiles : mode.inside.Tiles border 0 stop)
      (room : mode.inside.depth < limit) :
      Layered grammar border limit mode [] stop
  | nested {mode around : OpenMode} {outer : List OpenMode} {stop : Nat}
      (known : grammar.Has mode.rule) (tiles : mode.inside.Tiles border mode.start stop)
      (leads : mode.inside.Leads) (room : mode.inside.depth + (outer.length + 1) < limit)
      (below : Layered grammar border limit around outer mode.start) :
      Layered grammar border limit mode (around :: outer) stop

namespace Layered

theorem known (layered : Layered grammar border limit mode outer stop) :
    grammar.Has mode.rule := by
  cases layered with
  | ground root => exact .inl root
  | nested known => exact known

theorem border_stop (layered : Layered grammar border limit mode outer stop) : border stop := by
  cases layered with
  | ground _ _ tiles => exact tiles.border_stop
  | nested _ tiles => exact tiles.border_stop

theorem border_start (layered : Layered grammar border limit mode outer stop) :
    ∀ opened ∈ mode :: outer, border opened.start := by
  induction layered with
  | ground _ first tiles =>
    intro opened member
    rw [List.mem_singleton.1 member, first]
    exact tiles.border_start
  | nested _ tiles _ _ _ ih =>
    intro opened member
    rcases List.mem_cons.1 member with rfl | below
    · exact tiles.border_start
    · exact ih opened below

/-- Only the ground mode can be one that never closes. -/
theorem outer_ne_nil (layered : Layered grammar border limit mode outer stop)
    (lawful : grammar.Lawful) {matcher : Matcher} (closes : mode.rule.closing = some matcher) :
    outer ≠ [] := by
  cases layered with
  | ground root =>
    rw [root, lawful.root] at closes
    cases closes
  | nested => exact List.cons_ne_nil _ _

theorem add (layered : Layered grammar border limit mode outer start) (kind : Kind)
    (ordered : start ≤ stop) (here : border stop) :
    Layered grammar border limit (mode.add kind ⟨start, stop⟩) outer stop := by
  -- An empty piece is not recorded, so the outline stays one that tiles.
  rcases Nat.lt_or_eq_of_le ordered with nonempty | rfl
  · rw [OpenMode.add_of_lt mode kind nonempty]
    cases layered with
    | ground root first tiles room =>
      exact .ground root first (tiles.snoc kind nonempty here) room
    | nested known tiles leads room below =>
      exact .nested known (tiles.snoc kind nonempty here) (.piece _ leads) room below
  · rw [OpenMode.add_empty]
    exact layered

theorem enter (layered : Layered grammar border limit mode outer start) {rule : Rule}
    (hashes : Nat) (kind : Kind) (known : grammar.Has rule) (room : outer.length + 1 < limit)
    (nonempty : start < stop) (here : border stop) :
    Layered grammar border limit (OpenMode.add ⟨rule, start, hashes, .nil⟩ kind ⟨start, stop⟩)
      (mode :: outer) stop := by
  rw [OpenMode.add_of_lt _ kind nonempty]
  have head := Outline.Tiles.snoc (.nil layered.border_stop) kind nonempty here
  refine .nested known head (.first _) ?_ layered
  simpa [Outline.depth] using room

/-- A mode closes and becomes a scope of the mode around it. -/
theorem leave (layered : Layered grammar border limit mode (around :: outer) stop) :
    Layered grammar border limit (around.enclose mode stop) outer stop := by
  cases layered with
  | nested known tiles leads room below =>
    -- The scope is one deeper than what was inside it, but the mode that counted
    -- for it is gone.
    cases below with
    | ground root first earlier roomAround =>
      refine .ground root first (earlier.enclose mode.rule.kind tiles leads) ?_
      simp only [OpenMode.enclose, Outline.depth, List.length_nil] at room ⊢
      omega
    | nested knownAround earlier leadsAround roomAround below =>
      refine .nested knownAround (earlier.enclose mode.rule.kind tiles leads)
        (.scope _ _ leadsAround) ?_ below
      simp only [OpenMode.enclose, Outline.depth, List.length_cons] at room ⊢
      omega

/-- A mode is given up, and its text goes to the mode around it. -/
theorem abandon (layered : Layered grammar border limit mode (around :: outer) stop)
    (kind : Kind) :
    Layered grammar border limit (around.add kind ⟨mode.start, stop⟩) outer stop := by
  cases layered with
  -- Its outline is dropped with its scopes; only where it reached matters.
  | nested _ tiles _ _ below => exact below.add kind tiles.le tiles.border_stop

/-- All modes above the ground close. -/
theorem unwind (layered : Layered grammar border limit mode outer stop) :
    Layered grammar border limit (State.ground stop mode outer) [] stop := by
  induction outer generalizing mode with
  | nil => exact layered
  | cons around outer ih => exact ih layered.leave

end Layered

end Modes

/-! ## States -/

variable {options : Options} {text : String} {state : State}

/-- What holds of every state of a scan of a text. -/
structure State.Sound (grammar : Grammar) (options : Options) (text : String) (state : State) :
    Prop where
  place : state.place = Cursor.ofOffset (Text.bytes text) state.offset
  layered : Layered grammar (Border text) options.maxDepth state.active state.outer state.offset

/-- The states that a scan of a text comes to. -/
inductive Reachable (grammar : Grammar) (options : Options) (text : String) : State → Prop
  | start : Reachable grammar options text (State.start grammar (Text.bytes text))
  | step {state : State} (before : Reachable grammar options text state)
      (left : state.place.rest ≠ []) : Reachable grammar options text (step grammar options state)

/-- Any number of steps leads from one reachable state to another. -/
theorem Reachable.advance (reachable : Reachable grammar options text state) (steps : Nat) :
    Reachable grammar options text (advance grammar options steps state) := by
  induction steps generalizing state with
  | zero => exact reachable
  | succ steps ih =>
    simp only [Scan.advance, List.isEmpty_iff]
    by_cases done : state.place.rest = []
    · rw [if_pos done]
      exact reachable
    · rw [if_neg done]
      exact ih (reachable.step done)

namespace State.Sound

theorem rest_eq (sound : state.Sound grammar options text) :
    state.place.rest = (Text.bytes text).drop state.offset := by
  have eq := congrArg Cursor.rest sound.place
  exact eq

theorem border (sound : state.Sound grammar options text) : Border text state.offset :=
  sound.layered.border_stop

theorem rule_eq_root (sound : state.Sound grammar options text) (ground : state.outer = []) :
    state.active.rule = grammar.rootRule := by
  have layered := sound.layered
  rw [ground] at layered
  cases layered with
  | ground root => exact root

theorem start (grammar : Grammar) (text : String) (room : 0 < options.maxDepth) :
    (State.start grammar (Text.bytes text)).Sound grammar options text where
  place := Cursor.start_eq_ofOffset (Text.bytes text)
  layered := .ground rfl rfl (.nil (Text.border_zero text)) room

/-- A cut of what is left is a border of the text, and moving up to it leads to
a place of the text. -/
theorem skip (sound : state.Sound grammar options text) {length : Nat}
    (cut : Cut state.place.rest length) :
    state.place.skip length = Cursor.ofOffset (Text.bytes text) (state.offset + length) ∧
      Border text (state.offset + length) := by
  rw [sound.rest_eq] at cut
  have inside := sound.border.le_utf8ByteSize
  have fits : state.offset + length ≤ (Text.bytes text).length := by
    have within := cut.le_length
    rw [List.length_drop, Text.length_bytes] at within
    rw [Text.length_bytes]
    omega
  constructor
  · rw [sound.place]
    exact Cursor.skip_ofOffset (Text.bytes text) length state.offset fits
  · exact sound.border.add cut

end State.Sound

end ModalHighlight.Scan
