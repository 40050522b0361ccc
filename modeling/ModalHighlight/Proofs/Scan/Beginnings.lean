import ModalHighlight.Proofs.Grammar.Lines
import ModalHighlight.Proofs.Outline.Segments
import ModalHighlight.Proofs.Scan.Completion

/-! # How modes begin

A mode begins with the text that opened it, and no rule that opens a mode makes
plain text of that.  So plain text at the start of a text belongs to the ground
mode, and not to a mode that was opened there.
-/

namespace ModalHighlight

variable {grammar : Grammar} {options : Options} {text : String}

/-! ## Outlines -/

namespace Outline

/-- The first thing in the outline is a piece that is not plain text. -/
inductive Headed : Outline → Prop
  | first {p : Piece} (other : p.kind ≠ .plain) : Headed (piece nil p)
  | piece {earlier : Outline} (p : Piece) (before : Headed earlier) : Headed (piece earlier p)
  | scope {earlier : Outline} (s : Scope) (inside : Outline) (before : Headed earlier) :
      Headed (scope earlier s inside)

/-- The scopes that are not inside another one are headed. -/
inductive Grounded : Outline → Prop
  | nil : Grounded nil
  | piece {earlier : Outline} (p : Piece) (before : Grounded earlier) : Grounded (piece earlier p)
  | scope {earlier inside : Outline} (s : Scope) (before : Grounded earlier)
      (headed : inside.Headed) : Grounded (scope earlier s inside)

variable {outline : Outline}

theorem Headed.exists_segment (headed : outline.Headed) (kind : Kind) (chain : Chain) :
    ∃ first later, outline.segmentsOnto kind chain [] = first :: later ∧
      first.piece.kind ≠ .plain := by
  induction headed with
  | first other => exact ⟨_, [], rfl, other⟩
  | piece p _ ih =>
    obtain ⟨first, later, segments, other⟩ := ih
    rw [segmentsOnto_piece, segments]
    exact ⟨first, _, rfl, other⟩
  | scope s inside _ ih =>
    obtain ⟨first, later, segments, other⟩ := ih
    rw [segmentsOnto_scope, segments]
    exact ⟨first, _, rfl, other⟩

/-- If plain text comes first, it is content of the ground mode. -/
theorem Grounded.chain_of_plain (grounded : outline.Grounded) :
    ∀ first ∈ outline.segments.head?, first.piece.kind = .plain → first.chain = some .ground := by
  unfold segments
  induction grounded with
  | nil =>
    intro first isFirst
    cases isFirst
  | piece p _ ih =>
    intro first isFirst plain
    rw [segmentsOnto_piece, List.head?_append, Option.mem_def, Option.or_eq_some_iff] at isFirst
    rcases isFirst with earlier | ⟨_, here⟩
    · exact ih first earlier plain
    · obtain rfl := Option.some.inj here
      exact if_pos plain
  | scope s _ headed ih =>
    intro first isFirst plain
    obtain ⟨head, later, segments, other⟩ :=
      headed.exists_segment s.kind (innerChain .plain .ground s)
    rw [segmentsOnto_scope, segments, List.head?_append, Option.mem_def,
      Option.or_eq_some_iff] at isFirst
    rcases isFirst with earlier | ⟨_, inner⟩
    · exact ih first earlier plain
    · obtain rfl := Option.some.inj inner
      exact absurd plain other

end Outline

namespace Scan

/-! ## Open modes -/

/-- Every open mode above the ground is headed, and so are those that have been
closed in the ground mode. -/
inductive Begins : OpenMode → List OpenMode → Prop
  | ground {mode : OpenMode} (hashes : mode.hashes = 0) (inside : mode.inside.Grounded) :
      Begins mode []
  | nested {mode around : OpenMode} {outer : List OpenMode} (headed : mode.inside.Headed)
      (below : Begins around outer) : Begins mode (around :: outer)

namespace Begins

variable {mode around : OpenMode} {outer : List OpenMode}

theorem add (begins : Begins mode outer) (kind : Kind) (span : Span) :
    Begins (mode.add kind span) outer := by
  unfold OpenMode.add
  split
  next => exact begins
  next =>
    cases begins with
    | ground hashes inside => exact .ground hashes (.piece _ inside)
    | nested headed below => exact .nested (.piece _ headed) below

theorem leave (begins : Begins mode (around :: outer)) (stop : Nat) :
    Begins (around.enclose mode stop) outer := by
  cases begins with
  | nested headed below =>
    cases below with
    | ground hashes inside => exact .ground hashes (.scope _ inside headed)
    | nested headedAround below => exact .nested (.scope _ _ headedAround) below

theorem unwind (begins : Begins mode outer) (stop : Nat) :
    Begins (State.ground stop mode outer) [] := by
  induction outer generalizing mode with
  | nil => exact begins
  | cons around outer ih => exact ih (begins.leave stop)

end Begins

/-! ## States -/

/-- The open modes of a state begin as they should. -/
def State.Begun (state : State) : Prop := Begins state.active state.outer

namespace State.Begun

variable {state : State}

theorem take (begun : state.Begun) (kind : Kind) (length : Nat) : (state.take kind length).Begun :=
  Begins.add begun kind _

theorem leave (begun : state.Begun) : state.leave.Begun := by
  unfold State.leave
  split
  next => exact begun
  next around outer modes =>
    rw [Begun, modes] at begun
    exact Begins.leave begun state.offset

theorem abandon (begun : state.Begun) : state.abandon.Begun := by
  unfold State.abandon
  split
  next => exact begun
  next around outer modes =>
    rw [Begun, modes] at begun
    cases begun with
    | nested _ below => exact below.add .error _

/-- A mode that opens begins with its head. -/
theorem enter (begun : state.Begun) (rule : Rule) (hashes : Nat) {kind : Kind} {length : Nat}
    (other : kind ≠ .plain) (pos : 0 < length) :
    ((state.enter rule hashes).take kind length).Begun := by
  have nonempty : state.offset < state.offset + length := Nat.lt_add_of_pos_right pos
  have added := OpenMode.add_of_lt ⟨rule, state.offset, hashes, .nil⟩ kind nonempty
  have headed : ((state.enter rule hashes).take kind length).active.inside.Headed := by
    simp only [State.take, State.enter, State.offset] at added ⊢
    rw [added]
    exact .first other
  exact .nested headed begun

theorem perform (begun : state.Begun) (sound : state.Sound grammar options text)
    (lawful : grammar.Lawful) (linewise : grammar.Linewise) (left : state.place.rest ≠ [])
    {action : Action} (chosen : Chosen grammar options state action) :
    (action.perform options state).Begun := by
  have fits := chosen.fits lawful sound.layered.known left
  cases chosen with
  | close =>
    simp only [Action.perform]
    split
    next => exact begun.leave
    next => exact (begun.take _ _).leave
  | abandon => exact begun.abandon
  | flag => exact begun.take .illegal _
  | leaf => exact (begun.take _ _).take _ _
  | @enter rule hit _ _ found mode =>
    obtain ⟨id, _, rule?, _⟩ := Grammar.firstMatch?_eq_some found
    have heads := linewise.heads rule (Array.mem_of_getElem? rule?) mode
    have other : Action.headKind rule (state.place.rest.take hit.headStop) ≠ .plain :=
      fun plain => heads (plain ▸ rule.headKind_mem _)
    exact (begun.enter rule hit.hashes other fits.head.pos).take rule.kind _
  | unwind => exact Begins.unwind begun state.offset
  | content => exact begun.take _ _

end State.Begun

theorem Reachable.begun {state : State} (reachable : Reachable grammar options text state)
    (lawful : grammar.Lawful) (linewise : grammar.Linewise) (room : 0 < options.maxDepth) :
    state.Begun := by
  induction reachable with
  | start => exact .ground rfl .nil
  | @step before reached left ih =>
    exact ih.perform (reached.sound lawful room) lawful linewise left
      (chosen_next grammar options before)

end Scan

end ModalHighlight
