import ModalHighlight.Proofs.Grammar.Kinds
import ModalHighlight.Proofs.Scan.Completion

/-! # Marks and the problems they stand for

A scan that gives up a mode or flags markup leaves a mark in its outline and a
problem in its list, both of one span.  Outlines are taken back and problems are
not, so the two can only agree if nothing that is taken back holds a mark.  That
is what the accountable grammars are for: only a mode that opens no other mode
may be given up, and the marks are all made outside such modes.
-/

namespace ModalHighlight

/-- The mark that a problem leaves in the outline. -/
def Problem.mark? : Problem → Option Piece
  | malformed _ span => some ⟨.error, span⟩
  | suspectMarkup span => some ⟨.illegal, span⟩
  | unterminated _ _ | nestingLimit _ _ => none

namespace Scan

variable {grammar : Grammar} {options : Options} {text : String} {state : State}
variable {mode around : OpenMode} {outer : List OpenMode}

/-! ## Pieces and scopes of open modes -/

namespace State

/-- The pieces of all open modes, in the order of the text. -/
def pieces (state : State) : List Piece :=
  (state.active :: state.outer).reverse.flatMap fun mode => mode.inside.pieces

theorem pieces_ground (stop : Nat) (mode : OpenMode) (outer : List OpenMode) :
    (ground stop mode outer).inside.pieces =
      (mode :: outer).reverse.flatMap fun mode => mode.inside.pieces := by
  induction outer generalizing mode with
  | nil => simp [ground]
  | cons around outer ih => simp [ground, ih, OpenMode.enclose]

/-- Closing what is open changes no piece. -/
theorem pieces_finish (state : State) : state.finish.outline.pieces = state.pieces :=
  pieces_ground _ _ _

/-- The scopes of a closed stack of modes are those inside the modes and those
that the modes themselves turn into. -/
theorem mem_scopes_ground {stop : Nat} {s : Scope}
    (member : s ∈ (ground stop mode outer).inside.scopes) :
    ∃ opened ∈ mode :: outer, s ∈ opened.inside.scopes ∨ s.kind = opened.rule.kind := by
  induction outer generalizing mode with
  | nil => exact ⟨mode, List.mem_cons_self, .inl member⟩
  | cons around outer ih =>
    obtain ⟨opened, isOpen, found⟩ := ih member
    rcases List.mem_cons.1 isOpen with rfl | below
    · -- The mode around now holds what was inside both, and the new scope.
      rcases found with inside | kind
      · simp only [OpenMode.enclose, Outline.scopes_scope, List.mem_append, List.mem_cons] at inside
        rcases inside with earlier | rfl | inner
        · exact ⟨around, by simp, .inl earlier⟩
        · exact ⟨mode, List.mem_cons_self, .inr rfl⟩
        · exact ⟨mode, List.mem_cons_self, .inl inner⟩
      · exact ⟨around, by simp, .inr kind⟩
    · exact ⟨opened, by simp [below], found⟩

theorem pieces_take (state : State) (kind : Kind) (length : Nat) :
    (state.take kind length).pieces =
      state.pieces ++ (if length = 0 then [] else
        [⟨kind, ⟨state.offset, state.offset + length⟩⟩]) := by
  by_cases empty : length = 0
  · subst empty
    simp [pieces, take, OpenMode.add_empty]
  · have proper : state.offset < state.offset + length := by omega
    simp [pieces, take, OpenMode.add_of_lt _ kind proper, empty]

@[simp] theorem pieces_enter (state : State) (rule : Rule) (hashes : Nat) :
    (state.enter rule hashes).pieces = state.pieces := by
  simp [pieces, enter]

@[simp] theorem pieces_leave (state : State) : state.leave.pieces = state.pieces := by
  unfold leave
  split
  next => rfl
  next around outer modes => simp [pieces, modes, OpenMode.enclose]

@[simp] theorem pieces_unwind (state : State) (maxDepth : Nat) :
    (state.unwind maxDepth).pieces = state.pieces := by
  simp [pieces, unwind, pieces_ground]

end State

/-! ## Modes that may be given up -/

/-- No open mode that may be given up holds marks or has opened another mode,
and no scope inside an open mode has the kind of a mark. -/
inductive Hosted : OpenMode → List OpenMode → Prop
  | ground {mode : OpenMode} (scopes : ∀ s ∈ mode.inside.scopes, s.kind.isMark = false) :
      Hosted mode []
  | nested {mode around : OpenMode} {outer : List OpenMode}
      (opened : mode.rule.isMode = true)
      (scopes : ∀ s ∈ mode.inside.scopes, s.kind.isMark = false)
      (clean : mode.rule.illegal ≠ none → ∀ p ∈ mode.inside.pieces, p.kind.isMark = false)
      (host : outer = [] ∨ around.rule.illegal = none) (below : Hosted around outer) :
      Hosted mode (around :: outer)

namespace Hosted

theorem scopes_of_mem (hosted : Hosted mode outer) :
    ∀ opened ∈ mode :: outer, ∀ s ∈ opened.inside.scopes, s.kind.isMark = false := by
  induction hosted with
  | ground scopes =>
    intro opened member
    rw [List.mem_singleton.1 member]
    exact scopes
  | nested _ scopes _ _ _ ih =>
    intro opened member
    rcases List.mem_cons.1 member with rfl | below
    · exact scopes
    · exact ih opened below

/-- A piece may be added if it is no mark or if the mode is not given up. -/
theorem add (hosted : Hosted mode outer) {kind : Kind} {span : Span}
    (allowed : kind.isMark = false ∨ outer = [] ∨ mode.rule.illegal = none) :
    Hosted (mode.add kind span) outer := by
  unfold OpenMode.add
  split
  next => exact hosted
  next =>
    cases hosted with
    | ground scopes => exact .ground scopes
    | nested opened scopes clean host below =>
      refine .nested opened scopes (fun rejects p member => ?_) host below
      rw [Outline.pieces_piece, List.mem_append, List.mem_singleton] at member
      rcases member with earlier | rfl
      · exact clean rejects p earlier
      · rcases allowed with unmarked | ground | none
        · exact unmarked
        · exact absurd ground (List.cons_ne_nil _ _)
        · exact absurd none rejects

theorem enter (hosted : Hosted mode outer) {rule : Rule} (start hashes : Nat)
    (opened : rule.isMode = true) (host : outer = [] ∨ mode.rule.illegal = none) :
    Hosted ⟨rule, start, hashes, .nil⟩ (mode :: outer) :=
  .nested opened (by simp) (by simp) host hosted

theorem leave (hosted : Hosted mode (around :: outer)) (unmarked : mode.rule.kind.isMark = false)
    (stop : Nat) : Hosted (around.enclose mode stop) outer := by
  cases hosted with
  | nested _ scopes _ host below =>
    have all : ∀ s ∈ (around.enclose mode stop).inside.scopes, s.kind.isMark = false := by
      intro s member
      simp only [OpenMode.enclose, Outline.scopes_scope, List.mem_append, List.mem_cons] at member
      rcases member with earlier | rfl | inner
      · exact below.scopes_of_mem around List.mem_cons_self s earlier
      · exact unmarked
      · exact scopes s inner
    cases below with
    | ground => exact .ground all
    | nested opened _ _ hostAround below =>
      refine .nested opened all (fun rejects => ?_) hostAround below
      rcases host with ground | none
      · exact absurd ground (List.cons_ne_nil _ _)
      · exact absurd none rejects

theorem unwind (hosted : Hosted mode outer)
    (unmarked : ∀ opened ∈ mode :: outer, opened.rule.kind.isMark = false) (stop : Nat) :
    Hosted (State.ground stop mode outer) [] := by
  refine .ground fun s member => ?_
  obtain ⟨opened, isOpen, inside | kind⟩ := State.mem_scopes_ground member
  · exact hosted.scopes_of_mem opened isOpen s inside
  · exact kind ▸ unmarked opened isOpen

end Hosted

/-! ## Marks all through a scan -/

/-- The marks of a scan are those of its problems, in the order in which they
were met. -/
structure State.Accounted (state : State) : Prop where
  hosted : Hosted state.active state.outer
  marks : state.pieces.filter (·.kind.isMark) = state.problems.reverse.filterMap Problem.mark?

namespace State.Accounted

theorem start (grammar : Grammar) (bytes : List UInt8) :
    (State.start grammar bytes).Accounted where
  hosted := .ground (by simp [State.start])
  marks := by simp [State.pieces, State.start]

theorem take (accounted : state.Accounted) {kind : Kind} (unmarked : kind.isMark = false)
    (length : Nat) : (state.take kind length).Accounted where
  hosted := accounted.hosted.add (.inl unmarked)
  marks := by
    rw [State.pieces_take, List.filter_append, problems_take, accounted.marks]
    split <;> simp [unmarked]

theorem enter (accounted : state.Accounted) {rule : Rule} (hashes : Nat)
    (opened : rule.isMode = true) (host : state.outer = [] ∨ state.active.rule.illegal = none) :
    (state.enter rule hashes).Accounted where
  hosted := accounted.hosted.enter state.offset hashes opened host
  marks := by simp [accounted.marks]

theorem leave (accounted : state.Accounted) (unmarked : state.active.rule.kind.isMark = false) :
    state.leave.Accounted where
  hosted := by
    have hosted := accounted.hosted
    unfold State.leave
    split
    next => exact hosted
    next modes =>
      rw [modes] at hosted
      exact hosted.leave unmarked state.offset
  marks := by simp [accounted.marks]

theorem flag (accounted : state.Accounted) (ground : state.outer = []) {length : Nat}
    (nonempty : 0 < length) : (state.flag length).Accounted where
  hosted := accounted.hosted.add (.inr (.inl ground))
  marks := by
    have added := state.pieces_take .illegal length
    rw [if_neg (Nat.ne_of_gt nonempty)] at added
    simp only [State.pieces, State.flag, List.reverse_cons, List.filterMap_append] at added ⊢
    rw [added, List.filter_append, ← accounted.marks]
    simp [State.pieces, Kind.isMark, Problem.mark?]

theorem abandon (accounted : state.Accounted) (sound : state.Sound grammar options text)
    (nested : state.outer ≠ []) (rejects : state.active.rule.illegal ≠ none) :
    state.abandon.Accounted := by
  have hosted := accounted.hosted
  have marks := accounted.marks
  have layered := sound.layered
  unfold State.abandon
  split
  next ground => exact absurd ground nested
  next around outer modes =>
    rw [State.pieces, modes] at marks
    rw [modes] at hosted layered
    cases hosted with
    | nested _ _ clean host below =>
      cases layered with
      | nested _ tiles leads =>
        have proper := tiles.lt_of_leads leads
        -- What is dropped held no mark, so only the new one is to be accounted for.
        have unmarked : state.active.inside.pieces.filter (·.kind.isMark) = [] :=
          List.filter_eq_nil_iff.2 fun p member => by simp [clean rejects p member]
        constructor
        · exact below.add (.inr host)
        · simp only [List.reverse_cons, List.flatMap_append, List.filter_append,
            List.flatMap_singleton, unmarked, List.append_nil] at marks
          simp [State.pieces, OpenMode.add_of_lt _ .error proper, ← marks, Kind.isMark,
            Problem.mark?]

theorem unwind (accounted : state.Accounted)
    (unmarked : ∀ opened ∈ state.active :: state.outer, opened.rule.kind.isMark = false)
    (maxDepth : Nat) : (state.unwind maxDepth).Accounted where
  hosted := accounted.hosted.unwind unmarked state.offset
  marks := by
    rw [State.pieces_unwind, accounted.marks]
    simp [State.unwind, Problem.mark?]

end State.Accounted

theorem Layered.has_of_mem {border : Nat → Prop} {limit stop : Nat}
    (layered : Layered grammar border limit mode outer stop) :
    ∀ opened ∈ mode :: outer, grammar.Has opened.rule := by
  induction layered with
  | ground root =>
    intro opened member
    rw [List.mem_singleton.1 member]
    exact .inl root
  | nested known _ _ _ _ ih =>
    intro opened member
    rcases List.mem_cons.1 member with rfl | below
    · exact known
    · exact ih opened below

/-- A mode that opens another is the ground mode, or one that is never given up. -/
theorem State.Accounted.host (accounted : state.Accounted)
    (sound : state.Sound grammar options text) (lawful : grammar.Lawful)
    (accountable : grammar.Accountable) {rule : Rule} {hit : Hit}
    (found : grammar.firstMatch? state.active.rule.contains state.place = some (rule, hit))
    (mode : rule.isMode = true) :
    state.outer = [] ∨ state.active.rule.illegal = none := by
  have hosted := accounted.hosted
  generalize state.outer = outer at hosted
  cases hosted with
  | ground => exact .inl rfl
  | nested opened =>
    refine .inr ?_
    rcases sound.layered.known with root | inRules
    · rw [Rule.isMode, root, lawful.root] at opened
      cases opened
    · exact accountable.illegal_eq_none inRules opened found mode

theorem State.Accounted.perform (accounted : state.Accounted)
    (sound : state.Sound grammar options text) (lawful : grammar.Lawful)
    (accountable : grammar.Accountable) (left : state.place.rest ≠ []) {action : Action}
    (chosen : Chosen grammar options state action) : (action.perform options state).Accounted := by
  have fits := chosen.fits lawful sound.layered.known left
  have own := accountable.isMark_rule sound.layered.known
  cases chosen with
  | close =>
    simp only [Action.perform]
    split
    next => exact accounted.leave own
    next => exact (accounted.take own _).leave (by simpa [State.take] using own)
  | abandon _ rejects _ nested => exact accounted.abandon sound nested (by simp [rejects])
  | flag _ _ _ ground => exact accounted.flag ground fits.stop_pos
  | leaf _ _ found =>
    have known := has_of_firstMatch? found
    exact (accounted.take (accountable.isMark_head known _) _).take
      (accountable.isMark_rule known) _
  | @enter rule hit _ _ found mode =>
    have known := has_of_firstMatch? found
    have host := accounted.host sound lawful accountable found mode
    have entered := accounted.enter hit.hashes mode host
    exact (entered.take (accountable.isMark_head known _) _).take
      (accountable.isMark_rule known) _
  | unwind =>
    refine accounted.unwind (fun opened isOpen => ?_) _
    exact accountable.isMark_rule (sound.layered.has_of_mem opened isOpen)
  | content _ _ _ taken =>
    exact accounted.take (accountable.kinds_of_has sound.layered.known
      (List.mem_append_right _ (Rule.content_mem taken))) _

theorem Reachable.accounted (reachable : Reachable grammar options text state)
    (lawful : grammar.Lawful) (accountable : grammar.Accountable)
    (room : 0 < options.maxDepth) : state.Accounted := by
  induction reachable with
  | start => exact .start grammar (Text.bytes text)
  | @step before reached left ih =>
    exact ih.perform (reached.sound lawful room) lawful accountable left
      (chosen_next grammar options before)

end Scan

end ModalHighlight
