import ModalHighlight.Highlighter
import ModalHighlight.Proofs.Scan.Invariant

/-! # Scans keep their invariant and come to an end

Every step of a scan leads from a sound state to a sound state, and lowers what
is left to do: twice the bytes in front of the scan and the modes around the
active one.  So the steps that a run is given suffice to reach the end of the
text, and the outline of a run tiles all of it.
-/

namespace ModalHighlight.Scan

open Text (Border Cut Whole)

variable {grammar : Grammar} {options : Options} {text : String} {state : State}
variable {action : Action}

/-! ## Operations on sound states -/

namespace State.Sound

theorem whole_rest (sound : state.Sound grammar options text) : Whole state.place.rest := by
  rw [sound.rest_eq]
  exact (Text.border_iff_whole_drop.1 sound.border).2

theorem take (sound : state.Sound grammar options text) (kind : Kind) {length : Nat}
    (cut : Cut state.place.rest length) : (state.take kind length).Sound grammar options text := by
  obtain ⟨moved, here⟩ := sound.skip cut
  constructor
  · simp only [State.take, State.offset, moved]
    rfl
  · simp only [State.take, State.offset, moved]
    exact sound.layered.add kind (Nat.le_add_right _ _) here

theorem enter (sound : state.Sound grammar options text) {rule : Rule} (hashes : Nat)
    (kind : Kind) {length : Nat} (known : grammar.Has rule) (room : state.depth < options.maxDepth)
    (head : Lexeme.Fits state.place.rest length) :
    ((state.enter rule hashes).take kind length).Sound grammar options text := by
  obtain ⟨moved, here⟩ := sound.skip head.cut
  have nonempty : state.offset < state.offset + length := Nat.lt_add_of_pos_right head.pos
  constructor
  · simp only [State.take, State.enter, State.offset, moved]
    rfl
  · simp only [State.take, State.enter, State.offset, moved]
    exact sound.layered.enter hashes kind known room nonempty here

theorem leave (sound : state.Sound grammar options text) :
    state.leave.Sound grammar options text := by
  have layered := sound.layered
  unfold State.leave
  split
  next => exact sound
  next around outer modes =>
    rw [modes] at layered
    exact ⟨sound.place, layered.leave⟩

theorem abandon (sound : state.Sound grammar options text) :
    state.abandon.Sound grammar options text := by
  have layered := sound.layered
  unfold State.abandon
  split
  next => exact sound
  next around outer modes =>
    rw [modes] at layered
    exact ⟨sound.place, layered.abandon .error⟩

theorem unwind (sound : state.Sound grammar options text) (maxDepth : Nat) :
    (state.unwind maxDepth).Sound grammar options text :=
  ⟨sound.place, sound.layered.unwind⟩

theorem flag (sound : state.Sound grammar options text) {length : Nat}
    (cut : Cut state.place.rest length) : (state.flag length).Sound grammar options text := by
  have taken := sound.take .illegal cut
  exact ⟨taken.place, taken.layered⟩

theorem takeMatch {before : State} {rule : Rule} {hit : Hit} (whole : Whole before.place.rest)
    (fits : hit.Fits before.place.rest)
    (head : ∀ kind, (before.take kind hit.headStop).Sound grammar options text) :
    (Action.takeMatch rule hit before).Sound grammar options text := by
  -- What is left of the match is a cut of what its head leaves.
  refine (head _).take rule.kind ?_
  simp only [State.take, Cursor.rest_skip]
  exact fits.whole.sub whole fits.le

/-- What a scan decides to do leads to a sound state. -/
theorem perform (sound : state.Sound grammar options text) (lawful : grammar.Lawful)
    (left : state.place.rest ≠ []) (chosen : Chosen grammar options state action) :
    (action.perform options state).Sound grammar options text := by
  have fits := chosen.fits lawful sound.layered.known left
  cases chosen with
  | @close matcher hit =>
    simp only [Action.perform]
    split
    next => exact sound.leave
    next => exact (sound.take _ fits.whole).leave
  | abandon => exact sound.abandon
  | flag => exact sound.flag fits.whole
  | leaf =>
    exact takeMatch sound.whole_rest fits fun kind => sound.take kind fits.head.cut
  | enter _ _ found _ room =>
    -- The head goes to the new mode, so no mode is ever left without text.
    refine takeMatch sound.whole_rest fits fun kind => ?_
    exact sound.enter _ kind (has_of_firstMatch? found) room fits.head
  | unwind => exact sound.unwind options.maxDepth
  | content => exact sound.take _ fits.cut

end State.Sound

/-- Every state that a scan comes to is sound. -/
theorem Reachable.sound (reachable : Reachable grammar options text state)
    (lawful : grammar.Lawful) (room : 0 < options.maxDepth) :
    state.Sound grammar options text := by
  induction reachable with
  | start => exact .start grammar text room
  | @step before _ left ih => exact ih.perform lawful left (chosen_next grammar options before)

/-! ## What is left to do -/

/-- A bound on the steps that a scan still takes. -/
def State.toDo (state : State) : Nat := 2 * state.place.rest.length + state.outer.length

theorem length_rest_take (state : State) (kind : Kind) (length : Nat) :
    (state.take kind length).place.rest.length = state.place.rest.length - length := by
  simp only [State.take, Cursor.rest_skip, List.length_drop]

theorem length_rest_takeMatch (rule : Rule) (state : State) {hit : Hit}
    (ordered : hit.headStop ≤ hit.stop) :
    (Action.takeMatch rule hit state).place.rest.length =
      state.place.rest.length - hit.stop := by
  simp only [Action.takeMatch, length_rest_take]
  omega

theorem toDo_leave_lt (nested : state.outer ≠ []) : state.leave.toDo < state.toDo := by
  unfold State.leave State.toDo
  split
  next ground => exact absurd ground nested
  next modes => simp [modes]

theorem toDo_abandon_lt (nested : state.outer ≠ []) : state.abandon.toDo < state.toDo := by
  unfold State.abandon State.toDo
  split
  next ground => exact absurd ground nested
  next modes => simp [modes]

/-- Taking text leaves less to do, even if a mode opens in front of it. -/
theorem toDo_lt_of_rest {after : State} {length : Nat} (taken : 0 < length)
    (within : length ≤ state.place.rest.length)
    (rest : after.place.rest.length = state.place.rest.length - length)
    (outer : after.outer.length ≤ state.outer.length + 1) : after.toDo < state.toDo := by
  unfold State.toDo
  omega

/-- What a scan decides to do leaves it less to do. -/
theorem Chosen.toDo_perform_lt (chosen : Chosen grammar options state action)
    (lawful : grammar.Lawful) (sound : state.Sound grammar options text)
    (left : state.place.rest ≠ []) (room : leastMaxDepth ≤ options.maxDepth) :
    (action.perform options state).toDo < state.toDo := by
  have fits := chosen.fits lawful sound.layered.known left
  cases chosen with
  | @close matcher hit ends found =>
    have nested := sound.layered.outer_ne_nil lawful ends
    simp only [Action.perform]
    split
    next => exact toDo_leave_lt nested
    next =>
      refine Nat.lt_trans (toDo_leave_lt nested) ?_
      exact toDo_lt_of_rest fits.stop_pos fits.whole.le_length (length_rest_take _ _ _)
        (Nat.le_succ _)
  | abandon _ _ _ nested => exact toDo_abandon_lt nested
  | flag =>
    exact toDo_lt_of_rest fits.stop_pos fits.whole.le_length (length_rest_take _ .illegal _)
      (Nat.le_succ _)
  | leaf =>
    exact toDo_lt_of_rest fits.stop_pos fits.whole.le_length
      (length_rest_takeMatch _ _ fits.le) (Nat.le_succ _)
  | enter =>
    exact toDo_lt_of_rest fits.stop_pos fits.whole.le_length
      (length_rest_takeMatch _ _ fits.le) (Nat.le_refl _)
  | unwind _ _ _ _ full =>
    -- A limit of at least two is only reached with a mode above the ground.
    simp only [State.depth, leastMaxDepth] at full room
    simp only [Action.perform, State.unwind, State.toDo, List.length_nil]
    omega
  | content =>
    exact toDo_lt_of_rest fits.pos fits.cut.le_length (length_rest_take _ _ _) (Nat.le_succ _)

/-- A scan comes to the end of its text in as many steps as it has left to do. -/
theorem rest_advance_eq_nil (lawful : grammar.Lawful) (room : leastMaxDepth ≤ options.maxDepth)
    {steps : Nat} (sound : state.Sound grammar options text) (enough : state.toDo ≤ steps) :
    (advance grammar options steps state).place.rest = [] := by
  -- Soundness goes along with the steps, because progress rests on it.
  induction steps generalizing state with
  | zero =>
    unfold State.toDo at enough
    exact List.eq_nil_of_length_eq_zero (by simp only [advance]; omega)
  | succ steps ih =>
    simp only [advance, List.isEmpty_iff]
    by_cases done : state.place.rest = []
    · rw [if_pos done]
      exact done
    · rw [if_neg done]
      have chosen := chosen_next grammar options state
      have less := chosen.toDo_perform_lt lawful sound done room
      have enoughLeft := Nat.le_of_lt_succ (Nat.lt_of_lt_of_le less enough)
      exact ih (sound.perform lawful done chosen) enoughLeft

/-! ## Outlines of scans -/

/-- At every moment, what a scan has found so far tiles the text in front of it. -/
theorem State.Sound.outline (sound : state.Sound grammar options text) :
    state.finish.outline.Tiles (Border text) 0 state.offset ∧
      state.finish.outline.depth < options.maxDepth := by
  have layered := sound.layered.unwind
  cases layered with
  | ground _ _ tiles room => exact ⟨tiles, room⟩

/-! ## Problems are never taken back -/

@[simp] theorem problems_take (state : State) (kind : Kind) (length : Nat) :
    (state.take kind length).problems = state.problems := rfl

@[simp] theorem problems_enter (state : State) (rule : Rule) (hashes : Nat) :
    (state.enter rule hashes).problems = state.problems := rfl

@[simp] theorem problems_leave (state : State) : state.leave.problems = state.problems := by
  unfold State.leave
  split <;> rfl

theorem problems_abandon (state : State) : state.problems <:+ state.abandon.problems := by
  unfold State.abandon
  split
  next => exact List.suffix_refl _
  next => exact List.suffix_cons _ _

theorem problems_perform (action : Action) (state : State) :
    state.problems <:+ (action.perform options state).problems := by
  cases action with
  | close hit =>
    simp only [Action.perform]
    split <;> simp
  | abandon => exact problems_abandon state
  | flag hit => exact List.suffix_cons _ _
  | leaf rule hit => exact List.suffix_refl _
  | enter rule hit => exact List.suffix_refl _
  | unwind => exact List.suffix_cons _ _
  | content kind length => exact List.suffix_refl _

theorem problems_advance (steps : Nat) (state : State) :
    state.problems <:+ (advance grammar options steps state).problems := by
  induction steps generalizing state with
  | zero => exact List.suffix_refl _
  | succ steps ih =>
    simp only [advance]
    split
    next => exact List.suffix_refl _
    next => exact (problems_perform _ state).trans (ih _)

/-! ## The last state -/

theorem advance_of_done (done : state.place.rest = []) (steps : Nat) :
    advance grammar options steps state = state := by
  cases steps with
  | zero => rfl
  | succ steps => simp [advance, done]

theorem advance_add (first second : Nat) (state : State) :
    advance grammar options (first + second) state =
      advance grammar options second (advance grammar options first state) := by
  induction first generalizing state with
  | zero => simp [advance]
  | succ first ih =>
    rw [Nat.succ_add]
    simp only [advance, List.isEmpty_iff]
    by_cases done : state.place.rest = []
    · rw [if_pos done, if_pos done, advance_of_done done]
    · rw [if_neg done, if_neg done]
      exact ih _

theorem Reachable.exists_advance (reachable : Reachable grammar options text state) :
    ∃ steps, state =
      Scan.advance grammar options steps (State.start grammar (Text.bytes text)) := by
  induction reachable with
  | start => exact ⟨0, rfl⟩
  | step _ left ih =>
    obtain ⟨steps, rfl⟩ := ih
    refine ⟨steps + 1, ?_⟩
    rw [advance_add]
    simp [Scan.advance, left]

/-- A run comes to a state in which no text is left, and makes its findings there. -/
theorem reachable_run (lawful : grammar.Lawful) (room : leastMaxDepth ≤ options.maxDepth)
    (text : String) :
    ∃ last : State, Reachable grammar options text last ∧ last.place.rest = [] ∧
      run grammar options (Text.bytes text) = last.finish := by
  have positive : 0 < options.maxDepth := Nat.lt_of_lt_of_le (by decide) room
  refine ⟨_, Reachable.start.advance (2 * (Text.bytes text).length), ?_, rfl⟩
  exact rest_advance_eq_nil lawful room (.start grammar text positive) (Nat.le_refl _)

theorem State.Sound.offset_of_done (sound : state.Sound grammar options text)
    (done : state.place.rest = []) : state.offset = text.utf8ByteSize := by
  rw [sound.rest_eq, List.drop_eq_nil_iff, Text.length_bytes] at done
  exact Nat.le_antisymm sound.border.le_utf8ByteSize done

/-- There is only one such state, so its findings are those of the run. -/
theorem Reachable.run_eq (reachable : Reachable grammar options text state)
    (lawful : grammar.Lawful) (room : leastMaxDepth ≤ options.maxDepth)
    (done : state.place.rest = []) : run grammar options (Text.bytes text) = state.finish := by
  obtain ⟨steps, eq⟩ := reachable.exists_advance
  obtain ⟨last, reachableLast, doneLast, result⟩ := reachable_run lawful room text
  obtain ⟨others, eqLast⟩ := reachableLast.exists_advance
  -- Both are where as many steps lead as both of them took.
  have both := @advance_add grammar options steps others
    (State.start grammar (Text.bytes text))
  rw [Nat.add_comm, advance_add, ← eq, ← eqLast, advance_of_done done,
    advance_of_done doneLast] at both
  rw [result, both]

end ModalHighlight.Scan

namespace ModalHighlight.Highlighter

/-- What a highlighter finds tiles all of the text, within the limit on modes. -/
theorem tiles_highlight (highlighter : Highlighter) (lawful : highlighter.language.grammar.Lawful)
    (text : String) :
    (highlighter.highlight text).outline.Tiles (Text.Border text) 0 text.utf8ByteSize ∧
      (highlighter.highlight text).outline.depth < highlighter.options.maxDepth := by
  have room := highlighter.leastMaxDepth_le
  obtain ⟨last, reached, done, result⟩ := Scan.reachable_run lawful room text
  have sound := reached.sound lawful (Nat.lt_of_lt_of_le (by decide) room)
  simp only [highlight, result, ← sound.offset_of_done done]
  exact sound.outline

/-- With any options, what is found in a text as Flint tiles it. -/
theorem tiles_withOptions (options : Scan.Options) (text : String) :
    ((default.withOptions options).highlight text).outline.Tiles (Text.Border text) 0
        text.utf8ByteSize ∧
      ((default.withOptions options).highlight text).outline.depth <
        max options.maxDepth leastMaxDepth :=
  (default.withOptions options).tiles_highlight Flint.grammar_lawful text

end ModalHighlight.Highlighter
