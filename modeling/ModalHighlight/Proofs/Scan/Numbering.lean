import ModalHighlight.Proofs.Scan.Completion
import ModalHighlight.Scan.Numbering

/-! # Numberings go along with scans

A numbering takes a step with every step of a scan.  What holds of the two at the
start and is kept by every such step holds of them together at the end, where the
tokens of the numbering are those of the text.
-/

namespace ModalHighlight.Scan.Numbering

variable {grammar : Grammar} {options : Options} {text : String} {state : State}
variable {numbering : Numbering}

/-! ## Adding text -/

@[simp] theorem active_add (numbering : Numbering) (owner : UInt32) (kind : Kind) (span : Span) :
    (numbering.add owner kind span).active = numbering.active := by
  unfold add
  split <;> rfl

/-- Text that is added in two parts may be added at once. -/
theorem add_add {owner : UInt32} {kind : Kind} {start middle stop : Nat} (first : start < middle)
    (second : middle < stop) :
    (numbering.add owner kind ⟨start, middle⟩).add owner kind ⟨middle, stop⟩ =
      numbering.add owner kind ⟨start, stop⟩ := by
  have proper : ∀ {start stop : Nat}, start < stop → (⟨start, stop⟩ : Span).isEmpty = false :=
    fun less => by simpa [Span.isEmpty] using less
  simp only [add, proper first, proper second, proper (Nat.lt_trans first second),
    Bool.false_eq_true, if_false, decide_true]
  congr 1
  -- The first part is the end of the last token, which the second part joins.
  cases numbering.tokens with
  | nil => simp [append]
  | cons token earlier =>
    by_cases joins : owner = numbering.last ∧ token.kind = kind ∧ token.span.stop = start
    · simp [append, joins]
    · simp [append, joins]

/-- Content of the active mode carries its number. -/
theorem follow_content {kind : Kind} (own : kind = state.active.rule.kind) (length : Nat)
    (numbering : Numbering) :
    numbering.follow (.content kind length) state =
      numbering.add numbering.active kind ⟨state.offset, state.offset + length⟩ := by
  rw [follow, emit, if_pos own]

/-! ## Step by step -/

theorem along_of_done (done : state.place.rest = []) (steps : Nat) :
    along grammar options steps state numbering = numbering := by
  cases steps with
  | zero => rfl
  | succ steps => simp [along, done]

theorem along_of_left (left : state.place.rest ≠ []) (steps : Nat) :
    along grammar options (steps + 1) state numbering =
      along grammar options steps (Scan.step grammar options state)
        (numbering.follow (Action.next grammar options state) state) := by
  rw [along, if_neg (by simpa using left)]
  rfl

theorem along_add (first second : Nat) (state : State) (numbering : Numbering) :
    along grammar options (first + second) state numbering =
      along grammar options second (Scan.advance grammar options first state)
        (along grammar options first state numbering) := by
  induction first generalizing state numbering with
  | zero => rw [Nat.zero_add]; rfl
  | succ first ih =>
    rw [Nat.succ_add]
    by_cases done : state.place.rest = []
    · rw [along_of_done done, along_of_done done, advance_of_done done, along_of_done done]
    · rw [along_of_left done, along_of_left done, ih]
      simp [Scan.advance, done]

/-! ## What a numbering comes to -/

/-- A scan of a text comes to a state, and a numbering that goes along with it to another. -/
inductive Made (grammar : Grammar) (options : Options) (text : String) : State → Numbering → Prop
  | start : Made grammar options text (.start grammar (Text.bytes text)) .start
  | step {state : State} {numbering : Numbering} (before : Made grammar options text state numbering)
      (left : state.place.rest ≠ []) :
      Made grammar options text (Scan.step grammar options state)
        (numbering.follow (Action.next grammar options state) state)

theorem Made.reachable (made : Made grammar options text state numbering) :
    Reachable grammar options text state := by
  induction made with
  | start => exact .start
  | step _ left ih => exact ih.step left

theorem Made.advance (made : Made grammar options text state numbering) (steps : Nat) :
    Made grammar options text (Scan.advance grammar options steps state)
      (along grammar options steps state numbering) := by
  induction steps generalizing state numbering with
  | zero => exact made
  | succ steps ih =>
    by_cases done : state.place.rest = []
    · rw [advance_of_done done, along_of_done done]
      exact made
    · rw [along_of_left done]
      simp only [Scan.advance, List.isEmpty_iff, if_neg done]
      exact ih (made.step done)

theorem Made.exists_steps (made : Made grammar options text state numbering) :
    ∃ steps, state = Scan.advance grammar options steps (State.start grammar (Text.bytes text)) ∧
      numbering = along grammar options steps (State.start grammar (Text.bytes text)) .start := by
  induction made with
  | start => exact ⟨0, rfl, rfl⟩
  | step _ left ih =>
    obtain ⟨steps, rfl, rfl⟩ := ih
    refine ⟨steps + 1, ?_, ?_⟩
    · rw [advance_add]
      simp [Scan.advance, left]
    · rw [along_add, along_of_left left]
      rfl

/-- Where no text is left, the tokens are those of the text. -/
theorem Made.run_eq (made : Made grammar options text state numbering) (lawful : grammar.Lawful)
    (room : leastMaxDepth ≤ options.maxDepth) (done : state.place.rest = []) :
    Scan.run grammar options (Text.bytes text) = state.finish ∧
      run grammar options (Text.bytes text) = numbering.tokens.reverse := by
  refine ⟨made.reachable.run_eq lawful room done, ?_⟩
  have positive : 0 < options.maxDepth := Nat.lt_of_lt_of_le (by decide) room
  have doneRun : (Scan.advance grammar options (2 * (Text.bytes text).length)
      (State.start grammar (Text.bytes text))).place.rest = [] :=
    rest_advance_eq_nil lawful room (.start grammar text positive) (Nat.le_refl _)
  obtain ⟨steps, rfl, rfl⟩ := made.exists_steps
  -- Both are where as many steps lead as both of them took.
  have both := @along_add grammar options steps (2 * (Text.bytes text).length)
    (State.start grammar (Text.bytes text)) .start
  rw [Nat.add_comm, along_add, along_of_done doneRun, along_of_done done] at both
  rw [run, both]

theorem exists_made_run (lawful : grammar.Lawful) (room : leastMaxDepth ≤ options.maxDepth)
    (text : String) :
    ∃ last numbering, Made grammar options text last numbering ∧ last.place.rest = [] ∧
      Scan.run grammar options (Text.bytes text) = last.finish ∧
        run grammar options (Text.bytes text) = numbering.tokens.reverse := by
  have positive : 0 < options.maxDepth := Nat.lt_of_lt_of_le (by decide) room
  have done := rest_advance_eq_nil lawful room (.start grammar text positive)
    (Nat.le_refl (2 * (Text.bytes text).length))
  exact ⟨_, _, Made.start.advance (2 * (Text.bytes text).length), done, rfl, rfl⟩

end ModalHighlight.Scan.Numbering
