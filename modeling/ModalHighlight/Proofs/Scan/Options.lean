import ModalHighlight.Proofs.Scan.Numbering

/-! # What the options decide

The options are looked at in two places only: where one more mode would open,
and where the ground mode rejects something.  Either time the scan leaves a
problem behind if the options make it do something else, and no step ever takes
a problem back.  So two runs with different options go in lockstep for as long
as the first of them reports nothing that the options ask for.
-/

namespace ModalHighlight.Scan

variable {grammar : Grammar} {options other : Options} {state : State}

/-! ## Two runs in lockstep -/

section Lockstep

variable {reports : Problem → Prop}

/-- With both options, a scan decides the same in a state and comes to the same. -/
structure Alike (grammar : Grammar) (options other : Options) (state : State) : Prop where
  next : Action.next grammar other state = Action.next grammar options state
  step : step grammar other state = step grammar options state

/-- Two scans that go on alike unless the first of them reports something come to the
same state and make the same tokens unless it does. -/
theorem advance_eq_or_reports
    (alike : ∀ state, Alike grammar options other state ∨
      ∃ problem ∈ (step grammar options state).problems, reports problem)
    (steps : Nat) (state : State) (numbering : Numbering) :
    (advance grammar other steps state = advance grammar options steps state ∧
        Numbering.along grammar other steps state numbering =
          Numbering.along grammar options steps state numbering) ∨
      ∃ problem ∈ (advance grammar options steps state).problems, reports problem := by
  induction steps generalizing state numbering with
  | zero => exact .inl ⟨rfl, rfl⟩
  | succ steps ih =>
    by_cases done : state.place.rest = []
    · rw [advance_of_done done, advance_of_done done, Numbering.along_of_done done,
        Numbering.along_of_done done]
      exact .inl ⟨rfl, rfl⟩
    · rw [Numbering.along_of_left done, Numbering.along_of_left done]
      simp only [advance, List.isEmpty_iff, if_neg done]
      rcases alike state with same | ⟨problem, reported, isOne⟩
      · rw [same.next, same.step]
        exact ih _ _
      · exact .inr ⟨problem, (problems_advance steps _).subset reported, isOne⟩

theorem run_eq_or_reports (text : List UInt8)
    (alike : ∀ state, Alike grammar options other state ∨
      ∃ problem ∈ (step grammar options state).problems, reports problem) :
    (run grammar other text = run grammar options text ∧
        Numbering.run grammar other text = Numbering.run grammar options text) ∨
      ∃ problem ∈ (run grammar options text).problems, reports problem := by
  rcases advance_eq_or_reports alike (2 * text.length) (State.start grammar text) .start with
    ⟨same, made⟩ | ⟨problem, reported, isOne⟩
  · exact .inl ⟨congrArg State.finish same, congrArg (·.tokens.reverse) made⟩
  · refine .inr ⟨problem, ?_, isOne⟩
    exact List.mem_append_left _ (List.mem_reverse.2 reported)

end Lockstep

/-! ## A higher limit -/

/-- The limit is mentioned in what an unwinding reports, and nowhere else. -/
theorem perform_eq_of_ne_unwind {action : Action} (goesOn : action ≠ .unwind) (state : State) :
    action.perform other state = action.perform options state := by
  cases action with
  | unwind => exact absurd rfl goesOn
  | _ => rfl

theorem nested?_of_le (grammar : Grammar) {maxDepth : Nat} (deeper : options.maxDepth ≤ maxDepth)
    (state : State) :
    Action.nested? grammar { options with maxDepth } state =
        Action.nested? grammar options state ∨
      Action.nested? grammar options state = some .unwind := by
  unfold Action.nested?
  cases grammar.firstMatch? state.active.rule.contains state.place with
  | none => exact .inl rfl
  | some found =>
    dsimp only
    by_cases full : options.maxDepth ≤ state.depth
    · cases mode : found.1.isMode with
      | true => exact .inr (by simp [full])
      | false => exact .inl (by simp)
    · exact .inl (by simp [full, Nat.not_le.2 (Nat.lt_of_lt_of_le (Nat.not_le.1 full) deeper)])

theorem next_of_le {maxDepth : Nat} (deeper : options.maxDepth ≤ maxDepth) (state : State) :
    Action.next grammar { options with maxDepth } state = Action.next grammar options state ∨
      Action.next grammar options state = .unwind := by
  have admits : Action.rejection? { options with maxDepth } state =
      Action.rejection? options state := rfl
  unfold Action.next
  rw [admits]
  cases Action.closing? state with
  | some action => exact .inl rfl
  | none =>
    cases Action.rejection? options state with
    | some action => exact .inl rfl
    | none =>
      rcases nested?_of_le grammar deeper state with same | full
      · exact .inl (by rw [same])
      · exact .inr (by rw [full])

theorem alike_of_le {maxDepth : Nat} (deeper : options.maxDepth ≤ maxDepth) (state : State) :
    Alike grammar options { options with maxDepth } state ∨
      ∃ problem ∈ (step grammar options state).problems,
        problem.diagnostic.kind = .nestingLimit := by
  by_cases full : Action.next grammar options state = .unwind
  · rw [step, full]
    exact .inr ⟨_, List.mem_cons_self, rfl⟩
  · rcases next_of_le deeper state with same | unwinds
    · refine .inl ⟨same, ?_⟩
      rw [step, step, same]
      exact perform_eq_of_ne_unwind full state
    · exact absurd unwinds full

/-! ## Markup -/

theorem rejection?_unflagged (options : Options) (state : State) :
    Action.rejection? { options with flagMarkup := false } state =
        Action.rejection? { options with flagMarkup := true } state ∨
      ∃ hit, Action.rejection? { options with flagMarkup := true } state = some (.flag hit) := by
  unfold Action.rejection?
  cases state.active.rule.illegal with
  | none => exact .inl rfl
  | some matcher =>
    dsimp only
    cases matcher.matchAt? state.active.hashes state.place with
    | none => exact .inl rfl
    | some hit =>
      cases state.outer with
      | nil => exact .inr ⟨hit, rfl⟩
      | cons around outer => exact .inl rfl

theorem next_unflagged (grammar : Grammar) (options : Options) (state : State) :
    Action.next grammar { options with flagMarkup := false } state =
        Action.next grammar { options with flagMarkup := true } state ∨
      ∃ hit, Action.next grammar { options with flagMarkup := true } state = .flag hit := by
  have nests : Action.nested? grammar { options with flagMarkup := false } state =
      Action.nested? grammar { options with flagMarkup := true } state := rfl
  unfold Action.next
  rw [nests]
  cases Action.closing? state with
  | some action => exact .inl rfl
  | none =>
    rcases rejection?_unflagged options state with same | ⟨hit, flags⟩
    · exact .inl (by rw [same])
    · exact .inr ⟨hit, by rw [flags]⟩

theorem alike_unflagged (grammar : Grammar) (options : Options) (state : State) :
    Alike grammar { options with flagMarkup := true } { options with flagMarkup := false } state ∨
      ∃ problem ∈ (step grammar { options with flagMarkup := true } state).problems,
        problem.diagnostic.kind = .suspectMarkup := by
  rcases next_unflagged grammar options state with same | ⟨hit, flags⟩
  · refine .inl ⟨same, ?_⟩
    rw [step, step, same]
    -- An unwinding reports the limit, which is the same for both.
    cases Action.next grammar { options with flagMarkup := true } state <;> rfl
  · rw [step, flags]
    exact .inr ⟨_, List.mem_cons_self, rfl⟩

end ModalHighlight.Scan

namespace ModalHighlight.Highlighter

/-- Two highlighters for one language, whose scans go on alike unless the first
reports something, have the same results unless it does. -/
theorem highlight_eq_of_alike {language : Language} {options other : Scan.Options}
    {least : leastMaxDepth ≤ options.maxDepth} {leastOther : leastMaxDepth ≤ other.maxDepth}
    {kind : DiagnosticKind}
    (alike : ∀ state, Scan.Alike language.grammar options other state ∨
      ∃ problem ∈ (Scan.step language.grammar options state).problems,
        problem.diagnostic.kind = kind)
    (text : String)
    (silent : Diagnostic.reported kind
      (Highlighter.highlight ⟨language, options, least⟩ text).diagnostics = false) :
    Highlighter.highlight ⟨language, other, leastOther⟩ text =
      Highlighter.highlight ⟨language, options, least⟩ text := by
  rcases Scan.run_eq_or_reports (Text.bytes text) alike with
    ⟨same, made⟩ | ⟨problem, met, isOne⟩
  · simp only [highlight, same, made]
  · rw [Diagnostic.reported, List.any_eq_false] at silent
    exact absurd (beq_iff_eq.2 isOne) (silent _ (List.mem_map_of_mem met))

/-- A higher limit on open modes changes nothing unless the limit was reported,
and not looking for markup changes nothing unless some was reported. -/
theorem highlight_eq_of_not_reported (options : Scan.Options) (text : String) :
    (∀ maxDepth, options.maxDepth ≤ maxDepth →
      Diagnostic.reported .nestingLimit
          ((default.withOptions options).highlight text).diagnostics = false →
        (default.withOptions { options with maxDepth }).highlight text =
          (default.withOptions options).highlight text) ∧
      (Diagnostic.reported .suspectMarkup
          ((default.withOptions { options with flagMarkup := true }).highlight text).diagnostics =
            false →
        (default.withOptions { options with flagMarkup := false }).highlight text =
          (default.withOptions { options with flagMarkup := true }).highlight text) := by
  constructor
  · intro maxDepth deeper
    have raised : max options.maxDepth leastMaxDepth ≤ max maxDepth leastMaxDepth := by omega
    exact highlight_eq_of_alike (Scan.alike_of_le raised) text
  · exact highlight_eq_of_alike
      (Scan.alike_unflagged Language.flint.grammar (default.withOptions options).options) text

/-- A comment in a comment stays within three modes, and what looks like markup
in it is no markup. -/
theorem highlight_eq_nested_comment :
    (default.withOptions ⟨7, true⟩).highlight "/* </ /* */ */ x" =
        (default.withOptions ⟨3, true⟩).highlight "/* </ /* */ */ x" ∧
      (default.withOptions ⟨3, false⟩).highlight "/* </ /* */ */ x" =
        (default.withOptions ⟨3, true⟩).highlight "/* </ /* */ */ x" :=
  have both := highlight_eq_of_not_reported ⟨3, true⟩ "/* </ /* */ */ x"
  ⟨both.1 7 (by decide) (by decide), both.2 (by decide)⟩

end ModalHighlight.Highlighter
