import ModalHighlight.Proofs.Outline.Nests
import ModalHighlight.Proofs.Scan.Completion

/-! # Modes that are closed all at once

At the end of the text, and when the limit is reached, all modes above the
ground are closed together.  Their scopes then stop where the scan stands and
lie in one another, and no other scope that reaches there encloses one of them.
The ground mode is never given up, so a nest of scopes that an unwinding leaves
in it stays there for good.
-/

namespace ModalHighlight.Scan

variable {grammar : Grammar} {options : Options} {text : String} {state : State}
variable {border : Nat → Prop} {limit stop : Nat} {mode around : OpenMode}
variable {outer : List OpenMode}

/-! ## Modes that the end of the text closes -/

section Unterminated

open State (unterminated)

theorem unterminated_enclose (stop : Nat) (around mode : OpenMode) (outer : List OpenMode) :
    unterminated stop (around.enclose mode stop) outer = unterminated stop around outer := by
  cases outer <;> rfl

theorem of_mem_unterminated {problem : Problem} (member : problem ∈ unterminated stop mode outer) :
    problem.diagnostic.kind = .unterminated ∧ problem.diagnostic.span.stop = stop := by
  induction outer generalizing mode with
  | nil => cases member
  | cons around outer ih =>
    rcases List.mem_cons.1 member with rfl | below
    · exact ⟨rfl, rfl⟩
    · exact ih below

/-- A mode above the ground begins before what is in front of the scan. -/
theorem Layered.start_lt {here : Nat} (layered : Layered grammar border limit mode outer here) :
    ∀ problem ∈ unterminated stop mode outer, problem.diagnostic.span.start < here := by
  induction layered with
  | ground =>
    intro problem member
    cases member
  | nested _ tiles leads _ _ ih =>
    have proper := tiles.lt_of_leads leads
    intro problem member
    rcases List.mem_cons.1 member with rfl | below
    · exact proper
    · exact Nat.lt_trans (ih problem below) proper

theorem Layered.pairwise_unterminated {here : Nat}
    (layered : Layered grammar border limit mode outer here) :
    (unterminated stop mode outer).Pairwise fun inner outer =>
      outer.diagnostic.span.start < inner.diagnostic.span.start := by
  induction layered with
  | ground => exact .nil
  | nested _ _ _ _ below ih => exact List.pairwise_cons.2 ⟨below.start_lt, ih⟩

theorem mem_ground_of_mem {s : Scope} (member : s ∈ mode.inside.scopes) :
    s ∈ (State.ground stop mode outer).inside.scopes := by
  induction outer generalizing mode with
  | nil => exact member
  | cons around outer ih => exact ih (by simp [OpenMode.enclose, member])

theorem exists_scope_of_mem_unterminated {problem : Problem}
    (member : problem ∈ unterminated stop mode outer) :
    ∃ s ∈ (State.ground stop mode outer).inside.scopes, s.span = problem.diagnostic.span := by
  induction outer generalizing mode with
  | nil => cases member
  | cons around outer ih =>
    rcases List.mem_cons.1 member with rfl | below
    · have enclosed : (⟨mode.rule.kind, ⟨mode.start, stop⟩⟩ : Scope) ∈
          (around.enclose mode stop).inside.scopes := by
        simp [OpenMode.enclose]
      exact ⟨_, @mem_ground_of_mem stop _ outer _ enclosed, rfl⟩
    · exact ih (unterminated_enclose stop around mode outer ▸ below)

/-- A scope that reaches to where the modes are closed is one of them, or lies
inside the innermost. -/
theorem Layered.mem_unterminated {s : Scope}
    (layered : Layered grammar border limit mode outer stop)
    (member : s ∈ (State.ground stop mode outer).inside.scopes) (reaches : stop ≤ s.span.stop) :
    s ∈ mode.inside.scopes ∨
      ∃ problem ∈ unterminated stop mode outer, problem.diagnostic.span = s.span := by
  induction outer generalizing mode with
  | nil => exact .inl member
  | cons around outer ih =>
    rcases ih layered.leave member with inside | ⟨problem, below, same⟩
    · simp only [OpenMode.enclose, Outline.scopes_scope, List.mem_append, List.mem_cons] at inside
      rcases inside with earlier | rfl | inner
      · -- What came before the innermost mode stops where that mode begins.
        cases layered with
        | nested _ tiles leads _ below =>
          have proper := tiles.lt_of_leads leads
          have bounds : s.span.stop ≤ mode.start := by
            cases below with
            | ground _ _ tilesAround => exact (tilesAround.scopes_within s earlier).2.2
            | nested _ tilesAround => exact (tilesAround.scopes_within s earlier).2.2
          omega
      · exact .inr ⟨_, List.mem_cons_self, rfl⟩
      · exact .inl inner
    · rw [unterminated_enclose] at below
      exact .inr ⟨problem, List.mem_cons_of_mem _ below, same⟩

/-- What encloses a mode that the end closes is such a mode too. -/
theorem Layered.exists_unterminated_of_encloses {s : Scope} {problem : Problem}
    (layered : Layered grammar border limit mode outer stop)
    (isOpen : problem ∈ unterminated stop mode outer)
    (member : s ∈ (State.ground stop mode outer).inside.scopes)
    (encloses : s.span.encloses problem.diagnostic.span = true) :
    ∃ other ∈ unterminated stop mode outer, other.diagnostic.span = s.span := by
  rw [Span.encloses_eq_true, (of_mem_unterminated isOpen).2] at encloses
  rcases layered.mem_unterminated member encloses.2 with inside | found
  · -- A scope inside the innermost mode begins after all of them.
    cases layered with
    | ground => cases isOpen
    | nested _ tiles leads _ below =>
      have behind := tiles.start_lt_of_leads leads s inside
      rcases List.mem_cons.1 isOpen with rfl | further
      · exact absurd encloses.1 (Nat.not_le.2 behind)
      · have before := below.start_lt problem further
        omega
  · exact found

end Unterminated

/-! ## Modes that an unwinding closes -/

/-- The ground mode, under all others. -/
def OpenMode.bottom : OpenMode → List OpenMode → OpenMode
  | mode, [] => mode
  | _, around :: outer => bottom around outer

section Nests

open Outline (EndsNested HasNest)
open State (outermostStart)

variable {span : Span} {count : Nat}

/-- All modes above the ground become a nest of scopes. -/
theorem hasNest_ground (here : Nat) (ends : EndsNested stop count mode.inside) :
    HasNest ⟨outermostStart here mode (around :: outer), stop⟩ (count + outer.length)
      (State.ground stop mode (around :: outer)).inside := by
  induction outer generalizing mode around count with
  | nil => exact .here rfl ends
  | cons next outer ih =>
    have enclosed : EndsNested stop (count + 1) (around.enclose mode stop).inside :=
      .scope rfl ends
    rw [List.length_cons, Nat.add_comm outer.length, ← Nat.add_assoc]
    exact ih enclosed

theorem hasNest_add (kind : Kind) (added : Span)
    (nest : HasNest span count (OpenMode.bottom mode outer).inside) :
    HasNest span count (OpenMode.bottom (mode.add kind added) outer).inside := by
  cases outer with
  | nil =>
    simp only [OpenMode.bottom, OpenMode.add] at nest ⊢
    split
    · exact nest
    · exact nest.piece _
  | cons around outer => exact nest

theorem hasNest_enclose (mode : OpenMode) (stop : Nat)
    (nest : HasNest span count (OpenMode.bottom around outer).inside) :
    HasNest span count (OpenMode.bottom (around.enclose mode stop) outer).inside := by
  cases outer with
  | nil => exact nest.scope _ _
  | cons next outer => exact nest

theorem hasNest_ground_of_bottom (stop : Nat)
    (nest : HasNest span count (OpenMode.bottom mode outer).inside) :
    HasNest span count (State.ground stop mode outer).inside := by
  induction outer generalizing mode with
  | nil => exact nest
  | cons around outer ih => exact ih (hasNest_enclose mode stop nest)

/-- The nests of all unwindings so far are in the ground mode. -/
def State.Unwound (options : Options) (state : State) : Prop :=
  ∀ problem ∈ state.problems, problem.diagnostic.kind = .nestingLimit →
    HasNest problem.diagnostic.span (options.maxDepth - 2)
      (OpenMode.bottom state.active state.outer).inside

namespace State.Unwound

theorem take (unwound : state.Unwound options) (kind : Kind) (length : Nat) :
    (state.take kind length).Unwound options :=
  fun problem met limited => hasNest_add kind _ (unwound problem met limited)

theorem leave (unwound : state.Unwound options) : state.leave.Unwound options := by
  unfold State.leave
  split
  next => exact unwound
  next around outer modes =>
    intro problem met limited
    have nest := unwound problem met limited
    rw [modes] at nest
    exact hasNest_enclose state.active state.offset nest

theorem abandon (unwound : state.Unwound options) : state.abandon.Unwound options := by
  unfold State.abandon
  split
  next => exact unwound
  next around outer modes =>
    intro problem met limited
    rcases List.mem_cons.1 met with rfl | earlier
    · cases limited
    · have nest := unwound problem earlier limited
      rw [modes] at nest
      exact hasNest_add .error _ nest

theorem flag (unwound : state.Unwound options) (length : Nat) :
    (state.flag length).Unwound options := by
  intro problem met limited
  rcases List.mem_cons.1 met with rfl | earlier
  · cases limited
  · exact hasNest_add .illegal _ (unwound problem earlier limited)

/-- The limit is reached with as many modes open as are allowed, neither more
nor fewer. -/
theorem unwind (unwound : state.Unwound options) (sound : state.Sound grammar options text)
    (room : leastMaxDepth ≤ options.maxDepth) (full : options.maxDepth ≤ state.depth) :
    (state.unwind options.maxDepth).Unwound options := by
  intro problem met limited
  rcases List.mem_cons.1 met with rfl | earlier
  · have layered := sound.layered
    simp only [State.depth, leastMaxDepth] at room full
    simp only [State.unwind, OpenMode.bottom, Problem.diagnostic, Diagnostic.nestingLimit]
    generalize state.outer = outer at layered full
    cases layered with
    | ground => exact absurd full (by simp only [List.length_nil]; omega)
    | @nested _ around outer _ _ _ _ within =>
      have count : options.maxDepth - 2 = 0 + outer.length := by
        simp only [List.length_cons] at full
        omega
      rw [count]
      exact hasNest_ground state.offset (.none _)
  · exact hasNest_ground_of_bottom _ (unwound problem earlier limited)

theorem perform (unwound : state.Unwound options) (sound : state.Sound grammar options text)
    (room : leastMaxDepth ≤ options.maxDepth) {action : Action}
    (chosen : Chosen grammar options state action) :
    (action.perform options state).Unwound options := by
  cases chosen with
  | close =>
    simp only [Action.perform]
    split
    next => exact unwound.leave
    next => exact (unwound.take _ _).leave
  | abandon => exact unwound.abandon
  | flag => exact unwound.flag _
  | leaf => exact (unwound.take _ _).take _ _
  | @enter rule hit =>
    have entered : (state.enter rule hit.hashes).Unwound options := unwound
    exact (entered.take _ _).take _ _
  | unwind _ _ _ _ full => exact unwound.unwind sound room full
  | content => exact unwound.take _ _

end State.Unwound

end Nests

theorem Reachable.unwound (reachable : Reachable grammar options text state)
    (lawful : grammar.Lawful) (room : leastMaxDepth ≤ options.maxDepth) :
    state.Unwound options := by
  have positive : 0 < options.maxDepth := Nat.lt_of_lt_of_le (by decide) room
  induction reachable with
  | start =>
    intro problem met
    cases met
  | @step before reached left ih =>
    exact ih.perform (reached.sound lawful positive) room (chosen_next grammar options before)

end ModalHighlight.Scan
