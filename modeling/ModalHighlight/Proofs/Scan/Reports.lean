import ModalHighlight.Proofs.Scan.Closing
import ModalHighlight.Proofs.Scan.Coalescing
import ModalHighlight.Proofs.Scan.Marks
import ModalHighlight.Proofs.Token.Alone

/-! # Diagnostics and what they are about

Every diagnostic can be found again in the tokens and scopes.  Marks become
tokens of their own, because no mode has their kinds; the modes that are open
at the end are reported last, each as the scope that it becomes; and each time
the limit is reached, as many scopes as were open stop together.
-/

namespace ModalHighlight

/-! ## Marks and their diagnostics -/

/-- The diagnostics that the marks of a kind are reported by. -/
def Kind.report? : Kind → Option DiagnosticKind
  | error => some .malformedMode
  | illegal => some .suspectMarkup
  | _ => none

theorem Kind.isMark_of_report? {kind : Kind} {report : DiagnosticKind}
    (reports : kind.report? = some report) : kind.isMark = true ∧ kind ≠ .plain := by
  cases kind <;> first | exact ⟨rfl, by decide⟩ | cases reports

theorem Problem.spans_filterMap_mark? {kind : Kind} {report : DiagnosticKind}
    (reports : kind.report? = some report) (problems : List Problem) :
    ((problems.filterMap mark?).filter (·.kind == kind)).map Piece.span =
      ((problems.map diagnostic).filter (·.kind == report)).map Diagnostic.span := by
  have pairs : (kind = .error ∧ report = .malformedMode) ∨
      (kind = .illegal ∧ report = .suspectMarkup) := by
    cases kind <;> cases reports <;> simp
  induction problems with
  | nil => rfl
  | cons problem problems ih =>
    rcases pairs with ⟨rfl, rfl⟩ | ⟨rfl, rfl⟩ <;> cases problem <;>
      simpa [mark?, diagnostic, Diagnostic.malformed, Diagnostic.unterminated,
        Diagnostic.nestingLimit, Diagnostic.suspectMarkup, List.filterMap_cons,
        List.filter_cons] using ih

namespace Scan

variable {grammar : Grammar} {options : Options} {text : String} {state : State}

theorem filterMap_mark?_unterminated (stop : Nat) (mode : OpenMode) (outer : List OpenMode) :
    (State.unterminated stop mode outer).filterMap Problem.mark? = [] := by
  induction outer generalizing mode with
  | nil => rfl
  | cons around outer ih => exact ih around

/-- The spans of the marks of a finished scan are those that it reports. -/
theorem State.Accounted.spans_finish (accounted : state.Accounted) {kind : Kind}
    {report : DiagnosticKind} (reports : kind.report? = some report) :
    (state.finish.outline.pieces.filter (·.kind == kind)).map Piece.span =
      ((state.finish.problems.map Problem.diagnostic).filter (·.kind == report)).map
        Diagnostic.span := by
  have all : state.finish.problems.filterMap Problem.mark? =
      state.pieces.filter (·.kind.isMark) := by
    simp only [State.finish, List.filterMap_append, filterMap_mark?_unterminated, List.append_nil,
      accounted.marks]
  have narrowed : state.pieces.filter (·.kind == kind) =
      (state.pieces.filter (·.kind.isMark)).filter (·.kind == kind) := by
    rw [List.filter_filter]
    refine List.filter_congr fun p _ => ?_
    cases same : p.kind == kind with
    | false => rfl
    | true => simp [eq_of_beq same, (Kind.isMark_of_report? reports).1]
  rw [State.pieces_finish, narrowed, ← all]
  exact Problem.spans_filterMap_mark? reports _

theorem State.Accounted.scopes_finish (accounted : state.Accounted)
    (sound : state.Sound grammar options text) (accountable : grammar.Accountable) :
    ∀ s ∈ state.finish.outline.scopes, s.kind.isMark = false := by
  intro s member
  obtain ⟨opened, isOpen, inside | kind⟩ := State.mem_scopes_ground member
  · exact accounted.hosted.scopes_of_mem opened isOpen s inside
  · exact kind ▸ accountable.isMark_rule (sound.layered.has_of_mem opened isOpen)

/-! ## What is open at the end -/

theorem mem_problems_perform {action : Action} {problem : Problem}
    (met : problem ∈ (action.perform options state).problems) :
    problem ∈ state.problems ∨ problem.diagnostic.kind ≠ .unterminated := by
  cases action with
  | close hit =>
    simp only [Action.perform] at met
    split at met <;> exact .inl (by simpa using met)
  | abandon =>
    simp only [Action.perform, State.abandon] at met
    split at met
    next => exact .inl met
    next =>
      rcases List.mem_cons.1 met with rfl | earlier
      · exact .inr (by simp [Problem.diagnostic, Diagnostic.malformed])
      · exact .inl earlier
  | flag hit =>
    rcases List.mem_cons.1 met with rfl | earlier
    · exact .inr (by simp [Problem.diagnostic, Diagnostic.suspectMarkup])
    · exact .inl earlier
  | unwind =>
    rcases List.mem_cons.1 met with rfl | earlier
    · exact .inr (by simp [Problem.diagnostic, Diagnostic.nestingLimit])
    · exact .inl earlier
  | leaf rule hit => exact .inl met
  | enter rule hit => exact .inl met
  | content kind length => exact .inl met

/-- Nothing is reported as open before the end. -/
theorem Reachable.kind_ne_unterminated (reachable : Reachable grammar options text state) :
    ∀ problem ∈ state.problems, problem.diagnostic.kind ≠ .unterminated := by
  induction reachable with
  | start =>
    intro problem met
    cases met
  | step _ _ ih =>
    intro problem met
    rcases mem_problems_perform met with earlier | other
    · exact ih problem earlier
    · exact other

end Scan

/-! ## Highlighting -/

namespace Highlighted

/-- The spans of the diagnostics of a kind, in the order in which they are reported. -/
def reportedSpans (result : Highlighted) (kind : DiagnosticKind) : List Span :=
  (result.diagnostics.filter (·.kind == kind)).map Diagnostic.span

/-- The modes that were open at the end of a text are reported after all else,
the innermost first, as scopes that stop there. -/
structure ReportsOpen (result : Highlighted) (stop : Nat) : Prop where
  last : ∃ earlier opened, result.diagnostics = earlier ++ opened ∧
    (∀ diagnostic ∈ earlier, diagnostic.kind ≠ .unterminated) ∧
    ∀ diagnostic ∈ opened, diagnostic.kind = .unterminated
  inward : (result.reportedSpans .unterminated).Pairwise fun inner outer =>
    outer.start < inner.start
  scope : ∀ span ∈ result.reportedSpans .unterminated,
    span.stop = stop ∧ ∃ s ∈ result.scopes, s.span = span
  around : ∀ span ∈ result.reportedSpans .unterminated, ∀ s ∈ result.scopes,
    s.span.encloses span = true → s.span ∈ result.reportedSpans .unterminated

/-- A span is that of the first of `count` scopes in one another that stop
together, and no scope but the first encloses it. -/
def Nests (result : Highlighted) (count : Nat) (span : Span) : Prop :=
  ∃ first inner, (first :: inner).Sublist result.scopes ∧ (first :: inner).length = count ∧
    first.span = span ∧ (∀ s ∈ first :: inner, s.span.stop = span.stop) ∧
    ((first :: inner).Pairwise fun outer inner => outer.span.encloses inner.span = true) ∧
    ∀ s ∈ result.scopes, s.span.encloses span = true → s = first

end Highlighted

namespace Scan

variable {grammar : Grammar} {options : Options} {text : String} {state : State}
variable {result : Highlighted}

theorem State.Sound.reportsOpen (sound : state.Sound grammar options text)
    (silent : ∀ problem ∈ state.problems, problem.diagnostic.kind ≠ .unterminated)
    (scopes : result.scopes = state.finish.outline.scopes)
    (problems : result.problems = state.finish.problems) :
    result.ReportsOpen state.offset := by
  have earlierSilent : ∀ diagnostic ∈ state.problems.reverse.map Problem.diagnostic,
      diagnostic.kind ≠ .unterminated := by
    intro diagnostic member
    obtain ⟨problem, met, rfl⟩ := List.mem_map.1 member
    exact silent problem (List.mem_reverse.1 met)
  have isOpen : ∀ diagnostic ∈ (State.unterminated state.offset state.active state.outer).map
      Problem.diagnostic, diagnostic.kind = .unterminated := by
    intro diagnostic member
    obtain ⟨problem, met, rfl⟩ := List.mem_map.1 member
    exact (of_mem_unterminated met).1
  have parts : result.diagnostics = state.problems.reverse.map Problem.diagnostic ++
      (State.unterminated state.offset state.active state.outer).map Problem.diagnostic := by
    simp [Highlighted.diagnostics, problems, State.finish]
  have reported : result.reportedSpans .unterminated =
      (State.unterminated state.offset state.active state.outer).map (·.diagnostic.span) := by
    have none : (state.problems.reverse.map Problem.diagnostic).filter
        (·.kind == .unterminated) = [] :=
      List.filter_eq_nil_iff.2 fun diagnostic member => by
        simpa using earlierSilent diagnostic member
    have all : ((State.unterminated state.offset state.active state.outer).map
        Problem.diagnostic).filter (·.kind == .unterminated) =
          (State.unterminated state.offset state.active state.outer).map Problem.diagnostic :=
      List.filter_eq_self.2 fun diagnostic member => beq_iff_eq.2 (isOpen diagnostic member)
    rw [Highlighted.reportedSpans, parts, List.filter_append, none, all, List.nil_append,
      List.map_map]
    rfl
  have layered := sound.layered
  refine ⟨⟨_, _, parts, earlierSilent, isOpen⟩, ?_, ?_, ?_⟩
  · rw [reported, List.pairwise_map]
    exact layered.pairwise_unterminated
  · intro span member
    rw [reported] at member
    obtain ⟨problem, met, rfl⟩ := List.mem_map.1 member
    refine ⟨(of_mem_unterminated met).2, ?_⟩
    rw [scopes]
    exact exists_scope_of_mem_unterminated met
  · intro span member s inScopes encloses
    rw [reported] at member ⊢
    rw [scopes] at inScopes
    obtain ⟨problem, met, rfl⟩ := List.mem_map.1 member
    obtain ⟨other, stillOpen, same⟩ := layered.exists_unterminated_of_encloses met inScopes encloses
    exact same ▸ List.mem_map_of_mem stillOpen

theorem State.Unwound.nests (unwound : state.Unwound options)
    (sound : state.Sound grammar options text) (room : leastMaxDepth ≤ options.maxDepth)
    (scopes : result.scopes = state.finish.outline.scopes)
    (problems : result.problems = state.finish.problems) :
    ∀ span ∈ result.reportedSpans .nestingLimit, result.Nests (options.maxDepth - 1) span := by
  intro span member
  simp only [Highlighted.reportedSpans, Highlighted.diagnostics, problems, State.finish,
    List.mem_map, List.mem_filter, List.mem_append, List.mem_reverse] at member
  obtain ⟨_, ⟨⟨problem, met | isOpen, rfl⟩, limited⟩, rfl⟩ := member
  · have nest := hasNest_ground_of_bottom state.offset (unwound problem met (eq_of_beq limited))
    obtain ⟨first, inner, part, length, found⟩ := nest.exists_sublist sound.outline.1
    refine ⟨first, inner, scopes ▸ part, ?_, scopes ▸ found⟩
    simp only [List.length_cons, length, leastMaxDepth] at room ⊢
    omega
  · rw [(of_mem_unterminated isOpen).1] at limited
    cases limited

end Scan

/-- Whatever the options, the diagnostics of a text are about its tokens and its
scopes: those of abandoned modes and of markup about all tokens of two kinds,
the others about scopes that stop where the modes were closed all at once. -/
theorem diagnostics_match_output (options : Scan.Options) (text : String) :
    let result := (Highlighter.default.withOptions options).highlight text
    result.reportedSpans .malformedMode = (result.tokensOf .error).map Token.span ∧
      result.reportedSpans .suspectMarkup = (result.tokensOf .illegal).map Token.span ∧
      result.ReportsOpen text.utf8ByteSize ∧
      ∀ span ∈ result.reportedSpans .nestingLimit,
        result.Nests (max options.maxDepth 2 - 1) span := by
  intro result
  have room := (Highlighter.default.withOptions options).leastMaxDepth_le
  obtain ⟨last, reached, done, found⟩ := Scan.reachable_run Flint.grammar_lawful room text
  have positive : 0 < max options.maxDepth leastMaxDepth := by
    simp only [leastMaxDepth]
    omega
  have sound := reached.sound Flint.grammar_lawful positive
  have accounted := reached.accounted Flint.grammar_lawful Flint.grammar_accountable positive
  have atEnd : last.offset = text.utf8ByteSize := sound.offset_of_done done
  have scopes : result.scopes = last.finish.outline.scopes := congrArg (·.outline.scopes) found
  have problems : result.problems = last.finish.problems := congrArg (·.problems) found
  have marks : ∀ kind report, kind.report? = some report →
      result.reportedSpans report = (result.tokensOf kind).map Token.span := by
    intro kind report reports
    obtain ⟨isMark, other⟩ := Kind.isMark_of_report? reports
    have outline : result.outline = last.finish.outline := congrArg (·.outline) found
    have absent : ∀ s ∈ result.outline.scopes, s.kind ≠ kind := by
      rintro s member rfl
      have unmarked := accounted.scopes_finish sound Flint.grammar_accountable s (outline ▸ member)
      rw [isMark] at unmarked
      cases unmarked
    have tiles := (Highlighter.tiles_withOptions options text).1
    have own := tiles.spans_of_kind (Highlighter.runs_withOptions options text) absent other
    have spans := accounted.spans_finish reports
    rw [← outline, ← problems] at spans
    exact (own.trans spans).symm
  refine ⟨marks .error _ rfl, marks .illegal _ rfl, ?_, ?_⟩
  · rw [← atEnd]
    exact sound.reportsOpen reached.kind_ne_unterminated scopes problems
  · exact (reached.unwound Flint.grammar_lawful room).nests sound room scopes problems

end ModalHighlight
