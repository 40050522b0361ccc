import Mathlib.Algebra.Group.Nat.Defs
import ModalHighlight.Proofs.Scan.Faithful

/-! # Tokens follow the chains of modes

All along a text a numbering agrees with the scan, so its tokens are runs of the
segments of the outline.  The counter moves at most three numbers for every byte, so
it does not come round in a text of up to 2^30 bytes.  The tokens of such a text are
those of the outline, and which neighbouring pieces they hold together can be read
off the scopes.
-/

namespace ModalHighlight

namespace Scan.Numbering

variable {grammar : Grammar} {options : Options} {text : String} {state : State}
variable {numbering : Numbering} {action : Action}

/-! ## How far the counter moves -/

theorem next_emit_own (numbering : Numbering) (own : Kind) (span : Span) :
    (numbering.emit own own span).next = numbering.next := by
  rw [emit, if_pos rfl, next_add]

theorem next_emitMatch_le (numbering : Numbering) (own : Kind) (rule : Rule) (hit : Hit)
    (place : Cursor) :
    (numbering.emitMatch own rule hit place).next.toNat ≤ numbering.next.toNat + 2 :=
  Nat.le_trans (next_emit_le _ _ _ _) (Nat.succ_le_succ (next_emit_le _ _ _ _))

/-- What is left of the match that opens a mode is content of the mode. -/
theorem next_emitMatch_own_le (numbering : Numbering) (rule : Rule) (hit : Hit) (place : Cursor) :
    (numbering.emitMatch rule.kind rule hit place).next.toNat ≤ numbering.next.toNat + 1 := by
  rw [emitMatch, next_emit_own]
  exact next_emit_le _ _ _ _

theorem next_enter_le (numbering : Numbering) (own kind : Kind) :
    (numbering.enter own kind).next.toNat ≤ numbering.next.toNat + 1 := by
  have le := next_draw_le numbering
  unfold enter
  dsimp only
  split <;> omega

@[simp] theorem next_leave (numbering : Numbering) : numbering.leave.next = numbering.next := by
  unfold leave
  split <;> rfl

theorem next_abandon_le (numbering : Numbering) (span : Span) :
    (numbering.abandon span).next.toNat ≤ numbering.next.toNat + 1 := by
  unfold abandon
  split
  next => exact Nat.le_succ _
  next =>
    simp only [addFresh, next_add]
    exact next_draw_le _

/-! ## How far a step moves -/

theorem length_outer_leave (state : State) : state.leave.outer.length ≤ state.outer.length := by
  unfold State.leave
  split
  next => exact Nat.le_refl _
  next modes => simp [modes]

theorem length_outer_abandon (nested : state.outer ≠ []) :
    state.abandon.outer.length + 1 = state.outer.length := by
  unfold State.abandon
  split
  next ground => exact absurd ground nested
  next modes => simp [modes]

/-- The counter has not moved further than three numbers for every byte, where an
open mode counts for the number that giving it up would take. -/
def Within (numbering : Numbering) (state : State) : Prop :=
  numbering.next.toNat + state.outer.length ≤ 1 + 3 * state.offset

theorem Within.follow (within : Within numbering state) (sound : state.Sound grammar options text)
    (lawful : grammar.Lawful) (left : state.place.rest ≠ [])
    (chosen : Chosen grammar options state action) :
    Within (numbering.follow action state) (action.perform options state) := by
  have fits := chosen.fits lawful sound.layered.known left
  unfold Within at within ⊢
  cases chosen with
  | @close matcher hit ends found =>
    simp only [Action.perform, Numbering.follow]
    split
    next =>
      rw [next_leave, offset_leave]
      exact Nat.le_trans (Nat.add_le_add_left (length_outer_leave state) _) within
    next =>
      have moved := offset_take state state.active.rule.kind fits.whole.le_length
      have fewer : (state.take state.active.rule.kind hit.stop).leave.outer.length ≤
          state.outer.length := length_outer_leave (state.take state.active.rule.kind hit.stop)
      rw [next_leave, next_add, offset_leave, moved]
      omega
  | abandon _ _ _ nested =>
    have le := next_abandon_le numbering ⟨state.active.start, state.offset⟩
    have fewer := length_outer_abandon nested
    simp only [Action.perform, Numbering.follow, offset_abandon]
    omega
  | @flag matcher hit =>
    have moved : (state.flag hit.stop).offset = state.offset + hit.stop :=
      offset_take state .illegal fits.whole.le_length
    have same : (state.flag hit.stop).outer = state.outer := rfl
    have pos := fits.stop_pos
    have le := next_draw_le numbering
    simp only [Action.perform, Numbering.follow, addFresh, next_add, moved, same]
    omega
  | @leaf rule hit =>
    have moved := offset_takeMatch rule state fits
    have same : (Action.takeMatch rule hit state).outer = state.outer := rfl
    have pos := fits.stop_pos
    have le := next_emitMatch_le numbering state.active.rule.kind rule hit state.place
    simp only [Action.perform, Numbering.follow, moved, same]
    omega
  | @enter rule hit =>
    have moved := offset_takeMatch rule (state.enter rule hit.hashes) fits
    have more : (Action.takeMatch rule hit (state.enter rule hit.hashes)).outer.length =
        state.outer.length + 1 := rfl
    have pos := fits.stop_pos
    have drawn := next_enter_le numbering state.active.rule.kind rule.kind
    have le := next_emitMatch_own_le (numbering.enter state.active.rule.kind rule.kind) rule hit
      state.place
    have here : (state.enter rule hit.hashes).offset = state.offset := rfl
    simp only [Action.perform, Numbering.follow, moved, more, here]
    omega
  | unwind =>
    have le : numbering.next.toNat ≤ 1 + 3 * state.offset :=
      Nat.le_trans (Nat.le_add_right _ _) within
    exact le
  | @content kind length =>
    have moved := offset_take state kind fits.cut.le_length
    have same : (state.take kind length).outer = state.outer := rfl
    have pos := fits.pos
    have le := next_emit_le numbering state.active.rule.kind kind
      ⟨state.offset, state.offset + length⟩
    simp only [Action.perform, Numbering.follow, moved, same]
    omega

/-! ## Whole scans -/

theorem along_start (exact : Prop) (grammar : Grammar) (text : List UInt8) :
    Along exact start (State.start grammar text) := by
  have only : ∀ pair ∈ start.pairs (State.start grammar text).active [],
      pair = (0, Chain.ground) := fun pair member => List.mem_singleton.1 member
  refine ⟨⟨⟨.nil, fun _ isIt => nomatch isIt⟩, rfl, ⟨?_, ?_, ?_, ?_⟩, by decide⟩, ?_, ?_,
    fun _ => .inr rfl, fun _ => .inl rfl, fun _ isLast => nomatch isLast⟩
  · intro first inFirst second inSecond _
    rw [only first inFirst, only second inSecond]
  · intro _ first inFirst second inSecond _
    rw [only first inFirst, only second inSecond]
  · intro _ pair member
    rw [only pair member]
    exact (by decide : (0 : UInt32) < 1)
  · intro pair member
    rw [only pair member]
    trivial
  · intro pair _ isLast
    cases isLast
  · intro _ pair member isLast
    rw [only pair member] at isLast
    exact absurd isLast (by decide : (0 : UInt32) ≠ nobody)

/-- In a text that is so short, the counter does not come round. -/
def Short (text : String) : Prop := 3 * text.utf8ByteSize + 4 < nobody.toNat

theorem short_of_le (small : text.utf8ByteSize ≤ 2 ^ 30) : Short text := by
  have most : nobody.toNat = 2 ^ 32 - 1 := rfl
  unfold Short
  omega

/-- A numbering goes along with every step of a scan, and its numbers are exact in a short
text. -/
theorem Made.along (made : Made grammar options text state numbering) (lawful : grammar.Lawful)
    (accountable : grammar.Accountable) (grounded : grammar.Grounded)
    (room : leastMaxDepth ≤ options.maxDepth) :
    Along (Short text) numbering state ∧ Within numbering state := by
  have positive : 0 < options.maxDepth := Nat.lt_of_lt_of_le (by decide) room
  induction made with
  | start => exact ⟨along_start _ _ _, Nat.le_refl 1⟩
  | @step state numbering before left ih =>
    obtain ⟨along, within⟩ := ih
    have sound := before.reachable.sound lawful positive
    have stacked := before.reachable.growing lawful positive
    have chosen := chosen_next grammar options state
    have spares : Short text → numbering.Spares 3 := by
      intro short
      have upTo := sound.border.le_utf8ByteSize
      unfold Short at short
      unfold Within at within
      unfold Spares
      omega
    exact ⟨along.follow sound stacked lawful accountable grounded room left spares chosen,
      within.follow sound lawful left chosen⟩

/-- The tokens of a text are runs of the segments of its outline. -/
theorem runs_run (lawful : grammar.Lawful) (accountable : grammar.Accountable)
    (grounded : grammar.Grounded) (room : leastMaxDepth ≤ options.maxDepth) (text : String) :
    Segment.Runs (Short text) (Scan.run grammar options (Text.bytes text)).outline.segments
      (run grammar options (Text.bytes text)) := by
  obtain ⟨last, numbering, made, _, found, tokens⟩ := exists_made_run lawful room text
  have sound := made.reachable.sound lawful (Nat.lt_of_lt_of_le (by decide) room)
  rw [found, tokens, sound.segments_outline grounded]
  exact (made.along lawful accountable grounded room).1.covers.runs

end Scan.Numbering

/-! ## Highlighting -/

namespace Highlighter

/-- The tokens of a text are runs of the segments of its outline, and exactly the longest
ones that join if the text is short. -/
theorem runs_highlight (highlighter : Highlighter) (lawful : highlighter.language.grammar.Lawful)
    (accountable : highlighter.language.grammar.Accountable)
    (grounded : highlighter.language.grammar.Grounded) (text : String) :
    Token.Runs (Scan.Numbering.Short text) text (highlighter.highlight text).outline.segments
      (highlighter.highlight text).tokens.toList :=
  Token.runs_ofPiece text
    (Scan.Numbering.runs_run lawful accountable grounded highlighter.leastMaxDepth_le text)

/-- With any options, the tokens of a text are runs of segments. -/
theorem runs_withOptions (options : Scan.Options) (text : String) :
    Token.Runs (Scan.Numbering.Short text) text
      ((default.withOptions options).highlight text).outline.segments
      ((default.withOptions options).highlight text).tokens.toList :=
  (default.withOptions options).runs_highlight Flint.grammar_lawful Flint.grammar_accountable
    Flint.grammar_grounded text

end Highlighter

/-- With any options, the tokens of a text are those of its outline.  Two pieces that
follow one another are in one of them exactly if they are content of one kind and of one
chain.  Two plain tokens never follow one another, and a token reaches across a border of
a scope only if it has the kind of the scope. -/
theorem tokens_follow_chains (options : Scan.Options) (text : String)
    (small : text.utf8ByteSize ≤ 2 ^ 30) :
    let highlighter := Highlighter.default.withOptions options
    let result := highlighter.highlight text
    result.tokens.toList = Token.ofOutline text result.outline ∧
      (∀ left right, [left, right] <:+: result.outline.pieces →
        ((∃ token ∈ result.tokens.toList, token.span.encloses left.span = true ∧
            token.span.encloses right.span = true) ↔
          left.kind = right.kind ∧
            left.IsContent result.scopes ∧ right.IsContent result.scopes ∧
              Scope.chain? result.scopes left.span.start =
                Scope.chain? result.scopes right.span.start)) ∧
      (result.tokens.toList.IsChain fun first second =>
        ¬(first.kind = .plain ∧ second.kind = .plain)) ∧
      ∀ token ∈ result.tokens.toList, ∀ s ∈ result.scopes, ∀ offset,
        offset = s.span.start ∨ offset = s.span.stop →
          token.span.start < offset → offset < token.span.stop → token.kind = s.kind := by
  intro highlighter result
  have tiles := (Highlighter.tiles_withOptions options text).1
  have runs := Highlighter.runs_withOptions options text
  have short := Scan.Numbering.short_of_le small
  have conforms := highlighter.conforms_highlight Flint.grammar_lawful text
    (Scan.keeps_headsPath Flint.grammar_lawful Flint.grammar_grounded)
  have kinds := conforms.of_mem_scopes tiles
  refine ⟨runs.eq_ofOutline short, fun left right neighbours => ?_, ?_, ?_⟩
  · exact tiles.exists_token_iff runs short kinds neighbours
  · exact conforms.plain_apart tiles runs short
  · exact fun token member s inScopes offset isBorder lower upper =>
      tiles.kind_of_border runs short kinds member inScopes isBorder lower upper

/-- What opens a comment inside a comment is in the token of the outer one. -/
theorem nested_comment_joins :
    "/*/**/*/".utf8ByteSize ≤ 2 ^ 30 ∧
      ∃ token ∈ ((Highlighter.default.withOptions ⟨64, true⟩).highlight "/*/**/*/").tokens.toList,
        token.span.encloses ⟨0, 2⟩ = true ∧ token.span.encloses ⟨2, 4⟩ = true := by
  have small : "/*/**/*/".utf8ByteSize ≤ 2 ^ 30 := by decide
  have joins := (tokens_follow_chains ⟨64, true⟩ "/*/**/*/" small).2.1
    ⟨.comment, ⟨0, 2⟩⟩ ⟨.comment, ⟨2, 4⟩⟩ (by decide)
  exact ⟨small, joins.2 (by decide)⟩

end ModalHighlight
