import ModalHighlight.Proofs.Outline.Chains
import ModalHighlight.Proofs.Token.Neighbours

/-! # Tokens of one piece

One at least of any two neighbours in a token is content.  So a token of a kind that
no scope has is one piece.  Where numbers are exact, the segments of a token of several
are content of one chain, and the token lies in the outermost scope of that chain.
Then a token that lies in no scope of its kind is one piece, and not content.
-/

namespace ModalHighlight

namespace Outline.Tiles

variable {border : Nat → Prop} {start stop : Nat} {exact : Prop}
variable {outline : Outline} {text : String} {tokens : List Token} {token : Token} {kind : Kind}

/-! ## Kinds that no scope has -/

theorem chain_eq_none (tiles : Tiles border start stop outline)
    (absent : ∀ s ∈ outline.scopes, s.kind ≠ kind) (other : kind ≠ .plain) :
    ∀ segment ∈ outline.segments, segment.piece.kind = kind → segment.chain = none := by
  rintro segment member rfl
  have content := tiles.isSome_chain_iff .plain .ground segment member
  rw [Scope.innermost?] at content
  cases innermost : (Scope.around outline.scopes segment.piece.span.start).getLast? with
  | none => simpa [innermost, other] using content
  | some s =>
    have differs := absent s (List.mem_of_mem_filter (List.mem_of_getLast? innermost))
    simpa [innermost, Ne.symm differs] using content

/-- A piece of a kind that no scope has is a token of its own. -/
theorem spans_of_kind (tiles : Tiles border start stop outline)
    (runs : Token.Runs exact text outline.segments tokens)
    (absent : ∀ s ∈ outline.scopes, s.kind ≠ kind) (other : kind ≠ .plain) :
    (tokens.filter (·.kind == kind)).map Token.span =
      (outline.pieces.filter (·.kind == kind)).map Piece.span := by
  rw [runs.spans_of_kind (tiles.chain_eq_none absent other), Token.map_piece_segments]

theorem mem_tokens_iff (tiles : Tiles border start stop outline)
    (runs : Token.Runs exact text outline.segments tokens)
    (absent : ∀ s ∈ outline.scopes, s.kind ≠ kind) (other : kind ≠ .plain) {span : Span} :
    (∃ token ∈ tokens, token.kind = kind ∧ token.span = span) ↔
      ∃ p ∈ outline.pieces, p.kind = kind ∧ p.span = span := by
  have same := congrArg (span ∈ ·) (tiles.spans_of_kind runs absent other)
  simpa [and_assoc] using same

/-! ## Tokens in no scope of their kind -/

/-- Two segments of one chain that is not the ground lie in one scope of their kind. -/
theorem exists_scope_of_alike (tiles : Tiles border start stop outline)
    (kinds : ∀ s ∈ outline.scopes, s.kind ≠ .plain) {left right : Segment}
    (inLeft : left ∈ outline.segments) (inRight : right ∈ outline.segments)
    (content : left.chain.isSome) (same : right.chain = left.chain)
    (other : left.piece.kind ≠ .plain) :
    ∃ s ∈ outline.scopes, s.kind = left.piece.kind ∧ s.span.start ≤ left.piece.span.start ∧
      right.piece.span.stop ≤ s.span.stop := by
  obtain ⟨own, isOwn⟩ := Option.isSome_iff_exists.1 content
  obtain ⟨isContent, ownLeft⟩ := (tiles.chain_eq_some_iff kinds inLeft own).1 isOwn
  obtain ⟨_, ownRight⟩ := (tiles.chain_eq_some_iff kinds inRight own).1 (same.trans isOwn)
  have chains := tiles.ofScope?_chain?_inj.1 (ownLeft.symm.trans ownRight)
  rw [Piece.IsContent, Scope.innermost?] at isContent
  by_cases outside : Scope.around outline.scopes left.piece.span.start = []
  · rw [outside] at isContent
    exact absurd isContent other
  · obtain ⟨s, outermost⟩ := Scope.exists_head?_innerRun outside
    have outermostRight := chains.symm.trans outermost
    rw [Scope.kind_of_mem_innerRun (List.mem_of_head? outermost)] at isContent
    obtain ⟨inScopes, aroundLeft⟩ := List.mem_filter.1 (Scope.mem_around_of_chain? outermost)
    obtain ⟨_, aroundRight⟩ := List.mem_filter.1 (Scope.mem_around_of_chain? outermostRight)
    rw [Span.contains_eq_true] at aroundLeft aroundRight
    have inPieces : right.piece ∈ outline.pieces := by
      rw [← Token.map_piece_segments]
      exact List.mem_map_of_mem inRight
    have ends := (tiles.borders_apart _ inPieces s inScopes).2
    exact ⟨s, inScopes, isContent.symm, aroundLeft.1, by omega⟩

/-- If tokens are exact, one that lies in no scope of its kind is one piece, which is
not content. -/
theorem exists_piece_of_alone (tiles : Tiles border start stop outline)
    (runs : Token.Runs exact text outline.segments tokens) (isExact : exact)
    (kinds : ∀ s ∈ outline.scopes, s.kind ≠ .plain) (member : token ∈ tokens)
    (other : token.kind ≠ .plain)
    (alone : ∀ s ∈ outline.scopes, s.kind = token.kind → ¬s.span.encloses token.span = true) :
    ∃ p ∈ outline.pieces, p.kind = token.kind ∧ p.span = token.span ∧
      ¬p.IsContent outline.scopes := by
  obtain ⟨first, others, made, infixed, meets⟩ :=
    runs.pieces.exists_run (List.mem_map_of_mem member)
  have kind : token.kind = first.piece.kind := congrArg Piece.kind made
  have span : token.span = Segment.cover first others := congrArg Piece.span made
  have inFirst : first ∈ outline.segments := infixed.subset List.mem_cons_self
  have isLast := List.getLast_mem (List.cons_ne_nil first others)
  -- Were it content, the token would lie in a scope of its kind from its first byte to its last.
  have apart : ¬first.chain.isSome := by
    intro content
    have same := Segment.chain_of_isChain isExact meets _ isLast
    obtain ⟨s, inScopes, sameKind, lower, upper⟩ := tiles.exists_scope_of_alike kinds inFirst
      (infixed.subset isLast) content same (kind ▸ other)
    apply alone s inScopes (sameKind.trans kind.symm)
    rw [span]
    exact Span.encloses_eq_true.2 ⟨lower, upper⟩
  cases others with
  | nil =>
    refine ⟨first.piece, ?_, kind.symm, span.symm, fun isContent => apart ?_⟩
    · rw [← Token.map_piece_segments]
      exact List.mem_map_of_mem inFirst
    · rw [tiles.isSome_chain_iff .plain .ground first inFirst]
      exact isContent
  | cons second others =>
    have joined := (List.isChain_cons_cons.1 meets).1.joins isExact
    exact absurd (Segment.joins_iff.1 joined).1 apart

end Outline.Tiles

end ModalHighlight
