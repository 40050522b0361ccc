import ModalHighlight.Proofs.Outline.Occurs
import ModalHighlight.Proofs.Token.Neighbours

/-! # Scopes in one token

Neighbouring segments that join are in one token, so segments that join one after
another are too.  A scope with nothing but pieces of its own kind in it is made
up of such segments.
-/

namespace ModalHighlight

variable {border : Nat → Prop} {start stop : Nat} {exact : Prop} {text : String}
variable {tokens : List Token}

/-- Segments that follow one another and join are in one token. -/
theorem Token.Runs.exists_encloses {segments : List Segment}
    (runs : Runs exact text segments tokens)
    (tiles : Span.Tiles border start stop (segments.map (·.piece.span))) {first : Segment}
    {others : List Segment} (infixed : first :: others <:+: segments)
    (joined : (first :: others).IsChain fun left right => left.joins right = true) :
    ∃ token ∈ tokens, token.kind = first.piece.kind ∧
      ∀ segment ∈ first :: others, token.span.encloses segment.piece.span = true := by
  have spans := runs.pieces.tiles tiles
  rw [map_span_map_piece] at spans
  induction others generalizing first with
  | nil =>
    obtain ⟨p, inPieces, kind, encloses⟩ :=
      runs.pieces.exists_of_mem tiles (infixed.subset List.mem_cons_self)
    obtain ⟨token, inTokens, rfl⟩ := List.mem_map.1 inPieces
    refine ⟨token, inTokens, kind, fun segment member => ?_⟩
    obtain rfl := List.mem_singleton.1 member
    exact encloses
  | cons second others ih =>
    obtain ⟨joins, later⟩ := List.isChain_cons_cons.1 joined
    obtain ⟨token, inTokens, kind, encloses⟩ :=
      ih ((List.suffix_cons first _).isInfix.trans infixed) later
    have neighbours : [first, second] <:+: segments :=
      (List.prefix_append [first, second] others).isInfix.trans infixed
    obtain ⟨_, p, inPieces, enclosesFirst, enclosesSecond⟩ :=
      (runs.pieces.together_or_apart tiles neighbours).resolve_right fun ⟨apart, _⟩ =>
        Bool.eq_false_iff.1 apart joins
    obtain ⟨joint, isJoint, rfl⟩ := List.mem_map.1 inPieces
    -- Both tokens cover the start of the second segment.
    have inSecond : second ∈ segments := neighbours.subset (by simp)
    have proper := (tiles.of_mem (List.mem_map_of_mem inSecond)).2.1
    have covers : ∀ {span : Span}, span.encloses second.piece.span = true →
        span.contains second.piece.span.start = true := fun around => by
      rw [Span.encloses_eq_true] at around
      exact Span.contains_eq_true.2 (by omega)
    have same := eq_of_contains spans inTokens isJoint
      (covers (encloses second List.mem_cons_self)) (covers enclosesSecond)
    refine ⟨token, inTokens, kind.trans (Segment.joins_iff.1 joins).2.2.symm,
      fun segment member => ?_⟩
    rcases List.mem_cons.1 member with rfl | behind
    · rw [same]
      exact enclosesFirst
    · exact encloses segment behind

namespace Outline

variable {outline inside : Outline} {s : Scope}

theorem segmentsOnto_of_scopes_eq_nil (flat : outline.scopes = []) (kind : Kind) (chain : Chain) :
    outline.segmentsOnto kind chain [] =
      outline.pieces.map fun p => ⟨p, if p.kind = kind then some chain else none⟩ := by
  induction outline with
  | nil => rfl
  | piece earlier p ih => rw [segmentsOnto_piece, ih flat, pieces_piece, List.map_append]; rfl
  | scope earlier other around => simp at flat

/-- A scope that holds no other scope, and only pieces of its own kind, is part of
one token of that kind. -/
theorem Occurs.exists_token (occurs : Occurs s inside outline)
    (tiles : Tiles border start stop outline)
    (runs : Token.Runs exact text outline.segments tokens) (flat : inside.scopes = [])
    (own : ∀ p ∈ inside.pieces, p.kind = s.kind) :
    ∃ token ∈ tokens, token.kind = s.kind ∧
      token.span.encloses s.span = true := by
  obtain ⟨inner, infixed⟩ := occurs.segments_infix .plain .ground
  obtain ⟨within, leads⟩ := occurs.tiles tiles
  have row := within.segments s.kind inner
  have alike : ∀ segment ∈ inside.segmentsOnto s.kind inner [],
      segment.chain = some inner ∧ segment.piece.kind = s.kind := by
    rw [segmentsOnto_of_scopes_eq_nil flat]
    intro segment member
    obtain ⟨p, inPieces, rfl⟩ := List.mem_map.1 member
    exact ⟨if_pos (own p inPieces), own p inPieces⟩
  have joined : (inside.segmentsOnto s.kind inner []).IsChain
      fun left right => left.joins right = true := by
    refine (List.pairwise_of_forall_mem_list fun left inLeft right inRight => ?_).isChain
    obtain ⟨chainLeft, kindLeft⟩ := alike left inLeft
    obtain ⟨chainRight, kindRight⟩ := alike right inRight
    exact Segment.joins_iff.2
      ⟨by rw [chainLeft]; rfl, chainLeft.trans chainRight.symm, kindLeft.trans kindRight.symm⟩
  cases made : inside.segmentsOnto s.kind inner [] with
  | nil =>
    rw [made] at row
    exact absurd row.2 (Nat.ne_of_lt (within.lt_of_leads leads))
  | cons first others =>
    rw [made] at infixed joined row alike
    obtain ⟨token, inTokens, kind, encloses⟩ :=
      runs.exists_encloses (tiles.segments .plain .ground) infixed joined
    refine ⟨token, inTokens, kind.trans (alike first List.mem_cons_self).2, ?_⟩
    have last := row.getLast_stop (by simp)
    rw [List.getLast_map] at last
    have lower := encloses first List.mem_cons_self
    have upper := encloses _ (List.getLast_mem (List.cons_ne_nil first others))
    rw [Span.encloses_eq_true] at lower upper ⊢
    exact ⟨lower.1.trans_eq row.2.1, last ▸ upper.2⟩

end Outline

end ModalHighlight
