import ModalHighlight.Proofs.Outline.Chains
import ModalHighlight.Proofs.Outline.Conforms

/-! # Neighbours in one token

Where numbers are exact, two pieces that follow one another are in one token exactly
if they are content of one kind and of one chain.  What is in front of them and
behind them does not matter, although it may be in that token as well.
-/

namespace ModalHighlight

/-- Where no piece reaches across an offset, two of them meet there. -/
theorem Span.Tiles.exists_neighbours {border : Nat → Prop} {start stop offset : Nat}
    {pieces : List Piece} (tiles : Span.Tiles border start stop (pieces.map Piece.span))
    (lower : start < offset) (upper : offset < stop)
    (apart : ∀ p ∈ pieces, p.span.stop ≤ offset ∨ offset ≤ p.span.start) :
    ∃ left right, [left, right] <:+: pieces ∧ left.span.stop = offset ∧
      right.span.start = offset := by
  induction pieces generalizing start with
  | nil => exact absurd tiles.2 (by omega)
  | cons first rest ih =>
    obtain ⟨_, rfl, _, later⟩ := tiles
    have ends := (apart first List.mem_cons_self).resolve_right (by omega)
    rcases Nat.lt_or_eq_of_le ends with before | here
    · obtain ⟨left, right, neighbours, meet⟩ :=
        ih later before fun p member => apart p (List.mem_cons_of_mem _ member)
      exact ⟨left, right, neighbours.trans (List.infix_cons List.infix_rfl), meet⟩
    · cases rest with
      | nil => exact absurd later.2 (by omega)
      | cons second rest =>
        exact ⟨first, second, (List.prefix_append [first, second] rest).isInfix, here,
          later.2.1.trans here⟩

namespace Outline.Tiles

variable {border : Nat → Prop} {start stop : Nat} {outline : Outline} {left right : Piece}
variable {exact : Prop} {text : String} {tokens : List Token} {token : Token}

theorem of_neighbours (tiles : Tiles border start stop outline)
    (neighbours : [left, right] <:+: outline.pieces) :
    (left ∈ outline.pieces ∧ left.span.start < left.span.stop) ∧
      (right ∈ outline.pieces ∧ right.span.start < right.span.stop) ∧
        right.span.start = left.span.stop := by
  have inLeft : left ∈ outline.pieces := neighbours.subset List.mem_cons_self
  have inRight : right ∈ outline.pieces :=
    neighbours.subset (List.mem_cons_of_mem _ List.mem_cons_self)
  have row := tiles.pieces
  obtain ⟨earlier, later, whole⟩ := neighbours
  refine ⟨⟨inLeft, (row.of_mem (List.mem_map_of_mem inLeft)).2.1⟩,
    ⟨inRight, (row.of_mem (List.mem_map_of_mem inRight)).2.1⟩, ?_⟩
  have chain := row.isChain
  rw [← whole, List.append_assoc, List.map_append] at chain
  exact List.isChain_iff_forall_rel_of_append_cons_cons.1 chain rfl

/-- Where numbers are exact, neighbouring pieces are in one token exactly if they are
content of one kind and of one chain. -/
theorem exists_token_iff (tiles : Tiles border start stop outline)
    (runs : Token.Runs exact text outline.segments tokens) (isExact : exact)
    (kinds : ∀ s ∈ outline.scopes, s.kind ≠ .plain)
    (neighbours : [left, right] <:+: outline.pieces) :
    (∃ token ∈ tokens, token.span.encloses left.span = true ∧
        token.span.encloses right.span = true) ↔
      left.kind = right.kind ∧
        left.IsContent outline.scopes ∧ right.IsContent outline.scopes ∧
          Scope.chain? outline.scopes left.span.start =
            Scope.chain? outline.scopes right.span.start := by
  rw [← Token.map_piece_segments] at neighbours
  obtain ⟨first, second, infixed, rfl, rfl⟩ : ∃ first second : Segment,
      [first, second] <:+: outline.segments ∧ first.piece = left ∧ second.piece = right := by
    obtain ⟨earlier, later, whole⟩ := neighbours
    rw [eq_comm, List.map_eq_append_iff] at whole
    obtain ⟨front, others, eq, made, rfl⟩ := whole
    rw [List.map_eq_append_iff] at made
    obtain ⟨before, both, rfl, _, made⟩ := made
    obtain ⟨first, rest, rfl, isLeft, made⟩ := List.map_eq_cons_iff.1 made
    obtain ⟨second, none, rfl, isRight, made⟩ := List.map_eq_cons_iff.1 made
    obtain rfl := List.map_eq_nil_iff.1 made
    exact ⟨first, second, ⟨before, others, eq.symm⟩, isLeft, isRight⟩
  have spans : Span.Tiles border start stop (outline.segments.map (·.piece.span)) :=
    tiles.segments .plain .ground
  have inFirst : first ∈ outline.segments := infixed.subset List.mem_cons_self
  have inSecond : second ∈ outline.segments :=
    infixed.subset (List.mem_cons_of_mem _ List.mem_cons_self)
  rw [← tiles.joins_iff kinds inFirst inSecond]
  rcases runs.pieces.together_or_apart spans infixed with ⟨meet, p, member, encloses⟩ | ⟨apart, none⟩
  · obtain ⟨token, inTokens, rfl⟩ := List.mem_map.1 member
    exact iff_of_true ⟨token, inTokens, encloses⟩ (meet.joins isExact)
  · refine iff_of_false ?_ (Bool.eq_false_iff.1 apart)
    rintro ⟨token, inTokens, encloses⟩
    exact none _ (List.mem_map_of_mem inTokens) encloses

/-- Where a token reaches across an offset and no piece does, two pieces of the token
meet. -/
theorem exists_neighbours_within (tiles : Tiles border start stop outline)
    (runs : Token.Runs exact text outline.segments tokens) (member : token ∈ tokens) {offset : Nat}
    (lower : token.span.start < offset) (upper : offset < token.span.stop)
    (apart : ∀ p ∈ outline.pieces, p.span.stop ≤ offset ∨ offset ≤ p.span.start) :
    ∃ left right, [left, right] <:+: outline.pieces ∧ left.span.stop = offset ∧
      right.span.start = offset ∧ token.span.encloses left.span = true ∧
        token.span.encloses right.span = true ∧ left.kind = token.kind ∧
          right.kind = token.kind := by
  obtain ⟨starts, _, stops, _⟩ := (runs.tiles tiles).of_mem (List.mem_map_of_mem member)
  obtain ⟨left, right, neighbours, meetLeft, meetRight⟩ :=
    tiles.pieces.exists_neighbours (Nat.lt_of_le_of_lt starts lower)
      (Nat.lt_of_lt_of_le upper stops) apart
  obtain ⟨⟨inLeft, properLeft⟩, ⟨inRight, properRight⟩, _⟩ := tiles.of_neighbours neighbours
  -- The token covers the last offset of the one and the first of the other.
  have covers : token.span.contains (offset - 1) = true := Span.contains_eq_true.2 (by omega)
  have covers' : token.span.contains offset = true := Span.contains_eq_true.2 (by omega)
  obtain ⟨enclosesLeft, kindLeft⟩ :=
    tiles.encloses_of_contains runs member inLeft covers (Span.contains_eq_true.2 (by omega))
  obtain ⟨enclosesRight, kindRight⟩ :=
    tiles.encloses_of_contains runs member inRight covers' (Span.contains_eq_true.2 (by omega))
  exact ⟨left, right, neighbours, meetLeft, meetRight, enclosesLeft, enclosesRight, kindLeft,
    kindRight⟩

/-- Where two tokens meet, two pieces of theirs meet that no token holds both. -/
theorem exists_neighbours_across (tiles : Tiles border start stop outline)
    (runs : Token.Runs exact text outline.segments tokens) {before behind : List Token}
    {first second : Token} (whole : tokens = before ++ first :: second :: behind) :
    ∃ left right, [left, right] <:+: outline.pieces ∧ left.kind = first.kind ∧
      right.kind = second.kind ∧
        ¬∃ token ∈ tokens, token.span.encloses left.span = true ∧
          token.span.encloses right.span = true := by
  have spans := runs.tiles tiles
  have inFirst : first ∈ tokens := by simp [whole]
  have inSecond : second ∈ tokens := by simp [whole]
  obtain ⟨lower, proper, _⟩ := spans.of_mem (List.mem_map_of_mem inFirst)
  obtain ⟨_, properSecond, upper, _⟩ := spans.of_mem (List.mem_map_of_mem inSecond)
  have meet : second.span.start = first.span.stop := by
    have row := spans.isChain
    rw [whole, List.map_append] at row
    exact List.isChain_iff_forall_rel_of_append_cons_cons.1 row rfl
  -- A piece around the last offset of the first token does not reach further than it.
  have covers : first.span.contains (first.span.stop - 1) = true :=
    Span.contains_eq_true.2 (by omega)
  have covers' : second.span.contains first.span.stop = true :=
    Span.contains_eq_true.2 (by omega)
  have apart : ∀ p ∈ outline.pieces, p.span.stop ≤ first.span.stop ∨
      first.span.stop ≤ p.span.start := by
    intro p inPieces
    by_contra across
    have encloses := (tiles.encloses_of_contains runs inFirst inPieces covers
      (Span.contains_eq_true.2 (by omega))).1
    rw [Span.encloses_eq_true] at encloses
    omega
  obtain ⟨left, right, neighbours, meetLeft, meetRight⟩ :=
    tiles.pieces.exists_neighbours (by omega) (by omega) apart
  obtain ⟨⟨inLeft, properLeft⟩, ⟨inRight, properRight⟩, _⟩ := tiles.of_neighbours neighbours
  have holdsLeft := tiles.encloses_of_contains runs inFirst inLeft covers
    (Span.contains_eq_true.2 (by omega))
  have holdsRight := tiles.encloses_of_contains runs inSecond inRight covers'
    (Span.contains_eq_true.2 (by omega))
  refine ⟨left, right, neighbours, holdsLeft.2, holdsRight.2, ?_⟩
  rintro ⟨token, member, enclosesLeft, enclosesRight⟩
  rw [Span.encloses_eq_true] at enclosesLeft enclosesRight
  have isFirst := Token.eq_of_contains spans member inFirst
    (Span.contains_eq_true.2 (by omega)) covers
  have isSecond := Token.eq_of_contains spans member inSecond
    (Span.contains_eq_true.2 (by omega)) covers'
  rw [← isFirst, ← isSecond] at meet
  omega

/-- A token reaches across a border of a scope only if it is of the kind of the scope. -/
theorem kind_of_border (tiles : Tiles border start stop outline)
    (runs : Token.Runs exact text outline.segments tokens) (isExact : exact)
    (kinds : ∀ s ∈ outline.scopes, s.kind ≠ .plain) (member : token ∈ tokens) {s : Scope}
    (inScopes : s ∈ outline.scopes) {offset : Nat} (isBorder : offset = s.span.start ∨ offset = s.span.stop)
    (lower : token.span.start < offset) (upper : offset < token.span.stop) :
    token.kind = s.kind := by
  obtain ⟨left, right, neighbours, meetLeft, meetRight, enclosesLeft, enclosesRight, kindLeft,
    kindRight⟩ := tiles.exists_neighbours_within runs member lower upper fun p inPieces => by
      obtain ⟨atStart, atStop⟩ := tiles.borders_apart p inPieces s inScopes
      rcases isBorder with rfl | rfl
      · exact atStart
      · exact atStop
  obtain ⟨_, contentLeft, contentRight, same⟩ :=
    (tiles.exists_token_iff runs isExact kinds neighbours).1 ⟨token, member, enclosesLeft, enclosesRight⟩
  rcases isBorder with rfl | rfl
  · rw [← kindRight, contentRight, meetRight, Scope.innermost?,
      tiles.getLast?_around_start inScopes]
    rfl
  · obtain ⟨⟨inLeft, properLeft⟩, _⟩ := tiles.of_neighbours neighbours
    have proper := (tiles.scopes_within s inScopes).2.1
    have atStart := (tiles.borders_apart left inLeft s inScopes).1
    rw [meetRight] at same
    rw [← kindLeft, contentLeft,
      tiles.kind_of_chain?_stop inScopes (by omega) (by omega) same]
    rfl

end Outline.Tiles

end ModalHighlight
