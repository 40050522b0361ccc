import ModalHighlight.Proofs.Search
import ModalHighlight.Proofs.Token.Coverage

/-! # Finding the token that covers an offset

Tokens that tile a text stand in the order in which a search for an offset needs them:
those that stop in front of it, at most one around it, and those that start behind it.
So the search finds the one token around an offset of the text, and none past its end.
-/

namespace ModalHighlight

namespace Token

variable {border : Nat → Prop} {start stop offset : Nat} {token : Token} {tokens : List Token}

theorem side_eq_eq_iff : side offset token = .eq ↔ token.span.contains offset = true := by
  rw [side, Span.contains_eq_true]
  split
  next before => simpa using fun _ => before
  next notBefore =>
    split
    next behind => simpa using fun fromStart => absurd behind (Nat.not_lt.2 fromStart)
    next notBehind => simpa using ⟨Nat.not_lt.1 notBehind, Nat.not_le.1 notBefore⟩

theorem side_beq_eq (offset : Nat) (token : Token) :
    (side offset token == .eq) = token.span.contains offset := by
  rw [Bool.eq_iff_iff, beq_iff_eq, side_eq_eq_iff]

/-- Every offset of the range that tokens tile is covered. -/
theorem exists_contains (tiles : Span.Tiles border start stop (tokens.map span))
    (lower : start ≤ offset) (upper : offset < stop) :
    ∃ token ∈ tokens, token.span.contains offset = true := by
  obtain ⟨s, member, covers⟩ := tiles.exists_contains lower upper
  obtain ⟨token, inTokens, rfl⟩ := List.mem_map.1 member
  exact ⟨token, inTokens, covers⟩

theorem ordered_of_tiles (tiles : Span.Tiles border start stop (tokens.map span)) (offset : Nat) :
    Search.Ordered (side offset) tokens.toArray := by
  induction tokens generalizing start with
  | nil => exact .nil
  | cons token rest ih =>
    have later := tiles.2.2.2
    refine .cons (fun other member notBelow => ?_) (ih later)
    obtain ⟨lower, proper, _⟩ := later.of_mem (List.mem_map_of_mem member)
    have before : offset < token.span.stop := by
      by_contra below
      exact notBelow (if_pos (Nat.not_lt.1 below))
    rw [side, if_neg (by omega), if_pos (by omega)]

end Token

/-- With any options, every offset of a text has a token found for it, which is the one
of all tokens that covers it, and no other offset has. -/
theorem tokenAt?_covers (options : Scan.Options) (text : String) (offset : Nat) :
    let result := (Highlighter.default.withOptions options).highlight text
    ((result.tokenAt? offset).isSome = true ↔ offset < text.utf8ByteSize) ∧
      result.tokens.toList.filter (fun token => token.span.contains offset) =
        (result.tokenAt? offset).toList := by
  intro result
  have tiles : Span.Tiles (Text.Border text) 0 text.utf8ByteSize
      (result.tokens.toList.map Token.span) :=
    (Highlighter.runs_withOptions options text).tiles (Highlighter.tiles_withOptions options text).1
  have ordered : Search.Ordered (Token.side offset) result.tokens := Token.ordered_of_tiles tiles offset
  refine ⟨?_, ?_⟩
  · rw [Highlighted.tokenAt?, Token.covering?, ordered.isSome_find?_iff]
    constructor
    · rintro ⟨token, member, isIt⟩
      have covers := Span.contains_eq_true.1 (Token.side_eq_eq_iff.1 isIt)
      have within := tiles.of_mem (List.mem_map_of_mem (Array.mem_toList_iff.2 member))
      omega
    · intro inside
      obtain ⟨token, inTokens, covers⟩ := Token.exists_contains tiles (Nat.zero_le offset) inside
      exact ⟨token, Array.mem_toList_iff.1 inTokens, Token.side_eq_eq_iff.2 covers⟩
  · simp only [← Token.side_beq_eq]
    exact ordered.filter_eq

end ModalHighlight
