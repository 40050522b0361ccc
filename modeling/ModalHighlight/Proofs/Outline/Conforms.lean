import ModalHighlight.Proofs.Outline.Segments
import ModalHighlight.Proofs.Token.Runs

/-! # Outlines that conform to a rule

Which scopes and pieces a mode may hold depends on the mode and on nothing
further out.  An outline conforms to such a rule if each of its scopes and
pieces is allowed in the scope that it lies in directly.  Read off the flat
views of a tiling outline, that scope is the innermost one around the offsets
of a piece, or the innermost one of those that enclose a scope.
-/

namespace ModalHighlight

/-! ## The scope that something lies in -/

/-- The innermost scope around an offset. -/
def Scope.innermostAt? (scopes : List Scope) (offset : Nat) : Option Scope :=
  (around scopes offset).getLast?

/-- The other scopes that enclose a scope, from the outside in. -/
def Scope.enclosing (scopes : List Scope) (s : Scope) : List Scope :=
  scopes.filter fun other => other ≠ s && other.span.encloses s.span

/-- The innermost of the scopes that enclose a scope. -/
def Scope.parent? (scopes : List Scope) (s : Scope) : Option Scope :=
  (enclosing scopes s).getLast?

theorem getLast?_cons_or {α : Type} (first : α) (others : List α) (fallback : Option α) :
    (first :: others).getLast?.or fallback = others.getLast?.or (some first) := by
  rw [List.getLast?_cons]
  cases others.getLast? <;> rfl

namespace Outline

variable {border : Nat → Prop} {start stop : Nat} {outline : Outline}

namespace Tiles

theorem enclosing_of_earlier {earlier inside : Outline} {s t : Scope}
    (before : Tiles border start s.span.start earlier)
    (within : Tiles border s.span.start s.span.stop inside) (member : t ∈ earlier.scopes) :
    Scope.enclosing (Outline.scope earlier s inside).scopes t =
      Scope.enclosing earlier.scopes t := by
  obtain ⟨_, proper, upper⟩ := before.scopes_within t member
  -- What starts behind a scope does not enclose it.
  have none : Scope.enclosing (s :: inside.scopes) t = [] := by
    refine List.filter_eq_nil_iff.2 fun other later => ?_
    have lower : s.span.start ≤ other.span.start := by
      rcases List.mem_cons.1 later with rfl | inInside
      · exact Nat.le_refl _
      · exact (within.scopes_within other inInside).1
    rw [Bool.and_eq_true, Span.encloses_eq_true]
    omega
  unfold Scope.enclosing at none ⊢
  rw [scopes_scope, List.filter_append, none, List.append_nil]

theorem enclosing_eq_nil {earlier inside : Outline} {s : Scope}
    (before : Tiles border start s.span.start earlier)
    (within : Tiles border s.span.start s.span.stop inside) (leads : inside.Leads) :
    Scope.enclosing (Outline.scope earlier s inside).scopes s = [] := by
  have proper := within.lt_of_leads leads
  refine List.filter_eq_nil_iff.2 fun other member => ?_
  rw [Bool.and_eq_true, decide_eq_true_eq, Span.encloses_eq_true, not_and]
  rw [scopes_scope, List.mem_append, List.mem_cons] at member
  rcases member with inEarlier | rfl | inInside
  · have upper := (before.scopes_within other inEarlier).2.2
    omega
  · exact fun differs => absurd rfl differs
  · have lower := within.start_lt_of_leads leads other inInside
    omega

theorem enclosing_of_inside {earlier inside : Outline} {s t : Scope}
    (before : Tiles border start s.span.start earlier)
    (within : Tiles border s.span.start s.span.stop inside) (leads : inside.Leads)
    (member : t ∈ inside.scopes) :
    Scope.enclosing (Outline.scope earlier s inside).scopes t =
      s :: Scope.enclosing inside.scopes t := by
  obtain ⟨_, proper, upper⟩ := within.scopes_within t member
  have lower := within.start_lt_of_leads leads t member
  have none : Scope.enclosing earlier.scopes t = [] := by
    refine List.filter_eq_nil_iff.2 fun other inEarlier => ?_
    have ends := (before.scopes_within other inEarlier).2.2
    rw [Bool.and_eq_true, Span.encloses_eq_true]
    omega
  have here : (s ≠ t && s.span.encloses t.span) = true := by
    have differs : s ≠ t := by
      rintro rfl
      omega
    rw [Bool.and_eq_true, decide_eq_true_eq, Span.encloses_eq_true]
    exact ⟨differs, Nat.le_of_lt lower, upper⟩
  unfold Scope.enclosing at none ⊢
  rw [scopes_scope, List.filter_append, none, List.nil_append]
  exact List.filter_cons_of_pos here

end Tiles

/-! ## Conforming outlines -/

/-- Every scope fits into the scope around it, and every piece is allowed there. -/
inductive Conforms (fits : Option Scope → Scope → Prop) (allows : Option Scope → Piece → Prop) :
    Option Scope → Outline → Prop
  | nil {around : Option Scope} : Conforms fits allows around nil
  | piece {around : Option Scope} {earlier : Outline} {p : Piece}
      (before : Conforms fits allows around earlier) (allowed : allows around p) :
      Conforms fits allows around (piece earlier p)
  | scope {around : Option Scope} {earlier inside : Outline} {s : Scope}
      (before : Conforms fits allows around earlier) (fitting : fits around s)
      (within : Conforms fits allows (some s) inside) :
      Conforms fits allows around (scope earlier s inside)

namespace Conforms

variable {fits : Option Scope → Scope → Prop} {allows : Option Scope → Piece → Prop}
variable {around : Option Scope}

/-- Every scope fits into the innermost of those that enclose it. -/
theorem of_mem_scopes (conforms : outline.Conforms fits allows around)
    (tiles : Tiles border start stop outline) :
    ∀ s ∈ outline.scopes, fits ((Scope.parent? outline.scopes s).or around) s := by
  -- The scope around changes on the way in, so it is left open.
  induction tiles generalizing around with
  | nil =>
    intro s member
    cases member
  | piece _ _ _ ih =>
    cases conforms with
    | piece before => exact ih before
  | @scope start earlier inside last before within leads ih ihWithin =>
    cases conforms with
    | scope conformsBefore fitting conformsWithin =>
      intro s member
      rw [scopes_scope, List.mem_append, List.mem_cons] at member
      rw [Scope.parent?]
      rcases member with inEarlier | rfl | inInside
      · rw [before.enclosing_of_earlier within inEarlier]
        exact ih conformsBefore s inEarlier
      · rw [before.enclosing_eq_nil within leads]
        exact fitting
      · rw [before.enclosing_of_inside within leads inInside, getLast?_cons_or]
        exact ihWithin conformsWithin s inInside

/-- Every piece is allowed in the innermost scope around each of its offsets. -/
theorem of_mem_pieces (conforms : outline.Conforms fits allows around)
    (tiles : Tiles border start stop outline) :
    ∀ p ∈ outline.pieces, ∀ offset, p.span.contains offset = true →
      allows ((Scope.innermostAt? outline.scopes offset).or around) p := by
  induction tiles generalizing around with
  | nil =>
    intro p member
    cases member
  | @piece start earlier last before _ _ ih =>
    cases conforms with
    | piece conformsBefore allowed =>
      intro p member offset contains
      rw [pieces_piece, List.mem_append, List.mem_singleton] at member
      rw [scopes_piece]
      rcases member with inEarlier | rfl
      · exact ih conformsBefore p inEarlier offset contains
      · rw [Scope.innermostAt?, before.around_of_le (Span.contains_eq_true.1 contains).1]
        exact allowed
  | @scope start earlier inside s before within leads ih ihWithin =>
    cases conforms with
    | scope conformsBefore fitting conformsWithin =>
      intro p member offset contains
      rw [pieces_scope, List.mem_append] at member
      obtain ⟨fromStart, upTo⟩ := Span.contains_eq_true.1 contains
      rw [Scope.innermostAt?]
      rcases member with inEarlier | inInside
      · have upper := (before.pieces.of_mem (List.mem_map_of_mem inEarlier)).2.2.1
        rw [Tiles.around_scope_of_lt within (Nat.lt_of_lt_of_le upTo upper)]
        exact ih conformsBefore p inEarlier offset contains
      · obtain ⟨lower, _, upper, _⟩ := within.pieces.of_mem (List.mem_map_of_mem inInside)
        rw [Tiles.around_scope_of_contains before (Nat.le_trans lower fromStart)
          (Nat.lt_of_lt_of_le upTo upper), getLast?_cons_or]
        exact ihWithin conformsWithin p inInside offset contains

/-- Where nothing fits, there are no scopes, and all pieces are allowed as they are. -/
theorem of_not_fits (conforms : outline.Conforms fits allows around)
    (none : ∀ s, ¬fits around s) :
    outline.scopes = [] ∧ ∀ p ∈ outline.pieces, allows around p := by
  induction outline with
  | nil => exact ⟨rfl, fun p member => by cases member⟩
  | piece earlier last ih =>
    cases conforms with
    | piece before allowed =>
      obtain ⟨flat, pieces⟩ := ih before
      refine ⟨flat, fun p member => ?_⟩
      rw [pieces_piece, List.mem_append, List.mem_singleton] at member
      rcases member with inEarlier | rfl
      · exact pieces p inEarlier
      · exact allowed
  | scope earlier s inside =>
    cases conforms with
    | scope _ fitting => exact absurd fitting (none s)

end Conforms

/-! ## Pieces of tokens -/

section

variable {exact : Prop} {text : String} {tokens : List Token} {token : Token}

/-- Every piece lies in a token of its kind. -/
theorem Tiles.exists_token (tiles : Tiles border start stop outline)
    (runs : Token.Runs exact text outline.segments tokens) {p : Piece}
    (inPieces : p ∈ outline.pieces) :
    ∃ token ∈ tokens, token.kind = p.kind ∧ token.span.encloses p.span = true := by
  rw [← Token.map_piece_segments] at inPieces
  obtain ⟨segment, inSegments, rfl⟩ := List.mem_map.1 inPieces
  obtain ⟨p, inTokens, found⟩ :=
    runs.pieces.exists_of_mem (tiles.segments .plain .ground) inSegments
  obtain ⟨token, member, rfl⟩ := List.mem_map.1 inTokens
  exact ⟨token, member, found⟩

/-- A token that shares an offset with a piece holds all of it. -/
theorem Tiles.encloses_of_contains (tiles : Tiles border start stop outline)
    (runs : Token.Runs exact text outline.segments tokens) (inTokens : token ∈ tokens) {p : Piece}
    (inPieces : p ∈ outline.pieces) {offset : Nat} (covers : token.span.contains offset = true)
    (contains : p.span.contains offset = true) :
    token.span.encloses p.span = true ∧ p.kind = token.kind := by
  obtain ⟨other, inTokens', kind, encloses⟩ := tiles.exists_token runs inPieces
  obtain ⟨starts, stops⟩ := Span.encloses_eq_true.1 encloses
  obtain ⟨pieceFrom, pieceUpTo⟩ := Span.contains_eq_true.1 contains
  have coversToo : other.span.contains offset = true :=
    Span.contains_eq_true.2 ⟨Nat.le_trans starts pieceFrom, Nat.lt_of_lt_of_le pieceUpTo stops⟩
  -- No other token covers the offset.
  obtain rfl := Token.eq_of_contains (runs.tiles tiles) inTokens inTokens' covers coversToo
  exact ⟨encloses, kind.symm⟩

/-- Under each offset of a token lies a piece of its kind. -/
theorem Tiles.exists_piece (tiles : Tiles border start stop outline)
    (runs : Token.Runs exact text outline.segments tokens) (member : token ∈ tokens) {offset : Nat}
    (covers : token.span.contains offset = true) :
    ∃ p ∈ outline.pieces, p.span.contains offset = true ∧ p.kind = token.kind := by
  obtain ⟨fromStart, upTo⟩ := Span.contains_eq_true.1 covers
  obtain ⟨lower, _, upper, _⟩ := (runs.tiles tiles).of_mem (List.mem_map_of_mem member)
  obtain ⟨span, inSpans, contains⟩ :=
    tiles.pieces.exists_contains (Nat.le_trans lower fromStart) (Nat.lt_of_lt_of_le upTo upper)
  obtain ⟨p, inPieces, rfl⟩ := List.mem_map.1 inSpans
  exact ⟨p, inPieces, contains,
    (tiles.encloses_of_contains runs member inPieces covers contains).2⟩

end

end Outline

end ModalHighlight
