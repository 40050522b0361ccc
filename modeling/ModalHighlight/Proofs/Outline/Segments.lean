import ModalHighlight.Proofs.Outline.Forest
import ModalHighlight.Proofs.Token.Segments

/-! # Segments and the scopes around them

A segment is content of the mode that its scope is the extent of, and that is
the innermost scope around where the segment starts.  So whether a segment is
content can be told from the list of scopes alone.
-/

namespace ModalHighlight

/-- The scopes around an offset, from the outside in. -/
def Scope.around (scopes : List Scope) (offset : Nat) : List Scope :=
  scopes.filter (·.span.contains offset)

/-- The kind of the innermost scope around an offset. -/
def Scope.innermost? (scopes : List Scope) (offset : Nat) : Option Kind :=
  (Scope.around scopes offset).getLast?.map Scope.kind

namespace Outline

variable {border : Nat → Prop} {start stop : Nat} {outline : Outline}

theorem segmentsOnto_eq (outline : Outline) (kind : Kind) (chain : Chain) (later : List Segment) :
    outline.segmentsOnto kind chain later = outline.segmentsOnto kind chain [] ++ later := by
  induction outline generalizing kind chain later with
  | nil => rfl
  | piece earlier p ih =>
    rw [segmentsOnto, ih, segmentsOnto, ih kind chain [_], List.append_assoc]
    rfl
  | scope earlier s inside ih ihInside =>
    rw [segmentsOnto, ihInside, ih, segmentsOnto, ih kind chain (inside.segmentsOnto _ _ []),
      List.append_assoc]

theorem segmentsOnto_piece (earlier : Outline) (p : Piece) (kind : Kind) (chain : Chain) :
    (piece earlier p).segmentsOnto kind chain [] =
      earlier.segmentsOnto kind chain [] ++ [⟨p, if p.kind = kind then some chain else none⟩] := by
  rw [segmentsOnto, segmentsOnto_eq]

theorem segmentsOnto_scope (earlier inside : Outline) (s : Scope) (kind : Kind) (chain : Chain) :
    (scope earlier s inside).segmentsOnto kind chain [] =
      earlier.segmentsOnto kind chain [] ++
        inside.segmentsOnto s.kind (innerChain kind chain s) [] := by
  rw [segmentsOnto, segmentsOnto_eq]

namespace Tiles

/-- The segments of an outline, one after another. -/
theorem segments (tiles : Tiles border start stop outline) (kind : Kind) (chain : Chain) :
    Span.Tiles border start stop ((outline.segmentsOnto kind chain []).map (·.piece.span)) := by
  have pieces : (outline.segmentsOnto kind chain []).map Segment.piece = outline.pieces :=
    map_piece_segmentsOnto outline kind chain []
  have spans := tiles.pieces
  rw [← pieces, List.map_map] at spans
  exact spans

theorem segments_within (tiles : Tiles border start stop outline) (kind : Kind) (chain : Chain)
    {segment : Segment} (member : segment ∈ outline.segmentsOnto kind chain []) :
    start ≤ segment.piece.span.start ∧ segment.piece.span.start < segment.piece.span.stop ∧
      segment.piece.span.stop ≤ stop := by
  obtain ⟨lower, proper, upper, _⟩ :=
    (tiles.segments kind chain).of_mem (List.mem_map_of_mem member)
  exact ⟨lower, proper, upper⟩

/-! ## Scopes around an offset -/

theorem around_of_lt (tiles : Tiles border start stop outline) {offset : Nat}
    (before : offset < start) : Scope.around outline.scopes offset = [] :=
  List.filter_eq_nil_iff.2 fun s member =>
    Bool.eq_false_iff.1 (tiles.not_contains_of_lt before s member)

theorem around_of_le (tiles : Tiles border start stop outline) {offset : Nat}
    (behind : stop ≤ offset) : Scope.around outline.scopes offset = [] :=
  List.filter_eq_nil_iff.2 fun s member =>
    Bool.eq_false_iff.1 (tiles.not_contains_of_le behind s member)

theorem around_scope_of_lt {earlier inside : Outline} {s : Scope} {offset : Nat}
    (within : Tiles border s.span.start s.span.stop inside) (before : offset < s.span.start) :
    Scope.around (Outline.scope earlier s inside).scopes offset =
      Scope.around earlier.scopes offset := by
  have behind : s.span.contains offset = false := by
    rw [← Bool.not_eq_true, Span.contains_eq_true]
    omega
  have none := within.around_of_lt before
  unfold Scope.around at none ⊢
  rw [scopes_scope, List.filter_append, List.filter_cons_of_neg (by simp [behind]), none,
    List.append_nil]

theorem around_scope_of_contains {earlier inside : Outline} {s : Scope} {offset : Nat}
    (before : Tiles border start s.span.start earlier) (lower : s.span.start ≤ offset)
    (upper : offset < s.span.stop) :
    Scope.around (Outline.scope earlier s inside).scopes offset =
      s :: Scope.around inside.scopes offset := by
  have here : s.span.contains offset = true := Span.contains_eq_true.2 ⟨lower, upper⟩
  have none := before.around_of_le lower
  unfold Scope.around at none ⊢
  rw [scopes_scope, List.filter_append, none, List.nil_append]
  exact List.filter_cons_of_pos here

theorem innermost?_cons (s : Scope) (scopes : List Scope) (kind : Kind) :
    ((s :: scopes).getLast?.map Scope.kind).getD kind =
      (scopes.getLast?.map Scope.kind).getD s.kind := by
  rw [List.getLast?_cons]
  cases scopes.getLast? <;> rfl

/-- A segment is content exactly if it has the kind of the innermost scope
around it. -/
theorem isSome_chain_iff (tiles : Tiles border start stop outline) (kind : Kind) (chain : Chain) :
    ∀ segment ∈ outline.segmentsOnto kind chain [],
      (segment.chain.isSome ↔ segment.piece.kind =
        (Scope.innermost? outline.scopes segment.piece.span.start).getD kind) := by
  -- The mode around changes on the way in, so its kind is left open.
  induction tiles generalizing kind chain with
  | nil =>
    intro segment member
    cases member
  | @piece start earlier p before _ _ ih =>
    intro segment member
    rw [segmentsOnto_piece, List.mem_append, List.mem_singleton] at member
    rw [scopes_piece]
    rcases member with inEarlier | rfl
    · exact ih kind chain segment inEarlier
    · rw [Scope.innermost?, before.around_of_le (Nat.le_refl _)]
      by_cases same : p.kind = kind <;> simp [same]
  | @scope start earlier inside s before within _ ih ihWithin =>
    intro segment member
    rw [segmentsOnto_scope, List.mem_append] at member
    rw [Scope.innermost?]
    rcases member with inEarlier | inInside
    · obtain ⟨_, proper, upper⟩ := before.segments_within kind chain inEarlier
      rw [around_scope_of_lt within (Nat.lt_of_lt_of_le proper upper)]
      exact ih kind chain segment inEarlier
    · obtain ⟨lower, proper, upper⟩ :=
        within.segments_within s.kind (innerChain kind chain s) inInside
      rw [around_scope_of_contains before lower (Nat.lt_of_lt_of_le proper upper),
        innermost?_cons]
      exact ihWithin s.kind (innerChain kind chain s) segment inInside

end Tiles

end Outline

end ModalHighlight
