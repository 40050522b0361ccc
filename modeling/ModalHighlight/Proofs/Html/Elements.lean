import ModalHighlight.Proofs.Html.Lossless
import ModalHighlight.Proofs.Html.Nesting

/-! # Elements are the scopes and the styled pieces

Read back from a rendered text, with their extents in the text, the elements
are those of the scopes, each of them once, and those of the pieces that are
styled by themselves.  No piece of these has the extent of a scope of its kind.
-/

namespace ModalHighlight

open Text (Border)

/-! ## What is styled by itself -/

/-- The segment has an element of its own. -/
def Segment.isStyled (segment : Segment) : Bool :=
  segment.chain.isNone && !segment.piece.kind.isPlain

/-- The piece has an element of its own inside scopes. -/
def Piece.isStyled (scopes : List Scope) (p : Piece) : Bool :=
  !(Html.ownKind (Scope.innermost? scopes p.span.start) p.kind).isEmpty

def Piece.extent (p : Piece) : Scope := ⟨p.kind, p.span⟩

/-- What is content has no element of its own. -/
theorem Html.ownKind_eq_nil {around : Option Kind} {kind : Kind}
    (content : kind = around.getD .plain) : Html.ownKind around kind = [] := by
  refine if_neg fun ⟨styled, other⟩ => ?_
  cases around with
  | none => exact styled content
  | some outer => exact other (congrArg some content.symm)

theorem Html.ownKind_getD (around : Option Kind) (kind : Kind) :
    Html.ownKind (some (around.getD .plain)) kind = Html.ownKind around kind := by
  cases around with
  | none =>
    unfold ownKind
    by_cases plain : kind = .plain
    · simp [plain]
    · simp [plain, Ne.symm plain]
  | some outer => rfl

namespace Outline

variable {border : Nat → Prop} {start stop : Nat} {outline : Outline} {scopes : List Scope}

/-- A segment is styled exactly if its piece is. -/
theorem isStyled_piece {segment : Segment}
    (content : segment.chain.isSome ↔ segment.piece.kind =
      (Scope.innermost? scopes segment.piece.span.start).getD .plain) :
    segment.piece.isStyled scopes = segment.isStyled := by
  rw [Segment.isStyled, Piece.isStyled]
  cases found : segment.chain with
  | some chain =>
    rw [Html.ownKind_eq_nil (content.1 (by rw [found]; rfl))]
    rfl
  | none =>
    have other := mt content.2 (by simp [found])
    have notInherited : Scope.innermost? scopes segment.piece.span.start ≠
        some segment.piece.kind := by
      intro inherited
      rw [inherited] at other
      exact other rfl
    by_cases plain : segment.piece.kind = .plain
    · simp [Html.ownKind, plain]
    · simp [Html.ownKind, plain, notInherited]

/-- The pieces that are styled are those of the segments that are. -/
theorem Tiles.styled (tiles : Tiles border start stop outline) :
    outline.pieces.filter (Piece.isStyled outline.scopes) =
      (outline.segments.filter Segment.isStyled).map Segment.piece := by
  rw [← Token.map_piece_segments, List.filter_map]
  refine congrArg _ (List.filter_congr fun segment member => ?_)
  exact isStyled_piece (tiles.isSome_chain_iff .plain .ground segment member)

/-- Where a scope starts, it is the innermost one. -/
theorem Tiles.innermost?_start (tiles : Tiles border start stop outline) {s : Scope}
    (member : s ∈ outline.scopes) : Scope.innermost? outline.scopes s.span.start = some s.kind := by
  have ordered := tiles.pairwise_scopes
  obtain ⟨_, proper, _⟩ := tiles.scopes_within s member
  have here : s.span.contains s.span.start = true :=
    Span.contains_eq_true.2 ⟨Nat.le_refl _, proper⟩
  obtain ⟨earlier, later, parts⟩ := List.append_of_mem member
  rw [parts] at ordered ⊢
  have behind : Scope.around later s.span.start = [] := by
    refine List.filter_eq_nil_iff.2 fun other inLater => ?_
    have starts := (List.pairwise_cons.1 (List.pairwise_append.1 ordered).2.1).1 other inLater
    rw [Span.contains_eq_true]
    omega
  have around : Scope.around (s :: later) s.span.start = s :: Scope.around later s.span.start :=
    List.filter_cons_of_pos here
  rw [Scope.innermost?, Scope.around, List.filter_append, ← Scope.around, ← Scope.around, around,
    behind, List.getLast?_concat]
  rfl

/-- No styled piece has the extent of a scope of its kind. -/
theorem Tiles.extent_not_mem (tiles : Tiles border start stop outline) {p : Piece}
    (styled : p.isStyled outline.scopes = true) : p.extent ∉ outline.scopes := by
  intro member
  have around : Scope.innermost? outline.scopes p.span.start = some p.kind :=
    tiles.innermost?_start member
  have inherited : Html.ownKind (some p.kind) p.kind = [] := Html.ownKind_eq_nil rfl
  rw [Piece.isStyled, around, inherited] at styled
  cases styled

end Outline

namespace Html

variable {source text : String} {start stop : Nat} {outline : Outline}

/-! ## Elements with their extents -/

/-- The elements of marks, in the order in which they are closed, where some are
open already and the text goes on at an offset; none if the tags are not
balanced. -/
def elements? : (opened : List (Kind × Nat)) → (offset : Nat) → List Mark → Option (List Scope)
  | [], _, [] => some []
  | _ :: _, _, [] => none
  | opened, offset, .openTag kind :: rest => elements? ((kind, offset) :: opened) offset rest
  | [], _, .closeTag :: _ => none
  | (kind, start) :: opened, offset, .closeTag :: rest =>
    (elements? opened offset rest).map (⟨kind, ⟨start, offset⟩⟩ :: ·)
  | opened, offset, .char c :: rest => elements? opened (offset + c.utf8Size) rest

theorem elements?_openTag (opened : List (Kind × Nat)) (offset : Nat) (kind : Kind)
    (rest : List Mark) :
    elements? opened offset (.openTag kind :: rest) =
      elements? ((kind, offset) :: opened) offset rest := by
  cases opened <;> rfl

theorem elements?_chars (opened : List (Kind × Nat)) (offset : Nat) (chars : List Char)
    (rest : List Mark) :
    elements? opened offset (chars.map .char ++ rest) =
      elements? opened (offset + width chars) rest := by
  induction chars generalizing offset with
  | nil => rfl
  | cons c chars ih =>
    have next : elements? opened offset (.char c :: (chars.map .char ++ rest)) =
        elements? opened (offset + c.utf8Size) (chars.map .char ++ rest) := by
      cases opened <;> rfl
    rw [List.map_cons, List.cons_append, next, ih, width, Nat.add_assoc]

theorem elements?_pieceOnto {piece : Piece} (cut : piece.span.slice? source = some text)
    (opened : List (Kind × Nat)) (around : Kind) (later : List Part) :
    elements? opened piece.span.start (marksOf (pieceOnto source around piece later)) =
      (elements? opened piece.span.stop (marksOf later)).map
        ((ownKind (some around) piece.kind).map (fun kind => ⟨kind, piece.span⟩) ++ ·) := by
  have wide : width text.toList = piece.span.stop - piece.span.start := width_slice cut
  have ordered : piece.span.start ≤ piece.span.stop := (Text.border_of_slice? cut).1
  have moved : piece.span.start + width text.toList = piece.span.stop := by omega
  rw [marksOf_pieceOnto_ownKind cut]
  unfold ownKind
  split
  · simp only [List.map_cons, List.map_nil, List.singleton_append, elements?_openTag,
      elements?_chars, moved, elements?]
  · simp only [List.map_nil, List.nil_append, elements?_chars, moved, Option.map_id']

theorem extent_segment (piece : Piece) (around : Kind) (chain : Chain) :
    (([⟨piece, if piece.kind = around then some chain else none⟩] : List Segment).filter
        Segment.isStyled).map (·.piece.extent) =
      (ownKind (some around) piece.kind).map (fun kind => ⟨kind, piece.span⟩) := by
  unfold ownKind
  by_cases plain : piece.kind = .plain
  · simp [Segment.isStyled, plain]
  · by_cases same : piece.kind = around
    · simp [Segment.isStyled, same]
    · simp [Segment.isStyled, Piece.extent, plain, same, Ne.symm same]

/-- An outline adds the elements of its scopes and of its styled segments. -/
theorem elements?_partsOnto (tiles : outline.Tiles (Border source) start stop)
    (opened : List (Kind × Nat)) (around : Kind) (chain : Chain) (later : List Part)
    {rest : List Scope} (counted : elements? opened stop (marksOf later) = some rest) :
    ∃ all, elements? opened start (marksOf (partsOnto source around outline later)) = some all ∧
      all.Perm (outline.scopes ++
        ((outline.segmentsOnto around chain []).filter Segment.isStyled).map (·.piece.extent) ++
        rest) := by
  induction tiles generalizing opened around chain later rest with
  | nil => exact ⟨rest, counted, .refl rest⟩
  | @piece start earlier p before nonempty here ih =>
    obtain ⟨text, cut⟩ := before.exists_slice nonempty here
    have own := elements?_pieceOnto cut opened around later
    rw [counted, Option.map_some, ← extent_segment p around chain] at own
    obtain ⟨all, found, perm⟩ := ih opened around chain _ own
    refine ⟨all, found, ?_⟩
    rw [Outline.scopes_piece, Outline.segmentsOnto_piece, List.filter_append, List.map_append]
    simpa only [List.append_assoc] using perm
  | @scope start earlier inside s before within _ ih ihWithin =>
    -- The element of the scope is reported where it is closed, behind its inside.
    have closed : elements? ((s.kind, s.span.start) :: opened) s.span.stop
        (marksOf (.closeTag :: later)) = some (s :: rest) := by
      rw [marksOf_cons, Part.marks, List.singleton_append, elements?, counted]
      rfl
    obtain ⟨filled, foundInside, permInside⟩ := ihWithin _ s.kind
      (Outline.innerChain around chain s) _ closed
    have entered : elements? opened s.span.start (marksOf (.openTag s.kind ::
        partsOnto source s.kind inside (.closeTag :: later))) = some filled := by
      rw [marksOf_cons, Part.marks, List.singleton_append, elements?_openTag]
      exact foundInside
    obtain ⟨all, found, perm⟩ := ih opened around chain _ entered
    refine ⟨all, found, ?_⟩
    rw [Outline.scopes_scope, Outline.segmentsOnto_scope, List.filter_append, List.map_append]
    -- The same elements in another order: each occurs as often on either side.
    refine List.perm_iff_count.2 fun element => ?_
    have outside := perm.count_eq element
    have inner := permInside.count_eq element
    simp only [List.count_append, List.count_cons] at outside inner ⊢
    omega

/-! ## Highlighting -/

/-- Whatever the options, what a text is rendered as, and its tokens and scopes
merge into, reads back as follows.  Around every byte stand the elements of the
scopes around it in their order, and then the one of the token that covers it,
unless its kind is plain or that of the innermost scope.  The elements are those
of the scopes, each once with its extent, and those of the pieces that have their
own. -/
theorem nesting_eq_scopes (options : Scan.Options) (text : String) :
    let result := (Highlighter.default.withOptions options).highlight text
    let tokens := result.tokens.toList
    let output := render text result.outline
    (merge? text tokens result.scopes).map
        (fun merged => String.join (merged.map Part.write)) = some output ∧
      ∃ marks elements,
        read? output.toList = some marks ∧
        (∀ offset, offset < text.utf8ByteSize →
          ∃ token ∈ tokens, token.span.contains offset = true ∧
            (∀ other ∈ tokens, other.span.contains offset = true → other = token) ∧
            kindsAt? [] offset marks =
              some ((Scope.around result.scopes offset).map Scope.kind ++
                ownKind (Scope.innermost? result.scopes offset) token.kind)) ∧
        elements? [] 0 marks = some elements ∧
          (∀ s ∈ result.scopes, elements.count s = 1) ∧
          elements.Perm (result.scopes ++
            (result.outline.pieces.filter (Piece.isStyled result.scopes)).map Piece.extent) := by
  intro result tokens output
  have tiles := (Highlighter.tiles_withOptions options text).1
  have runs := Highlighter.runs_withOptions options text
  obtain ⟨elements, found, perm⟩ := elements?_partsOnto tiles [] .plain .ground [] rfl
  have styled : elements.Perm (result.scopes ++
      (result.outline.pieces.filter (Piece.isStyled result.scopes)).map Piece.extent) := by
    rw [List.append_nil] at perm
    rw [show result.scopes = result.outline.scopes from rfl, tiles.styled, List.map_map]
    exact perm
  refine ⟨merge?_eq_render tiles runs, marksOf (parts text result.outline), elements,
    read?_render text result.outline, ?_, found, ?_, styled⟩
  -- The byte belongs to a segment, and that lies in a token of its kind.
  · intro offset inside
    obtain ⟨segment, member, covers, kinds⟩ :=
      kindsAt?_partsOnto tiles [] .plain .ground [] (Nat.zero_le offset) inside
    have spans := tiles.pieces
    rw [← Token.map_span_segments] at spans
    obtain ⟨p, inPieces, sameKind, encloses⟩ := runs.pieces.exists_of_mem spans member
    obtain ⟨token, inTokens, rfl⟩ := List.mem_map.1 inPieces
    obtain ⟨lower, upper⟩ := Span.encloses_eq_true.1 encloses
    rw [Span.contains_eq_true] at covers
    have coversToken : token.span.contains offset = true :=
      Span.contains_eq_true.2 ⟨Nat.le_trans lower covers.1, Nat.lt_of_lt_of_le covers.2 upper⟩
    refine ⟨token, inTokens, coversToken, fun other inOthers coversOther => ?_, ?_⟩
    · exact Token.eq_of_contains (runs.tiles tiles) inOthers inTokens coversOther coversToken
    · rw [ownKind_getD, List.reverse_nil, List.nil_append, ← sameKind] at kinds
      exact kinds
  · intro s member
    have other : s ∉ (result.outline.pieces.filter (Piece.isStyled result.scopes)).map
        Piece.extent := by
      intro isPiece
      obtain ⟨p, isStyled, rfl⟩ := List.mem_map.1 isPiece
      exact tiles.extent_not_mem (List.mem_filter.1 isStyled).2 member
    have once : result.scopes.count s = 1 := List.count_eq_one_of_mem tiles.nodup_scopes member
    rw [styled.count_eq, List.count_append, once, List.count_eq_zero.2 other]

end Html

end ModalHighlight
