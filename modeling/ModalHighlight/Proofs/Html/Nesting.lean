import ModalHighlight.Proofs.Html.Lossless
import ModalHighlight.Proofs.Outline.Segments

/-! # Elements are nested as scopes are

Around every character of a rendered text stand the elements of the scopes
around it, and inside them an element of the text's own if its kind is not the
one that it inherits.
-/

namespace ModalHighlight

namespace Html

open Text (Border)

variable {source text : String} {start stop offset : Nat} {outline : Outline}

/-- The kind of the element that text of a kind has of its own, within an element
of another kind or none. -/
def ownKind (around : Option Kind) (kind : Kind) : List Kind :=
  if kind ≠ .plain ∧ around ≠ some kind then [kind] else []

/-! ## Widths -/

/-- The number of bytes of some characters. -/
def width : List Char → Nat
  | [] => 0
  | c :: chars => c.utf8Size + width chars

theorem length_flatMap_encodeChar (chars : List Char) :
    (chars.flatMap String.utf8EncodeChar).length = width chars := by
  induction chars with
  | nil => rfl
  | cons c chars ih =>
    rw [List.flatMap_cons, List.length_append, ih, String.length_utf8EncodeChar, width]

theorem width_toList (text : String) : width text.toList = text.utf8ByteSize := by
  rw [← length_flatMap_encodeChar, ← Text.bytes_eq_flatMap, Text.length_bytes]

theorem width_slice (cut : (⟨start, stop⟩ : Span).slice? source = some text) :
    width text.toList = stop - start := by
  obtain ⟨_, _, right⟩ := Text.border_of_slice? cut
  have size := congrArg List.length (Text.bytes_of_slice? cut)
  have within := right.le_utf8ByteSize
  rw [Text.length_bytes, List.length_take, List.length_drop, Text.length_bytes] at size
  rw [width_toList]
  omega

/-! ## Elements around a character -/

/-- The kinds of the elements around the character that a byte belongs to, from
the outside in. -/
def kindsAt? : (opened : List Kind) → (offset : Nat) → List Mark → Option (List Kind)
  | _, _, [] => none
  | opened, offset, .openTag kind :: rest => kindsAt? (kind :: opened) offset rest
  | opened, offset, .closeTag :: rest => kindsAt? opened.tail offset rest
  | opened, offset, .char c :: rest =>
    if offset < c.utf8Size then some opened.reverse
    else kindsAt? opened (offset - c.utf8Size) rest

theorem kindsAt?_chars (opened : List Kind) (offset : Nat) (chars : List Char)
    (rest : List Mark) :
    kindsAt? opened offset (chars.map .char ++ rest) =
      if offset < width chars then some opened.reverse
      else kindsAt? opened (offset - width chars) rest := by
  induction chars generalizing offset with
  | nil => rfl
  | cons c chars ih =>
    rw [List.map_cons, List.cons_append, kindsAt?, ih, width]
    by_cases here : offset < c.utf8Size
    · rw [if_pos here, if_pos (by omega)]
    · rw [if_neg here, Nat.sub_sub]
      by_cases later : offset - c.utf8Size < width chars
      · rw [if_pos later, if_pos (by omega)]
      · rw [if_neg later, if_neg (by omega)]

theorem marksOf_pieceOnto_ownKind {piece : Piece} (cut : piece.span.slice? source = some text)
    (around : Kind) (later : List Part) :
    marksOf (pieceOnto source around piece later) =
      (ownKind (some around) piece.kind).map .openTag ++ (text.toList.map .char ++
        ((ownKind (some around) piece.kind).map (fun _ => .closeTag) ++ marksOf later)) := by
  unfold pieceOnto ownKind
  rw [cut]
  by_cases plain : piece.kind = .plain
  · simp [plain, marksOf_cons, Part.marks]
  · by_cases same : piece.kind = around
    · simp [same, marksOf_cons, Part.marks]
    · simp [plain, same, Ne.symm same, marksOf_cons, Part.marks]

theorem kindsAt?_pieceOnto {piece : Piece} (cut : piece.span.slice? source = some text)
    (opened : List Kind) (around : Kind) (later : List Part)
    (lower : piece.span.start ≤ offset) :
    kindsAt? opened (offset - piece.span.start) (marksOf (pieceOnto source around piece later)) =
      if offset < piece.span.stop then
        some (opened.reverse ++ ownKind (some around) piece.kind)
      else kindsAt? opened (offset - piece.span.stop) (marksOf later) := by
  have wide : width text.toList = piece.span.stop - piece.span.start := width_slice cut
  have ordered : piece.span.start ≤ piece.span.stop := (Text.border_of_slice? cut).1
  have inside : offset - piece.span.start < width text.toList ↔ offset < piece.span.stop := by
    omega
  have rest : offset - piece.span.start - width text.toList = offset - piece.span.stop := by
    omega
  rw [marksOf_pieceOnto_ownKind cut]
  unfold ownKind
  split
  · simp only [List.map_cons, List.map_nil, List.singleton_append, kindsAt?, kindsAt?_chars,
      inside, rest, List.reverse_cons, List.tail_cons]
  · simp only [List.map_nil, List.nil_append, kindsAt?_chars, inside, rest, List.append_nil]

/-- Behind an outline, the same elements are open as in front of it. -/
theorem kindsAt?_partsOnto_of_le (tiles : outline.Tiles (Border source) start stop)
    (opened : List Kind) (around : Kind) (later : List Part) (behind : stop ≤ offset) :
    kindsAt? opened (offset - start) (marksOf (partsOnto source around outline later)) =
      kindsAt? opened (offset - stop) (marksOf later) := by
  induction tiles generalizing opened around later with
  | nil => rfl
  | @piece start earlier p before nonempty here ih =>
    obtain ⟨text, cut⟩ := before.exists_slice nonempty here
    have lower := Nat.le_trans (Nat.le_of_lt nonempty) behind
    rw [partsOnto, ih opened around _ lower, kindsAt?_pieceOnto cut opened around later lower,
      if_neg (Nat.not_lt.2 behind)]
  | @scope start earlier inside s before within _ ih ihWithin =>
    rw [partsOnto, ih opened around _ (Nat.le_trans within.le behind)]
    exact ihWithin (s.kind :: opened) s.kind (.closeTag :: later) behind

/-- In an outline, the elements around a byte are those of the scopes around it,
and the own one of the segment that it belongs to. -/
theorem kindsAt?_partsOnto (tiles : outline.Tiles (Border source) start stop)
    (opened : List Kind) (around : Kind) (chain : Chain) (later : List Part)
    (lower : start ≤ offset) (upper : offset < stop) :
    ∃ segment ∈ outline.segmentsOnto around chain [],
      segment.piece.span.contains offset = true ∧
      kindsAt? opened (offset - start) (marksOf (partsOnto source around outline later)) =
        some (opened.reverse ++ (Scope.around outline.scopes offset).map Scope.kind ++
          ownKind (some ((Scope.innermost? outline.scopes offset).getD around))
            segment.piece.kind) := by
  -- An outline ends in its latest part, so what is written behind that comes along as
  -- `later`; the outline in front of it is passed by the lemma above or by the hypothesis.
  induction tiles generalizing opened around chain later with
  | nil => omega
  | @piece start earlier p before nonempty here ih =>
    rw [Outline.segmentsOnto_piece, partsOnto, Outline.scopes_piece]
    by_cases inFront : offset < p.span.start
    · obtain ⟨segment, member, found⟩ := ih opened around chain _ lower inFront
      exact ⟨segment, List.mem_append_left _ member, found⟩
    · have reached := Nat.not_lt.1 inFront
      obtain ⟨text, cut⟩ := before.exists_slice nonempty here
      refine ⟨_, List.mem_append_right _ List.mem_cons_self,
        Span.contains_eq_true.2 ⟨reached, upper⟩, ?_⟩
      rw [kindsAt?_partsOnto_of_le before opened around _ reached,
        kindsAt?_pieceOnto cut opened around later reached, if_pos upper, Scope.innermost?,
        before.around_of_le reached]
      simp
  | @scope start earlier inside s before within _ ih ihWithin =>
    rw [Outline.segmentsOnto_scope, partsOnto, Scope.innermost?]
    by_cases inFront : offset < s.span.start
    · obtain ⟨segment, member, found⟩ := ih opened around chain _ lower inFront
      -- Only scopes that came earlier can lie around it.
      refine ⟨segment, List.mem_append_left _ member, ?_⟩
      rw [Outline.Tiles.around_scope_of_lt within inFront]
      exact found
    · have reached := Nat.not_lt.1 inFront
      obtain ⟨segment, member, covers, found⟩ := ihWithin (s.kind :: opened) s.kind
        (Outline.innerChain around chain s) (.closeTag :: later) reached upper
      refine ⟨segment, List.mem_append_right _ member, covers, ?_⟩
      rw [kindsAt?_partsOnto_of_le before opened around _ reached,
        Outline.Tiles.around_scope_of_contains before reached upper,
        Outline.Tiles.innermost?_cons]
      rw [List.reverse_cons, List.append_assoc opened.reverse] at found
      exact found

end Html

end ModalHighlight
