import ModalHighlight.Proofs.Html.Reading
import ModalHighlight.Proofs.Outline.Slices

/-! # The marks of an outline

An outline is written as marks whose characters are the text of its pieces, in
their order, and whose tags are nested: every element is closed after all that
was opened inside it.
-/

namespace ModalHighlight.Html

variable {source text : String} {start stop : Nat} {outline : Outline} {marks : List Mark}

theorem marksOf_cons (part : Part) (parts : List Part) :
    marksOf (part :: parts) = part.marks ++ marksOf parts := rfl

theorem marksOf_append (first second : List Part) :
    marksOf (first ++ second) = marksOf first ++ marksOf second :=
  List.flatMap_append

/-! ## Characters -/

theorem charsOf_append (first second : List Mark) :
    charsOf (first ++ second) = charsOf first ++ charsOf second :=
  List.filterMap_append

theorem charsOf_map_char (chars : List Char) : charsOf (chars.map .char) = chars := by
  induction chars with
  | nil => rfl
  | cons c chars ih => exact congrArg (c :: ·) ih

theorem charsOf_pieceOnto (source : String) (around : Kind) (piece : Piece) (later : List Part) :
    charsOf (marksOf (pieceOnto source around piece later)) =
      ((piece.span.slice? source).getD "").toList ++ charsOf (marksOf later) := by
  unfold pieceOnto
  split
  · rw [marksOf_cons, charsOf_append, Part.marks, charsOf_map_char]
  · simp only [marksOf_cons, charsOf_append, Part.marks, charsOf_map_char]
    rfl

theorem charsOf_partsOnto (source : String) (around : Kind) (outline : Outline)
    (later : List Part) :
    charsOf (marksOf (partsOnto source around outline later)) =
      (outline.pieces.flatMap fun p => ((p.span.slice? source).getD "").toList) ++
        charsOf (marksOf later) := by
  induction outline generalizing around later with
  | nil => rfl
  | piece earlier p ih =>
    rw [partsOnto, ih, charsOf_pieceOnto, Outline.pieces_piece, List.flatMap_append,
      List.flatMap_singleton, List.append_assoc]
  | scope earlier s inside ih ihInside =>
    have opened : charsOf (marksOf (.openTag s.kind ::
        partsOnto source s.kind inside (.closeTag :: later))) =
          charsOf (marksOf (partsOnto source s.kind inside (.closeTag :: later))) := rfl
    rw [partsOnto, ih, opened, ihInside, Outline.pieces_scope, List.flatMap_append,
      List.append_assoc]
    rfl

/-- The characters of an outline that tiles a text are those of the text. -/
theorem charsOf_parts (tiles : outline.Tiles (Text.Border text) 0 text.utf8ByteSize) :
    charsOf (marksOf (parts text outline)) = text.toList := by
  have joined := congrArg String.toList tiles.pieces.join_slices
  rw [String.toList_join, List.map_map, List.flatMap_map] at joined
  rw [parts, charsOf_partsOnto, ← joined]
  exact List.append_nil _

/-! ## Tags -/

/-- The number of elements that are open behind some marks; none if an element
is closed that was never opened. -/
def openAfter? : (opened : Nat) → List Mark → Option Nat
  | opened, [] => some opened
  | opened, .openTag _ :: rest => openAfter? (opened + 1) rest
  | opened, .char _ :: rest => openAfter? opened rest
  | 0, .closeTag :: _ => none
  | opened + 1, .closeTag :: rest => openAfter? opened rest

theorem openAfter?_map_char (opened : Nat) (chars : List Char) (rest : List Mark) :
    openAfter? opened (chars.map .char ++ rest) = openAfter? opened rest := by
  induction chars with
  | nil => rfl
  | cons c chars ih => simpa only [List.map_cons, List.cons_append, openAfter?] using ih

theorem openAfter?_pieceOnto (source : String) (around : Kind) (piece : Piece)
    (later : List Part) (opened : Nat) :
    openAfter? opened (marksOf (pieceOnto source around piece later)) =
      openAfter? opened (marksOf later) := by
  unfold pieceOnto
  split
  · rw [marksOf_cons, Part.marks, openAfter?_map_char]
  · simp only [marksOf_cons, Part.marks, List.singleton_append, openAfter?, openAfter?_map_char]

/-- An outline leaves as many elements open as it finds. -/
theorem openAfter?_partsOnto (source : String) (around : Kind) (outline : Outline)
    (later : List Part) (opened : Nat) :
    openAfter? opened (marksOf (partsOnto source around outline later)) =
      openAfter? opened (marksOf later) := by
  induction outline generalizing around later opened with
  | nil => rfl
  | piece earlier p ih => rw [partsOnto, ih, openAfter?_pieceOnto]
  | scope earlier s inside ih ihInside =>
    rw [partsOnto, ih, marksOf_cons, Part.marks, List.singleton_append, openAfter?, ihInside]
    rfl

def Mark.opens : Mark → Bool
  | openTag _ => true
  | _ => false

def Mark.closes : Mark → Bool
  | closeTag => true
  | _ => false

/-- Where elements are counted, none was closed before it was opened, and those
that remain open are those that were not closed. -/
theorem balanced_of_openAfter? {opened left : Nat} (counted : openAfter? opened marks = some left) :
    (∀ before, before <+: marks →
      before.countP Mark.closes ≤ opened + before.countP Mark.opens) ∧
      left + marks.countP Mark.closes = opened + marks.countP Mark.opens := by
  induction marks generalizing opened with
  | nil =>
    obtain rfl : opened = left := Option.some.inj counted
    refine ⟨fun before first => ?_, rfl⟩
    rw [List.prefix_nil.1 first]
    exact Nat.zero_le _
  | cons mark rest ih =>
    -- One mark changes the counts by at most one, the rest is the hypothesis.
    have counts : ∀ more : List Mark,
        (mark :: more).countP Mark.closes = more.countP Mark.closes + mark.closes.toNat ∧
          (mark :: more).countP Mark.opens = more.countP Mark.opens + mark.opens.toNat := by
      intro more
      cases mark <;> simp [List.countP_cons, Mark.closes, Mark.opens]
    suffices later : ∃ opened', openAfter? opened' rest = some left ∧
        opened' + mark.closes.toNat = opened + mark.opens.toNat by
      obtain ⟨opened', countedLater, changed⟩ := later
      obtain ⟨bounded, total⟩ := ih countedLater
      constructor
      · intro before first
        rcases List.prefix_cons_iff.1 first with rfl | ⟨more, rfl, inRest⟩
        · exact Nat.zero_le _
        · have := bounded more inRest
          rw [(counts more).1, (counts more).2]
          omega
      · rw [(counts rest).1, (counts rest).2]
        omega
    cases mark with
    | openTag kind => exact ⟨opened + 1, counted, rfl⟩
    | char c => exact ⟨opened, counted, rfl⟩
    | closeTag =>
      cases opened with
      | zero => cases counted
      | succ opened => exact ⟨opened, counted, rfl⟩

end ModalHighlight.Html
