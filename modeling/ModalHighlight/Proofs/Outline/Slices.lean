import ModalHighlight.Proofs.Outline.Tiling
import ModalHighlight.Proofs.Text.Whole

/-! # Slices of a text in a row

Spans that tile a range of a text between borders of its characters each cut
out a slice, and the slices put together are that range.
-/

namespace ModalHighlight

open Text (Border)

namespace Span.Tiles

variable {text : String} {start stop : Nat} {spans : List Span}

theorem slice?_of_mem (tiles : Tiles (Border text) start stop spans) {s : Span}
    (member : s ∈ spans) :
    ∃ slice, s.slice? text = some slice ∧
      Text.bytes slice = ((Text.bytes text).drop s.start).take (s.stop - s.start) := by
  obtain ⟨_, nonempty, _, left, right⟩ := tiles.of_mem member
  exact Text.slice?_of_border (Nat.le_of_lt nonempty) left right

theorem bytes_join_slices (tiles : Tiles (Border text) start stop spans) :
    Text.bytes (String.join (spans.map fun s => (s.slice? text).getD "")) =
      ((Text.bytes text).drop start).take (stop - start) := by
  induction spans generalizing start with
  | nil =>
    obtain rfl : start = stop := tiles.2
    rw [Nat.sub_self, List.take_zero]
    rfl
  | cons s rest ih =>
    obtain ⟨slice, cut, bytes⟩ := tiles.slice?_of_mem List.mem_cons_self
    obtain ⟨_, rfl, nonempty, later⟩ := tiles
    have total : stop - s.start = (s.stop - s.start) + (stop - s.stop) := by
      have := later.le
      omega
    have moved : s.start + (s.stop - s.start) = s.stop := by omega
    rw [List.map_cons, String.join_cons, Text.bytes_append, ih later, cut, Option.getD_some, bytes,
      total, List.take_add, List.drop_drop, moved]

/-- What tiles a text is that text, when it is put together. -/
theorem join_slices (tiles : Tiles (Border text) 0 text.utf8ByteSize spans) :
    String.join (spans.map fun s => (s.slice? text).getD "") = text := by
  apply Text.bytes_injective
  rw [tiles.bytes_join_slices, List.drop_zero, Nat.sub_zero, List.take_of_length_le]
  exact Nat.le_of_eq (Text.length_bytes text)

end Span.Tiles

theorem Outline.Tiles.exists_slice {text : String} {start : Nat} {earlier : Outline} {p : Piece}
    (before : earlier.Tiles (Border text) start p.span.start)
    (nonempty : p.span.start < p.span.stop) (here : Border text p.span.stop) :
    ∃ slice, p.span.slice? text = some slice := by
  obtain ⟨slice, cut, _⟩ :=
    Text.slice?_of_border (Nat.le_of_lt nonempty) before.border_stop here
  exact ⟨slice, cut⟩

end ModalHighlight
