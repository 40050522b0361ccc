import Mathlib.Data.List.Chain
import ModalHighlight.Outline

/-! # Outlines that tile a range

An outline tiles a range of offsets if its pieces follow one another without
gaps from the start of the range to its stop, all of them with text of their
own, and if every scope reaches from the first to the last piece inside it.
Every scope begins with a piece, not with another scope, because what opens a
mode belongs to that mode.  So no two scopes start at one offset, and the
scopes inside a scope start after it.
-/

namespace ModalHighlight

/-! ## Spans in a row -/

/-- Spans that are not empty follow one another from one offset to another, all
of them between borders. -/
def Span.Tiles (border : Nat → Prop) (start stop : Nat) : List Span → Prop
  | [] => border start ∧ start = stop
  | s :: rest => border start ∧ s.start = start ∧ s.start < s.stop ∧ Tiles border s.stop stop rest

namespace Span.Tiles

variable {border : Nat → Prop} {start middle stop : Nat} {spans : List Span}

theorem nil (here : border start) : Tiles border start start [] := ⟨here, rfl⟩

theorem border_start (tiles : Tiles border start stop spans) : border start := by
  cases spans with
  | nil => exact tiles.1
  | cons => exact tiles.1

theorem border_stop (tiles : Tiles border start stop spans) : border stop := by
  induction spans generalizing start with
  | nil => exact tiles.2 ▸ tiles.1
  | cons s rest ih => exact ih tiles.2.2.2

theorem le (tiles : Tiles border start stop spans) : start ≤ stop := by
  induction spans generalizing start with
  | nil => exact Nat.le_of_eq tiles.2
  | cons s rest ih =>
    obtain ⟨_, rfl, nonempty, later⟩ := tiles
    exact Nat.le_trans (Nat.le_of_lt nonempty) (ih later)

theorem append {left right : List Span} (first : Tiles border start middle left)
    (second : Tiles border middle stop right) : Tiles border start stop (left ++ right) := by
  induction left generalizing start with
  | nil => exact first.2 ▸ second
  | cons s rest ih => exact ⟨first.1, first.2.1, first.2.2.1, ih first.2.2.2⟩

theorem exists_of_append {left right : List Span}
    (tiles : Tiles border start stop (left ++ right)) :
    ∃ middle, Tiles border start middle left ∧ Tiles border middle stop right := by
  induction left generalizing start with
  | nil => exact ⟨start, .nil tiles.border_start, tiles⟩
  | cons s rest ih =>
    obtain ⟨middle, first, second⟩ := ih tiles.2.2.2
    exact ⟨middle, ⟨tiles.1, tiles.2.1, tiles.2.2.1, first⟩, second⟩

theorem getLast_stop (tiles : Tiles border start stop spans) (nonempty : spans ≠ []) :
    (spans.getLast nonempty).stop = stop := by
  induction spans generalizing start with
  | nil => exact absurd rfl nonempty
  | cons s rest ih =>
    cases rest with
    | nil => exact tiles.2.2.2.2
    | cons next others => exact ih tiles.2.2.2 (List.cons_ne_nil next others)

/-- A span in a row lies within it, is not empty, and has borders at both ends. -/
theorem of_mem (tiles : Tiles border start stop spans) {s : Span} (member : s ∈ spans) :
    start ≤ s.start ∧ s.start < s.stop ∧ s.stop ≤ stop ∧ border s.start ∧ border s.stop := by
  induction spans generalizing start with
  | nil => cases member
  | cons first rest ih =>
    obtain ⟨here, rfl, nonempty, later⟩ := tiles
    rcases List.mem_cons.1 member with rfl | inRest
    · exact ⟨Nat.le_refl _, nonempty, later.le, here, later.border_start⟩
    · obtain ⟨lower, others⟩ := ih later inRest
      exact ⟨Nat.le_trans (Nat.le_of_lt nonempty) lower, others⟩

/-- Every offset of the range lies in one of the spans. -/
theorem exists_contains (tiles : Tiles border start stop spans) {offset : Nat}
    (lower : start ≤ offset) (upper : offset < stop) :
    ∃ s ∈ spans, s.contains offset = true := by
  induction spans generalizing start with
  | nil => exact absurd tiles.2 (by omega)
  | cons s rest ih =>
    obtain ⟨_, rfl, _, later⟩ := tiles
    by_cases inFirst : offset < s.stop
    · exact ⟨s, List.mem_cons_self, Span.contains_eq_true.2 ⟨lower, inFirst⟩⟩
    · obtain ⟨found, member, contains⟩ := ih later (Nat.not_lt.1 inFirst)
      exact ⟨found, List.mem_cons_of_mem s member, contains⟩

theorem head?_start (tiles : Tiles border start stop spans) :
    ∀ s ∈ spans.head?, s.start = start := by
  intro s first
  cases spans with
  | nil => cases first
  | cons head rest =>
    obtain rfl : head = s := Option.some.inj first
    exact tiles.2.1

theorem getLast?_stop (tiles : Tiles border start stop spans) :
    ∀ s ∈ spans.getLast?, s.stop = stop := by
  intro s last
  have nonempty : spans ≠ [] := by
    rintro rfl
    cases last
  rw [List.getLast?_eq_some_getLast nonempty] at last
  obtain rfl : spans.getLast nonempty = s := Option.some.inj last
  exact tiles.getLast_stop nonempty

theorem isChain (tiles : Tiles border start stop spans) :
    spans.IsChain fun left right => right.start = left.stop := by
  induction spans generalizing start with
  | nil => exact .nil
  | cons s rest ih =>
    have later := tiles.2.2.2
    exact List.isChain_cons.2 ⟨later.head?_start, ih later⟩

theorem eq_nil_iff (tiles : Tiles border start stop spans) : spans = [] ↔ start = stop := by
  cases spans with
  | nil => exact ⟨fun _ => tiles.2, fun _ => rfl⟩
  | cons s rest =>
    obtain ⟨_, rfl, nonempty, later⟩ := tiles
    have before := Nat.lt_of_lt_of_le nonempty later.le
    exact ⟨fun empty => absurd empty (List.cons_ne_nil s rest),
      fun same => absurd same (Nat.ne_of_lt before)⟩

end Span.Tiles

namespace Outline

/-! ## Tilings -/

/-- The first thing in the outline is a piece. -/
inductive Leads : Outline → Prop
  | first (p : Piece) : Leads (piece nil p)
  | piece {earlier : Outline} (p : Piece) (before : Leads earlier) : Leads (piece earlier p)
  | scope {earlier : Outline} (s : Scope) (inside : Outline) (before : Leads earlier) :
      Leads (scope earlier s inside)

/-- The pieces tile the range, and each scope is the range of what is inside it. -/
inductive Tiles (border : Nat → Prop) : (start stop : Nat) → Outline → Prop
  | nil {offset : Nat} (here : border offset) : Tiles border offset offset nil
  | piece {start : Nat} {earlier : Outline} {p : Piece}
      (before : Tiles border start p.span.start earlier) (nonempty : p.span.start < p.span.stop)
      (here : border p.span.stop) : Tiles border start p.span.stop (piece earlier p)
  | scope {start : Nat} {earlier inside : Outline} {s : Scope}
      (before : Tiles border start s.span.start earlier)
      (within : Tiles border s.span.start s.span.stop inside) (leads : inside.Leads) :
      Tiles border start s.span.stop (scope earlier s inside)

namespace Tiles

variable {border : Nat → Prop} {start stop : Nat} {outline : Outline}

theorem eq_of_nil (tiles : Tiles border start stop .nil) : start = stop := by
  cases tiles with
  | nil => rfl

theorem snoc {middle : Nat} (before : Tiles border start middle outline) (kind : Kind)
    (nonempty : middle < stop) (here : border stop) :
    Tiles border start stop (outline.piece ⟨kind, ⟨middle, stop⟩⟩) :=
  @piece border start outline ⟨kind, ⟨middle, stop⟩⟩ before nonempty here

theorem enclose {middle : Nat} {inside : Outline} (before : Tiles border start middle outline)
    (kind : Kind) (within : Tiles border middle stop inside) (leads : inside.Leads) :
    Tiles border start stop (outline.scope ⟨kind, ⟨middle, stop⟩⟩ inside) :=
  @scope border start outline inside ⟨kind, ⟨middle, stop⟩⟩ before within leads

theorem le (tiles : Tiles border start stop outline) : start ≤ stop := by
  induction tiles with
  | nil => exact Nat.le_refl _
  | piece _ nonempty _ ih => exact Nat.le_trans ih (Nat.le_of_lt nonempty)
  | scope _ _ _ ih ihWithin => exact Nat.le_trans ih ihWithin

theorem border_start (tiles : Tiles border start stop outline) : border start := by
  induction tiles with
  | nil here => exact here
  | piece _ _ _ ih => exact ih
  | scope _ _ _ ih _ => exact ih

theorem border_stop (tiles : Tiles border start stop outline) : border stop := by
  induction tiles with
  | nil here => exact here
  | piece _ _ here => exact here
  | scope _ _ _ _ ihWithin => exact ihWithin

theorem lt_of_leads (tiles : Tiles border start stop outline) (leads : outline.Leads) :
    start < stop := by
  induction tiles with
  | nil => cases leads
  | piece before nonempty _ _ => exact Nat.lt_of_le_of_lt before.le nonempty
  | scope before _ leadsInside _ ihWithin =>
    exact Nat.lt_of_le_of_lt before.le (ihWithin leadsInside)

/-- The pieces of an outline, one after another. -/
theorem pieces (tiles : Tiles border start stop outline) :
    Span.Tiles border start stop (outline.pieces.map Piece.span) := by
  induction tiles with
  | nil here => exact .nil here
  | piece before nonempty here ih =>
    rw [pieces_piece, List.map_append]
    exact ih.append ⟨before.border_stop, rfl, nonempty, .nil here⟩
  | scope _ _ _ ih ihWithin =>
    rw [pieces_scope, List.map_append]
    exact ih.append ihWithin

end Tiles

end Outline

end ModalHighlight
