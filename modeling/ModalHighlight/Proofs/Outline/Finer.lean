import ModalHighlight.Outline

/-! # Outlines with content in smaller pieces

The content of a mode may be recorded as one piece or as several.  An outline is
finer than another if it is the same but for this, and then both have the same
scopes.
-/

namespace ModalHighlight

namespace Outline

/-- The second outline is the first one with content of modes in smaller pieces.
Both are inside a mode of a kind. -/
inductive Finer : (kind : Kind) → (coarse fine : Outline) → Prop
  | nil (kind : Kind) : Finer kind nil nil
  | piece {kind : Kind} {coarse fine : Outline} (p : Piece) (before : Finer kind coarse fine) :
      Finer kind (piece coarse p) (piece fine p)
  | split {kind : Kind} {coarse fine : Outline} {start middle stop : Nat}
      (before : Finer kind (piece coarse ⟨kind, ⟨start, middle⟩⟩) fine) :
      Finer kind (piece coarse ⟨kind, ⟨start, stop⟩⟩) (piece fine ⟨kind, ⟨middle, stop⟩⟩)
  | scope {kind : Kind} {coarse fine coarseInside fineInside : Outline} (s : Scope)
      (before : Finer kind coarse fine) (within : Finer s.kind coarseInside fineInside) :
      Finer kind (scope coarse s coarseInside) (scope fine s fineInside)

namespace Finer

variable {kind : Kind} {coarse fine : Outline}

theorem scopes_eq (finer : Finer kind coarse fine) : fine.scopes = coarse.scopes := by
  induction finer with
  | nil => rfl
  | piece _ _ ih => exact ih
  | split _ ih => exact ih
  | scope _ _ _ ih ihWithin => rw [scopes_scope, scopes_scope, ih, ihWithin]

end Finer

end Outline

end ModalHighlight
