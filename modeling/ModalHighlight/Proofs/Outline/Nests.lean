import ModalHighlight.Proofs.Outline.Forest

/-! # Scopes that end together

When open modes are closed all at once, each of them becomes the last thing in
the one around it.  An outline that holds such a nest of scopes goes on holding
it while it grows, and its list of scopes then has a chain in it, each scope of
which encloses the next, with nothing around the first.
-/

namespace ModalHighlight.Outline

/-- The outline ends with `count` scopes in one another, which stop at an offset. -/
inductive EndsNested (stop : Nat) : (count : Nat) → Outline → Prop
  | none (outline : Outline) : EndsNested stop 0 outline
  | scope {count : Nat} {earlier inside : Outline} {s : Scope} (last : s.span.stop = stop)
      (within : EndsNested stop count inside) :
      EndsNested stop (count + 1) (scope earlier s inside)

/-- In no other scope there is one with a span, and it ends with `count` further
scopes in one another. -/
inductive HasNest (span : Span) (count : Nat) : Outline → Prop
  | here {earlier inside : Outline} {s : Scope} (extent : s.span = span)
      (within : EndsNested span.stop count inside) : HasNest span count (scope earlier s inside)
  | piece {earlier : Outline} (p : Piece) (before : HasNest span count earlier) :
      HasNest span count (piece earlier p)
  | scope {earlier : Outline} (s : Scope) (inside : Outline)
      (before : HasNest span count earlier) : HasNest span count (scope earlier s inside)

variable {border : Nat → Prop} {start stop count : Nat} {outline : Outline} {span : Span}

/-- The scopes that an outline ends with, as a part of the list of its scopes. -/
theorem EndsNested.exists_sublist (ends : EndsNested stop count outline)
    (tiles : Tiles border start stop outline) :
    ∃ nested : List Scope, nested.Sublist outline.scopes ∧ nested.length = count ∧
      (∀ s ∈ nested, s.span.stop = stop) ∧
      nested.Pairwise fun outer inner => outer.span.encloses inner.span = true := by
  induction ends generalizing start with
  | none => exact ⟨[], by simp⟩
  | @scope count earlier inside s last within ih =>
    cases tiles with
    | scope _ tilesWithin =>
      obtain ⟨nested, part, length, together, enclosed⟩ := ih (last ▸ tilesWithin)
      refine ⟨s :: nested, ?_, by simp [length], ?_, List.pairwise_cons.2 ⟨?_, enclosed⟩⟩
      · rw [scopes_scope]
        exact (part.cons_cons s).trans (List.sublist_append_right _ _)
      · simpa [last] using together
      · intro inner member
        have within := tilesWithin.scopes_within inner (part.subset member)
        exact Span.encloses_eq_true.2 ⟨within.1, within.2.2⟩

/-- A nest is a chain of scopes in the list, and only its first encloses all of it. -/
theorem HasNest.exists_sublist (nest : HasNest span count outline)
    (tiles : Tiles border start stop outline) :
    ∃ first inner, (first :: inner).Sublist outline.scopes ∧ inner.length = count ∧
      first.span = span ∧ (∀ s ∈ first :: inner, s.span.stop = span.stop) ∧
      ((first :: inner).Pairwise fun outer inner => outer.span.encloses inner.span = true) ∧
      ∀ s ∈ outline.scopes, s.span.encloses span = true → s = first := by
  induction nest generalizing stop with
  | @here earlier inside first extent within =>
    subst extent
    cases tiles with
    | scope before tilesWithin leads =>
      obtain ⟨inner, part, length, together, enclosed⟩ := within.exists_sublist tilesWithin
      refine ⟨first, inner, ?_, length, rfl, by simpa using together,
        List.pairwise_cons.2 ⟨?_, enclosed⟩, ?_⟩
      · rw [scopes_scope]
        exact (part.cons_cons first).trans (List.sublist_append_right _ _)
      · intro s member
        have bounds := tilesWithin.scopes_within s (part.subset member)
        exact Span.encloses_eq_true.2 ⟨bounds.1, bounds.2.2⟩
      · -- What came earlier stops too soon, and what is inside starts too late.
        intro s member encloses
        have proper := tilesWithin.lt_of_leads leads
        rw [Span.encloses_eq_true] at encloses
        rw [scopes_scope, List.mem_append, List.mem_cons] at member
        rcases member with inEarlier | same | inInside
        · have bounds := before.scopes_within s inEarlier
          omega
        · exact same
        · have behind := tilesWithin.start_lt_of_leads leads s inInside
          omega
  | piece p _ ih =>
    cases tiles with
    | piece before => exact ih before
  | scope last inside _ ih =>
    cases tiles with
    | scope before within leads =>
      obtain ⟨first, inner, part, length, extent, together, enclosed, outermost⟩ := ih before
      refine ⟨first, inner, ?_, length, extent, together, enclosed, ?_⟩
      · rw [scopes_scope]
        exact part.trans (List.sublist_append_left _ _)
      · intro s member encloses
        have bounds := before.scopes_within first (part.subset List.mem_cons_self)
        rw [scopes_scope, List.mem_append] at member
        rcases member with inEarlier | behind
        · exact outermost s inEarlier encloses
        · have whole := Tiles.scope (.nil before.border_stop) within leads
          have later := whole.scopes_within s (by simpa using behind)
          rw [Span.encloses_eq_true, ← extent] at encloses
          omega

end ModalHighlight.Outline
