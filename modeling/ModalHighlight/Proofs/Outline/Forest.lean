import ModalHighlight.Proofs.Scan.Completion

/-! # Scopes form a forest

In an outline that tiles a range, the scopes are listed by where they start, no
two of them at one offset, and of two scopes the later one lies either within
the earlier one or behind it.  The scopes around an offset are those that lie
inside one another there, so there are never more of them than the outline is
deep.
-/

namespace ModalHighlight

namespace Outline.Tiles

variable {border : Nat → Prop} {start stop : Nat} {outline : Outline}

/-! ## Where scopes lie -/

/-- Scopes have text of their own, and lie in the range that is tiled. -/
theorem scopes_within (tiles : Tiles border start stop outline) :
    ∀ s ∈ outline.scopes,
      start ≤ s.span.start ∧ s.span.start < s.span.stop ∧ s.span.stop ≤ stop := by
  induction tiles with
  | nil =>
    intro s member
    cases member
  | @piece start earlier p _ nonempty _ ih =>
    intro s member
    obtain ⟨lower, proper, upper⟩ := ih s member
    exact ⟨lower, proper, Nat.le_trans upper (Nat.le_of_lt nonempty)⟩
  | @scope start earlier inside last before within leads ih ihWithin =>
    intro s member
    rw [scopes_scope, List.mem_append, List.mem_cons] at member
    rcases member with inEarlier | rfl | inInside
    · obtain ⟨lower, proper, upper⟩ := ih s inEarlier
      exact ⟨lower, proper, Nat.le_trans upper within.le⟩
    · exact ⟨before.le, within.lt_of_leads leads, Nat.le_refl _⟩
    · obtain ⟨lower, proper, upper⟩ := ihWithin s inInside
      exact ⟨Nat.le_trans before.le lower, proper, upper⟩

/-- Behind a piece that leads, scopes start later than the range does. -/
theorem start_lt_of_leads (tiles : Tiles border start stop outline) (leads : outline.Leads) :
    ∀ s ∈ outline.scopes, start < s.span.start := by
  -- What leads is the oldest thing in the outline, so the induction follows it
  -- down through what came earlier.
  induction tiles with
  | nil => cases leads
  | piece _ _ _ ih =>
    intro s member
    cases leads with
    | first => cases member
    | piece _ leadsBefore => exact ih leadsBefore s member
  | @scope start earlier inside last before within _ ih _ =>
    intro s member
    cases leads with
    | scope _ _ leadsBefore =>
      have behind : start < last.span.start := before.lt_of_leads leadsBefore
      rw [scopes_scope, List.mem_append, List.mem_cons] at member
      rcases member with inEarlier | rfl | inInside
      · exact ih leadsBefore s inEarlier
      · exact behind
      · exact Nat.lt_of_lt_of_le behind (within.scopes_within s inInside).1

/-- Scopes are listed by their starts and never cross. -/
theorem pairwise_scopes (tiles : Tiles border start stop outline) :
    outline.scopes.Pairwise fun first second =>
      first.span.start < second.span.start ∧
        (second.span.stop ≤ first.span.stop ∨ first.span.stop ≤ second.span.start) := by
  induction tiles with
  | nil => exact .nil
  | piece _ _ _ ih => exact ih
  | @scope start earlier inside last before within leads ih ihWithin =>
    have below : ∀ s ∈ inside.scopes, last.span.start < s.span.start ∧
        (s.span.stop ≤ last.span.stop ∨ last.span.stop ≤ s.span.start) := by
      intro s member
      exact ⟨within.start_lt_of_leads leads s member, .inl (within.scopes_within s member).2.2⟩
    rw [scopes_scope, List.pairwise_append]
    refine ⟨ih, List.pairwise_cons.2 ⟨below, ihWithin⟩, ?_⟩
    -- All that came earlier stops before the last scope starts.
    intro first inEarlier second member
    obtain ⟨_, proper, upper⟩ := before.scopes_within first inEarlier
    have lower : last.span.start ≤ second.span.start := by
      rcases List.mem_cons.1 member with rfl | inInside
      · exact Nat.le_refl _
      · exact (within.scopes_within second inInside).1
    exact ⟨by omega, .inr (Nat.le_trans upper lower)⟩

/-- No scope is listed twice. -/
theorem nodup_scopes (tiles : Tiles border start stop outline) : outline.scopes.Nodup := by
  refine tiles.pairwise_scopes.imp fun apart same => ?_
  rw [same] at apart
  exact Nat.lt_irrefl _ apart.1

/-! ## Scopes around an offset -/

theorem not_contains_of_lt (tiles : Tiles border start stop outline) {offset : Nat}
    (before : offset < start) : ∀ s ∈ outline.scopes, s.span.contains offset = false := by
  intro s member
  have lower := (tiles.scopes_within s member).1
  rw [← Bool.not_eq_true, Span.contains_eq_true]
  omega

theorem not_contains_of_le (tiles : Tiles border start stop outline) {offset : Nat}
    (behind : stop ≤ offset) : ∀ s ∈ outline.scopes, s.span.contains offset = false := by
  intro s member
  have upper := (tiles.scopes_within s member).2.2
  rw [← Bool.not_eq_true, Span.contains_eq_true]
  omega

/-- No offset has more scopes around it than the outline is deep. -/
theorem countP_contains_le_depth (tiles : Tiles border start stop outline) (offset : Nat) :
    outline.scopes.countP (·.span.contains offset) ≤ outline.depth := by
  induction tiles with
  | nil => exact Nat.le_refl _
  | piece _ _ _ ih => exact ih
  | @scope start earlier inside last before within leads ih ihWithin =>
    rw [scopes_scope, List.countP_append, depth]
    -- An offset lies in front of the last scope or behind all that came earlier,
    -- so only one of the two parts counts.
    by_cases inFront : offset < last.span.start
    · have none : (last :: inside.scopes).countP (·.span.contains offset) = 0 := by
        have whole := Tiles.scope (.nil before.border_stop) within leads
        exact List.countP_eq_zero.2 fun s member =>
          Bool.eq_false_iff.1 (whole.not_contains_of_lt inFront s member)
      rw [none, Nat.add_zero]
      exact Nat.le_trans ih (Nat.le_max_left _ _)
    · have none : earlier.scopes.countP (·.span.contains offset) = 0 :=
        List.countP_eq_zero.2 fun s member =>
          Bool.eq_false_iff.1 (before.not_contains_of_le (Nat.not_lt.1 inFront) s member)
      rw [none, Nat.zero_add, List.countP_cons]
      refine Nat.le_trans (Nat.add_le_add ihWithin ?_) (Nat.le_max_right _ _)
      split
      · exact Nat.le_refl _
      · exact Nat.zero_le _

end Outline.Tiles

/-! ## Highlighting -/

/-- Whatever the options, the scopes of a text are not empty, lie inside it and
form a forest, and fewer of them lie around any offset than modes may be open. -/
theorem scopes_form_forest (options : Scan.Options) (text : String) :
    let result := (Highlighter.default.withOptions options).highlight text
    (∀ s ∈ result.scopes, s.span.start < s.span.stop ∧ s.span.stop ≤ text.utf8ByteSize) ∧
      (result.scopes.Pairwise fun first second =>
        first.span.start < second.span.start ∧
          (second.span.stop ≤ first.span.stop ∨ first.span.stop ≤ second.span.start)) ∧
      ∀ offset : Nat,
        result.scopes.countP (·.span.contains offset) ≤ max options.maxDepth 2 - 1 := by
  intro result
  obtain ⟨tiles, shallow⟩ := Highlighter.tiles_withOptions options text
  refine ⟨fun s member => (tiles.scopes_within s member).2, tiles.pairwise_scopes, ?_⟩
  intro offset
  exact Nat.le_trans (tiles.countP_contains_le_depth offset) (Nat.le_sub_one_of_lt shallow)

end ModalHighlight
