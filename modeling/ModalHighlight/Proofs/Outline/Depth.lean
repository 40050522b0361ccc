import Mathlib.Data.Finset.Lattice.Fold
import Mathlib.Data.Finset.Range
import Mathlib.Order.Lattice.Nat
import ModalHighlight.Proofs.Outline.Forest
import ModalHighlight.Stats

/-! # Nesting told from a list of scopes

How deeply scopes nest can be told from the list of them, without the outline that they come
from.  A pass over the list keeps the stops of the scopes that may still be open, the innermost
first, and drops those off the top that a beginning scope leaves behind.  It never looks below
the top, so what it keeps is right only of scopes that form a forest: there, the stops that are
left at an offset are those of the scopes around it.  The most stops that are ever kept are then
the most scopes around any byte of the text, and that is the depth of the outline.
-/

namespace ModalHighlight

namespace Scope

/-! ## The pass -/

/-- The stops that are kept once a scope begins, by those kept before. -/
def keep (kept : List Nat) (s : Scope) : List Nat :=
  s.span.stop :: kept.dropWhile (· ≤ s.span.start)

/-- The most stops kept at once, from some scope of a list on. -/
def nestingFrom (deepest : Nat) (kept : List Nat) : List Scope → Nat
  | [] => deepest
  | s :: later => nestingFrom (max deepest (s.keep kept).length) (s.keep kept) later

/-- How deeply a list of scopes nests. -/
def nesting (scopes : List Scope) : Nat := nestingFrom 0 [] scopes

/-! ## Forests -/

/-- The number of scopes around an offset. -/
def countAround (scopes : List Scope) (offset : Nat) : Nat :=
  scopes.countP (·.span.contains offset)

/-- Scopes that are not empty, listed by where they start, of which no two cross. -/
structure Forest (scopes : List Scope) : Prop where
  proper : ∀ s ∈ scopes, s.span.start < s.span.stop
  ordered : scopes.Pairwise fun first second =>
    first.span.start < second.span.start ∧
      (second.span.stop ≤ first.span.stop ∨ first.span.stop ≤ second.span.start)

variable {scopes earlier later : List Scope} {s : Scope} {kept : List Nat}
variable {deepest bound offset size : Nat}

/-- Where a scope starts, none of those listed after it has started. -/
theorem Forest.countAround_start (forest : Forest (earlier ++ s :: later)) :
    countAround (earlier ++ s :: later) s.span.start = countAround earlier s.span.start + 1 := by
  have itself : s.span.contains s.span.start = true :=
    Span.contains_eq_true.2 ⟨Nat.le_refl _, forest.proper s (by simp)⟩
  have noneLater : later.countP (·.span.contains s.span.start) = 0 := by
    apply List.countP_eq_zero.2
    intro other member around
    have starts := (List.pairwise_cons.1 (List.pairwise_append.1 forest.ordered).2.1).1 other member
    rw [Span.contains_eq_true] at around
    omega
  rw [countAround, countAround, List.countP_append, List.countP_cons, noneLater, itself]
  simp

/-- Around any offset lie no more scopes than around the start of one of them. -/
theorem Forest.exists_countAround_le (forest : Forest scopes) (offset : Nat) :
    countAround scopes offset = 0 ∨
      ∃ s ∈ scopes, countAround scopes offset ≤ countAround scopes s.span.start := by
  -- Of the scopes around the offset, the last one in the list starts last, so that all of
  -- them are around its start as well.
  have rising := forest.ordered.filter (·.span.contains offset)
  rcases List.eq_nil_or_concat (scopes.filter (·.span.contains offset)) with none | ⟨outer, s, all⟩
  · left
    rw [countAround, List.countP_eq_length_filter, none, List.length_nil]
  · right
    rw [List.concat_eq_append] at all
    rw [all, List.pairwise_append] at rising
    have inAll : s ∈ scopes.filter (·.span.contains offset) := by simp [all]
    refine ⟨s, (List.mem_filter.1 inAll).1, ?_⟩
    apply List.countP_mono_left
    intro other member around
    have inFilter : other ∈ outer ++ [s] := all ▸ List.mem_filter.2 ⟨member, around⟩
    have proper := forest.proper other member
    have last := Span.contains_eq_true.1 (List.mem_filter.1 inAll).2
    rw [Span.contains_eq_true] at around ⊢
    rcases List.mem_append.1 inFilter with before | same
    · have starts := (rising.2.2 other before s List.mem_cons_self).1
      omega
    · rw [List.mem_singleton.1 same] at proper ⊢
      omega

/-! ## What is kept -/

/-- Behind the starts of some scopes, what is left of the stops kept is the stops of the scopes
around. -/
def Tracks (kept : List Nat) (earlier : List Scope) : Prop :=
  ∀ offset, (∀ s ∈ earlier, s.span.start ≤ offset) →
    kept.dropWhile (· ≤ offset) =
      (earlier.reverse.filter (·.span.contains offset)).map (·.span.stop)

theorem tracks_nil : Tracks [] [] := fun _ _ => rfl

theorem dropWhile_dropWhile_le {low high : Nat} (ordered : low ≤ high) (kept : List Nat) :
    (kept.dropWhile (· ≤ low)).dropWhile (· ≤ high) = kept.dropWhile (· ≤ high) := by
  induction kept with
  | nil => rfl
  | cons stop kept ih =>
    by_cases dropped : stop ≤ low
    · have droppedToo : stop ≤ high := Nat.le_trans dropped ordered
      simp [dropped, droppedToo, ih]
    · simp [dropped]

/-- One more scope begins. -/
theorem Tracks.step (tracks : Tracks kept earlier) (forest : Forest (earlier ++ s :: later)) :
    Tracks (s.keep kept) (earlier ++ [s]) := by
  have against : ∀ e ∈ earlier, e.span.start < s.span.start ∧
      (s.span.stop ≤ e.span.stop ∨ e.span.stop ≤ s.span.start) :=
    fun e member => (List.pairwise_append.1 forest.ordered).2.2 e member s List.mem_cons_self
  intro offset behind
  have fromStart : s.span.start ≤ offset := behind s (by simp)
  rw [List.reverse_append, List.reverse_singleton, List.singleton_append, keep]
  by_cases within : offset < s.span.stop
  · -- The new scope is around the offset.  A scope that began earlier is around it if it was
    -- around the start of the new one, for it cannot end in between.
    have around : s.span.contains offset = true := Span.contains_eq_true.2 ⟨fromStart, within⟩
    have same : ∀ e ∈ earlier.reverse,
        e.span.contains s.span.start = e.span.contains offset := by
      intro e member
      have crossing := against e (List.mem_reverse.1 member)
      rw [Bool.eq_iff_iff, Span.contains_eq_true, Span.contains_eq_true]
      omega
    have left : kept.dropWhile (· ≤ s.span.start) =
        (earlier.reverse.filter (·.span.contains s.span.start)).map (·.span.stop) :=
      tracks _ fun e member => Nat.le_of_lt (against e member).1
    rw [List.dropWhile_cons_of_neg (by simpa using within), left, List.filter_congr same]
    rw [List.filter_cons, if_pos around, List.map_cons]
  · -- The new scope ended in front of the offset, and its stop is dropped again.
    have notAround : ¬ s.span.contains offset = true := by
      rw [Span.contains_eq_true]
      omega
    rw [List.dropWhile_cons_of_pos (by simpa using Nat.not_lt.1 within),
      dropWhile_dropWhile_le fromStart, tracks offset fun e member => behind e (by simp [member])]
    rw [List.filter_cons, if_neg notAround]

/-- As many stops are kept as there are scopes around the one that begins, itself included. -/
theorem Tracks.length_keep (tracks : Tracks kept earlier) (forest : Forest (earlier ++ s :: later)) :
    (s.keep kept).length = countAround (earlier ++ s :: later) s.span.start := by
  have left := tracks s.span.start fun e member =>
    Nat.le_of_lt ((List.pairwise_append.1 forest.ordered).2.2 e member s List.mem_cons_self).1
  rw [forest.countAround_start, keep, List.length_cons, left, List.length_map,
    ← List.countP_eq_length_filter, List.countP_reverse, countAround]

theorem nestingFrom_le_iff (forest : Forest (earlier ++ later)) (tracks : Tracks kept earlier) :
    nestingFrom deepest kept later ≤ bound ↔
      deepest ≤ bound ∧
        ∀ s ∈ later, countAround (earlier ++ later) s.span.start ≤ bound := by
  induction later generalizing earlier deepest kept with
  | nil => simp [nestingFrom]
  | cons s later ih =>
    have split : earlier ++ s :: later = (earlier ++ [s]) ++ later := by simp
    have next := tracks.step forest
    rw [nestingFrom, tracks.length_keep forest, ih (split ▸ forest) next, ← split, Nat.max_le,
      List.forall_mem_cons, and_assoc]

/-- The pass finds the most scopes that are around the start of one. -/
theorem nesting_le_iff (forest : Forest scopes) :
    nesting scopes ≤ bound ↔ ∀ s ∈ scopes, countAround scopes s.span.start ≤ bound := by
  have whole : Forest ([] ++ scopes) := forest
  rw [nesting, nestingFrom_le_iff whole tracks_nil]
  simp

/-- In a forest, the pass finds the most scopes around any byte of a text. -/
theorem nesting_eq_sup (forest : Forest scopes) (within : ∀ s ∈ scopes, s.span.stop ≤ size) :
    nesting scopes = (Finset.range size).sup (countAround scopes) := by
  apply eq_of_forall_ge_iff
  intro bound
  rw [nesting_le_iff forest, Finset.sup_le_iff]
  constructor
  · intro atStarts offset _
    rcases forest.exists_countAround_le offset with none | ⟨s, member, most⟩
    · exact none ▸ Nat.zero_le bound
    · exact Nat.le_trans most (atStarts s member)
  · intro everywhere s member
    have proper := forest.proper s member
    have stop := within s member
    exact everywhere s.span.start (Finset.mem_range.2 (by omega))

/-- Of scopes that cross, a stop below the top may be kept for too long. -/
example :
    let crossing : List Scope := [⟨.comment, 0, 2⟩, ⟨.comment, 1, 5⟩, ⟨.comment, 3, 4⟩]
    nesting crossing = 3 ∧ ∀ offset < 6, countAround crossing offset ≤ 2 := by
  decide

end Scope

/-! ## Outlines -/

namespace Outline.Tiles

variable {border : Nat → Prop} {start stop bound : Nat} {outline : Outline}

theorem forest (tiles : Tiles border start stop outline) : Scope.Forest outline.scopes where
  proper s member := (tiles.scopes_within s member).2.1
  ordered := tiles.pairwise_scopes

/-- An outline is no deeper than there are scopes around its offsets. -/
theorem depth_le (tiles : Tiles border start stop outline)
    (bounded : ∀ offset, Scope.countAround outline.scopes offset ≤ bound) :
    outline.depth ≤ bound := by
  induction tiles generalizing bound with
  | nil => exact Nat.zero_le bound
  | piece _ _ _ ih => exact ih bounded
  | @scope start earlier inside s before within leads ih ihWithin =>
    have split : ∀ offset, Scope.countAround (Outline.scope earlier s inside).scopes offset =
        Scope.countAround earlier.scopes offset + (Scope.countAround inside.scopes offset +
          if s.span.contains offset = true then 1 else 0) := by
      intro offset
      rw [scopes_scope, Scope.countAround, List.countP_append, List.countP_cons]
      rfl
    have proper : s.span.start < s.span.stop := within.lt_of_leads leads
    have atLeastOne : 1 ≤ bound := by
      have atStart := bounded s.span.start
      rw [split, if_pos (Span.contains_eq_true.2 ⟨Nat.le_refl _, proper⟩)] at atStart
      omega
    have deepEarlier : earlier.depth ≤ bound := by
      apply ih
      intro offset
      have whole := bounded offset
      rw [split] at whole
      omega
    have deepInside : inside.depth ≤ bound - 1 := by
      apply ihWithin
      intro offset
      -- Whatever inside is around an offset has the scope around it too.
      by_cases around : s.span.contains offset = true
      · have whole := bounded offset
        rw [split, if_pos around] at whole
        omega
      · have none : Scope.countAround inside.scopes offset = 0 := by
          apply List.countP_eq_zero.2
          intro other member contains
          have bounds := within.scopes_within other member
          rw [Span.contains_eq_true] at around contains
          omega
        omega
    rw [depth]
    omega

/-- The list of the scopes tells how deep an outline is. -/
theorem nesting_scopes (tiles : Tiles border start stop outline) :
    Scope.nesting outline.scopes = outline.depth := by
  have sup := Scope.nesting_eq_sup tiles.forest fun s member => (tiles.scopes_within s member).2.2
  apply Nat.le_antisymm
  · rw [sup, Finset.sup_le_iff]
    exact fun offset _ => tiles.countP_contains_le_depth offset
  · apply tiles.depth_le
    intro offset
    by_cases inside : offset < stop
    · exact sup ▸ Finset.le_sup (Finset.mem_range.2 inside)
    · have none : Scope.countAround outline.scopes offset = 0 :=
        List.countP_eq_zero.2 fun s member =>
          Bool.eq_false_iff.1 (tiles.not_contains_of_le (Nat.not_lt.1 inside) s member)
      exact none ▸ Nat.zero_le _

end Outline.Tiles

/-! ## Highlighting -/

/-- With any options, the nesting that is told from the scopes of a text, which is the one
reported among its figures, is the greatest number of scopes around a byte of the text, and
less than the number of modes that may be open. -/
theorem nesting_eq_deepest (options : Scan.Options) (text : String) :
    let result := (Highlighter.default.withOptions options).highlight text
    Scope.nesting result.scopes =
        (Finset.range text.utf8ByteSize).sup
          (fun offset => result.scopes.countP (·.span.contains offset)) ∧
      (Stats.ofHighlighted text result).maxNesting = Scope.nesting result.scopes ∧
      Scope.nesting result.scopes ≤ max options.maxDepth 2 - 1 := by
  intro result
  obtain ⟨tiles, shallow⟩ := Highlighter.tiles_withOptions options text
  have sameDepth : Scope.nesting result.scopes = result.outline.depth := tiles.nesting_scopes
  refine ⟨?_, sameDepth.symm, ?_⟩
  · exact Scope.nesting_eq_sup tiles.forest fun s member => (tiles.scopes_within s member).2.2
  · rw [sameDepth]
    exact Nat.le_sub_one_of_lt shallow

end ModalHighlight
