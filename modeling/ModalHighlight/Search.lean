/-! # Search in a sorted array

A search halves a window of the array until it meets an element that is what
it looks for.  What it looks for is given as a side: whether an element lies
below it, above it, or is it.  The answer is right for arrays in which the
elements below come first and those above come last.
-/

namespace ModalHighlight.Search

/-- Searches the `width` elements from `low` on.  A window never gets wider, and
each probe takes at least one element from it, so `probes` need not exceed its
width. -/
def window {α : Type} (side : α → Ordering) (elements : Array α) :
    (probes low width : Nat) → Option α
  | 0, _, _ => none
  | _ + 1, _, 0 => none
  | probes + 1, low, width + 1 =>
    let half := (width + 1) / 2
    match elements[low + half]? with
    | none => none
    | some element =>
      match side element with
      | .eq => some element
      | .lt => window side elements probes (low + half + 1) (width - half)
      | .gt => window side elements probes low half

/-- An element that is what the search looks for. -/
def find? {α : Type} (side : α → Ordering) (elements : Array α) : Option α :=
  window side elements elements.size 0 elements.size

/-- What a search finds is in the array and is what it looked for. -/
theorem window_eq_some {α : Type} {side : α → Ordering} {elements : Array α}
    {probes low width : Nat} {element : α}
    (found : window side elements probes low width = some element) :
    element ∈ elements ∧ side element = .eq := by
  fun_induction window side elements probes low width with
  | case1 => cases found
  | case2 => cases found
  | case3 => cases found
  | case4 probes low width half x at_half is_it =>
    cases found
    exact ⟨Array.mem_of_getElem? at_half, is_it⟩
  | case5 _ _ _ _ _ _ _ ih => exact ih found
  | case6 _ _ _ _ _ _ _ ih => exact ih found

theorem find?_eq_some {α : Type} {side : α → Ordering} {elements : Array α} {element : α}
    (found : find? side elements = some element) : element ∈ elements ∧ side element = .eq :=
  window_eq_some found

end ModalHighlight.Search
