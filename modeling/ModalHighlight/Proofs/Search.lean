import ModalHighlight.Search

/-! # Searches in ordered arrays

A search meets whatever it looks for, if the elements below it come first in the array
and those above it come last.  Then at most one element is what it looks for, and the
answer is that element, or nothing if there is none.
-/

namespace ModalHighlight.Search

variable {α : Type} {side : α → Ordering} {elements : Array α} {element left right : α}

/-- Behind an element that is not below what a search looks for, all are above it. -/
def Ordered (side : α → Ordering) (elements : Array α) : Prop :=
  elements.toList.Pairwise fun left right => side left ≠ .lt → side right = .gt

namespace Ordered

theorem side_eq_gt (ordered : Ordered side elements) {i j : Nat} (before : i < j)
    (atLeft : elements[i]? = some left) (atRight : elements[j]? = some right)
    (notBelow : side left ≠ .lt) : side right = .gt := by
  obtain ⟨insideLeft, rfl⟩ := Array.getElem?_eq_some_iff.1 atLeft
  obtain ⟨insideRight, rfl⟩ := Array.getElem?_eq_some_iff.1 atRight
  exact List.pairwise_iff_getElem.1 ordered i j insideLeft insideRight before notBelow

/-- Any element is on the side of what a search looks for on which it stands. -/
theorem side_eq_compare (ordered : Ordered side elements) {probe index : Nat}
    (stands : elements[index]? = some element) (isIt : side element = .eq)
    (atProbe : elements[probe]? = some left) : side left = compare probe index := by
  rcases Nat.lt_trichotomy probe index with before | rfl | behind
  · have further := ordered.side_eq_gt before atProbe stands
    rw [isIt] at further
    rw [Nat.compare_eq_lt.2 before]
    exact Decidable.byContradiction fun notBelow => nomatch further notBelow
  · obtain rfl := Option.some.inj (stands.symm.trans atProbe)
    rw [isIt, Nat.compare_eq_eq.2 rfl]
  · rw [Nat.compare_eq_gt.2 behind]
    exact ordered.side_eq_gt behind stands atProbe (by simp [isIt])

/-- A window that holds what a search looks for is not left without it. -/
theorem window_eq_some (ordered : Ordered side elements) {index probes low width : Nat}
    (stands : elements[index]? = some element) (isIt : side element = .eq) (lower : low ≤ index)
    (upper : index < low + width) (within : low + width ≤ elements.size)
    (enough : width ≤ probes) : window side elements probes low width = some element := by
  fun_induction window side elements probes low width with
  | case1 => omega
  | case2 => omega
  | case3 probes low width half outside =>
    have := Array.getElem?_eq_none_iff.1 outside
    omega
  | case4 probes low width half probed atProbe found =>
    rw [ordered.side_eq_compare stands isIt atProbe, Nat.compare_eq_eq] at found
    rw [found, stands] at atProbe
    exact atProbe.symm
  | case5 probes low width half probed atProbe below ih =>
    rw [ordered.side_eq_compare stands isIt atProbe, Nat.compare_eq_lt] at below
    exact ih (by omega) (by omega) (by omega) (by omega)
  | case6 probes low width half probed atProbe above ih =>
    rw [ordered.side_eq_compare stands isIt atProbe, Nat.compare_eq_gt] at above
    exact ih (by omega) (by omega) (by omega) (by omega)

theorem find?_eq_some_iff (ordered : Ordered side elements) :
    find? side elements = some element ↔ element ∈ elements ∧ side element = .eq := by
  refine ⟨find?_eq_some, fun ⟨member, isIt⟩ => ?_⟩
  obtain ⟨index, stands⟩ := Array.getElem?_of_mem member
  have inside := (Array.getElem?_eq_some_iff.1 stands).1
  apply ordered.window_eq_some stands isIt (Nat.zero_le index)
  · omega
  · omega
  · exact Nat.le_refl _

theorem isSome_find?_iff (ordered : Ordered side elements) :
    (find? side elements).isSome = true ↔ ∃ element ∈ elements, side element = .eq := by
  rw [Option.isSome_iff_exists]
  exact exists_congr fun _ => ordered.find?_eq_some_iff

/-- Of all elements, the one that is found is what the search looks for. -/
theorem filter_eq (ordered : Ordered side elements) :
    elements.toList.filter (fun element => side element == .eq) =
      (find? side elements).toList := by
  cases found : find? side elements with
  | none =>
    rw [Option.toList_none, List.filter_eq_nil_iff]
    intro element member isIt
    have isFound := ordered.find?_eq_some_iff.2 ⟨Array.mem_toList_iff.1 member, eq_of_beq isIt⟩
    rw [found] at isFound
    cases isFound
  | some element =>
    obtain ⟨member, isIt⟩ := find?_eq_some found
    obtain ⟨before, behind, split⟩ := List.append_of_mem (Array.mem_toList_iff.2 member)
    rw [Ordered, split, List.pairwise_append, List.pairwise_cons] at ordered
    obtain ⟨_, ⟨above, _⟩, across⟩ := ordered
    have noneBefore : before.filter (fun element => side element == .eq) = [] := by
      rw [List.filter_eq_nil_iff]
      intro other inFront same
      have later := across other inFront element List.mem_cons_self (by simp [eq_of_beq same])
      simp [isIt] at later
    have noneBehind : behind.filter (fun element => side element == .eq) = [] := by
      rw [List.filter_eq_nil_iff]
      intro other further same
      have later := above other further (by simp [isIt])
      simp [later] at same
    rw [split, List.filter_append, List.filter_cons_of_pos (by simp [isIt]), noneBefore, noneBehind]
    rfl

end Ordered

end ModalHighlight.Search
