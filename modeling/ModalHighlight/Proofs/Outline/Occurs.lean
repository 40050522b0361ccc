import ModalHighlight.Proofs.Outline.Conforms

/-! # Scopes with what is inside them

The flat views of an outline keep scopes and pieces apart.  What is known of a
mode when it ends is known of a scope and the outline inside it, wherever the
two occur in the outline of a text.  Such an outline inside tiles the scope, keeps
to the rules that the whole keeps to, and has as its own the scopes that lie in
the scope directly.
-/

namespace ModalHighlight

/-- The scopes that lie in a scope directly, or else in none. -/
def Scope.children (scopes : List Scope) (parent : Option Scope) : List Scope :=
  scopes.filter fun t => parent? scopes t = parent

namespace Outline

variable {border : Nat → Prop} {start stop : Nat} {outline inside : Outline} {s : Scope}

/-- A scope and the outline inside it occur in an outline, however deep. -/
inductive Occurs (s : Scope) (inside : Outline) : Outline → Prop
  | here {earlier : Outline} : Occurs s inside (scope earlier s inside)
  | piece {earlier : Outline} {p : Piece} (before : Occurs s inside earlier) :
      Occurs s inside (piece earlier p)
  | earlier {earlier around : Outline} {other : Scope} (before : Occurs s inside earlier) :
      Occurs s inside (scope earlier other around)
  | within {earlier around : Outline} {other : Scope} (deeper : Occurs s inside around) :
      Occurs s inside (scope earlier other around)

theorem exists_occurs (member : s ∈ outline.scopes) : ∃ inside, Occurs s inside outline := by
  induction outline with
  | nil => cases member
  | piece earlier p ih =>
    obtain ⟨inside, occurs⟩ := ih member
    exact ⟨inside, .piece occurs⟩
  | scope earlier other around ih ihAround =>
    rw [scopes_scope, List.mem_append, List.mem_cons] at member
    rcases member with inEarlier | rfl | inAround
    · obtain ⟨inside, occurs⟩ := ih inEarlier
      exact ⟨inside, .earlier occurs⟩
    · exact ⟨around, .here⟩
    · obtain ⟨inside, occurs⟩ := ihAround inAround
      exact ⟨inside, .within occurs⟩

namespace Occurs

theorem mem_scopes (occurs : Occurs s inside outline) : s ∈ outline.scopes := by
  induction occurs with
  | here => simp
  | piece _ ih => exact ih
  | earlier _ ih => simp [ih]
  | within _ ih => simp [ih]

theorem tiles (occurs : Occurs s inside outline) (tiles : Tiles border start stop outline) :
    Tiles border s.span.start s.span.stop inside ∧ inside.Leads := by
  induction occurs generalizing start stop with
  | here =>
    cases tiles with
    | scope _ within leads => exact ⟨within, leads⟩
  | piece _ ih =>
    cases tiles with
    | piece before => exact ih before
  | earlier _ ih =>
    cases tiles with
    | scope before => exact ih before
  | within _ ih =>
    cases tiles with
    | scope _ within => exact ih within

theorem conforms {fits : Option Scope → Scope → Prop} {allows : Option Scope → Piece → Prop}
    {around : Option Scope} (occurs : Occurs s inside outline)
    (conforms : outline.Conforms fits allows around) :
    inside.Conforms fits allows (some s) := by
  induction occurs generalizing around with
  | here =>
    cases conforms with
    | scope _ _ within => exact within
  | piece _ ih =>
    cases conforms with
    | piece before => exact ih before
  | earlier _ ih =>
    cases conforms with
    | scope before => exact ih before
  | within _ ih =>
    cases conforms with
    | scope _ _ within => exact ih within

/-- The segments of a scope follow one another in those of the outline. -/
theorem segments_infix (occurs : Occurs s inside outline) (kind : Kind) (chain : Chain) :
    ∃ inner, inside.segmentsOnto s.kind inner [] <:+: outline.segmentsOnto kind chain [] := by
  induction occurs generalizing kind chain with
  | here =>
    rw [segmentsOnto_scope]
    exact ⟨_, (List.suffix_append _ _).isInfix⟩
  | piece _ ih =>
    obtain ⟨inner, infixed⟩ := ih kind chain
    rw [segmentsOnto_piece]
    exact ⟨inner, infixed.trans (List.prefix_append _ _).isInfix⟩
  | earlier _ ih =>
    obtain ⟨inner, infixed⟩ := ih kind chain
    rw [segmentsOnto_scope]
    exact ⟨inner, infixed.trans (List.prefix_append _ _).isInfix⟩
  | @within earlier around other _ ih =>
    obtain ⟨inner, infixed⟩ := ih other.kind (innerChain kind chain other)
    rw [segmentsOnto_scope]
    exact ⟨inner, infixed.trans (List.suffix_append _ _).isInfix⟩

end Occurs

/-! ## Scopes that lie in a scope directly -/

/-- The scopes of an outline that lie in no other one, in order. -/
def tops : Outline → List Scope
  | nil => []
  | piece earlier _ => earlier.tops
  | scope earlier s _ => earlier.tops ++ [s]

theorem children_eq_nil {scopes : List Scope} (outside : s ∉ scopes) :
    Scope.children scopes (some s) = [] := by
  refine List.filter_eq_nil_iff.2 fun t _ => ?_
  rw [decide_eq_true_eq]
  intro parent
  exact outside (List.mem_of_mem_filter (List.mem_of_getLast? parent))

namespace Tiles

variable {earlier around : Outline} {other : Scope}

/-- The scopes behind a scope change nothing about those in front of it, and those
inside it that lie in no other one lie in it. -/
theorem children_scope (before : Tiles border start other.span.start earlier)
    (within : Tiles border other.span.start other.span.stop around) (leads : around.Leads)
    (parent : Option Scope) :
    Scope.children (Outline.scope earlier other around).scopes parent =
      Scope.children earlier.scopes parent ++ ((if none = parent then [other] else []) ++
        around.scopes.filter fun t => (Scope.parent? around.scopes t).or (some other) = parent) := by
  have outer : ∀ t ∈ earlier.scopes, Scope.parent? (Outline.scope earlier other around).scopes t =
      Scope.parent? earlier.scopes t := fun t member => by
    rw [Scope.parent?, before.enclosing_of_earlier within member, Scope.parent?]
  have here : Scope.parent? (Outline.scope earlier other around).scopes other = none := by
    rw [Scope.parent?, before.enclosing_eq_nil within leads]
    rfl
  have inner : ∀ t ∈ around.scopes, Scope.parent? (Outline.scope earlier other around).scopes t =
      (Scope.parent? around.scopes t).or (some other) := fun t member => by
    rw [Scope.parent?, before.enclosing_of_inside within leads member, Scope.parent?,
      List.getLast?_cons]
    cases (Scope.enclosing around.scopes t).getLast? <;> rfl
  unfold Scope.children
  rw [scopes_scope, List.filter_append, List.filter_cons, ← scopes_scope, here,
    List.filter_congr fun t member => congrArg (fun found => decide (found = parent))
      (outer t member),
    List.filter_congr fun t member => congrArg (fun found => decide (found = parent))
      (inner t member)]
  by_cases ground : none = parent <;> simp [ground]

theorem children_none (before : Tiles border start other.span.start earlier)
    (within : Tiles border other.span.start other.span.stop around) (leads : around.Leads) :
    Scope.children (Outline.scope earlier other around).scopes none =
      Scope.children earlier.scopes none ++ [other] := by
  have inner : around.scopes.filter (fun t =>
      (Scope.parent? around.scopes t).or (some other) = none) = [] :=
    List.filter_eq_nil_iff.2 fun t _ => by simp
  rw [before.children_scope within leads, inner, if_pos rfl, List.append_nil]

theorem children_some (before : Tiles border start other.span.start earlier)
    (within : Tiles border other.span.start other.span.stop around) (leads : around.Leads)
    (distinct : other ∉ around.scopes) (s : Scope) :
    Scope.children (Outline.scope earlier other around).scopes (some s) =
      Scope.children earlier.scopes (some s) ++
        Scope.children around.scopes (if s = other then none else some s) := by
  rw [before.children_scope within leads, if_neg (Option.some_ne_none s).symm, List.nil_append]
  refine congrArg _ (List.filter_congr fun t _ => ?_)
  cases parent : Scope.parent? around.scopes t with
  | none =>
    by_cases same : s = other
    · simp [same]
    · simp [same, Ne.symm same]
  | some found =>
    have listed : found ∈ around.scopes := List.mem_of_mem_filter (List.mem_of_getLast? parent)
    have differs : found ≠ other := fun same => distinct (same ▸ listed)
    by_cases same : s = other <;> simp [same, differs]

/-- The outermost scopes of an outline are those that no scope encloses. -/
theorem tops_eq_children (tiles : Tiles border start stop outline) :
    outline.tops = Scope.children outline.scopes none := by
  induction tiles with
  | nil => rfl
  | piece _ _ _ ih => exact ih
  | scope before within leads ih _ => rw [before.children_none within leads, ← ih, tops]

end Tiles

/-- The outermost scopes inside a scope are those that lie in it directly. -/
theorem Occurs.tops_eq_children (occurs : Occurs s inside outline)
    (tiles : Tiles border start stop outline) :
    inside.tops = Scope.children outline.scopes (some s) := by
  induction occurs generalizing start stop with
  | piece _ ih =>
    cases tiles with
    | piece before => exact ih before
  | @here earlier =>
    have distinct := tiles.nodup_scopes
    rw [scopes_scope, List.nodup_append, List.nodup_cons] at distinct
    obtain ⟨_, ⟨notInside, _⟩, apart⟩ := distinct
    have notEarlier : s ∉ earlier.scopes := fun member => apart s member s List.mem_cons_self rfl
    cases tiles with
    | scope before within leads =>
      rw [before.children_some within leads notInside, children_eq_nil notEarlier, if_pos rfl,
        List.nil_append, within.tops_eq_children]
  | @earlier earlier around other occurs ih =>
    have distinct := tiles.nodup_scopes
    rw [scopes_scope, List.nodup_append, List.nodup_cons] at distinct
    obtain ⟨_, ⟨notAround, _⟩, apart⟩ := distinct
    have differs : s ≠ other := apart s occurs.mem_scopes other List.mem_cons_self
    have elsewhere : s ∉ around.scopes := fun member =>
      apart s occurs.mem_scopes s (List.mem_cons_of_mem _ member) rfl
    cases tiles with
    | scope before within leads =>
      rw [before.children_some within leads notAround, if_neg differs,
        children_eq_nil elsewhere, List.append_nil, ih before]
  | @within earlier around other occurs ih =>
    have distinct := tiles.nodup_scopes
    rw [scopes_scope, List.nodup_append, List.nodup_cons] at distinct
    obtain ⟨_, ⟨notAround, _⟩, apart⟩ := distinct
    have differs : s ≠ other := fun same => notAround (same ▸ occurs.mem_scopes)
    have elsewhere : s ∉ earlier.scopes := fun member =>
      apart s member s (List.mem_cons_of_mem _ occurs.mem_scopes) rfl
    cases tiles with
    | scope before within leads =>
      rw [before.children_some within leads notAround, if_neg differs,
        children_eq_nil elsewhere, List.nil_append, ih within]

end Outline

end ModalHighlight
