import Mathlib.Data.List.Nodup
import ModalHighlight.Proofs.Outline.Segments
import ModalHighlight.Proofs.Token.Condensed

/-! # Chains among the scopes

A chain is a run of scopes of one kind that lie directly in one another, and its
outermost scope tells it from others.  Which chain a segment is content of is
recorded in the segment, but it can also be read off the list of scopes, so that
the pieces of an outline and its scopes say which segments join.
-/

namespace ModalHighlight

namespace Scope

/-- The last scopes of a list, as many as are of one kind. -/
def innerRun : List Scope → List Scope
  | [] => []
  | s :: inner => if inner.all (·.kind = s.kind) then s :: inner else innerRun inner

/-- The outermost scope of the chain that an offset lies in.  Outside all scopes
there is none. -/
def chain? (scopes : List Scope) (offset : Nat) : Option Scope :=
  (innerRun (around scopes offset)).head?

theorem innerRun_suffix (scopes : List Scope) : innerRun scopes <:+ scopes := by
  induction scopes with
  | nil => exact List.suffix_refl _
  | cons s inner ih =>
    rw [innerRun]
    split
    next => exact List.suffix_refl _
    next => exact ih.trans (List.suffix_cons s inner)

theorem exists_head?_innerRun {scopes : List Scope} (nonempty : scopes ≠ []) :
    ∃ s, (innerRun scopes).head? = some s := by
  induction scopes with
  | nil => exact absurd rfl nonempty
  | cons s inner ih =>
    rw [innerRun]
    split
    next => exact ⟨s, rfl⟩
    next differs =>
      refine ih ?_
      rintro rfl
      exact differs List.all_nil

/-- A run has the kind of the innermost scope. -/
theorem kind_of_mem_innerRun {scopes : List Scope} {s : Scope} (member : s ∈ innerRun scopes) :
    scopes.getLast?.map kind = some s.kind := by
  induction scopes with
  | nil => cases member
  | cons first inner ih =>
    rw [innerRun] at member
    split at member
    next same =>
      have all : ∀ other ∈ first :: inner, other.kind = first.kind := by
        simpa using same
      rw [List.getLast?_eq_some_getLast (List.cons_ne_nil first inner), Option.map_some,
        all s member, all _ (List.getLast_mem _)]
    next differs =>
      cases inner with
      | nil => exact absurd List.all_nil differs
      | cons second inner =>
        rw [List.getLast?_cons_cons]
        exact ih member

theorem mem_around_of_chain? {scopes : List Scope} {offset : Nat} {s : Scope}
    (outermost : chain? scopes offset = some s) : s ∈ around scopes offset :=
  (innerRun_suffix _).subset (List.mem_of_head? outermost)

end Scope

/-- A piece has the kind of the mode that it lies in. -/
def Piece.IsContent (scopes : List Scope) (p : Piece) : Prop :=
  p.kind = (Scope.innermost? scopes p.span.start).getD .plain

instance (scopes : List Scope) (p : Piece) : Decidable (p.IsContent scopes) :=
  inferInstanceAs (Decidable (p.kind = _))

namespace Chain

/-- The chain that one is in, on the way through scopes into the last of them. -/
def into : Kind → Chain → List Scope → Chain
  | _, chain, [] => chain
  | kind, chain, s :: inner => into s.kind (Outline.innerChain kind chain s) inner

/-- Only scopes of the kind of the mode around them are of its chain. -/
theorem into_eq (kind : Kind) (chain : Chain) (scopes : List Scope) :
    into kind chain scopes =
      if scopes.all (·.kind = kind) then chain
      else ((Scope.innerRun scopes).head?.map fun s => openedAt s.span.start).getD chain := by
  induction scopes generalizing kind chain with
  | nil => rfl
  | cons s inner ih =>
    rw [into, ih, Scope.innerRun, Outline.innerChain, List.all_cons]
    by_cases same : inner.all (·.kind = s.kind) = true
    · by_cases here : s.kind = kind
      · subst here
        simp [same]
      · simp [same, here]
    · obtain ⟨other, member, differs⟩ : ∃ other ∈ inner, other.kind ≠ s.kind := by
        simpa using same
      obtain ⟨head, isHead⟩ := Scope.exists_head?_innerRun (List.ne_nil_of_mem member)
      have apart : ¬(decide (s.kind = kind) && inner.all (·.kind = kind)) = true := by
        simp only [Bool.and_eq_true, decide_eq_true_eq, List.all_eq_true, not_and]
        exact fun here all => differs ((all other member).trans here.symm)
      rw [if_neg same, if_neg apart, if_neg same, isHead]
      rfl

/-- The chain whose outermost scope is as given. -/
def ofScope? : Option Scope → Chain
  | none => ground
  | some s => openedAt s.span.start

/-- From outside all modes, scopes lead into the chain of their innermost run. -/
theorem into_ground {scopes : List Scope} (kinds : ∀ s ∈ scopes, s.kind ≠ .plain) :
    into .plain ground scopes = ofScope? (Scope.innerRun scopes).head? := by
  rw [into_eq]
  cases scopes with
  | nil => rfl
  | cons s inner =>
    obtain ⟨head, isHead⟩ := Scope.exists_head?_innerRun (List.cons_ne_nil s inner)
    rw [isHead, if_neg]
    · rfl
    · simp [kinds s List.mem_cons_self]

end Chain

namespace Outline.Tiles

variable {border : Nat → Prop} {start stop : Nat} {outline : Outline}

/-- The chain of a segment is the one that the scopes around it lead into. -/
theorem chain_eq_into (tiles : Tiles border start stop outline) (kind : Kind) (chain : Chain) :
    ∀ segment ∈ outline.segmentsOnto kind chain [], ∀ own ∈ segment.chain,
      own = Chain.into kind chain (Scope.around outline.scopes segment.piece.span.start) := by
  induction tiles generalizing kind chain with
  | nil =>
    intro segment member
    cases member
  | @piece start earlier p before _ _ ih =>
    intro segment member own content
    rw [segmentsOnto_piece, List.mem_append, List.mem_singleton] at member
    rw [scopes_piece]
    rcases member with inEarlier | rfl
    · exact ih kind chain segment inEarlier own content
    · rw [before.around_of_le (Nat.le_refl _)]
      exact (Option.some.inj (Option.ite_none_right_eq_some.1 content).2).symm
  | @scope start earlier inside s before within _ ih ihWithin =>
    intro segment member own content
    rw [segmentsOnto_scope, List.mem_append] at member
    rcases member with inEarlier | inInside
    · obtain ⟨_, proper, upper⟩ := before.segments_within kind chain inEarlier
      rw [around_scope_of_lt within (Nat.lt_of_lt_of_le proper upper)]
      exact ih kind chain segment inEarlier own content
    · obtain ⟨lower, proper, upper⟩ :=
        within.segments_within s.kind (innerChain kind chain s) inInside
      rw [around_scope_of_contains before lower (Nat.lt_of_lt_of_le proper upper), Chain.into]
      exact ihWithin s.kind (innerChain kind chain s) segment inInside own content

/-- No two scopes start at one offset. -/
theorem eq_of_start (tiles : Tiles border start stop outline) {first second : Scope}
    (inFirst : first ∈ outline.scopes) (inSecond : second ∈ outline.scopes)
    (same : first.span.start = second.span.start) : first = second := by
  have apart : (outline.scopes.map (·.span.start)).Nodup :=
    List.pairwise_map.2 (tiles.pairwise_scopes.imp fun ordered => Nat.ne_of_lt ordered.1)
  exact List.inj_on_of_nodup_map apart inFirst inSecond same

theorem ofScope?_chain?_inj (tiles : Tiles border start stop outline) {first second : Nat} :
    Chain.ofScope? (Scope.chain? outline.scopes first) =
        Chain.ofScope? (Scope.chain? outline.scopes second) ↔
      Scope.chain? outline.scopes first = Scope.chain? outline.scopes second := by
  refine ⟨fun same => ?_, congrArg _⟩
  cases left : Scope.chain? outline.scopes first with
  | none =>
    cases right : Scope.chain? outline.scopes second with
    | none => rfl
    | some s => simp [left, right, Chain.ofScope?] at same
  | some s =>
    cases right : Scope.chain? outline.scopes second with
    | none => simp [left, right, Chain.ofScope?] at same
    | some t =>
      rw [left, right] at same
      have inScopes := (List.mem_filter.1 (Scope.mem_around_of_chain? left)).1
      have inScopes' := (List.mem_filter.1 (Scope.mem_around_of_chain? right)).1
      rw [tiles.eq_of_start inScopes inScopes' (Chain.openedAt.inj same)]

theorem chain_eq_some_iff (tiles : Tiles border start stop outline)
    (kinds : ∀ s ∈ outline.scopes, s.kind ≠ .plain) {segment : Segment}
    (member : segment ∈ outline.segments) (own : Chain) :
    segment.chain = some own ↔ segment.piece.IsContent outline.scopes ∧
      own = Chain.ofScope? (Scope.chain? outline.scopes segment.piece.span.start) := by
  have content := tiles.isSome_chain_iff .plain .ground segment member
  have known : ∀ own ∈ segment.chain,
      own = Chain.ofScope? (Scope.chain? outline.scopes segment.piece.span.start) := by
    intro own isOwn
    rw [tiles.chain_eq_into .plain .ground segment member own isOwn]
    exact Chain.into_ground fun s around => kinds s (List.mem_filter.1 around).1
  constructor
  · intro isOwn
    exact ⟨content.1 (by rw [isOwn]; rfl), known own isOwn⟩
  · rintro ⟨isContent, rfl⟩
    obtain ⟨own, isOwn⟩ := Option.isSome_iff_exists.1 (content.2 isContent)
    rw [isOwn, known own isOwn]

/-! ## Borders of scopes -/

/-- No piece reaches across where a scope starts or stops. -/
theorem borders_apart (tiles : Tiles border start stop outline) :
    ∀ p ∈ outline.pieces, ∀ s ∈ outline.scopes,
      (p.span.stop ≤ s.span.start ∨ s.span.start ≤ p.span.start) ∧
        (p.span.stop ≤ s.span.stop ∨ s.span.stop ≤ p.span.start) := by
  induction tiles with
  | nil =>
    intro p member
    cases member
  | @piece start earlier last before _ _ ih =>
    intro p member s inScopes
    rw [pieces_piece, List.mem_append, List.mem_singleton] at member
    rcases member with inEarlier | rfl
    · exact ih p inEarlier s inScopes
    · obtain ⟨_, proper, upper⟩ := before.scopes_within s inScopes
      omega
  | @scope start earlier inside last before within _ ih ihWithin =>
    intro p member s inScopes
    rw [pieces_scope, List.mem_append] at member
    rw [scopes_scope, List.mem_append, List.mem_cons] at inScopes
    rcases member with inEarlier | inInside
    · have upper := (before.pieces.of_mem (List.mem_map_of_mem inEarlier)).2.2.1
      rcases inScopes with inEarlier' | rfl | inInside
      · exact ih p inEarlier s inEarlier'
      · have proper := within.le
        omega
      · obtain ⟨lower, proper, _⟩ := within.scopes_within s inInside
        omega
    · obtain ⟨lower, _, upper, _⟩ := within.pieces.of_mem (List.mem_map_of_mem inInside)
      rcases inScopes with inEarlier | rfl | inInside'
      · obtain ⟨_, proper, ends⟩ := before.scopes_within s inEarlier
        omega
      · omega
      · exact ihWithin p inInside s inInside'

/-- The innermost scope around where a scope starts is that scope. -/
theorem getLast?_around_start (tiles : Tiles border start stop outline) {s : Scope}
    (member : s ∈ outline.scopes) :
    (Scope.around outline.scopes s.span.start).getLast? = some s := by
  have sorted := (tiles.pairwise_scopes.imp And.left).filter (·.span.contains s.span.start)
  have here : s ∈ Scope.around outline.scopes s.span.start :=
    List.mem_filter.2 ⟨member, Span.contains_eq_true.2
      ⟨Nat.le_refl _, (tiles.scopes_within s member).2.1⟩⟩
  cases isLast : (Scope.around outline.scopes s.span.start).getLast? with
  | none =>
    rw [List.getLast?_eq_none_iff.1 isLast] at here
    cases here
  | some last =>
    obtain ⟨others, whole⟩ := List.getLast?_eq_some_iff.1 isLast
    have around := List.mem_filter.1 (List.mem_of_getLast? isLast)
    have lower := (Span.contains_eq_true.1 around.2).1
    rw [Scope.around] at whole here
    rw [whole] at sorted here
    rcases List.mem_append.1 here with before | isIt
    · have behind := (List.pairwise_append.1 sorted).2.2 s before last List.mem_cons_self
      omega
    · rw [List.mem_singleton.1 isIt]

/-- Of two scopes, the one that starts later lies in the other one or behind it. -/
theorem within_or_behind (tiles : Tiles border start stop outline) {first second : Scope}
    (inFirst : first ∈ outline.scopes) (inSecond : second ∈ outline.scopes)
    (later : first.span.start < second.span.start) :
    second.span.stop ≤ first.span.stop ∨ first.span.stop ≤ second.span.start := by
  obtain ⟨before, behind, whole⟩ := List.append_of_mem inFirst
  have sorted := tiles.pairwise_scopes
  rw [whole] at sorted inSecond
  obtain ⟨_, sortedBehind, apart⟩ := List.pairwise_append.1 sorted
  rcases List.mem_append.1 inSecond with inBefore | inRest
  · have earlier := (apart second inBefore first List.mem_cons_self).1
    omega
  · rcases List.mem_cons.1 inRest with rfl | inBehind
    · exact absurd later (Nat.lt_irrefl _)
    · exact ((List.pairwise_cons.1 sortedBehind).1 second inBehind).2

/-- The kind of a scope in whose chain an offset still lies when that scope is over. -/
theorem kind_of_chain?_stop (tiles : Tiles border start stop outline) {s : Scope}
    (member : s ∈ outline.scopes) {offset : Nat} (lower : s.span.start ≤ offset)
    (upper : offset < s.span.stop)
    (same : Scope.chain? outline.scopes offset = Scope.chain? outline.scopes s.span.stop) :
    Scope.innermost? outline.scopes offset = some s.kind := by
  have here : s ∈ Scope.around outline.scopes offset :=
    List.mem_filter.2 ⟨member, Span.contains_eq_true.2 ⟨lower, upper⟩⟩
  obtain ⟨outermost, isOutermost⟩ := Scope.exists_head?_innerRun (List.ne_nil_of_mem here)
  have still := same.symm.trans isOutermost
  -- The outermost scope of the chain goes on behind the scope, so it lies around it.
  obtain ⟨inScopes, contains⟩ := List.mem_filter.1 (Scope.mem_around_of_chain? isOutermost)
  obtain ⟨_, containsStop⟩ := List.mem_filter.1 (Scope.mem_around_of_chain? still)
  rw [Span.contains_eq_true] at contains containsStop
  have outside : outermost.span.start ≤ s.span.start := by
    by_contra inner
    have nested := tiles.within_or_behind member inScopes (Nat.not_le.1 inner)
    omega
  -- So the scope is one of the chain, all of which have the kind of the innermost.
  obtain ⟨further, whole⟩ := Scope.innerRun_suffix (Scope.around outline.scopes offset)
  have sorted := (tiles.pairwise_scopes.imp And.left).filter (·.span.contains offset)
  rw [Scope.around] at whole here
  rw [← whole] at sorted here
  have inRun : s ∈ Scope.innerRun (Scope.around outline.scopes offset) := by
    refine (List.mem_append.1 here).resolve_left fun inFurther => ?_
    have before := (List.pairwise_append.1 sorted).2.2 s inFurther outermost
      (List.mem_of_head? isOutermost)
    omega
  exact Scope.kind_of_mem_innerRun inRun

/-! ## Segments that join -/

/-- Segments join exactly if they are content of one kind and of one chain. -/
theorem joins_iff (tiles : Tiles border start stop outline)
    (kinds : ∀ s ∈ outline.scopes, s.kind ≠ .plain) {left right : Segment}
    (inLeft : left ∈ outline.segments) (inRight : right ∈ outline.segments) :
    left.joins right = true ↔ left.piece.kind = right.piece.kind ∧
      left.piece.IsContent outline.scopes ∧ right.piece.IsContent outline.scopes ∧
        Scope.chain? outline.scopes left.piece.span.start =
          Scope.chain? outline.scopes right.piece.span.start := by
  have chainLeft := tiles.chain_eq_some_iff kinds inLeft
  have chainRight := tiles.chain_eq_some_iff kinds inRight
  rw [Segment.joins_iff, ← tiles.ofScope?_chain?_inj, Option.isSome_iff_exists]
  constructor
  · rintro ⟨⟨own, isOwn⟩, same, kind⟩
    obtain ⟨contentLeft, isLeft⟩ := (chainLeft own).1 isOwn
    obtain ⟨contentRight, isRight⟩ := (chainRight own).1 (same ▸ isOwn)
    exact ⟨kind, contentLeft, contentRight, isLeft.symm.trans isRight⟩
  · rintro ⟨kind, contentLeft, contentRight, same⟩
    have isLeft := (chainLeft _).2 ⟨contentLeft, rfl⟩
    have isRight := (chainRight _).2 ⟨contentRight, same⟩
    exact ⟨⟨_, isLeft⟩, isLeft.trans isRight.symm, kind⟩

end Outline.Tiles

end ModalHighlight
