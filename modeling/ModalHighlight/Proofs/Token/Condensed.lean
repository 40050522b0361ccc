import ModalHighlight.Proofs.Token.Runs

/-! # Tokens from right to left

The tokens of segments can also be made by going over the segments from right
to left and letting each of them join the one behind it.  A fold like this is
easier to compare between two lists of segments than their runs are: what a
segment does depends only on the segment that is in front of what was made so
far.
-/

namespace ModalHighlight

namespace Segment

variable {left right third : Segment} {segments later : List Segment} {pieces : List Piece}

/-! ## Joining -/

/-- Two segments as one, from the start of the first to the stop of the second. -/
def join (left right : Segment) : Segment :=
  ⟨⟨left.piece.kind, ⟨left.piece.span.start, right.piece.span.stop⟩⟩, left.chain⟩

/-- Puts a segment in front of condensed ones, and joins it to the first of them
if the two belong to one token. -/
def push (segment : Segment) : List Segment → List Segment
  | [] => [segment]
  | next :: later =>
    if segment.joins next then segment.join next :: later else segment :: next :: later

/-- Segments of which no neighbours belong to one token any more. -/
def condense (segments : List Segment) : List Segment := segments.foldr push []

theorem joins_congr_right (chain : right.chain = third.chain)
    (kind : right.piece.kind = third.piece.kind) : left.joins right = left.joins third := by
  simp only [joins, chain, kind]

theorem push_of_joins (joined : left.joins right = true) :
    push left (right :: later) = left.join right :: later := by
  simp only [push, joined, if_true]

theorem push_of_apart (apart : left.joins right = false) :
    push left (right :: later) = left :: right :: later := by
  simp [push, apart]

theorem push_of_not_joins (apart : ∀ next ∈ later.head?, left.joins next = false) :
    push left later = left :: later := by
  cases later with
  | nil => rfl
  | cons next others => exact push_of_apart (apart next rfl)

theorem condense_cons (first : Segment) (segments : List Segment) :
    condense (first :: segments) = push first (condense segments) := rfl

theorem condense_append (segments later : List Segment) :
    condense (segments ++ later) = segments.foldr push (condense later) :=
  List.foldr_append

/-- What is in front of condensed segments is of one chain and kind with the
first segment. -/
theorem exists_push (segment : Segment) (later : List Segment) :
    ∃ first others, push segment later = first :: others ∧
      first.chain = segment.chain ∧ first.piece.kind = segment.piece.kind := by
  cases later with
  | nil => exact ⟨segment, [], rfl, rfl, rfl⟩
  | cons next others =>
    simp only [push]
    split
    · exact ⟨_, _, rfl, rfl, rfl⟩
    · exact ⟨_, _, rfl, rfl, rfl⟩

theorem joins_congr_left (joined : left.joins right = true) (third : Segment) :
    (left.join right).joins third = right.joins third := by
  obtain ⟨_, chain, kind⟩ := joins_iff.1 joined
  simp only [joins, join, chain, kind]

/-- Two segments that join are put in front of others as the one they make up. -/
theorem push_push (joined : left.joins right = true) (later : List Segment) :
    push left (push right later) = push (left.join right) later := by
  cases later with
  | nil => exact push_of_joins joined
  | cons next later =>
    have same := joins_congr_left joined next
    by_cases goesOn : right.joins next = true
    · rw [push_of_joins goesOn, push_of_joins (same.trans goesOn)]
      exact push_of_joins joined
    · have ends := Bool.eq_false_iff.2 goesOn
      rw [push_of_apart ends, push_of_apart (same.trans ends)]
      exact push_of_joins joined

/-- However much follows, only the last of condensed segments may change, and
it does so by being pushed. -/
theorem exists_foldr_push (segments : List Segment) (last : Segment) :
    ∃ earlier final, final.chain = last.chain ∧ final.piece.kind = last.piece.kind ∧
      ∀ later, (segments ++ [last]).foldr push later = earlier ++ push final later := by
  induction segments with
  | nil => exact ⟨[], last, rfl, rfl, fun _ => rfl⟩
  | cons first segments ih =>
    obtain ⟨earlier, final, chain, kind, made⟩ := ih
    cases earlier with
    | cons head earlier =>
      refine ⟨push first [head] ++ earlier, final, chain, kind, fun later => ?_⟩
      rw [List.cons_append, List.foldr_cons, made]
      cases joined : first.joins head <;> simp [push, joined]
    | nil =>
      by_cases joined : first.joins final = true
      · obtain ⟨_, sameChain, sameKind⟩ := joins_iff.1 joined
        refine ⟨[], first.join final, sameChain.trans chain, sameKind.trans kind, ?_⟩
        intro later
        rw [List.cons_append, List.foldr_cons, made, List.nil_append, List.nil_append]
        exact push_push joined later
      · refine ⟨[first], final, chain, kind, fun later => ?_⟩
        rw [List.cons_append, List.foldr_cons, made, List.nil_append, List.singleton_append]
        obtain ⟨next, others, pushed, nextChain, nextKind⟩ := exists_push final later
        rw [pushed, push_of_apart]
        rw [joins_congr_right nextChain nextKind]
        exact Bool.eq_false_iff.2 joined

/-! ## Runs -/

/-- A run as one segment. -/
def joinRun (first : Segment) (others : List Segment) : Segment :=
  ⟨⟨first.piece.kind, cover first others⟩, first.chain⟩

theorem join_joinRun (first second : Segment) (others : List Segment) :
    first.join (joinRun second others) = joinRun first (second :: others) := by
  simp [join, joinRun, cover]

theorem foldr_push_of_isChain {first : Segment} {others : List Segment}
    (chain : (first :: others).IsChain fun left right => left.joins right = true)
    (apart : ∀ last ∈ (first :: others).getLast?, ∀ next ∈ later.head?, last.joins next = false) :
    (first :: others).foldr push later = joinRun first others :: later := by
  induction others generalizing first with
  | nil =>
    simp only [List.foldr_cons, List.foldr_nil]
    exact push_of_not_joins (apart first rfl)
  | cons second others ih =>
    obtain ⟨joined, chain⟩ := List.isChain_cons_cons.1 chain
    rw [List.getLast?_cons_cons] at apart
    have same : first.joins (joinRun second others) = true := joined
    rw [List.foldr_cons, ih chain apart, push_of_joins same, join_joinRun]

/-- The segment that a run of segments makes up. -/
def ofRun? : List Segment → Option Segment
  | [] => none
  | first :: others => some (joinRun first others)

theorem condense_flatten {groups : List (List Segment)} (nonempty : [] ∉ groups)
    (chains : ∀ group ∈ groups, group.IsChain fun left right => left.joins right = true)
    (apart : groups.IsChain fun left right =>
      ∃ inLeft inRight, (left.getLast inLeft).joins (right.head inRight) = false) :
    condense groups.flatten = groups.filterMap ofRun? := by
  induction groups with
  | nil => rfl
  | cons group groups ih =>
    rw [List.mem_cons, not_or] at nonempty
    obtain ⟨nextApart, apart⟩ := List.isChain_cons.1 apart
    have rest := ih nonempty.2 (fun other member => chains other (List.mem_cons_of_mem _ member))
      apart
    cases group with
    | nil => exact absurd rfl nonempty.1
    | cons first others =>
      rw [List.flatten_cons, condense_append, rest]
      refine foldr_push_of_isChain (chains _ List.mem_cons_self) ?_
      intro last isLast next isNext
      cases groups with
      | nil => cases isNext
      | cons second groups =>
        obtain ⟨inLeft, inRight, separate⟩ := nextApart second rfl
        cases second with
        | nil => exact absurd rfl inRight
        | cons head more =>
          obtain rfl := Option.some.inj isNext
          rw [List.getLast?_eq_some_getLast inLeft] at isLast
          obtain rfl := Option.some.inj isLast
          exact separate

/-- Where numbers are exact, the pieces of segments are the condensed segments. -/
theorem Runs.eq_condense {exact : Prop} (runs : Runs exact segments pieces) (isExact : exact) :
    pieces = (condense segments).map Segment.piece := by
  induction runs with
  | nil => rfl
  | @cons first others later pieces meets apart _ ih =>
    have joins : (first :: others).IsChain fun left right => left.joins right = true :=
      meets.imp fun _ _ meet => meet.joins isExact
    rw [condense_append, foldr_push_of_isChain joins, ih]
    · rfl
    · intro last isLast next isNext
      cases later with
      | nil => cases isNext
      | cons head later =>
        obtain ⟨pushed, more, made, chain, kind⟩ := exists_push head (condense later)
        rw [condense_cons, made] at isNext
        obtain rfl := Option.some.inj isNext
        rw [joins_congr_right chain kind]
        exact apart last isLast head rfl

end Segment

namespace Token

/-- The token of a segment that no neighbour joins. -/
def ofSegment (text : String) (segment : Segment) : Token := ofPiece text segment.piece

/-- The tokens of segments are those of the condensed segments. -/
theorem ofSegments_eq_map_condense (text : String) (segments : List Segment) :
    ofSegments text segments = (Segment.condense segments).map (ofSegment text) := by
  have condensed := Segment.condense_flatten
    (List.nil_notMem_splitBy Segment.joins segments)
    (fun _ => List.isChain_of_mem_splitBy) (List.isChain_getLast_head_splitBy _ _)
  rw [List.flatten_splitBy] at condensed
  rw [condensed, ofSegments, List.map_filterMap]
  refine List.filterMap_congr fun run _ => ?_
  cases run <;> rfl

/-- Where numbers are exact, the tokens are those of the outline. -/
theorem Runs.eq_ofOutline {exact : Prop} {text : String} {outline : Outline} {tokens : List Token}
    (runs : Runs exact text outline.segments tokens) (isExact : exact) :
    tokens = ofOutline text outline := by
  have made : tokens = (tokens.map piece).map (ofPiece text) := by
    rw [List.map_map]
    refine (List.map_id tokens).symm.trans (List.map_congr_left fun token member => ?_)
    show token = ⟨token.kind, token.span, (token.span.slice? text).getD ""⟩
    rw [← runs.slices token member]
  rw [made, runs.pieces.eq_condense isExact, ofOutline, ofSegments_eq_map_condense, List.map_map]
  rfl

end Token

end ModalHighlight
