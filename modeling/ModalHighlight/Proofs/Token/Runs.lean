import ModalHighlight.Proofs.Outline.Tiling
import ModalHighlight.Proofs.Token.Segments

/-! # Tokens as runs of segments

However tokens are made, each of them is a run of segments, and two segments that
should be in one token are.  Where two of one kind are in one token that should not
be, the numbers that they carry happen to be the same, and this takes content: a
number that is drawn for text that is none differs from the one before it.  Numbers
are exact if they are never the same for two chains, and then runs of segments are
the longest ones that join.  Segments that tile a range are gathered into tokens
that tile it too.
-/

namespace ModalHighlight

namespace Segment

variable {exact : Prop} {left right segment first last : Segment}
variable {segments others later found : List Segment} {pieces : List Piece} {start stop : Nat}

/-! ## Runs -/

theorem joins_iff : left.joins right = true ↔
    left.chain.isSome ∧ left.chain = right.chain ∧ left.piece.kind = right.piece.kind := by
  simp only [joins, Bool.and_eq_true, beq_iff_eq, and_assoc]

/-- Two neighbouring segments may be in one token. -/
structure Meets (exact : Prop) (left right : Segment) : Prop where
  kind : left.piece.kind = right.piece.kind
  content : left.chain.isSome ∨ right.chain.isSome
  chain : exact → left.chain = right.chain

theorem Meets.joins (meets : Meets exact left right) (isExact : exact) :
    left.joins right = true := by
  have same := meets.chain isExact
  refine joins_iff.2 ⟨?_, same, meets.kind⟩
  rcases meets.content with content | content
  · exact content
  · rw [same]
    exact content

/-- The piece that a run of segments makes up. -/
def whole (first : Segment) (others : List Segment) : Piece :=
  ⟨first.piece.kind, cover first others⟩

/-- Segments, and the pieces that their runs make up. -/
inductive Runs (exact : Prop) : List Segment → List Piece → Prop
  | nil : Runs exact [] []
  | cons {first : Segment} {others later : List Segment} {pieces : List Piece}
      (meets : (first :: others).IsChain (Meets exact))
      (apart : ∀ last ∈ (first :: others).getLast?, ∀ next ∈ later.head?,
        last.joins next = false)
      (rest : Runs exact later pieces) :
      Runs exact ((first :: others) ++ later) (whole first others :: pieces)

theorem Runs.eq_nil (runs : Runs exact [] pieces) : pieces = [] := by
  generalize empty : ([] : List Segment) = segments at runs
  cases runs with
  | nil => rfl
  | cons => cases empty

theorem Runs.exists_of_cons (runs : Runs exact (first :: segments) pieces) :
    ∃ others later rest, segments = others ++ later ∧ pieces = whole first others :: rest ∧
      (first :: others).IsChain (Meets exact) ∧
        (∀ last ∈ (first :: others).getLast?, ∀ next ∈ later.head?, last.joins next = false) ∧
          Runs exact later rest := by
  generalize both : first :: segments = all at runs
  cases runs with
  | nil => cases both
  | cons meets apart rest =>
    obtain ⟨rfl, rfl⟩ := List.cons.inj both
    exact ⟨_, _, _, rfl, rfl, meets, apart, rest⟩

/-- All segments of a run are of one kind. -/
theorem kind_of_isChain (meets : (first :: others).IsChain (Meets exact)) :
    ∀ other ∈ first :: others, other.piece.kind = first.piece.kind := by
  induction others generalizing first with
  | nil =>
    intro other member
    rw [List.mem_singleton.1 member]
  | cons second others ih =>
    obtain ⟨joined, later⟩ := List.isChain_cons_cons.1 meets
    intro other member
    rcases List.mem_cons.1 member with rfl | inOthers
    · rfl
    · exact (ih later other inOthers).trans joined.kind.symm

/-- If runs are exact, all segments of a run are of one chain. -/
theorem chain_of_isChain (isExact : exact) (meets : (first :: others).IsChain (Meets exact)) :
    ∀ other ∈ first :: others, other.chain = first.chain := by
  induction others generalizing first with
  | nil =>
    intro other member
    rw [List.mem_singleton.1 member]
  | cons second others ih =>
    obtain ⟨joined, later⟩ := List.isChain_cons_cons.1 meets
    intro other member
    rcases List.mem_cons.1 member with rfl | inOthers
    · rfl
    · exact (ih later other inOthers).trans (joined.chain isExact).symm

/-- Every piece is made up by a run. -/
theorem Runs.exists_run (runs : Runs exact segments pieces) {p : Piece} (member : p ∈ pieces) :
    ∃ first others, p = whole first others ∧ first :: others <:+: segments ∧
      (first :: others).IsChain (Meets exact) := by
  induction runs with
  | nil => cases member
  | @cons first others later pieces meets _ _ ih =>
    rcases List.mem_cons.1 member with rfl | inPieces
    · exact ⟨first, others, rfl, (List.prefix_append _ later).isInfix, meets⟩
    · obtain ⟨head, run, made, infixed, meetsRun⟩ := ih inPieces
      exact ⟨head, run, made, infixed.trans (List.suffix_append _ later).isInfix, meetsRun⟩

/-! ## Pieces tile what their segments tile -/

/-- A run covers the range that it tiles. -/
theorem cover_of_tiles {border : Nat → Prop}
    (run : Span.Tiles border start stop ((first :: others).map (·.piece.span))) :
    cover first others = ⟨start, stop⟩ := by
  have last := run.getLast_stop (by simp)
  rw [List.getLast_map] at last
  rw [← last, ← run.2.1]
  rfl

theorem Runs.tiles {border : Nat → Prop} (runs : Runs exact segments pieces)
    (tiles : Span.Tiles border start stop (segments.map (·.piece.span))) :
    Span.Tiles border start stop (pieces.map Piece.span) := by
  -- One run at a time: it tiles the front of the range, the later ones the rest.
  induction runs generalizing start with
  | nil => exact tiles
  | @cons first others later pieces _ _ _ ih =>
    rw [List.map_append] at tiles
    obtain ⟨middle, run, rest⟩ := tiles.exists_of_append
    have covered : (whole first others).span = ⟨start, middle⟩ := cover_of_tiles run
    have before : start < middle := by
      rw [← run.2.1]
      exact Nat.lt_of_lt_of_le run.2.2.1 run.2.2.2.le
    rw [List.map_cons, covered]
    exact ⟨run.1, rfl, before, ih rest⟩

/-- Every segment lies in a piece of its kind. -/
theorem Runs.exists_of_mem {border : Nat → Prop} (runs : Runs exact segments pieces)
    (tiles : Span.Tiles border start stop (segments.map (·.piece.span)))
    (member : segment ∈ segments) :
    ∃ p ∈ pieces, p.kind = segment.piece.kind ∧ p.span.encloses segment.piece.span = true := by
  induction runs generalizing start with
  | nil => cases member
  | @cons first others later pieces meets _ _ ih =>
    rw [List.map_append] at tiles
    obtain ⟨middle, run, rest⟩ := tiles.exists_of_append
    rcases List.mem_append.1 member with inRun | inLater
    · have covered : (whole first others).span = ⟨start, middle⟩ := cover_of_tiles run
      obtain ⟨lower, _, upper, _⟩ := run.of_mem (List.mem_map_of_mem inRun)
      refine ⟨whole first others, List.mem_cons_self,
        (kind_of_isChain meets segment inRun).symm, ?_⟩
      rw [covered]
      exact Span.encloses_eq_true.2 ⟨lower, upper⟩
    · obtain ⟨p, inPieces, found⟩ := ih rest inLater
      exact ⟨p, List.mem_cons_of_mem _ inPieces, found⟩

/-- Where nothing of a kind is content, the pieces of that kind are the segments of it. -/
theorem Runs.filter_kind {kind : Kind} (runs : Runs exact segments pieces)
    (apart : ∀ segment ∈ segments, segment.piece.kind = kind → segment.chain = none) :
    pieces.filter (·.kind == kind) = (segments.map piece).filter (·.kind == kind) := by
  induction runs with
  | nil => rfl
  | @cons first others later pieces meets _ _ ih =>
    have rest := ih fun segment member => apart segment (List.mem_append_right _ member)
    rw [List.map_append, List.filter_append, List.filter_cons, rest]
    by_cases isKind : first.piece.kind = kind
    · -- Two segments of the kind do not meet, so the run has no second one.
      cases others with
      | nil =>
        have one : whole first [] = first.piece := rfl
        simp [one, isKind]
      | cons second others =>
        obtain ⟨meet, _⟩ := List.isChain_cons_cons.1 meets
        have alone := apart first (by simp) isKind
        have aloneSecond := apart second (by simp) (meet.kind.symm.trans isKind)
        simpa [alone, aloneSecond] using meet.content
    · have nothing : ((first :: others).map piece).filter (·.kind == kind) = [] := by
        refine List.filter_eq_nil_iff.2 fun p member => ?_
        obtain ⟨other, inRun, rfl⟩ := List.mem_map.1 member
        rw [kind_of_isChain meets other inRun]
        simpa using isKind
      rw [nothing, List.nil_append]
      simp [whole, isKind]

/-! ## Runs that grow and are cut -/

/-- A segment that goes with the last one becomes part of the last piece. -/
theorem Runs.exists_last (runs : Runs exact found pieces) (isLast : last ∈ found.getLast?) :
    ∃ front final, pieces = front ++ [final] ∧ final.kind = last.piece.kind ∧
      ∀ segment : Segment, Meets exact last segment →
        Runs exact (found ++ [segment])
          (front ++ [⟨final.kind, ⟨final.span.start, segment.piece.span.stop⟩⟩]) := by
  induction runs with
  | nil => cases isLast
  | @cons first others later pieces meets apart rest ih =>
    cases later with
    | nil =>
      rw [List.append_nil] at isLast
      obtain rfl := rest.eq_nil
      refine ⟨[], whole first others, rfl, ?_, fun segment meet => ?_⟩
      · exact (kind_of_isChain meets last (List.mem_of_getLast? isLast)).symm
      · have grown : ((first :: others) ++ [segment]).IsChain (Meets exact) := by
          refine List.isChain_append.2 ⟨meets, List.isChain_singleton _, ?_⟩
          intro final isFinal next isNext
          rw [Option.mem_def.1 isLast] at isFinal
          obtain rfl := Option.some.inj isFinal
          obtain rfl := Option.some.inj isNext
          exact meet
        have run : Runs exact ((first :: (others ++ [segment])) ++ [])
            [whole first (others ++ [segment])] :=
          .cons grown (fun _ _ _ isNext => nomatch isNext) .nil
        simpa [whole, cover] using run
    | cons next later =>
      rw [List.getLast?_append_of_ne_nil _ (List.cons_ne_nil _ _)] at isLast
      obtain ⟨front, final, rfl, kind, grow⟩ := ih isLast
      refine ⟨whole first others :: front, final, rfl, kind, fun segment meet => ?_⟩
      rw [List.append_assoc]
      exact .cons meets apart (grow segment meet)

/-- A segment that does not join the last one is a piece of its own. -/
theorem Runs.concat (runs : Runs exact found pieces)
    (apart : ∀ last ∈ found.getLast?, last.joins segment = false) :
    Runs exact (found ++ [segment]) (pieces ++ [segment.piece]) := by
  induction runs with
  | nil => exact .cons (List.isChain_singleton _) (fun _ _ _ isNext => nomatch isNext) .nil
  | @cons first others later pieces meets apartLater rest ih =>
    rw [List.append_assoc]
    cases later with
    | nil =>
      obtain rfl := rest.eq_nil
      refine .cons meets (fun last isLast next isNext => ?_) (ih fun _ isLast => nomatch isLast)
      obtain rfl := Option.some.inj isNext
      exact apart last (by rwa [List.append_nil])
    | cons next later =>
      refine .cons meets apartLater (ih fun last isLast => apart last ?_)
      rwa [List.getLast?_append_of_ne_nil _ (List.cons_ne_nil _ _)]

/-- The front of a run is what lies in front of an offset of its piece. -/
theorem runs_front {border : Nat → Prop} {front run : List Segment} {offset middle : Nat}
    (meets : (first :: (front ++ run)).IsChain (Meets exact))
    (tilesFront : Span.Tiles border start offset ((first :: front).map (·.piece.span)))
    (tilesRun : Span.Tiles border offset middle (run.map (·.piece.span))) :
    Runs exact (first :: front) [⟨first.piece.kind, ⟨start, offset⟩⟩] ∧
      whole first (front ++ run) = ⟨first.piece.kind, ⟨start, middle⟩⟩ := by
  have tiles := tilesFront.append tilesRun
  rw [← List.map_append, List.cons_append] at tiles
  have part : whole first front = ⟨first.piece.kind, ⟨start, offset⟩⟩ :=
    congrArg _ (cover_of_tiles tilesFront)
  have meetsFront : (first :: front).IsChain (Meets exact) := meets.prefix ⟨run, rfl⟩
  have cut : Runs exact ((first :: front) ++ []) [whole first front] :=
    .cons meetsFront (fun _ _ _ isNext => nomatch isNext) .nil
  rw [List.append_nil, part] at cut
  exact ⟨cut, congrArg _ (cover_of_tiles tiles)⟩

/-- What is in front of an offset is made up of the pieces in front of it, and of what
lies in front of it of the last of them. -/
theorem Runs.exists_cut {border : Nat → Prop} {front back : List Segment} {offset : Nat}
    (runs : Runs exact (front ++ back) pieces) (nonempty : front ≠ [])
    (tilesFront : Span.Tiles border start offset (front.map (·.piece.span)))
    (tilesBack : Span.Tiles border offset stop (back.map (·.piece.span))) :
    ∃ kept final others, pieces = kept ++ final :: others ∧
      Runs exact front (kept ++ [⟨final.kind, ⟨final.span.start, offset⟩⟩]) ∧
        final.span.start < offset ∧ offset ≤ final.span.stop ∧
          ∀ p ∈ others, offset ≤ p.span.start := by
  generalize all : front ++ back = segments at runs
  induction runs generalizing front start with
  | nil => exact absurd (List.append_eq_nil_iff.1 all).1 nonempty
  | @cons first others later pieces meets apart rest ih =>
    -- The cut is in the first run or at its end, or it is behind it.
    have within : ∀ run, first :: others = front ++ run → back = run ++ later →
        ∃ kept final others', whole first others :: pieces = kept ++ final :: others' ∧
          Runs exact front (kept ++ [⟨final.kind, ⟨final.span.start, offset⟩⟩]) ∧
            final.span.start < offset ∧ offset ≤ final.span.stop ∧
              ∀ p ∈ others', offset ≤ p.span.start := by
      rintro run inRun rfl
      rw [List.map_append] at tilesBack
      obtain ⟨middle, tilesRun, tilesLater⟩ := tilesBack.exists_of_append
      cases front with
      | nil => exact absurd rfl nonempty
      | cons head front =>
        simp only [List.cons_append, List.cons.injEq] at inRun
        obtain ⟨rfl, rfl⟩ := inRun
        obtain ⟨cut, covered⟩ := runs_front meets tilesFront tilesRun
        have proper : start < offset :=
          tilesFront.2.1 ▸ Nat.lt_of_lt_of_le tilesFront.2.2.1 tilesFront.2.2.2.le
        refine ⟨[], _, pieces, rfl, ?_, ?_, ?_, fun p member => ?_⟩
        · rw [covered]
          exact cut
        · rw [covered]
          exact proper
        · rw [covered]
          exact tilesRun.le
        · have lower := ((rest.tiles tilesLater).of_mem (List.mem_map_of_mem member)).1
          exact Nat.le_trans tilesRun.le lower
    rcases List.append_eq_append_iff.1 all with ⟨run, inRun, behind⟩ | ⟨run, rfl, behind⟩
    · exact within run inRun behind
    · cases run with
      | nil => exact within [] (by simp) behind.symm
      | cons next run =>
        subst behind
        rw [List.map_append] at tilesFront
        obtain ⟨middle, tilesRun, tilesLater⟩ := tilesFront.exists_of_append
        obtain ⟨kept, final, more, rfl, cut, found⟩ :=
          ih (List.cons_ne_nil next run) tilesLater rfl
        exact ⟨whole first others :: kept, final, more, rfl, .cons meets apart cut, found⟩

/-! ## Neighbours -/

/-- Of a run and what follows it, two neighbours are both in the run, or both in what
follows, or the last of the one and the first of the other. -/
theorem neighbours_append (neighbours : [left, right] <:+: others ++ later) :
    [left, right] <:+: others ∨ [left, right] <:+: later ∨
      others.getLast? = some left ∧ later.head? = some right := by
  obtain ⟨front, behind, both⟩ := neighbours
  rw [List.append_assoc, List.append_eq_append_iff] at both
  rcases both with ⟨run, rfl, rest⟩ | ⟨run, rfl, rest⟩
  · match run, rest with
    | [], rest => exact .inr (.inl ⟨[], behind, rest⟩)
    | [_], rest =>
      simp only [List.cons_append, List.nil_append, List.cons.injEq] at rest
      obtain ⟨rfl, rfl⟩ := rest
      exact .inr (.inr ⟨List.getLast?_concat .., rfl⟩)
    | _ :: _ :: run, rest =>
      simp only [List.cons_append, List.nil_append, List.cons.injEq] at rest
      obtain ⟨rfl, rfl, _⟩ := rest
      exact .inl ⟨front, run, by simp⟩
  · exact .inr (.inl ⟨run, behind, by simp [rest]⟩)

/-- Two neighbouring segments are in one piece, and meet, or they are in none
together, and do not join. -/
theorem Runs.together_or_apart {border : Nat → Prop} (runs : Runs exact segments pieces)
    (tiles : Span.Tiles border start stop (segments.map (·.piece.span)))
    (neighbours : [left, right] <:+: segments) :
    Meets exact left right ∧ (∃ p ∈ pieces, p.span.encloses left.piece.span = true ∧
        p.span.encloses right.piece.span = true) ∨
      left.joins right = false ∧ ∀ p ∈ pieces, ¬(p.span.encloses left.piece.span = true ∧
        p.span.encloses right.piece.span = true) := by
  induction runs generalizing start with
  | nil => exact absurd neighbours.length_le (by simp)
  | @cons first others later pieces meets apart rest ih =>
    have proper : ∀ segment ∈ first :: others ++ later,
        segment.piece.span.start < segment.piece.span.stop :=
      fun segment member => (tiles.of_mem (List.mem_map_of_mem member)).2.1
    have properLeft := proper left (neighbours.subset (by simp))
    have properRight := proper right (neighbours.subset (by simp))
    rw [List.map_append] at tiles
    obtain ⟨middle, run, tilesLater⟩ := tiles.exists_of_append
    have covered : (whole first others).span = ⟨start, middle⟩ := cover_of_tiles run
    have later_le : ∀ segment ∈ later, middle ≤ segment.piece.span.start :=
      fun segment member => (tilesLater.of_mem (List.mem_map_of_mem member)).1
    have rest_le : ∀ p ∈ pieces, middle ≤ p.span.start :=
      fun p member => ((rest.tiles tilesLater).of_mem (List.mem_map_of_mem member)).1
    rcases neighbours_append neighbours with inRun | inLater | ⟨isLast, isFirst⟩
    · have pair : [left, right].IsChain (Meets exact) := List.IsChain.infix meets inRun
      refine .inl ⟨List.isChain_pair.1 pair, whole first others, List.mem_cons_self, ?_⟩
      have within : ∀ segment ∈ first :: others,
          (whole first others).span.encloses segment.piece.span = true := by
        intro segment member
        obtain ⟨lower, _, upper, _⟩ := run.of_mem (List.mem_map_of_mem member)
        rw [covered]
        exact Span.encloses_eq_true.2 ⟨lower, upper⟩
      exact ⟨within left (inRun.subset (by simp)), within right (inRun.subset (by simp))⟩
    · refine (ih tilesLater inLater).imp ?_ ?_
      · rintro ⟨meet, p, inPieces, encloses⟩
        exact ⟨meet, p, List.mem_cons_of_mem _ inPieces, encloses⟩
      · rintro ⟨separate, none⟩
        refine ⟨separate, fun p inPieces => ?_⟩
        rcases List.mem_cons.1 inPieces with rfl | inRest
        · have lower := later_le left (inLater.subset (by simp))
          simp only [covered, Span.encloses_eq_true]
          omega
        · exact none p inRest
    · -- The run ends between the two.
      refine .inr ⟨apart left isLast right isFirst, fun p inPieces => ?_⟩
      have lower := later_le right (List.mem_of_mem_head? isFirst)
      have upper := (run.of_mem (List.mem_map_of_mem (List.mem_of_getLast? isLast))).2.2.1
      rcases List.mem_cons.1 inPieces with rfl | inRest
      · simp only [covered, Span.encloses_eq_true]
        omega
      · have behind := rest_le p inRest
        simp only [Span.encloses_eq_true]
        omega

end Segment

/-! ## Tokens -/

namespace Token

variable {exact : Prop} {text : String} {segments : List Segment} {pieces : List Piece}
variable {tokens : List Token} {outline : Outline} {border : Nat → Prop} {start stop : Nat}

def piece (token : Token) : Piece := ⟨token.kind, token.span⟩

/-- Tokens of a text that runs of segments make up. -/
structure Runs (exact : Prop) (text : String) (segments : List Segment) (tokens : List Token) :
    Prop where
  pieces : Segment.Runs exact segments (tokens.map piece)
  slices : ∀ token ∈ tokens, token.text = (token.span.slice? text).getD ""

theorem map_piece_ofPiece (text : String) (pieces : List Piece) :
    (pieces.map (ofPiece text)).map piece = pieces := by
  rw [List.map_map]
  exact List.map_id pieces

theorem runs_ofPiece (text : String) (runs : Segment.Runs exact segments pieces) :
    Runs exact text segments (pieces.map (ofPiece text)) where
  pieces := by
    rw [map_piece_ofPiece]
    exact runs
  slices token member := by
    obtain ⟨p, _, rfl⟩ := List.mem_map.1 member
    rfl

theorem map_span_map_piece (tokens : List Token) :
    (tokens.map piece).map Piece.span = tokens.map Token.span := by
  rw [List.map_map]
  rfl

theorem map_piece_segments (outline : Outline) :
    outline.segments.map Segment.piece = outline.pieces :=
  Outline.map_piece_segmentsOnto outline .plain .ground []

theorem map_span_segments (outline : Outline) :
    outline.segments.map (·.piece.span) = outline.pieces.map Piece.span := by
  rw [← map_piece_segments, List.map_map]
  rfl

/-- Where nothing of a kind is content, the tokens of that kind are the segments of it. -/
theorem Runs.spans_of_kind {kind : Kind} (runs : Runs exact text segments tokens)
    (apart : ∀ segment ∈ segments, segment.piece.kind = kind → segment.chain = none) :
    (tokens.filter (·.kind == kind)).map span =
      ((segments.map Segment.piece).filter (·.kind == kind)).map Piece.span := by
  rw [← runs.pieces.filter_kind apart, List.filter_map, List.map_map]
  rfl

/-- The tokens of an outline that tiles a range tile it too. -/
theorem Runs.tiles (runs : Runs exact text outline.segments tokens)
    (tiles : outline.Tiles border start stop) :
    Span.Tiles border start stop (tokens.map Token.span) := by
  rw [← map_span_map_piece]
  refine runs.pieces.tiles ?_
  rw [map_span_segments]
  exact tiles.pieces

/-- No two tokens that tile a range cover one offset. -/
theorem eq_of_contains {offset : Nat} (tiles : Span.Tiles border start stop (tokens.map Token.span))
    {first second : Token} (inFirst : first ∈ tokens) (inSecond : second ∈ tokens)
    (coversFirst : first.span.contains offset = true)
    (coversSecond : second.span.contains offset = true) : first = second := by
  induction tokens generalizing start with
  | nil => cases inFirst
  | cons token rest ih =>
    have later := tiles.2.2.2
    have behind : ∀ other ∈ rest, other.span.contains offset = true →
        token.span.contains offset = false := by
      intro other member covers
      have lower := (later.of_mem (List.mem_map_of_mem member)).1
      rw [Span.contains_eq_true] at covers
      rw [← Bool.not_eq_true, Span.contains_eq_true]
      omega
    rcases List.mem_cons.1 inFirst with rfl | inRest
    · rcases List.mem_cons.1 inSecond with rfl | inRest
      · rfl
      · rw [behind second inRest coversSecond] at coversFirst
        cases coversFirst
    · rcases List.mem_cons.1 inSecond with rfl | inRest'
      · rw [behind first inRest coversFirst] at coversSecond
        cases coversSecond
      · exact ih later inRest inRest'

end Token

end ModalHighlight
