import ModalHighlight.Proofs.Scan.Behind
import ModalHighlight.Proofs.Token.Coverage

/-! # Tokens of texts one behind the other

A text that ends with `;` and a line feed, and leaves no mode open, can be
highlighted apart from what follows it.  Only where the two meet is there
something to do: the first ends with plain text, and plain text at the start of
the second goes on with it.
-/

namespace ModalHighlight

open Text (Border)

variable {front back slice : String} {first second : Outline}

/-! ## Moving and joining tokens -/

namespace Token

def shift (distance : Nat) (token : Token) : Token :=
  { token with span := token.span.shift distance }

/-- Two tokens as one, from the start of the first to the stop of the second. -/
def join (left right : Token) : Token :=
  ⟨left.kind, ⟨left.span.start, right.span.stop⟩, left.text ++ right.text⟩

/-- Puts a token in front of others.  Plain tokens that meet there become one. -/
def putBefore (token : Token) : List Token → List Token
  | [] => [token]
  | next :: later =>
    if token.kind = .plain ∧ next.kind = .plain then token.join next :: later
    else token :: next :: later

/-! ## Segments of both texts -/

theorem ofSegment_append_left {segment : Segment}
    (cut : segment.piece.span.slice? front = some slice) (back : String) :
    ofSegment (front ++ back) segment = ofSegment front segment := by
  simp only [ofSegment, ofPiece, cut, Text.slice?_append_left cut back]

theorem ofSegment_append_right {segment : Segment}
    (cut : segment.piece.span.slice? back = some slice) (front : String) :
    ofSegment (front ++ back) (segment.shift front.utf8ByteSize) =
      (ofSegment back segment).shift front.utf8ByteSize := by
  have moved := Text.slice?_append_right cut front
  simp only [ofSegment, ofPiece, Segment.shift, Piece.shift, moved, cut]
  rfl

theorem ofSegment_join {text leftSlice rightSlice : String} {left right : Segment}
    (leftCut : left.piece.span.slice? text = some leftSlice)
    (rightCut : right.piece.span.slice? text = some rightSlice)
    (meet : right.piece.span.start = left.piece.span.stop) :
    ofSegment text (left.join right) = (ofSegment text left).join (ofSegment text right) := by
  obtain ⟨⟨kind, ⟨start, middle⟩⟩, chain⟩ := left
  obtain ⟨⟨kind', ⟨start', stop⟩⟩, chain'⟩ := right
  obtain rfl : start' = middle := meet
  have both := Text.slice?_append leftCut rightCut
  simp only [ofSegment, ofPiece, Segment.join, both, leftCut, rightCut]
  rfl

/-- At the seam, all plain text is joined. -/
theorem joins_shift_of_plain {final next : Segment} (chain : final.chain = some .ground)
    (kind : final.piece.kind = .plain)
    (content : next.piece.kind = .plain → next.chain = some .ground) (distance : Nat) :
    final.joins (next.shift distance) = decide (next.piece.kind = .plain) := by
  rw [Bool.eq_iff_iff, decide_eq_true_iff, Segment.joins_iff, chain, kind]
  constructor
  · rintro ⟨_, _, same⟩
    exact same.symm
  · intro plain
    refine ⟨rfl, ?_, plain.symm⟩
    rw [Segment.shift, content plain]
    rfl

/-- A plain segment at the end of the first text is put in front of the segments
of the second as its token is put in front of their tokens. -/
theorem map_ofSegment_push {final : Segment} {later : List Segment}
    (chain : final.chain = some .ground) (kind : final.piece.kind = .plain)
    (cut : final.piece.span.slice? front = some (ofSegment front final).text)
    (last : final.piece.span.stop = front.utf8ByteSize)
    (content : ∀ next ∈ later.head?, next.piece.kind = .plain → next.chain = some .ground)
    (cuts : ∀ segment ∈ later, segment.piece.span.slice? back = some (ofSegment back segment).text)
    (starts : ∀ next ∈ later.head?, next.piece.span.start = 0) :
    (Segment.push final (later.map (Segment.shift front.utf8ByteSize))).map
        (ofSegment (front ++ back)) =
      (ofSegment front final).putBefore
        ((later.map (ofSegment back)).map (shift front.utf8ByteSize)) := by
  have here := ofSegment_append_left cut back
  cases later with
  | nil => exact congrArg (· :: []) here
  | cons next later =>
    have rest : (later.map (Segment.shift front.utf8ByteSize)).map (ofSegment (front ++ back)) =
        (later.map (ofSegment back)).map (shift front.utf8ByteSize) := by
      rw [List.map_map, List.map_map]
      exact List.map_congr_left fun segment member =>
        ofSegment_append_right (cuts segment (List.mem_cons_of_mem _ member)) front
    have nextCut := cuts next List.mem_cons_self
    have nextHere := ofSegment_append_right nextCut front
    have joins := joins_shift_of_plain chain kind (content next rfl) front.utf8ByteSize
    simp only [List.map_cons, Segment.push, joins, decide_eq_true_eq]
    by_cases plain : next.piece.kind = .plain
    · have meet : (next.shift front.utf8ByteSize).piece.span.start = final.piece.span.stop := by
        simp [last, Segment.shift, Piece.shift, Span.shift, starts next rfl]
      have both := ofSegment_join (Text.slice?_append_left cut back)
        (Text.slice?_append_right nextCut front) meet
      rw [if_pos plain, List.map_cons, rest, both, here, nextHere]
      exact (if_pos ⟨kind, plain⟩).symm
    · rw [if_neg plain, List.map_cons, List.map_cons, rest, here, nextHere]
      exact (if_neg fun both => plain both.2).symm

/-! ## Outlines of both texts -/

theorem slice?_of_mem_condense {text : String} {stop : Nat} {outline : Outline}
    (covers : Covers text stop (ofOutline text outline)) :
    ∀ segment ∈ Segment.condense outline.segments,
      segment.piece.span.slice? text = some (ofSegment text segment).text := by
  intro segment member
  refine covers.slices (ofSegment text segment) ?_
  rw [ofOutline, ofSegments_eq_map_condense]
  exact List.mem_map_of_mem member

/-- Condensing leaves plain text at the start content of the ground mode. -/
theorem chain_of_condense (grounded : second.Grounded) :
    ∀ next ∈ (Segment.condense second.segments).head?,
      next.piece.kind = .plain → next.chain = some .ground := by
  have first := grounded.chain_of_plain
  cases segments : second.segments with
  | nil =>
    intro next isNext
    cases isNext
  | cons head later =>
    obtain ⟨pushed, others, shape, chain, kind⟩ :=
      Segment.exists_push head (Segment.condense later)
    have condensed : Segment.condense (head :: later) = pushed :: others := shape
    intro next isNext
    rw [condensed] at isNext
    obtain rfl := Option.some.inj isNext
    rw [chain, kind]
    exact first head (by rw [segments]; rfl)

/-- Of the condensed segments of an outline that ends with plain text, only the
last changes if another outline follows. -/
theorem exists_condense_append (before : Outline) (span : Span) (second : Outline)
    (distance : Nat) :
    ∃ earlier final, final.chain = some .ground ∧ final.piece.kind = .plain ∧
      Segment.condense (Outline.piece before ⟨.plain, span⟩).segments = earlier ++ [final] ∧
      Segment.condense ((Outline.piece before ⟨.plain, span⟩).append
        (second.shift distance)).segments = earlier ++ Segment.push final
          ((Segment.condense second.segments).map (Segment.shift distance)) := by
  have segments : (Outline.piece before ⟨.plain, span⟩).segments =
      before.segments ++ [⟨⟨.plain, span⟩, some .ground⟩] :=
    Outline.segmentsOnto_piece before _ _ _
  have moved : (second.shift distance).segments = second.segments.map (Segment.shift distance) :=
    Outline.segmentsOnto_shift distance second .plain .ground
  obtain ⟨earlier, final, chain, kind, made⟩ :=
    Segment.exists_foldr_push before.segments ⟨⟨.plain, span⟩, some .ground⟩
  refine ⟨earlier, final, chain, kind, ?_, ?_⟩
  · rw [segments]
    exact made []
  · rw [Outline.segments_append, segments, Segment.condense_append, made, moved,
      Segment.condense_shift]

/-- Behind an outline that ends with plain text, all tokens of another one are
kept, but that it goes on with plain text. -/
theorem exists_append {tokens tokensBack tokensBoth : List Token}
    (made : tokens = ofOutline front first) (madeBack : tokensBack = ofOutline back second)
    (madeBoth : tokensBoth =
      ofOutline (front ++ back) (first.append (second.shift front.utf8ByteSize)))
    (covers : Covers front front.utf8ByteSize tokens)
    (coversBack : Covers back back.utf8ByteSize tokensBack)
    (ends : ∃ earlier span, first = .piece earlier ⟨.plain, span⟩) (grounded : second.Grounded) :
    ∃ earlier last, tokens = earlier ++ [last] ∧ last.kind = .plain ∧
      tokensBoth = earlier ++ last.putBefore (tokensBack.map (shift front.utf8ByteSize)) := by
  subst made madeBack madeBoth
  have cuts := slice?_of_mem_condense covers
  have cutsBack := slice?_of_mem_condense coversBack
  obtain ⟨before, span, rfl⟩ := ends
  obtain ⟨earlier, final, chain, kind, condensed, both⟩ :=
    exists_condense_append before span second front.utf8ByteSize
  rw [condensed] at cuts
  simp only [ofOutline, ofSegments_eq_map_condense, condensed, both, List.map_append,
    List.map_singleton] at covers coversBack ⊢
  have here : ∀ segment ∈ earlier, ofSegment (front ++ back) segment = ofSegment front segment :=
    fun segment member => ofSegment_append_left (cuts segment (List.mem_append_left _ member)) back
  have last := covers.last (ofSegment front final) (by simp)
  have starts : ∀ next ∈ (Segment.condense second.segments).head?,
      next.piece.span.start = 0 := by
    intro next isNext
    refine coversBack.first (ofSegment back next) ?_
    rw [List.head?_map, Option.mem_def.1 isNext]
    rfl
  refine ⟨_, _, rfl, kind, ?_⟩
  rw [List.map_congr_left here, map_ofSegment_push chain kind (cuts final (by simp)) last
    (chain_of_condense grounded) cutsBack starts]

end Token

/-! ## Highlighting both texts -/

namespace Highlighter

/-- No part of texts that are short together is too long, even with what is between them. -/
theorem short_of_seam {start back text : String}
    (small : start.utf8ByteSize + back.utf8ByteSize ≤ 2 ^ 30)
    (within : text.utf8ByteSize ≤ (start ++ ";\n" ++ back).utf8ByteSize) :
    Scan.Numbering.Short text := by
  have most : Scan.Numbering.nobody.toNat = 2 ^ 32 - 1 := rfl
  have seam : (";\n" : String).utf8ByteSize = 2 := rfl
  simp only [String.utf8ByteSize_append, seam] at within
  unfold Scan.Numbering.Short
  omega

/-- Whatever the options, a text that ends with `;` and a line feed and leaves
no mode open is highlighted as it is alone, and what follows as it is alone. -/
theorem highlight_append (options : Scan.Options) (start back : String)
    (small : start.utf8ByteSize + back.utf8ByteSize ≤ 2 ^ 30)
    (closed : Diagnostic.reported .unterminated
      ((default.withOptions options).highlight (start ++ ";\n")).diagnostics = false) :
    let front := start ++ ";\n"
    let first := (default.withOptions options).highlight front
    let second := (default.withOptions options).highlight back
    let whole := (default.withOptions options).highlight (front ++ back)
    (∃ earlier last, first.tokens.toList = earlier ++ [last] ∧ last.kind = .plain ∧
      whole.tokens.toList = earlier ++
        last.putBefore (second.tokens.toList.map (Token.shift front.utf8ByteSize))) ∧
      whole.scopes = first.scopes ++ second.scopes.map (Scope.shift front.utf8ByteSize) ∧
      whole.diagnostics =
        first.diagnostics ++ second.diagnostics.map (Diagnostic.shift front.utf8ByteSize) := by
  intro front first second whole
  have unreported : ∀ problem ∈ first.problems, problem.diagnostic.kind ≠ .unterminated := by
    simpa [Diagnostic.reported, Highlighted.diagnostics] using closed
  obtain ⟨ends, grounded, run⟩ := Scan.run_append Flint.grammar_lawful Flint.grammar_linewise
    (default.withOptions options).leastMaxDepth_le ⟨start, rfl⟩ unreported back
  have outline : whole.outline =
      first.outline.append (second.outline.shift front.utf8ByteSize) :=
    congrArg Scan.Findings.outline run
  have problems : whole.problems =
      first.problems ++ second.problems.map (Problem.shift front.utf8ByteSize) :=
    congrArg Scan.Findings.problems run
  refine ⟨?_, ?_, ?_⟩
  · have covers : ∀ text, Token.Covers text text.utf8ByteSize
        ((default.withOptions options).highlight text).tokens.toList := fun text =>
      (runs_withOptions options text).covers (tiles_withOptions options text).1
    have tokens : ∀ text, text.utf8ByteSize ≤ (front ++ back).utf8ByteSize →
        ((default.withOptions options).highlight text).tokens.toList =
          Token.ofOutline text ((default.withOptions options).highlight text).outline :=
      fun text within => (runs_withOptions options text).eq_ofOutline (short_of_seam small within)
    have inFront : front.utf8ByteSize ≤ (front ++ back).utf8ByteSize := by simp
    have behind : back.utf8ByteSize ≤ (front ++ back).utf8ByteSize := by simp
    have both := (tokens (front ++ back) (Nat.le_refl _)).trans (congrArg _ outline)
    exact Token.exists_append (tokens front inFront) (tokens back behind) both (covers front)
      (covers back) ends grounded
  · have scopes : whole.scopes = whole.outline.scopes := rfl
    rw [scopes, outline, Outline.scopes_append, Outline.scopes_shift]
    rfl
  · have moved : Problem.diagnostic ∘ Problem.shift front.utf8ByteSize =
        Diagnostic.shift front.utf8ByteSize ∘ Problem.diagnostic :=
      funext (Problem.diagnostic_shift _)
    simp only [Highlighted.diagnostics, problems, List.map_append, List.map_map, moved]

/-- A call and its semicolon are highlighted apart from markup in the next line,
where a blank goes on with the plain text of the first. -/
theorem highlight_append_call :
    let highlighter := default.withOptions ⟨8, true⟩
    let front := "f(1)" ++ ";\n"
    ("f(1)".utf8ByteSize + " </".utf8ByteSize ≤ 2 ^ 30 ∧
        Diagnostic.reported .unterminated (highlighter.highlight front).diagnostics = false) ∧
      (∃ earlier last, (highlighter.highlight front).tokens.toList = earlier ++ [last] ∧
      last.kind = .plain ∧
      (highlighter.highlight (front ++ " </")).tokens.toList = earlier ++ last.putBefore
        ((highlighter.highlight " </").tokens.toList.map (Token.shift front.utf8ByteSize))) ∧
      (highlighter.highlight (front ++ " </")).diagnostics = [.suspectMarkup ⟨7, 9⟩] := by
  have small : "f(1)".utf8ByteSize + " </".utf8ByteSize ≤ 2 ^ 30 := by decide
  have closed : Diagnostic.reported .unterminated
      ((default.withOptions ⟨8, true⟩).highlight ("f(1)" ++ ";\n")).diagnostics = false := by
    decide
  have apart := highlight_append ⟨8, true⟩ "f(1)" " </" small closed
  exact ⟨⟨small, closed⟩, apart.1, apart.2.2.trans (by decide)⟩

end Highlighter

end ModalHighlight
