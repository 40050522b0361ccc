import ModalHighlight.Proofs.Html.Merge
import ModalHighlight.Proofs.Outline.Forest
import ModalHighlight.Proofs.Token.Runs

/-! # The merge agrees with the outline

What an outline is written as and what its tokens and scopes merge into are two
readings of the same steps over the segments of the outline: a scope closes, a
scope opens, or a segment is written.  A token is cut where a scope opens or closes.
Where nothing does, two segments of one token are in one mode.  Since they are of one
kind and one of them at least is content, that kind is the mode's, so no stretch
around such a place has an element of its own, and it does not matter whether it is
cut there.
-/

namespace ModalHighlight.Html

open Text (Border)

variable {source : String} {opened waiting : List Scope} {segments : List Segment}
variable {tokens : List Token} {marks : List Mark} {start stop : Nat} {exact : Prop}

/-! ## Steps over segments -/

/-- Segments and scopes, and the marks that they are written as. -/
inductive Renders (source : String) : Frontier → List Segment → List Mark → Prop
  | done : Renders source ⟨[], []⟩ [] []
  | close {s : Scope} {opened waiting : List Scope} {segments : List Segment} {marks : List Mark}
      (ended : ∀ segment ∈ segments.head?, s.span.stop ≤ segment.piece.span.start)
      (later : Renders source ⟨opened, waiting⟩ segments marks) :
      Renders source ⟨s :: opened, waiting⟩ segments (.closeTag :: marks)
  | enter {s : Scope} {opened waiting : List Scope} {segment : Segment}
      {segments : List Segment} {marks : List Mark}
      (begun : s.span.start ≤ segment.piece.span.start)
      (lasts : segment.piece.span.start < s.span.stop)
      (around : ∀ o ∈ opened.head?, segment.piece.span.start < o.span.stop)
      (later : Renders source ⟨s :: opened, waiting⟩ (segment :: segments) marks) :
      Renders source ⟨opened, s :: waiting⟩ (segment :: segments) (.openTag s.kind :: marks)
  | segment {frontier : Frontier} {segment : Segment} {segments : List Segment}
      {marks : List Mark} {text : String} (quiet : frontier.QuietUntil segment.piece.span.stop)
      (content : segment.chain.isSome → frontier.isBare segment.piece.kind = true)
      (cut : segment.piece.span.slice? source = some text)
      (later : Renders source frontier segments marks) :
      Renders source frontier (segment :: segments)
        (marksOf (frontier.stretchParts segment.piece.kind text) ++ marks)

/-! ## Outlines -/

/-- The kind of the innermost open scope, or else the plain one. -/
def Frontier.around (frontier : Frontier) : Kind :=
  (frontier.opened.head?.map Scope.kind).getD .plain

theorem Frontier.isBare_eq (frontier : Frontier) (kind : Kind) :
    frontier.isBare kind = (kind.isPlain || kind == frontier.around) := by
  obtain ⟨opened, waiting⟩ := frontier
  cases opened with
  | nil => cases kind <;> rfl
  | cons s opened => simp [isBare, around, Bool.beq_comm]

theorem marksOf_pieceOnto {frontier : Frontier} {piece : Piece} {text : String}
    (cut : piece.span.slice? source = some text) (later : List Part) :
    marksOf (pieceOnto source frontier.around piece later) =
      marksOf (frontier.stretchParts piece.kind text) ++ marksOf later := by
  rw [← marksOf_append]
  simp only [pieceOnto, Frontier.stretchParts, Frontier.isBare_eq, cut, Option.getD_some]
  split <;> rfl

/-- An outline that begins with a piece has a first segment, where it starts. -/
theorem exists_segmentsOnto_of_leads {border : Nat → Prop} {outline : Outline}
    (tiles : outline.Tiles border start stop) (leads : outline.Leads) (kind : Kind)
    (chain : Chain) (later : List Segment) :
    ∃ first rest, outline.segmentsOnto kind chain later = first :: rest ∧
      first.piece.span.start = start := by
  induction tiles generalizing kind chain later with
  | nil => cases leads
  | piece before _ _ ih =>
    cases leads with
    | first => exact ⟨_, _, rfl, before.eq_of_nil.symm⟩
    | piece _ leadsBefore => exact ih leadsBefore kind chain _
  | scope _ _ _ ih _ =>
    cases leads with
    | scope _ _ leadsBefore => exact ih leadsBefore kind chain _

/-- The marks of an outline are written in steps over its segments. -/
theorem renders_partsOnto {outline : Outline} (tiles : outline.Tiles (Border source) start stop)
    (chain : Chain) (later : List Part)
    (starts : ∀ segment ∈ segments.head?, segment.piece.span.start = stop)
    (quiet : Frontier.QuietUntil stop ⟨opened, waiting⟩)
    (renders : Renders source ⟨opened, waiting⟩ segments (marksOf later)) :
    Renders source ⟨opened, outline.scopesOnto waiting⟩
      (outline.segmentsOnto (Frontier.around ⟨opened, waiting⟩) chain segments)
      (marksOf (partsOnto source (Frontier.around ⟨opened, waiting⟩) outline later)) := by
  induction tiles generalizing opened waiting segments chain later with
  | nil => exact renders
  | @piece start earlier p before nonempty here ih =>
    obtain ⟨text, cut⟩ := before.exists_slice nonempty here
    -- The outline in front of the piece, with the piece as what follows it.
    refine ih chain _ (fun segment first => ?_) ?_ ?_
    · rw [← Option.some.inj first]
    · exact ⟨fun s first => Nat.le_trans (Nat.le_of_lt nonempty) (quiet.1 s first),
        fun s first => Nat.le_trans (Nat.le_of_lt nonempty) (quiet.2 s first)⟩
    · rw [marksOf_pieceOnto cut]
      refine .segment quiet (fun content => ?_) cut renders
      rw [Frontier.isBare_eq]
      by_cases same : p.kind = Frontier.around ⟨opened, waiting⟩
      · simp [same]
      · simp [same] at content
  | @scope start earlier inside s before within leads ih ihWithin =>
    have proper : s.span.start < s.span.stop := within.lt_of_leads leads
    let inner := Outline.innerChain (Frontier.around ⟨opened, waiting⟩) chain s
    -- From the right: the scope closes behind what is inside it, opens in front
    -- of that, and what came earlier comes before both.
    have closed : Renders source ⟨s :: opened, waiting⟩ segments
        (marksOf (.closeTag :: later)) := by
      refine .close (fun segment first => ?_) renders
      rw [starts segment first]
    have quietInside : Frontier.QuietUntil s.span.stop ⟨s :: opened, waiting⟩ := by
      refine ⟨fun o first => ?_, quiet.2⟩
      rw [Option.some.inj first]
    have filled := ihWithin inner (.closeTag :: later) starts quietInside closed
    obtain ⟨first, rest, segmentsInside, startsInside⟩ :=
      exists_segmentsOnto_of_leads within leads s.kind inner segments
    rw [show Frontier.around ⟨s :: opened, waiting⟩ = s.kind from rfl, segmentsInside] at filled
    have entered : Renders source ⟨opened, s :: inside.scopesOnto waiting⟩ (first :: rest)
        (marksOf (.openTag s.kind :: partsOnto source s.kind inside (.closeTag :: later))) := by
      refine .enter (Nat.le_of_eq startsInside.symm) ?_ (fun o inFront => ?_) filled
      · rw [startsInside]
        exact proper
      · rw [startsInside]
        exact Nat.lt_of_lt_of_le proper (quiet.1 o inFront)
    rw [← segmentsInside] at entered
    refine ih chain _ (fun segment inFront => ?_) ⟨fun o inFront => ?_, fun o inFront => ?_⟩ entered
    · rw [segmentsInside] at inFront
      rw [← Option.some.inj inFront, startsInside]
    · exact Nat.le_trans (Nat.le_of_lt proper) (quiet.1 o inFront)
    · rw [Option.some.inj inFront]

theorem renders_parts {outline : Outline}
    (tiles : outline.Tiles (Border source) 0 source.utf8ByteSize) :
    Renders source ⟨[], outline.scopes⟩ outline.segments (marksOf (parts source outline)) := by
  have nothing : Frontier.QuietUntil source.utf8ByteSize ⟨[], []⟩ := by
    constructor <;> intro s first <;> cases first
  refine renders_partsOnto tiles .ground [] ?_ nothing .done
  intro segment first
  cases first

/-! ## Tokens -/

section Cutting

variable {kind : Kind} {middle : Nat} {andThen : Frontier → Option (List Part)}
variable {frontier : Frontier} {text : String}

/-- A segment in front of the rest of its token. -/
theorem writes_stretch? (proper : start < middle) (within : middle ≤ stop)
    (quiet : frontier.QuietUntil middle)
    (bare : middle < frontier.next stop → frontier.isBare kind = true)
    (cut : (⟨start, middle⟩ : Span).slice? source = some text)
    (later : Writes (stretch? source kind stop andThen middle frontier) marks) :
    Writes (stretch? source kind stop andThen start frontier)
      (marksOf (frontier.stretchParts kind text) ++ marks) := by
  have quietNext := frontier.quietUntil_next stop
  rcases Nat.lt_or_eq_of_le (Frontier.le_next quiet within) with goesOn | ends
  · -- The stretch goes on behind the segment, so it has no element of its own.
    have inside : middle < stop := Nat.lt_of_lt_of_le goesOn (frontier.next_le stop)
    obtain ⟨parts, written, rfl⟩ := later
    obtain ⟨settled, none⟩ := Frontier.settle_of_quiet quietNext goesOn
    cases cutRest : (⟨middle, frontier.next stop⟩ : Span).slice? source with
    | none =>
      rw [stretch?, if_pos inside, settled] at written
      simp only [if_pos goesOn, cutRest] at written
      cases written
    | some rest =>
      rw [stretch?_next quietNext goesOn cutRest, Option.map_eq_some_iff] at written
      obtain ⟨others, writtenLater, rfl⟩ := written
      rw [stretch?_next quietNext (Nat.lt_trans proper goesOn) (Text.slice?_append cut cutRest),
        writtenLater]
      refine ⟨_, rfl, ?_⟩
      simp [Frontier.stretchParts, bare goesOn, marksOf, Part.marks]
  · rw [ends] at cut later proper
    rw [stretch?_next quietNext proper cut]
    exact later.map_append _

end Cutting

theorem writes_mergeFrom?_tag {token : Token} {frontier other : Frontier} {tag : Part}
    (proper : token.span.start < token.span.stop)
    (due : frontier.settle token.span.start = other.settle token.span.start ∧
      frontier.settleParts token.span.start = tag :: other.settleParts token.span.start)
    (later : Writes (mergeFrom? source (token :: tokens) other) marks) :
    Writes (mergeFrom? source (token :: tokens) frontier) (tag.marks ++ marks) := by
  rw [mergeFrom?, stretch?_tag proper due]
  have whole : marksOf [tag] = tag.marks := List.flatMap_singleton Part.marks tag
  rw [← whole]
  exact later.map_append [tag]

/-- Where no scope opens or closes, the next step is a segment, and if this is content,
text of its kind needs no element of its own. -/
theorem Renders.isBare {frontier : Frontier} {segment : Segment} {middle : Nat}
    (renders : Renders source frontier (segment :: segments) marks)
    (quiet : frontier.QuietUntil middle) (before : segment.piece.span.start < middle)
    (isContent : segment.chain.isSome) : frontier.isBare segment.piece.kind = true := by
  cases renders with
  | close ended => exact absurd (ended segment rfl) (Nat.not_le.2 (before.trans_le (quiet.1 _ rfl)))
  | enter begun => exact absurd begun (Nat.not_le.2 (before.trans_le (quiet.2 _ rfl)))
  | segment _ content => exact content isContent

/-- The first token of segments begins with the first of them. -/
theorem exists_token_of_cons {first : Segment}
    (runs : Segment.Runs exact (first :: segments) (tokens.map Token.piece)) :
    ∃ token more, tokens = token :: more ∧ token.kind = first.piece.kind ∧
      token.span.start = first.piece.span.start := by
  obtain ⟨others, later, rest, rfl, made, _⟩ := runs.exists_of_cons
  obtain ⟨token, more, rfl, isFirst, _⟩ := List.map_eq_cons_iff.1 made
  exact ⟨token, more, rfl, congrArg Piece.kind isFirst, congrArg (·.span.start) isFirst⟩

/-- What is written in steps over segments is what their tokens merge into. -/
theorem writes_mergeFrom? {border : Nat → Prop} {frontier : Frontier}
    (renders : Renders source frontier segments marks)
    (runs : Segment.Runs exact segments (tokens.map Token.piece))
    (tiles : Span.Tiles border start stop (segments.map (·.piece.span))) :
    Writes (mergeFrom? source tokens frontier) marks := by
  -- A closing or an opening tag leaves the segments as they are, so the token that
  -- begins with them is the same; a segment is the first part of its token.
  induction renders generalizing tokens start with
  | done =>
    rw [List.map_eq_nil_iff.1 runs.eq_nil]
    exact ⟨[], rfl, rfl⟩
  | @close s opened waiting segments marks ended _ ih =>
    have later := ih runs tiles
    cases segments with
    | nil =>
      rw [List.map_eq_nil_iff.1 runs.eq_nil] at later ⊢
      exact later.map_append [.closeTag]
    | cons first rest =>
      have spans := runs.tiles tiles
      obtain ⟨token, more, rfl, _, starts⟩ := exists_token_of_cons runs
      exact writes_mergeFrom?_tag spans.2.2.1
        (Frontier.settle_ended (starts ▸ ended first rfl)) later
  | enter begun lasts around _ ih =>
    have later := ih runs tiles
    have spans := runs.tiles tiles
    obtain ⟨token, more, rfl, _, starts⟩ := exists_token_of_cons runs
    rw [← starts] at begun lasts around
    exact writes_mergeFrom?_tag spans.2.2.1 (Frontier.settle_begun begun lasts around) later
  | @segment frontier segment segments marks text quiet content cut rendersLater ih =>
    obtain ⟨others, behind, rest, rfl, made, meets, apart, runsBehind⟩ := runs.exists_of_cons
    obtain ⟨token, more, rfl, isFirst, rfl⟩ := List.map_eq_cons_iff.1 made
    have kind : token.kind = segment.piece.kind := congrArg Piece.kind isFirst
    have span : token.span = Segment.cover segment others := congrArg Piece.span isFirst
    have proper : segment.piece.span.start < segment.piece.span.stop := tiles.2.2.1
    rw [mergeFrom?, kind, span]
    cases others with
    | nil =>
      have later : Writes (stretch? source segment.piece.kind segment.piece.span.stop
          (mergeFrom? source more) segment.piece.span.stop frontier) marks := by
        rw [stretch?_done (Nat.le_refl _)]
        exact ih runsBehind tiles.2.2.2
      refine writes_stretch? proper (Nat.le_refl _) quiet (fun less => ?_) cut later
      exact absurd less (Nat.not_lt.2 (frontier.next_le _))
    | cons second others =>
      obtain ⟨meet, meetsLater⟩ := List.isChain_cons_cons.1 meets
      have adjacent : second.piece.span.start = segment.piece.span.stop := tiles.2.2.2.2.1
      -- The rest of the run is a token of its own to the hypothesis.
      let tail : Token := ⟨second.piece.kind, Segment.cover second others, ""⟩
      have runsLater : Segment.Runs exact ((second :: others) ++ behind)
          ((tail :: more).map Token.piece) := by
        refine .cons meetsLater (fun last isLast => apart last ?_) runsBehind
        rwa [List.getLast?_cons_cons]
      have later : Writes (stretch? source segment.piece.kind tail.span.stop
          (mergeFrom? source more) segment.piece.span.stop frontier) marks := by
        rw [← adjacent, meet.kind]
        exact ih runsLater tiles.2.2.2
      have within : segment.piece.span.stop ≤ tail.span.stop := by
        have spans := (runsLater.tiles tiles.2.2.2).2
        rw [← spans.1]
        exact Nat.le_of_lt spans.2.1
      refine writes_stretch? proper within quiet (fun goesOn => ?_) cut later
      rcases meet.content with isContent | isContent
      · exact content isContent
      · rw [meet.kind]
        exact rendersLater.isBare (frontier.quietUntil_next _) (adjacent ▸ goesOn) isContent

/-- The tokens and scopes of an outline that tiles a text merge, and they are
written as the outline is. -/
theorem writes_merge? {outline : Outline}
    (tiles : outline.Tiles (Border source) 0 source.utf8ByteSize)
    (runs : Token.Runs exact source outline.segments tokens) :
    Writes (merge? source tokens outline.scopes) (marksOf (parts source outline)) := by
  have spans := tiles.pieces
  rw [← Token.map_span_segments] at spans
  exact writes_mergeFrom? (renders_parts tiles) runs.pieces spans

end ModalHighlight.Html
