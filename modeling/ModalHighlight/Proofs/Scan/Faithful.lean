import Mathlib.Data.List.TakeWhile
import ModalHighlight.Proofs.Scan.Numbering
import ModalHighlight.Proofs.Scan.Segments

/-! # Numbers stand for chains

Open modes of one chain have one number, and if the last text is content of a chain,
its number is that of the chain.  So text that joins the last segment always joins the
last token.  For the converse, two numbers that happen to be the same have to be told
apart.  A number that is drawn for text that is no content is never that of the text
in front of it, if this is no content either, because it was drawn shortly before.
If the counter does not come round, numbers are exact: they are the same only for one
chain, and then text joins the last token only if it joins the last segment.
-/

namespace ModalHighlight.Scan

variable {grammar : Grammar} {options : Options} {text : String} {state : State}
variable {mode around : OpenMode} {outer : List OpenMode} {offset stop bound ago : Nat}
variable {exact : Prop}

namespace Numbering

variable {numbering : Numbering} {tokens : List Piece} {found : List Segment}

/-! ## The counter -/

/-- That many numbers can be drawn before the counter comes round. -/
def Spares (count : Nat) (numbering : Numbering) : Prop :=
  numbering.next.toNat + count < nobody.toNat

theorem Spares.fewer {count fewer : Nat} (spares : numbering.Spares count) (le : fewer ≤ count) :
    numbering.Spares fewer :=
  Nat.lt_of_le_of_lt (Nat.add_le_add_left le _) spares

theorem toNat_next_draw (below : numbering.next < nobody) :
    numbering.draw.next.toNat = (numbering.next.toNat + 1) % nobody.toNat := by
  have small : nobody.toNat < 2 ^ 32 := nobody.toNat_lt
  have less := UInt32.lt_iff_toNat_lt.1 below
  simp only [draw, UInt32.toNat_mod, UInt32.toNat_add, UInt32.toNat_one]
  rw [Nat.mod_eq_of_lt (by omega : numbering.next.toNat + 1 < 2 ^ 32)]

theorem next_draw_lt (numbering : Numbering) : numbering.draw.next < nobody := by
  rw [UInt32.lt_iff_toNat_lt]
  simp only [draw, UInt32.toNat_mod]
  exact Nat.mod_lt _ (by decide)

theorem next_draw_le (numbering : Numbering) :
    numbering.draw.next.toNat ≤ numbering.next.toNat + 1 := by
  simp only [draw, UInt32.toNat_mod, UInt32.toNat_add]
  refine Nat.le_trans (Nat.mod_le _ _) (Nat.mod_le _ _)

theorem Spares.lt_draw (spares : numbering.Spares 1) : numbering.next < numbering.draw.next := by
  have below : numbering.next < nobody :=
    UInt32.lt_iff_toNat_lt.2 (Nat.lt_of_succ_lt spares)
  rw [UInt32.lt_iff_toNat_lt, toNat_next_draw below, Nat.mod_eq_of_lt spares]
  exact Nat.lt_succ_self _

theorem ne_nobody_of_lt {owner next : UInt32} (drawn : owner < next) : owner ≠ nobody := by
  rintro rfl
  exact Nat.not_lt.2 (Nat.le_of_lt_succ next.toNat_lt) (UInt32.lt_iff_toNat_lt.1 drawn)

@[simp] theorem next_add (numbering : Numbering) (owner : UInt32) (kind : Kind) (span : Span) :
    (numbering.add owner kind span).next = numbering.next := by
  unfold add
  split <;> rfl

theorem next_emit_le (numbering : Numbering) (own kind : Kind) (span : Span) :
    (numbering.emit own kind span).next.toNat ≤ numbering.next.toNat + 1 := by
  unfold emit
  split
  next => simp
  next =>
    rw [addFresh, next_add]
    exact next_draw_le numbering

theorem Spares.emit {count : Nat} (spares : numbering.Spares (count + 1)) (own kind : Kind)
    (span : Span) : (numbering.emit own kind span).Spares count := by
  have le := next_emit_le numbering own kind span
  unfold Spares at spares ⊢
  omega

theorem Spares.enter {count : Nat} (spares : numbering.Spares (count + 1)) (own kind : Kind) :
    (numbering.enter own kind).Spares count := by
  have le := next_draw_le numbering
  unfold Spares at spares ⊢
  unfold Numbering.enter
  dsimp only
  split <;> omega

/-- The number of the last text is none that is drawn, or was drawn at most so many
numbers ago. -/
def Lately (ago : Nat) (numbering : Numbering) : Prop :=
  numbering.last = nobody ∨
    ∃ since, 0 < since ∧ since ≤ ago ∧
      numbering.next.toNat = (numbering.last.toNat + since) % nobody.toNat

theorem Lately.mono {further : Nat} (lately : numbering.Lately ago) (le : ago ≤ further) :
    numbering.Lately further :=
  lately.imp_right fun ⟨since, pos, upTo, drawn⟩ => ⟨since, pos, Nat.le_trans upTo le, drawn⟩

theorem Lately.draw (lately : numbering.Lately ago) (below : numbering.next < nobody) :
    numbering.draw.Lately (ago + 1) := by
  refine lately.imp_right fun ⟨since, _, upTo, drawn⟩ =>
    ⟨since + 1, Nat.succ_pos _, Nat.succ_le_succ upTo, ?_⟩
  rw [toNat_next_draw below, drawn, Nat.mod_add_mod]
  rfl

/-- What was drawn lately is not drawn again. -/
theorem Lately.next_ne_last (lately : numbering.Lately ago) (below : numbering.next < nobody)
    (few : ago < nobody.toNat) : numbering.next ≠ numbering.last := by
  intro same
  have less := UInt32.lt_iff_toNat_lt.1 below
  rcases lately with isNobody | ⟨since, pos, upTo, drawn⟩
  · rw [same, isNobody] at less
    exact Nat.lt_irrefl _ less
  · rw [same] at drawn less
    have most : nobody.toNat = 4294967295 := rfl
    rw [most] at drawn less few
    omega

/-! ## Tokens -/

/-- Tokens are runs of segments, and reach up to an offset if there are any. -/
structure Covers (exact : Prop) (tokens : List Piece) (found : List Segment) (offset : Nat) :
    Prop where
  runs : Segment.Runs exact found tokens.reverse
  reach : ∀ token ∈ tokens.head?, token.span.stop = offset

theorem Covers.condensed (covers : Covers exact tokens found offset) (isExact : exact) :
    tokens.reverse = (Segment.condense found).map Segment.piece :=
  covers.runs.eq_condense isExact

/-- A segment behind others may be added by its number, if this is that of the last text
whenever the two segments join, and only if they meet. -/
theorem Covers.append (covers : Covers exact tokens found offset) {may : Bool} (segment : Segment)
    (start : segment.piece.span.start = offset)
    (joins : ∀ last ∈ found.getLast?, last.joins segment = true → may = true)
    (meets : may = true → ∀ last ∈ found.getLast?, last.piece.kind = segment.piece.kind →
      last.Meets exact segment) :
    Covers exact (append may segment.piece tokens) (found ++ [segment])
      segment.piece.span.stop := by
  cases isLast : found.getLast? with
  | none =>
    obtain rfl := List.getLast?_eq_none_iff.1 isLast
    obtain rfl : tokens = [] := List.reverse_eq_nil_iff.1 covers.runs.eq_nil
    exact ⟨covers.runs.concat (fun _ isOne => nomatch isOne),
      fun token isIt => Option.some.inj isIt ▸ rfl⟩
  | some last =>
    obtain ⟨front, final, made, kind, grow⟩ := covers.runs.exists_last isLast
    obtain rfl : tokens = final :: front.reverse := by
      rw [List.reverse_eq_iff.1 made, List.reverse_append]
      rfl
    have reach : final.span.stop = offset := covers.reach final rfl
    rw [Numbering.append]
    split
    next both =>
      obtain ⟨shared, same, _⟩ := both
      have meet := meets shared last isLast (kind.symm.trans same)
      refine ⟨?_, fun token isIt => Option.some.inj isIt ▸ rfl⟩
      rw [List.reverse_cons, List.reverse_reverse]
      exact grow segment meet
    next neither =>
      refine ⟨?_, fun token isIt => Option.some.inj isIt ▸ rfl⟩
      rw [List.reverse_cons]
      refine covers.runs.concat fun other isOther => Bool.eq_false_iff.2 fun joined => neither ?_
      rw [isLast] at isOther
      obtain rfl := Option.some.inj isOther
      exact ⟨joins last isLast joined, kind.trans (Segment.joins_iff.1 joined).2.2,
        reach.trans start.symm⟩

/-- The token that reaches across an offset is cut there, and becomes the last one. -/
theorem rewind_reverse {front back : List Piece} {token cut : Piece}
    (before : token.span.start < offset) (behind : ∀ p ∈ back, offset ≤ p.span.start)
    (kind : token.kind = cut.kind) (start : token.span.start = cut.span.start)
    (ends : min token.span.stop offset = cut.span.stop) :
    rewind offset (front ++ token :: back).reverse = cut :: front.reverse := by
  have taken : ∀ p ∈ back.reverse, decide (offset ≤ p.span.start) = true := fun p member =>
    decide_eq_true (behind p (List.mem_reverse.1 member))
  rw [rewind, List.reverse_append, List.reverse_cons, List.append_assoc,
    List.dropWhile_append_of_pos taken, List.cons_append, List.nil_append,
    List.dropWhile_cons_of_neg (by simpa using before)]
  simp only [kind, start, ends]

/-- Taking back what is behind an offset leaves the tokens of the segments in front
of it, though the last of them may have reached across. -/
theorem Covers.rewind {border : Nat → Prop} {front back : List Segment}
    (covers : Covers exact tokens (front ++ back) stop)
    (tilesFront : Span.Tiles border 0 offset (front.map (·.piece.span)))
    (tilesBack : Span.Tiles border offset stop (back.map (·.piece.span))) :
    Covers exact (rewind offset tokens) front offset := by
  have runs := covers.runs
  cases front with
  | nil =>
    have none : (tokens.dropWhile (offset ≤ ·.span.start)) = [] := by
      refine List.dropWhile_eq_nil_iff.2 fun p member => decide_eq_true ?_
      have spans := runs.tiles tilesBack
      exact (spans.of_mem (List.mem_map_of_mem (List.mem_reverse.2 member))).1
    rw [Numbering.rewind, none]
    exact ⟨.nil, fun _ isIt => nomatch isIt⟩
  | cons first front =>
    obtain ⟨kept, final, others, made, cut, before, ends, behind⟩ :=
      runs.exists_cut (List.cons_ne_nil first front) tilesFront tilesBack
    have left : Numbering.rewind offset tokens =
        ⟨final.kind, ⟨final.span.start, offset⟩⟩ :: kept.reverse := by
      rw [List.reverse_eq_iff.1 made]
      exact rewind_reverse before behind rfl rfl (Nat.min_eq_right ends)
    rw [left]
    refine ⟨?_, fun token isIt => Option.some.inj isIt ▸ rfl⟩
    rw [List.reverse_cons, List.reverse_reverse]
    exact cut

/-! ## Numbers of open modes -/

/-- A chain is that of the ground mode, or opens in front of an offset. -/
def OpensBefore (bound : Nat) : Chain → Prop
  | .ground => True
  | .openedAt start => start < bound

theorem OpensBefore.mono {chain : Chain} {later : Nat} (opens : OpensBefore bound chain)
    (behind : bound ≤ later) : OpensBefore later chain := by
  cases chain with
  | ground => trivial
  | openedAt start => exact Nat.lt_of_lt_of_le opens behind

/-- Numbers stand for chains that open in front of an offset.  If they are exact, no two
chains have the same, and all have been drawn before `next`. -/
structure Faithful (exact : Prop) (pairs : List (UInt32 × Chain)) (next : UInt32) (bound : Nat) :
    Prop where
  same : ∀ first ∈ pairs, ∀ second ∈ pairs, first.2 = second.2 → first.1 = second.1
  apart : exact → ∀ first ∈ pairs, ∀ second ∈ pairs, first.1 = second.1 → first.2 = second.2
  drawn : exact → ∀ pair ∈ pairs, pair.1 < next
  opened : ∀ pair ∈ pairs, OpensBefore bound pair.2

namespace Faithful

variable {pairs fewer : List (UInt32 × Chain)} {next later : UInt32}

theorem mono (faithful : Faithful exact pairs next bound) (subset : fewer ⊆ pairs) {further : Nat}
    (count : exact → next ≤ later) (behind : bound ≤ further) :
    Faithful exact fewer later further where
  same first inFirst second inSecond :=
    faithful.same first (subset inFirst) second (subset inSecond)
  apart isExact first inFirst second inSecond :=
    faithful.apart isExact first (subset inFirst) second (subset inSecond)
  drawn isExact pair member :=
    UInt32.lt_of_lt_of_le (faithful.drawn isExact pair (subset member)) (count isExact)
  opened pair member := (faithful.opened pair (subset member)).mono behind

/-- The next number may stand for a chain that opens behind all others. -/
theorem cons (faithful : Faithful exact pairs next bound) (count : exact → next < later)
    (behind : bound ≤ offset) :
    Faithful exact ((next, .openedAt offset) :: pairs) later (offset + 1) := by
  have new : ∀ pair ∈ pairs, pair.2 ≠ .openedAt offset := by
    intro pair member same
    have opened := faithful.opened pair member
    rw [same] at opened
    exact Nat.lt_irrefl _ (Nat.lt_of_lt_of_le opened behind)
  have fresh : exact → ∀ pair ∈ pairs, pair.1 ≠ next := fun isExact pair member same =>
    UInt32.lt_irrefl next (same ▸ faithful.drawn isExact pair member)
  constructor
  · intro first inFirst second inSecond same
    rcases List.mem_cons.1 inFirst with rfl | inFirst <;>
      rcases List.mem_cons.1 inSecond with rfl | inSecond
    · rfl
    · exact absurd same.symm (new second inSecond)
    · exact absurd same (new first inFirst)
    · exact faithful.same first inFirst second inSecond same
  · intro isExact first inFirst second inSecond same
    rcases List.mem_cons.1 inFirst with rfl | inFirst <;>
      rcases List.mem_cons.1 inSecond with rfl | inSecond
    · rfl
    · exact absurd same.symm (fresh isExact second inSecond)
    · exact absurd same (fresh isExact first inFirst)
    · exact faithful.apart isExact first inFirst second inSecond same
  · intro isExact pair member
    rcases List.mem_cons.1 member with rfl | member
    · exact count isExact
    · exact UInt32.lt_trans (faithful.drawn isExact pair member) (count isExact)
  · intro pair member
    rcases List.mem_cons.1 member with rfl | member
    · exact Nat.lt_succ_self offset
    · exact (faithful.opened pair member).mono (Nat.le_succ_of_le behind)

end Faithful

/-- The numbers of open modes, with their chains. -/
def pairs (numbering : Numbering) (mode : OpenMode) (outer : List OpenMode) :
    List (UInt32 × Chain) :=
  (numbering.active :: numbering.outer).zip (chains mode outer)

/-- A numbering has tokens for what was found in open modes, and numbers for them. -/
structure Numbers (exact : Prop) (numbering : Numbering) (mode : OpenMode) (outer : List OpenMode)
    (offset bound : Nat) : Prop where
  covers : Covers exact numbering.tokens (segments mode outer) offset
  depth : numbering.outer.length = outer.length
  faithful : Faithful exact (numbering.pairs mode outer) numbering.next bound
  below : numbering.next < nobody

/-- The number of the last text, too, tells what chain it is content of.  If it is no
content, its number was drawn lately. -/
structure Agrees (exact : Prop) (numbering : Numbering) (mode : OpenMode) (outer : List OpenMode)
    (offset bound ago : Nat) : Prop extends Numbers exact numbering mode outer offset bound where
  latest : ∀ pair ∈ numbering.pairs mode outer,
    lastChain? mode outer = some pair.2 → pair.1 = numbering.last
  latestOnly : exact → ∀ pair ∈ numbering.pairs mode outer,
    pair.1 = numbering.last → lastChain? mode outer = some pair.2
  drawn : exact → numbering.last < numbering.next ∨ numbering.last = nobody
  lately : lastChain? mode outer = none → numbering.Lately ago
  opened : ∀ chain ∈ lastChain? mode outer, OpensBefore bound chain

theorem pairs_congr {later : OpenMode} (rule : later.rule = mode.rule)
    (start : later.start = mode.start) (numbering : Numbering) (outer : List OpenMode) :
    numbering.pairs later outer = numbering.pairs mode outer := by
  rw [pairs, pairs, chains_congr rule start]

theorem active_mem_pairs (numbering : Numbering) (mode : OpenMode) (outer : List OpenMode) :
    (numbering.active, chainOf mode outer) ∈ numbering.pairs mode outer := by
  cases outer <;> exact List.mem_cons_self

theorem lastChain?_eq {last : Segment} (isLast : last ∈ (segments mode outer).getLast?) :
    lastChain? mode outer = last.chain := by
  rw [lastChain?, Option.mem_def.1 isLast]
  rfl

theorem add_of_lt {start : Nat} (proper : start < stop) (owner : UInt32) (kind : Kind)
    (numbering : Numbering) :
    numbering.add owner kind ⟨start, stop⟩ = { numbering with
      tokens := append (owner = numbering.last) ⟨kind, ⟨start, stop⟩⟩ numbering.tokens
      last := owner } := by
  simp only [Numbering.add, Span.isEmpty, decide_eq_true_eq]
  exact if_neg (Nat.not_le.2 proper)

/-! ## What keeps a numbering in agreement -/

theorem Agrees.mono (agrees : Agrees exact numbering mode outer offset bound ago)
    {further later : Nat} (behind : bound ≤ further) (le : ago ≤ later) :
    Agrees exact numbering mode outer offset further later where
  covers := agrees.covers
  depth := agrees.depth
  faithful := agrees.faithful.mono (List.Subset.refl _) (fun _ => UInt32.le_refl _) behind
  below := agrees.below
  latest := agrees.latest
  latestOnly := agrees.latestOnly
  drawn := agrees.drawn
  lately none := (agrees.lately none).mono le
  opened chain isLast := (agrees.opened chain isLast).mono behind

/-- A number may be drawn without being used. -/
theorem Numbers.draw (numbers : Numbers exact numbering mode outer offset bound)
    (spares : exact → numbering.Spares 1) :
    Numbers exact numbering.draw mode outer offset bound where
  covers := numbers.covers
  depth := numbers.depth
  faithful := numbers.faithful.mono (List.Subset.refl _)
    (fun isExact => UInt32.le_of_lt (spares isExact).lt_draw) (Nat.le_refl _)
  below := next_draw_lt numbering

theorem Agrees.draw (agrees : Agrees exact numbering mode outer offset bound ago)
    (spares : exact → numbering.Spares 1) :
    Agrees exact numbering.draw mode outer offset bound (ago + 1) where
  toNumbers := agrees.toNumbers.draw spares
  latest := agrees.latest
  latestOnly := agrees.latestOnly
  drawn isExact := (agrees.drawn isExact).imp_left fun before =>
    UInt32.lt_trans before (spares isExact).lt_draw
  lately none := (agrees.lately none).draw agrees.below
  opened := agrees.opened

/-- The next number is that of the last text only by accident, and if this is content. -/
theorem Agrees.of_next_eq_last (agrees : Agrees exact numbering mode outer offset bound ago)
    (few : ago < nobody.toNat) (same : numbering.next = numbering.last) :
    (lastChain? mode outer).isSome ∧ ¬exact := by
  refine ⟨Option.isSome_iff_ne_none.2 fun none => ?_, fun isExact => ?_⟩
  · exact (agrees.lately none).next_ne_last agrees.below few same
  · rcases agrees.drawn isExact with before | isNobody
    · exact UInt32.lt_irrefl _ (same ▸ before)
    · exact ne_nobody_of_lt agrees.below (same.trans isNobody)

/-- Content that is added with the number of its mode joins the last token exactly as
far as it should. -/
theorem Agrees.addOwn (agrees : Agrees exact numbering mode outer offset bound ago)
    (proper : offset < stop) (later : Nat) :
    Agrees exact (numbering.add numbering.active mode.rule.kind ⟨offset, stop⟩)
      (mode.add mode.rule.kind ⟨offset, stop⟩) outer stop bound later := by
  have active := active_mem_pairs numbering mode outer
  have own := lastChain?_add mode outer mode.rule.kind proper
  rw [if_pos rfl] at own
  have same := pairs_congr (mode.rule_add mode.rule.kind ⟨offset, stop⟩)
    (mode.start_add mode.rule.kind ⟨offset, stop⟩)
  rw [add_of_lt proper]
  refine ⟨⟨?_, agrees.depth, same numbering outer ▸ agrees.faithful, agrees.below⟩, ?_, ?_, ?_, ?_,
    ?_⟩
  · rw [segments_add mode outer _ proper, if_pos rfl]
    refine agrees.covers.append ⟨⟨_, ⟨offset, stop⟩⟩, _⟩ rfl (fun last isLast joined => ?_)
      fun may last isLast kind => ⟨kind, .inr rfl, fun isExact => ?_⟩
    · obtain ⟨_, chain, _⟩ := Segment.joins_iff.1 joined
      exact decide_eq_true (agrees.latest _ active ((lastChain?_eq isLast).trans chain))
    · rw [← lastChain?_eq isLast]
      exact agrees.latestOnly isExact _ active (of_decide_eq_true may)
  · intro pair member isLast
    rw [own] at isLast
    exact agrees.faithful.same pair (same numbering outer ▸ member) _ active
      (Option.some.inj isLast).symm
  · intro isExact pair member isLast
    rw [own]
    exact congrArg some
      (agrees.faithful.apart isExact pair (same numbering outer ▸ member) _ active isLast).symm
  · exact fun isExact => .inl (agrees.faithful.drawn isExact _ active)
  · intro none
    rw [own] at none
    cases none
  · intro chain isLast
    rw [own] at isLast
    exact Option.some.inj isLast ▸ agrees.faithful.opened _ active

/-- Text with a number to itself joins nothing but content, and that only by accident. -/
theorem Numbers.addFresh (numbers : Numbers exact numbering mode outer offset bound) {kind : Kind}
    (other : kind ≠ mode.rule.kind) (proper : offset < stop)
    (spares : exact → numbering.Spares 1)
    (accident : numbering.next = numbering.last → (lastChain? mode outer).isSome ∧ ¬exact) :
    Agrees exact (numbering.addFresh kind ⟨offset, stop⟩) (mode.add kind ⟨offset, stop⟩) outer stop
      bound 1 := by
  have none := lastChain?_add mode outer kind proper
  rw [if_neg other] at none
  have drawn := numbers.draw spares
  have same := pairs_congr (mode.rule_add kind ⟨offset, stop⟩) (mode.start_add kind ⟨offset, stop⟩)
  rw [Numbering.addFresh, add_of_lt proper]
  refine ⟨⟨?_, drawn.depth, same numbering.draw outer ▸ drawn.faithful, drawn.below⟩, ?_, ?_, ?_,
    ?_, ?_⟩
  · rw [segments_add mode outer kind proper, if_neg other]
    refine numbers.covers.append ⟨⟨_, ⟨offset, stop⟩⟩, _⟩ rfl (fun last isLast joined => ?_)
      fun may last isLast kind => ?_
    · obtain ⟨content, chain, _⟩ := Segment.joins_iff.1 joined
      rw [chain] at content
      cases content
    · obtain ⟨content, apart⟩ := accident (of_decide_eq_true may)
      rw [lastChain?_eq isLast] at content
      exact ⟨kind, .inl content, fun isExact => absurd isExact apart⟩
  · intro pair member isLast
    rw [none] at isLast
    cases isLast
  · intro isExact pair member isLast
    have before := numbers.faithful.drawn isExact pair (same numbering outer ▸ member)
    exact absurd (isLast ▸ before) (UInt32.lt_irrefl _)
  · exact fun isExact => .inl (spares isExact).lt_draw
  · exact fun _ => .inr ⟨1, Nat.one_pos, Nat.le_refl 1, toNat_next_draw numbers.below⟩
  · intro chain isLast
    rw [none] at isLast
    cases isLast

theorem Agrees.emit (agrees : Agrees exact numbering mode outer offset bound ago) (kind : Kind)
    (ordered : offset ≤ stop) (few : ago < nobody.toNat) (spares : exact → numbering.Spares 1)
    (later : Nat) (pos : 0 < later) (empty : offset = stop → ago < later) :
    Agrees exact (numbering.emit mode.rule.kind kind ⟨offset, stop⟩)
      (mode.add kind ⟨offset, stop⟩) outer stop bound later := by
  rcases Nat.lt_or_eq_of_le ordered with proper | rfl
  · unfold Numbering.emit
    split
    next own =>
      rw [own]
      exact agrees.addOwn proper later
    next other =>
      have added := agrees.addFresh other proper spares (agrees.of_next_eq_last few)
      exact added.mono (Nat.le_refl _) pos
  · -- For text that is empty, a number is drawn but nothing is added.
    rw [mode.add_empty]
    unfold Numbering.emit Numbering.addFresh Numbering.add
    simp only [Span.isEmpty, Nat.le_refl, decide_true, if_true]
    split
    next => exact agrees.mono (Nat.le_refl _) (Nat.le_of_lt (empty rfl))
    next => exact (agrees.draw spares).mono (Nat.le_refl _) (empty rfl)

/-- A match leaves text behind, so of the numbers that are drawn for it at most one is
not used. -/
theorem Agrees.emitMatch (agrees : Agrees exact numbering mode outer offset bound ago)
    (text : String) (rule : Rule) {hit : Hit} (ordered : hit.headStop ≤ hit.stop)
    (pos : 0 < hit.stop) (few : ago + 1 < nobody.toNat) (spares : exact → numbering.Spares 2) :
    Agrees exact
      (numbering.emitMatch mode.rule.kind rule hit (Cursor.ofOffset (Text.bytes text) offset))
      (mode.addMatch rule hit text offset) outer (offset + hit.stop) bound 2 := by
  let kind := Action.headKind rule (((Text.bytes text).drop offset).take hit.headStop)
  obtain ⟨between, head, late, many⟩ : ∃ between, Agrees exact
      (numbering.emit mode.rule.kind kind ⟨offset, offset + hit.headStop⟩)
      (mode.add kind ⟨offset, offset + hit.headStop⟩) outer (offset + hit.headStop) bound between ∧
        (hit.headStop = hit.stop → between < 2) ∧ between < nobody.toNat := by
    have one : exact → numbering.Spares 1 := fun isExact => (spares isExact).fewer (by decide)
    by_cases none : hit.headStop = 0
    · exact ⟨ago + 1, agrees.emit kind (Nat.le_add_right _ _) (by omega) one _
        (Nat.succ_pos _) (fun _ => Nat.lt_succ_self _), by omega, few⟩
    · exact ⟨1, agrees.emit kind (Nat.le_add_right _ _) (by omega) one _ Nat.one_pos
        (by omega), fun _ => by decide, by decide⟩
  have rest := head.emit rule.kind (Nat.add_le_add_left ordered offset) many
    (fun isExact => (spares isExact).emit _ _ _) 2 Nat.two_pos (by omega)
  rw [OpenMode.rule_add] at rest
  exact rest

/-- A mode may open with any number that stands for its chain. -/
theorem Agrees.open (agrees : Agrees exact numbering mode outer offset bound ago)
    (inner : OpenMode) (empty : inner.inside = .nil) {active next : UInt32} {further later : Nat}
    (faithful : Faithful exact
      ((active, chainOf inner (mode :: outer)) :: numbering.pairs mode outer) next further)
    (latest : lastChain? mode outer = some (chainOf inner (mode :: outer)) →
      active = numbering.last)
    (latestOnly : exact → active = numbering.last →
      lastChain? mode outer = some (chainOf inner (mode :: outer)))
    (count : exact → numbering.next ≤ next) (below : next < nobody)
    (lately : numbering.Lately ago → Lately later { numbering with next })
    (behind : bound ≤ further) :
    Agrees exact
      ⟨numbering.tokens, active, numbering.active :: numbering.outer, numbering.last, next⟩
      inner (mode :: outer) offset further later := by
  have found : segments inner (mode :: outer) = segments mode outer := by
    rw [segments, ownSegments, empty]
    exact List.append_nil _
  have last : lastChain? inner (mode :: outer) = lastChain? mode outer := by
    rw [lastChain?, found]
    rfl
  refine ⟨⟨found ▸ agrees.covers, congrArg (· + 1) agrees.depth, faithful, below⟩, ?_, ?_, ?_, ?_,
    ?_⟩
  · intro pair member
    rw [last]
    rcases List.mem_cons.1 member with rfl | inOuter
    · exact latest
    · exact agrees.latest pair inOuter
  · intro isExact pair member
    rw [last]
    rcases List.mem_cons.1 member with rfl | inOuter
    · exact latestOnly isExact
    · exact agrees.latestOnly isExact pair inOuter
  · exact fun isExact => (agrees.drawn isExact).imp_left fun before =>
      UInt32.lt_of_lt_of_le before (count isExact)
  · intro none
    rw [last] at none
    exact lately (agrees.lately none)
  · intro chain isLast
    rw [last] at isLast
    exact (agrees.opened chain isLast).mono behind

/-- A mode that opens takes over the number of a mode of its kind, or gets a new one
for its new chain. -/
theorem Agrees.enter (agrees : Agrees exact numbering mode outer offset bound ago) (rule : Rule)
    (hashes : Nat) (behind : bound ≤ offset) (few : ago < nobody.toNat)
    (spares : exact → numbering.Spares 1) :
    Agrees exact (numbering.enter mode.rule.kind rule.kind) ⟨rule, offset, hashes, .nil⟩
      (mode :: outer) offset (offset + 1) (ago + 1) := by
  by_cases same : rule.kind = mode.rule.kind
  · have chain : chainOf ⟨rule, offset, hashes, .nil⟩ (mode :: outer) = chainOf mode outer :=
      if_pos same
    have active := active_mem_pairs numbering mode outer
    have entered := agrees.open ⟨rule, offset, hashes, .nil⟩ rfl
      (chain.symm ▸ agrees.faithful.mono (List.cons_subset.2 ⟨active, List.Subset.refl _⟩)
        (fun _ => UInt32.le_refl _) (Nat.le_succ_of_le behind))
      (chain.symm ▸ agrees.latest _ active)
      (fun isExact => chain.symm ▸ agrees.latestOnly isExact _ active)
      (fun _ => UInt32.le_refl _) agrees.below (fun lately => lately.mono (Nat.le_succ ago))
      (Nat.le_succ_of_le behind)
    simp only [Numbering.enter, if_pos same]
    exact entered
  · have chain : chainOf ⟨rule, offset, hashes, .nil⟩ (mode :: outer) = .openedAt offset :=
      if_neg same
    have apart : lastChain? mode outer ≠ some (.openedAt offset) := fun isLast =>
      Nat.lt_irrefl offset (Nat.lt_of_lt_of_le (agrees.opened _ isLast) behind)
    have entered := agrees.open ⟨rule, offset, hashes, .nil⟩ rfl
      (chain.symm ▸ agrees.faithful.cons (fun isExact => (spares isExact).lt_draw) behind)
      (chain.symm ▸ fun isLast => absurd isLast apart)
      (fun isExact same => absurd isExact (agrees.of_next_eq_last few same).2)
      (fun isExact => UInt32.le_of_lt (spares isExact).lt_draw) (next_draw_lt numbering)
      (fun lately => lately.draw agrees.below) (Nat.le_succ_of_le behind)
    simp only [Numbering.enter, if_neg same]
    exact entered

/-- The numbers of the modes around the active one. -/
theorem Numbers.exists_outer
    (numbers : Numbers exact numbering mode (around :: outer) offset bound) :
    ∃ active others, numbering.outer = active :: others ∧ others.length = outer.length ∧
      numbering.pairs mode (around :: outer) =
        (numbering.active, chainOf mode (around :: outer)) ::
          (active :: others).zip (chains around outer) := by
  have depth := numbers.depth
  cases modes : numbering.outer with
  | nil =>
    rw [modes] at depth
    cases depth
  | cons active others =>
    rw [modes] at depth
    refine ⟨active, others, rfl, Nat.succ.inj depth, ?_⟩
    rw [pairs, modes]
    rfl

theorem Agrees.leave (agrees : Agrees exact numbering mode (around :: outer) offset bound ago) :
    Agrees exact numbering.leave (around.enclose mode offset) outer offset bound ago := by
  obtain ⟨active, others, modes, depth, pairs⟩ := agrees.exists_outer
  have left : numbering.leave = { numbering with active, outer := others } := by
    rw [Numbering.leave, modes]
  have same : Numbering.pairs { numbering with active, outer := others }
      (around.enclose mode offset) outer = (active :: others).zip (chains around outer) :=
    congrArg _ (@chains_congr around (around.enclose mode offset) rfl rfl outer)
  have last : lastChain? (around.enclose mode offset) outer = lastChain? mode (around :: outer) := by
    rw [lastChain?, segments_enclose]
    rfl
  have subset := pairs ▸ List.subset_cons_self (numbering.active, chainOf mode (around :: outer))
    ((active :: others).zip (chains around outer))
  rw [left]
  refine ⟨⟨?_, depth, ?_, agrees.below⟩, ?_, ?_, agrees.drawn, last ▸ agrees.lately,
    last ▸ agrees.opened⟩
  · rw [segments_enclose]
    exact agrees.covers
  · rw [same]
    exact agrees.faithful.mono subset (fun _ => UInt32.le_refl _) (Nat.le_refl _)
  · rw [same, last]
    exact fun pair member => agrees.latest pair (subset member)
  · rw [same, last]
    exact fun isExact pair member => agrees.latestOnly isExact pair (subset member)

/-- A mode that is given up leaves the tokens of the modes around it, and an error. -/
theorem Agrees.abandon {border : Nat → Prop} {limit : Nat}
    (agrees : Agrees exact numbering mode (around :: outer) offset bound ago)
    (layered : Layered grammar border limit mode (around :: outer) offset)
    (other : Kind.error ≠ around.rule.kind) (spares : exact → numbering.Spares 1) :
    Agrees exact (numbering.abandon ⟨mode.start, offset⟩)
      (around.add .error ⟨mode.start, offset⟩) outer offset bound 1 := by
  obtain ⟨active, others, modes, depth, pairs⟩ := agrees.exists_outer
  have subset := pairs ▸ List.subset_cons_self (numbering.active, chainOf mode (around :: outer))
    ((active :: others).zip (chains around outer))
  cases layered with
  | nested _ tiles leads _ below =>
    have proper := tiles.lt_of_leads leads
    have numbers : Numbers exact { numbering with
        tokens := rewind mode.start numbering.tokens, active, outer := others, last := nobody }
        around outer mode.start bound :=
      ⟨agrees.covers.rewind below.tiles_segments (tiles.segments _ _), depth,
        agrees.faithful.mono subset (fun _ => UInt32.le_refl _) (Nat.le_refl _), agrees.below⟩
    have given := numbers.addFresh other proper spares fun same =>
      absurd same (ne_nobody_of_lt agrees.below)
    rw [Numbering.abandon, modes]
    exact given

/-- The number of the ground mode. -/
theorem ground_mem_pairs (active : UInt32) (owners : List UInt32) (mode : OpenMode)
    (outer : List OpenMode) (depth : owners.length = outer.length) :
    (owners.getLastD active, .ground) ∈ (active :: owners).zip (chains mode outer) := by
  induction outer generalizing active owners mode with
  | nil =>
    obtain rfl := List.length_eq_zero_iff.1 depth
    exact List.mem_cons_self
  | cons around outer ih =>
    cases owners with
    | nil => cases depth
    | cons owner owners =>
      have inner := ih owner owners around (Nat.succ.inj depth)
      rw [List.getLastD_cons]
      exact List.mem_cons_of_mem _ inner

theorem Agrees.unwind (agrees : Agrees exact numbering mode outer offset bound ago)
    (apart : lastChain? mode outer ≠ some .ground) :
    Agrees exact numbering.unwind (State.ground offset mode outer) [] offset bound ago := by
  have ground := ground_mem_pairs numbering.active numbering.outer mode outer agrees.depth
  have last : lastChain? (State.ground offset mode outer) [] = lastChain? mode outer := by
    rw [lastChain?, segments_ground]
    rfl
  refine ⟨⟨?_, rfl, ?_, agrees.below⟩, ?_, ?_, fun _ => .inr rfl, fun _ => .inl rfl,
    last ▸ agrees.opened⟩
  · rw [segments_ground]
    exact agrees.covers
  · exact agrees.faithful.mono (List.cons_subset.2 ⟨ground, List.nil_subset _⟩)
      (fun _ => UInt32.le_refl _) (Nat.le_refl _)
  · intro pair member isLast
    obtain rfl := List.mem_singleton.1 member
    exact absurd (last.symm.trans isLast) apart
  · intro isExact pair member isLast
    obtain rfl := List.mem_singleton.1 member
    exact absurd isLast (ne_nobody_of_lt (agrees.faithful.drawn isExact _ ground))

/-! ## Going along with a scan -/

/-- A numbering agrees with a scan in progress. -/
def Along (exact : Prop) (numbering : Numbering) (state : State) : Prop :=
  Agrees exact numbering state.active state.outer state.offset state.offset 2

theorem Along.leave (along : Along exact numbering state) (modes : state.outer = around :: outer) :
    Along exact numbering.leave state.leave := by
  rw [Along, modes] at along
  rw [State.leave, modes]
  exact along.leave

/-- Text of the active mode is emitted as it is taken. -/
theorem Along.take (along : Along exact numbering state) (kind : Kind) {length : Nat}
    (pos : 0 < length) (within : length ≤ state.place.rest.length)
    (spares : exact → numbering.Spares 1) :
    Along exact
      (numbering.emit state.active.rule.kind kind ⟨state.offset, state.offset + length⟩)
      (state.take kind length) := by
  have taken := along.emit kind (Nat.le_add_right _ length) (by decide) spares 2
    Nat.two_pos (by omega)
  rw [Along, offset_take state kind within]
  exact taken.mono (Nat.le_add_right _ _) (Nat.le_refl _)

theorem along_takeMatch (sound : state.Sound grammar options text)
    (agrees : Agrees exact numbering mode outer state.offset bound ago) (rule : Rule) {hit : Hit}
    (fits : hit.Fits state.place.rest) (behind : bound ≤ state.offset + hit.stop)
    (few : ago + 1 < nobody.toNat) (spares : exact → numbering.Spares 2) :
    Along exact (numbering.emitMatch mode.rule.kind rule hit state.place)
      (Action.takeMatch rule hit { state with active := mode, outer }) := by
  have taken := (agrees.emitMatch text rule fits.le fits.stop_pos few spares).mono behind
    (Nat.le_refl 2)
  rw [Along, sound.active_takeMatch mode outer rule fits,
    offset_takeMatch rule { state with active := mode, outer } fits]
  rw [← sound.place] at taken
  exact taken

/-- Whatever a scan decides to do, a numbering that does the same goes along. -/
theorem Along.follow {forced : Force → Span → Prop} {action : Action}
    (along : Along exact numbering state) (sound : state.Sound grammar options text)
    (stacked : Stacked grammar options text forced .growing state.active state.outer state.offset)
    (lawful : grammar.Lawful) (accountable : grammar.Accountable) (grounded : grammar.Grounded)
    (room : leastMaxDepth ≤ options.maxDepth) (left : state.place.rest ≠ [])
    (spares : exact → numbering.Spares 3) (chosen : Chosen grammar options state action) :
    Along exact (numbering.follow action state) (action.perform options state) := by
  have fits := chosen.fits lawful sound.layered.known left
  have one : exact → numbering.Spares 1 := fun isExact => (spares isExact).fewer (by decide)
  cases chosen with
  | @close matcher hit ends found =>
    obtain ⟨around, outer, _, modes, _⟩ :=
      stacked.exists_around (sound.layered.outer_ne_nil lawful ends)
    simp only [Action.perform, Numbering.follow]
    split
    next => exact along.leave modes
    next =>
      have closed :=
        along.take state.active.rule.kind fits.stop_pos fits.whole.le_length one
      rw [Numbering.emit, if_pos rfl] at closed
      exact closed.leave modes
  | @abandon matcher hit _ _ _ nested =>
    obtain ⟨around, outer, _, modes, _, below⟩ := stacked.exists_around nested
    have other : Kind.error ≠ around.rule.kind := accountable.ne_rule below.grown.known rfl
    have layered := sound.layered
    rw [modes] at layered
    rw [Along, modes] at along
    have given := (along.abandon layered other one).mono (Nat.le_refl _) (Nat.le_succ 1)
    simp only [Action.perform, Numbering.follow]
    rw [State.abandon, modes]
    exact given
  | @flag matcher hit _ _ _ ground _ =>
    have other : Kind.illegal ≠ state.active.rule.kind := by
      rw [sound.rule_eq_root ground, grounded.root]
      exact Kind.noConfusion
    have flagged := along.take .illegal fits.stop_pos fits.whole.le_length one
    rw [Numbering.emit, if_neg other] at flagged
    exact flagged
  | @leaf rule hit _ _ _ _ =>
    exact along_takeMatch sound along rule fits (Nat.le_add_right _ _) (by decide)
      fun isExact => (spares isExact).fewer (by decide)
  | @enter rule hit _ _ _ _ _ =>
    have entered := along.enter rule hit.hashes (Nat.le_refl _) (by decide) one
    exact along_takeMatch sound entered rule fits (Nat.add_le_add_left fits.stop_pos _)
      (by decide) fun isExact => (spares isExact).enter _ _
  | @unwind rule hit _ _ _ _ full =>
    have nested : state.outer ≠ [] := by
      intro ground
      rw [State.depth, ground] at full
      exact absurd (Nat.le_trans room full) (by decide)
    exact along.unwind
      (sound.layered.lastChain?_ne_ground nested (stacked.chainOf_ne_ground grounded nested))
  | @content kind length _ _ _ _ => exact along.take kind fits.pos fits.cut.le_length one

end Numbering

end ModalHighlight.Scan
