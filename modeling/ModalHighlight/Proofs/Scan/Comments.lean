import ModalHighlight.Proofs.Scan.Content
import ModalHighlight.Proofs.Scan.Ended
import ModalHighlight.Proofs.Text.Reading

/-! # Nested comments

Comments nest, and a scan keeps a mode for each of them.  A counter needs less: it
goes up where a comment opens and down where one closes, and a comment is over
when the counter is back to zero.  Inside a comment, the counter stands one higher
than in front of it, whatever it was, and every comment inside that closes leaves
it there.
-/

namespace ModalHighlight

/-! ## Counting -/

namespace Comment

/-- The bytes that a counter moves past, and what it adds: one less at the end of a
comment, one more at the start of one. -/
def counted (rest : List UInt8) : Nat × Int :=
  if (Text.bytes "*/").isPrefixOf rest then (2, -1)
  else if (Text.bytes "/*").isPrefixOf rest then (2, 1)
  else (Byte.charLength rest, 0)

theorem counted_pos (lead : UInt8) (more : List UInt8) : 0 < (counted (lead :: more)).1 := by
  unfold counted
  split
  · exact Nat.two_pos
  · split
    · exact Nat.two_pos
    · exact Byte.charLength_pos lead more

/-- The number of bytes up to where a counter first comes to zero, if it starts from
a number in front of a text. -/
def returnLength? (depth : Int) : List UInt8 → Option Nat
  | [] => none
  | lead :: more =>
    let move := counted (lead :: more)
    if depth + move.2 = 0 then some move.1
    else (returnLength? (depth + move.2) ((lead :: more).drop move.1)).map (move.1 + ·)
termination_by rest => rest.length
decreasing_by
  have := counted_pos lead more
  simp only [List.length_drop, List.length_cons]
  omega

variable {rest bytes : List UInt8} {depth : Int} {length offset : Nat}

theorem counted_of_closes (closes : Text.bytes "*/" <+: rest) : counted rest = (2, -1) :=
  if_pos (List.isPrefixOf_iff_prefix.2 closes)

theorem counted_of_opens (opens : Text.bytes "/*" <+: rest) : counted rest = (2, 1) := by
  obtain ⟨more, rfl⟩ := opens
  rfl

theorem counted_of_neither (closes : ¬Text.bytes "*/" <+: rest)
    (opens : ¬Text.bytes "/*" <+: rest) : counted rest = (Byte.charLength rest, 0) := by
  rw [counted, if_neg (List.isPrefixOf_iff_prefix.not.2 closes),
    if_neg (List.isPrefixOf_iff_prefix.not.2 opens)]

theorem returnLength?_of_eq_zero (left : rest ≠ []) (back : depth + (counted rest).2 = 0) :
    returnLength? depth rest = some (counted rest).1 := by
  cases rest with
  | nil => exact absurd rfl left
  | cons lead more => rw [returnLength?, if_pos back]

theorem returnLength?_of_ne_zero (left : rest ≠ []) (away : depth + (counted rest).2 ≠ 0) :
    returnLength? depth rest =
      (returnLength? (depth + (counted rest).2) (rest.drop (counted rest).1)).map
        ((counted rest).1 + ·) := by
  cases rest with
  | nil => exact absurd rfl left
  | cons lead more => rw [returnLength?, if_neg away]

theorem returnLength?_pos (returns : returnLength? depth rest = some length) : 0 < length := by
  cases rest with
  | nil =>
    rw [returnLength?] at returns
    cases returns
  | cons lead more =>
    have pos := counted_pos lead more
    by_cases back : depth + (counted (lead :: more)).2 = 0
    · rw [returnLength?_of_eq_zero (List.cons_ne_nil _ _) back] at returns
      exact Option.some.inj returns ▸ pos
    · rw [returnLength?_of_ne_zero (List.cons_ne_nil _ _) back] at returns
      obtain ⟨_, _, rfl⟩ := Option.map_eq_some_iff.1 returns
      omega

/-- Away from zero, the counter goes on from where it moves to. -/
theorem passes {change : Int} (left : bytes.drop offset ≠ [])
    (move : counted (bytes.drop offset) = (length, change)) (away : depth + change ≠ 0) :
    Text.Passes bytes (returnLength? depth) (returnLength? (depth + change)) offset
      (offset + length) := by
  have next : depth + (counted (bytes.drop offset)).2 ≠ 0 → _ := returnLength?_of_ne_zero left
  rw [move] at next
  exact .of_drop (next away)

/-- The counter stands higher at an offset than in front of a comment, whatever it
was there, and has not come back to that on the way. -/
def Above (bytes : List UInt8) (height : Int) (start stop : Nat) : Prop :=
  ∀ depth : Int, 0 ≤ depth →
    Text.Passes bytes (returnLength? depth) (returnLength? (depth + height)) start stop

theorem Above.trans {height further : Int} {start middle stop : Nat} (nonneg : 0 ≤ height)
    (first : Above bytes height start middle) (second : Above bytes further middle stop) :
    Above bytes (height + further) start stop := by
  intro depth low
  rw [← Int.add_assoc]
  exact (first depth low).trans (second (depth + height) (by omega))

/-- A move that does not lead back. -/
theorem Above.move {height change : Int} {start stop : Nat}
    (above : Above bytes height start stop) (left : bytes.drop stop ≠ [])
    (move : counted (bytes.drop stop) = (length, change)) (away : 0 < height + change) :
    Above bytes (height + change) start (stop + length) := by
  intro depth low
  rw [← Int.add_assoc]
  exact (above depth low).trans (passes left move (by omega))

end Comment

/-! ## The rule of comments -/

namespace Flint

/-- The rule of block comments, with what may stand in them. -/
def nestedComment : Rule := { blockComment with contains := [Id.blockComment] }

theorem eq_nestedComment : ∀ rule ∈ grammar.rules, rule.isMode = true → rule.kind = .comment →
    rule = nestedComment := by
  decide

theorem rule?_blockComment : grammar.rule? Id.blockComment = some nestedComment := by
  decide

end Flint

namespace Scan

open Comment (Above counted returnLength?)

variable {options : Options} {text : String} {forced : Force → Span → Prop} {force : Force}
variable {mode around : OpenMode} {offset : Nat} {hit : Hit}

theorem eq_of_nestedComment {inner : Rule}
    (found : Flint.grammar.firstMatch? Flint.nestedComment.contains
      (Cursor.ofOffset (Text.bytes text) offset) = some (inner, hit)) :
    inner = Flint.nestedComment := by
  obtain ⟨id, listed, known, _⟩ := Grammar.firstMatch?_eq_some found
  obtain rfl := List.mem_singleton.1 listed
  exact Option.some.inj (known.symm.trans Flint.rule?_blockComment)

/-- What a comment takes as content, the counter moves past as it is. -/
theorem above_content {start length : Nat} {kind : Kind}
    (goesOn : mode.GoesOn options text offset) (same : mode.rule = Flint.nestedComment)
    (border : Text.Border text offset)
    (unmatched : Flint.grammar.firstMatch? Flint.nestedComment.contains
      (Cursor.ofOffset (Text.bytes text) offset) = none)
    (taken : Flint.nestedComment.contentAt ((Text.bytes text).drop offset) = .content kind length)
    (above : Above (Text.bytes text) 1 start offset) :
    Above (Text.bytes text) 1 start (offset + length) := by
  refine content_induction border (by decide +kernel) (by decide +kernel) goesOn.left taken above
    fun place _ left unstopped here => ?_
  -- In front of the first character both delimiters were tried.  In front of the
  -- others there would have been a stop.
  have closes : ¬Text.bytes "*/" <+: (Text.bytes text).drop place := by
    rcases unstopped with rfl | unstopped
    · have unclosed := goesOn.unclosed (.literal "*/") (by rw [same]; rfl)
      exact Matcher.matchAt?_literal_eq_none.1 unclosed
    · rintro ⟨more, stands⟩
      exact unstopped _ (by rw [← stands]; rfl) (by decide)
  have opens : ¬Text.bytes "/*" <+: (Text.bytes text).drop place := by
    rcases unstopped with rfl | unstopped
    · have unopened := Grammar.matchAt?_eq_none unmatched (List.mem_singleton.2 rfl)
        Flint.rule?_blockComment
      exact Matcher.matchAt?_literal_eq_none.1 unopened
    · rintro ⟨more, stands⟩
      exact unstopped _ (by rw [← stands]; rfl) (by decide)
  have next := here.move left (Comment.counted_of_neither closes opens) Int.one_pos
  exact next

/-- Where a comment closes, the counter goes down. -/
theorem counted_of_ends {matcher : Matcher} (same : mode.rule = Flint.nestedComment)
    (ends : mode.rule.closing = some matcher)
    (found : matcher.matchAt? mode.hashes (Cursor.ofOffset (Text.bytes text) offset) = some hit) :
    counted ((Text.bytes text).drop offset) = (2, -1) ∧
      mode.closingStop hit offset = offset + 2 := by
  have isClosing : mode.rule.closing = some (.literal "*/") := by rw [same]; rfl
  obtain ⟨stands, stop⟩ := OpenMode.closes_literal isClosing (by rw [same]; rfl) ends found
  exact ⟨Comment.counted_of_closes stands, stop⟩

/-- In a comment, the counter stands one higher than in front of it. -/
theorem maintains_above : Maintains Flint.grammar options text forced Flint.nestedComment
    fun mode offset => Above (Text.bytes text) 1 mode.start offset where
  opened below opens := by
    obtain ⟨stands, rfl⟩ := Matcher.matchAt?_literal.1 opens.matched
    rw [OpenMode.start_addMatch]
    exact fun depth low => Comment.passes opens.goesOn.left (Comment.counted_of_opens stands)
      (by omega)
  leaf _ _ _ _ found leaf := by
    rw [eq_of_nestedComment found] at leaf
    cases leaf
  content same grown above goesOn unmatched taken := by
    rw [OpenMode.start_add]
    exact above_content goesOn same (grown.border Flint.grammar_lawful) unmatched taken above
  closed same _ above opens _ within left ends found := by
    have inner := eq_of_nestedComment (same ▸ opens.found)
    obtain ⟨down, stop⟩ := counted_of_ends inner ends found
    rw [stop]
    exact (above.trans Int.one_nonneg (within inner)).move left down (by decide)

theorem Grown.above (grown : Grown Flint.grammar options text forced .growing mode offset)
    (same : mode.rule = Flint.nestedComment) :
    Above (Text.bytes text) 1 mode.start offset :=
  maintains_above.of_grown Flint.grammar_lawful rfl (by decide) grown same

/-- Where comments are closed by force, the counter stands above zero. -/
theorem Grown.above_of_closing
    (grown : Grown Flint.grammar options text forced (.closing force) mode offset)
    (same : mode.rule = Flint.nestedComment) :
    ∃ height : Int, 0 < height ∧ Above (Text.bytes text) height mode.start offset := by
  -- Each comment that is cut off inside adds what the counter has gained in it.
  generalize closing : Phase.closing force = phase at grown
  induction grown with
  | atEnd before => exact ⟨1, Int.one_pos, before.above same⟩
  | atLimit before => exact ⟨1, Int.one_pos, before.above same⟩
  | cut below opens before _ _ ih =>
    have here : _ = Flint.nestedComment := same
    obtain ⟨height, high, above⟩ := ih (eq_of_nestedComment (here ▸ opens.found)) closing
    exact ⟨1 + height, by omega, (below.above here).trans Int.one_nonneg above⟩
  | _ => cases closing

end Scan

/-! ## Highlighting -/

/-- With any options, a comment stops where a counter that starts from zero in front
of it is back to zero for the first time.  Otherwise the counter is not back to zero
by then, and the comment was cut off. -/
theorem comments_match_counter (options : Scan.Options) (text : String) :
    let result := (Highlighter.default.withOptions options).highlight text
    ∀ s ∈ result.scopes, s.kind = .comment →
      Comment.returnLength? 0 ((Text.bytes text).drop s.span.start) = some s.span.length ∨
        (∀ length, Comment.returnLength? 0 ((Text.bytes text).drop s.span.start) = some length →
          s.span.length < length) ∧ result.CutOff text s := by
  intro result s member isComment
  obtain ⟨mode, ended, kind, start, _⟩ :=
    (Highlighter.default.withOptions options).exists_ended Flint.grammar_lawful text member
  have same := Flint.eq_nestedComment _ (ended.mem_rules Flint.grammar_lawful) ended.isMode
    (kind.trans isComment)
  generalize stops : s.span.stop = stop at ended
  rw [Span.length, ← start, stops]
  cases ended with
  | @closed mode _ offset _ _ hit _ before left ends found =>
    rw [Scan.OpenMode.rule_addClosing] at same
    rw [Scan.OpenMode.start_addClosing]
    obtain ⟨down, stop⟩ := Scan.counted_of_ends same ends found
    have above := before.above same 0 (Int.le_refl 0)
    left
    rw [above.eq_some (Comment.returnLength?_of_eq_zero left (by rw [down]; rfl)), down, stop]
  | cut _ before isForced =>
    obtain ⟨height, high, above⟩ := before.above_of_closing same
    refine .inr ⟨fun length returns => ?_, ?_⟩
    · rw [(above 0 (Int.le_refl 0)).eq] at returns
      obtain ⟨further, behind, rfl⟩ := Option.map_eq_some_iff.1 returns
      have pos := Comment.returnLength?_pos behind
      omega
    · have cutOff := before.cutOff Flint.grammar_lawful isForced
      rw [kind, start, ← stops] at cutOff
      exact cutOff

/-- A comment in a comment that the end of the text cuts off. -/
theorem comments_match_counter_unclosed :
    let text := "/* /*/ */"
    let result := (Highlighter.default.withOptions ⟨64, true⟩).highlight text
    let s : Scope := ⟨.comment, ⟨0, 9⟩⟩
    (s ∈ result.scopes ∧ s.kind = .comment) ∧
      (Comment.returnLength? 0 ((Text.bytes text).drop 0) = some 9 ∨
        (∀ length, Comment.returnLength? 0 ((Text.bytes text).drop 0) = some length →
          9 < length) ∧ result.CutOff text s) :=
  have met : (⟨.comment, ⟨0, 9⟩⟩ : Scope) ∈
      ((Highlighter.default.withOptions ⟨64, true⟩).highlight "/* /*/ */").scopes := by
    decide
  ⟨⟨met, rfl⟩, comments_match_counter ⟨64, true⟩ "/* /*/ */" ⟨.comment, ⟨0, 9⟩⟩ met rfl⟩

example : Comment.returnLength? 0 (Text.bytes "/*/*/ */*/ */") = some 10 := by decide +kernel

end ModalHighlight
