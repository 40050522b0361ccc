import ModalHighlight.Proofs.Grammar.Markup
import ModalHighlight.Proofs.Scan.Reports
import ModalHighlight.Proofs.Scan.Written
import ModalHighlight.Proofs.Token.Coverage

/-! # Markup is flagged exactly

A `</` in front of a scan is flagged if the ground mode is active, and the scan
comes to every `</` that no scope, comment or string holds: what the ground mode
takes otherwise has no `<` behind its first byte, and a mode that is given up
stops at the first `<` that it meets.
-/

namespace ModalHighlight

/-- `</` stands at an offset of a text. -/
def MarkupAt (text : String) (offset : Nat) : Prop :=
  Text.bytes "</" <+: (Text.bytes text).drop offset

instance (text : String) (offset : Nat) : Decidable (MarkupAt text offset) :=
  inferInstanceAs (Decidable (_ <+: _))

theorem MarkupAt.less {text : String} {offset : Nat} (markup : MarkupAt text offset) :
    (Text.bytes text)[offset]? = some Byte.less := by
  obtain ⟨later, whole⟩ := markup
  have first := congrArg (·[0]?) whole
  rw [List.getElem?_drop] at first
  exact first.symm

theorem MarkupAt.slash {text : String} {offset : Nat} (markup : MarkupAt text offset) :
    (Text.bytes text)[offset + 1]? = some 0x2f := by
  obtain ⟨later, whole⟩ := markup
  have second := congrArg (·[1]?) whole
  rw [List.getElem?_drop] at second
  exact second.symm

namespace Scan

variable {grammar : Grammar} {options : Options} {text : String}
variable {forced : Force → Span → Prop} {phase : Phase} {mode : OpenMode} {offset : Nat}

/-- The literal that the ground mode rejects is found where markup stands. -/
theorem matchAt?_markup {hashes : Nat} :
    (Matcher.literal "</").matchAt? hashes (Cursor.ofOffset (Text.bytes text) offset) =
      if MarkupAt text offset then some (Hit.whole 2) else none := by
  have found : (Matcher.literal "</").matchAt? hashes (Cursor.ofOffset (Text.bytes text) offset) =
      (if (Text.bytes "</").isPrefixOf ((Text.bytes text).drop offset) then
        some (Text.bytes "</").length else none).map Hit.whole := rfl
  by_cases markup : MarkupAt text offset
  · rw [found, if_pos markup, if_pos (List.isPrefixOf_iff_prefix.2 markup)]
    rfl
  · rw [found, if_neg markup, if_neg fun isPrefix => markup (List.isPrefixOf_iff_prefix.1 isPrefix)]
    rfl

theorem quiet_of_matchAt? {matcher : Matcher} {hashes : Nat} {hit : Hit} (quiet : matcher.Quiet)
    (found : matcher.matchAt? hashes (Cursor.ofOffset (Text.bytes text) offset) = some hit) :
    Text.Quiet (Text.bytes text) offset (offset + hit.stop) :=
  Text.quiet_of_tail (Matcher.less_not_mem_tail quiet found)

/-! ## Modes that may be given up -/

theorem Grown.narrow (grown : Grown grammar options text forced phase mode offset)
    (lawful : grammar.Lawful) (watchful : grammar.Watchful) (isMode : mode.rule.isMode = true)
    (illegal : mode.rule.illegal.isSome = true) : mode.rule.Narrow grammar :=
  watchful.narrow _ (grown.mem_rules lawful isMode) isMode illegal

/-- What a narrow mode takes next does not begin with a `<`, or it would be given up. -/
theorem OpenMode.GoesOn.ne_less (goesOn : mode.GoesOn options text offset)
    (narrow : mode.rule.Narrow grammar) (isMode : mode.rule.isMode = true)
    (illegal : mode.rule.illegal.isSome = true) :
    (Text.bytes text)[offset]? ≠ some Byte.less := by
  obtain ⟨matcher, rejects⟩ := Option.isSome_iff_exists.1 illegal
  refine Matcher.getElem?_ne_less (narrow.illegal matcher rejects)
    ((goesOn.admits matcher rejects).resolve_right ?_)
  rw [isMode]
  simp

/-- Nothing opens in a narrow mode. -/
theorem Opens.not_narrow {around : OpenMode} {hit : Hit}
    (opens : Opens grammar options text around mode hit) : ¬ around.rule.Narrow grammar := by
  intro narrow
  obtain ⟨id, member, rule?, _⟩ := Grammar.firstMatch?_eq_some opens.found
  have leaf := (narrow.leaves id member _ rule?).1
  rw [opens.isMode] at leaf
  cases leaf

/-- A mode that may be given up has taken no `<`, except maybe at its start. -/
theorem Grown.quiet (grown : Grown grammar options text forced phase mode offset)
    (lawful : grammar.Lawful) (watchful : grammar.Watchful) (isMode : mode.rule.isMode = true)
    (illegal : mode.rule.illegal.isSome = true) :
    Text.Quiet (Text.bytes text) mode.start offset := by
  induction grown with
  | ground =>
    rw [Rule.isMode, lawful.root] at isMode
    cases isMode
  | opened below opens =>
    have narrow := (Grown.opened below opens).narrow lawful watchful isMode illegal
    simp only [OpenMode.rule_addMatch, OpenMode.start_addMatch] at narrow ⊢
    exact quiet_of_matchAt? narrow.opening opens.matched
  | leaf before goesOn found leaf ih =>
    simp only [OpenMode.rule_addMatch, OpenMode.start_addMatch] at isMode illegal ⊢
    have narrow := before.narrow lawful watchful isMode illegal
    obtain ⟨id, member, rule?, matched⟩ := Grammar.firstMatch?_eq_some found
    exact (ih isMode illegal).append
      (quiet_of_matchAt? (narrow.leaves id member _ rule?).2 matched)
      (goesOn.ne_less narrow isMode illegal)
  | content before goesOn _ taken ih =>
    simp only [OpenMode.rule_add, OpenMode.start_add] at isMode illegal ⊢
    have narrow := before.narrow lawful watchful isMode illegal
    have whole := (Text.border_iff_whole_drop.1 (before.border lawful)).2
    exact (ih isMode illegal).append
      (Text.quiet_of_tail (Rule.less_not_mem_tail narrow.each whole taken))
      (goesOn.ne_less narrow isMode illegal)
  | flag _ _ ground =>
    rw [OpenMode.rule_add, ground] at isMode
    cases isMode
  | closed below opens =>
    exact absurd (below.narrow lawful watchful isMode illegal) opens.not_narrow
  | abandoned below opens =>
    rw [OpenMode.rule_add] at isMode illegal
    exact absurd (below.narrow lawful watchful isMode illegal) opens.not_narrow
  | atEnd _ _ ih => exact ih isMode illegal
  | atLimit _ _ _ _ ih => exact ih isMode illegal
  | cut below opens =>
    exact absurd (below.narrow lawful watchful isMode illegal) opens.not_narrow
  | settled _ ground =>
    rw [ground] at isMode
    cases isMode

/-! ## Pieces -/

/-- What the ground mode may hold, and any other mode. -/
def FlagsMarkup (options : Options) (text : String) : Option Scope → Piece → Prop
  | some _, p => p.kind ≠ .illegal
  | none, p =>
    (p.kind = .illegal ∧ options.flagMarkup = true ∧ MarkupAt text p.span.start ∧
      p.span.stop = p.span.start + 2) ∨
    (p.kind ≠ .illegal ∧ (options.flagMarkup = true → p.kind ∈ [Kind.comment, Kind.string] ∨
      ∀ offset, p.span.contains offset = true → ¬ MarkupAt text offset))

variable {reach : Nat} {p : Piece}

theorem isMark_of_matchPieces (accountable : grammar.Accountable) {rule : Rule} {hit : Hit}
    (known : grammar.Has rule) (member : p ∈ matchPieces rule hit text offset) :
    p.kind.isMark = false := by
  rcases kind_of_mem_matchPieces member with head | own
  · exact head ▸ accountable.isMark_head known _
  · exact own ▸ accountable.isMark_rule known

/-- Only the ground mode holds flagged text. -/
theorem Written.kind_ne_illegal (written : Written grammar options text forced mode reach p)
    (accountable : grammar.Accountable) (isMode : mode.rule.isMode = true) :
    p.kind ≠ .illegal := by
  have unmarked : p.kind.isMark = false → p.kind ≠ .illegal := by
    rintro isMark illegal
    rw [illegal] at isMark
    cases isMark
  cases written with
  | opening below opens member =>
    exact unmarked (isMark_of_matchPieces accountable (has_of_firstMatch? opens.found) member)
  | leaf _ _ found _ member =>
    exact unmarked (isMark_of_matchPieces accountable (has_of_firstMatch? found) member)
  | content before _ _ taken =>
    exact unmarked (accountable.kinds_of_has before.known
      (List.mem_append_right _ (contentAt_mem taken)))
  | flag _ ground =>
    rw [isMode] at ground
    cases ground
  | closing _ before => exact unmarked (accountable.isMark_rule before.known)
  | error => exact fun other => nomatch other

theorem OpenMode.GoesOn.not_markupAt (goesOn : mode.GoesOn options text offset)
    (rejects : mode.rule.illegal = some (.literal "</")) (flagging : options.flagMarkup = true) :
    ¬ MarkupAt text offset := by
  intro markup
  rcases goesOn.admits _ rejects with unmatched | ⟨_, silent⟩
  · rw [matchAt?_markup, if_pos markup] at unmatched
    cases unmatched
  · rw [flagging] at silent
    cases silent

/-- No markup stands in a quiet range, if none stands at its start. -/
theorem not_markupAt_of_quiet {start stop : Nat} (quiet : Text.Quiet (Text.bytes text) start stop)
    (first : ¬ MarkupAt text start) (lower : start ≤ p.span.start) (upper : p.span.stop ≤ stop) :
    ∀ offset, p.span.contains offset = true → ¬ MarkupAt text offset := by
  intro offset contains markup
  obtain ⟨fromStart, upTo⟩ := Span.contains_eq_true.1 contains
  rcases Nat.eq_or_lt_of_le (Nat.le_trans lower fromStart) with rfl | behind
  · exact first markup
  · exact quiet offset behind (Nat.lt_of_lt_of_le upTo upper) markup.less

theorem Written.flagsMarkup (written : Written grammar options text forced mode reach p)
    (lawful : grammar.Lawful) (accountable : grammar.Accountable) (watchful : grammar.Watchful)
    (limit : Nat) : FlagsMarkup options text (mode.extent? limit) p := by
  cases isMode : mode.rule.isMode with
  | true =>
    rw [OpenMode.extent?, isMode]
    exact written.kind_ne_illegal accountable isMode
  | false =>
    have root : mode.rule = grammar.rootRule := written.rule_eq_root isMode
    have rejects : mode.rule.illegal = some (.literal "</") := root ▸ watchful.illegal
    have unflagged : p.kind.isMark = false → p.kind ≠ .illegal := by
      intro unmarked illegal
      rw [illegal] at unmarked
      cases unmarked
    rw [OpenMode.extent?, isMode]
    cases written with
    | opening _ opens =>
      rw [opens.isMode] at isMode
      cases isMode
    | closing opens =>
      rw [opens.isMode] at isMode
      cases isMode
    | flag _ _ rejected found flagging =>
      rw [rejects] at rejected
      obtain rfl := Option.some.inj rejected
      rw [matchAt?_markup] at found
      obtain ⟨markup, whole⟩ := Option.ite_none_right_eq_some.1 found
      obtain rfl := Option.some.inj whole
      exact .inl ⟨rfl, flagging, markup, rfl⟩
    | @leaf rule offset hit _ before goesOn found leaf member =>
      have known := has_of_firstMatch? found
      refine .inr ⟨unflagged (isMark_of_matchPieces accountable known member), fun flagging => ?_⟩
      obtain ⟨id, listed, rule?, matched⟩ := Grammar.firstMatch?_eq_some found
      rcases watchful.leaves id (root ▸ listed) _ rule? leaf with quiet | ⟨head, kind⟩
      · have fits := fits_of_firstMatch? lawful before.known found
        obtain ⟨lower, _, upper⟩ := of_mem_matchPieces fits.le member
        exact .inr (not_markupAt_of_quiet (quiet_of_matchAt? quiet matched)
          (goesOn.not_markupAt rejects flagging) lower upper)
      · refine .inl ?_
        rcases kind_of_mem_matchPieces member with headKind | own
        · rw [headKind, Action.headKind, head]
          exact kind
        · exact own ▸ kind
    | content before goesOn _ taken =>
      have unmarked := accountable.kinds_of_has before.known
        (List.mem_append_right _ (contentAt_mem taken))
      refine .inr ⟨unflagged unmarked, fun flagging => .inr ?_⟩
      have whole := (Text.border_iff_whole_drop.1 (before.border lawful)).2
      have tail := Rule.less_not_mem_tail (root ▸ watchful.each) whole taken
      exact not_markupAt_of_quiet (Text.quiet_of_tail tail)
        (goesOn.not_markupAt rejects flagging) (Nat.le_refl _) (Nat.le_refl _)
    | error below opens before given found =>
      refine .inr ⟨by simp, fun flagging => .inr ?_⟩
      have quiet := before.quiet lawful watchful opens.isMode (by rw [given]; rfl)
      exact not_markupAt_of_quiet quiet (opens.goesOn.not_markupAt rejects flagging)
        (Nat.le_refl _) (Nat.le_refl _)

theorem keeps_flagsMarkup (lawful : grammar.Lawful) (accountable : grammar.Accountable)
    (watchful : grammar.Watchful) :
    Keeps grammar options text forced (fun _ s => s.kind ≠ .illegal)
      (FlagsMarkup options text) where
  fitting _ opens _ _ illegal :=
    absurd illegal.symm (accountable.ne_rule (has_of_firstMatch? opens.found) rfl)
  allowed written _ _ _ := written.flagsMarkup lawful accountable watchful _

end Scan

/-! ## Tokens -/

namespace Outline

variable {border : Nat → Prop} {start stop offset : Nat} {outline : Outline}
variable {options : Scan.Options} {text : String} {p : Piece}

theorem innermostAt?_eq_none :
    Scope.innermostAt? outline.scopes offset = none ↔
      ∀ s ∈ outline.scopes, s.span.contains offset = false := by
  rw [Scope.innermostAt?, List.getLast?_eq_none_iff, Scope.around, List.filter_eq_nil_iff]
  simp only [Bool.not_eq_true]

/-- Flagged text is markup that lies in no scope. -/
theorem Conforms.of_illegal
    (conforms : outline.Conforms (fun _ s => s.kind ≠ .illegal)
      (Scan.FlagsMarkup options text) none)
    (tiles : Tiles border start stop outline) (member : p ∈ outline.pieces)
    (illegal : p.kind = .illegal) :
    options.flagMarkup = true ∧ MarkupAt text p.span.start ∧
      p.span = ⟨p.span.start, p.span.start + 2⟩ ∧
      ∀ s ∈ outline.scopes, s.span.contains p.span.start = false := by
  obtain ⟨_, proper, _⟩ := tiles.pieces.of_mem (List.mem_map_of_mem member)
  have allowed := conforms.of_mem_pieces tiles p member p.span.start
    (Span.contains_eq_true.2 ⟨Nat.le_refl _, proper⟩)
  cases innermost : Scope.innermostAt? outline.scopes p.span.start with
  | some s =>
    rw [innermost] at allowed
    exact absurd illegal allowed
  | none =>
    rw [innermost] at allowed
    obtain ⟨_, flagging, markup, stops⟩ := allowed.resolve_right fun other => other.1 illegal
    exact ⟨flagging, markup, by rw [← stops], innermostAt?_eq_none.1 innermost⟩

/-- Markup in no scope is flagged, unless a comment or a string holds it. -/
theorem Conforms.span_of_markupAt
    (conforms : outline.Conforms (fun _ s => s.kind ≠ .illegal)
      (Scan.FlagsMarkup options text) none)
    (tiles : Tiles border start stop outline) (member : p ∈ outline.pieces)
    (contains : p.span.contains offset = true) (flagging : options.flagMarkup = true)
    (markup : MarkupAt text offset)
    (outside : ∀ s ∈ outline.scopes, s.span.contains offset = false)
    (notComment : p.kind ≠ .comment) (notString : p.kind ≠ .string) :
    p.kind = .illegal ∧ p.span = ⟨offset, offset + 2⟩ := by
  have allowed := conforms.of_mem_pieces tiles p member offset contains
  rw [innermostAt?_eq_none.2 outside] at allowed
  rcases allowed with ⟨illegal, _, first, stops⟩ | ⟨_, unflagged⟩
  · -- The offset is that of the `<`, not of the `/` behind it.
    obtain ⟨fromStart, upTo⟩ := Span.contains_eq_true.1 contains
    have here : p.span.start = offset := by
      by_contra differs
      have second : offset = p.span.start + 1 := by omega
      have less := markup.less
      rw [second, first.slash] at less
      cases less
    refine ⟨illegal, ?_⟩
    rw [← here, ← stops]
  · rcases unflagged flagging with other | none
    · simp [notComment, notString] at other
    · exact absurd markup (none offset contains)

end Outline

/-! ## Highlighting -/

/-- With markup flagged, the tokens in question are exactly the `</` that no scope
and no comment or string holds.  Otherwise there are none. -/
theorem markup_flagged_exactly (options : Scan.Options) (text : String) :
    let result := (Highlighter.default.withOptions options).highlight text
    (options.flagMarkup = true →
      ∀ offset, MarkupAt text offset →
        ((∃ token ∈ result.tokens.toList, token.kind = .illegal ∧
            token.span = ⟨offset, offset + 2⟩) ↔
          (∀ s ∈ result.scopes, s.span.contains offset = false) ∧
            ∃ token ∈ result.tokens.toList, token.span.contains offset = true ∧
              token.kind ≠ .comment ∧ token.kind ≠ .string)) ∧
      (∀ token ∈ result.tokens.toList, token.kind = .illegal → token.text = "</") ∧
      (options.flagMarkup = false → ∀ token ∈ result.tokens.toList, token.kind ≠ .illegal) := by
  intro result
  have tiles := (Highlighter.tiles_withOptions options text).1
  have runs := Highlighter.runs_withOptions options text
  have conforms := (Highlighter.default.withOptions options).conforms_highlight
    Flint.grammar_lawful text (Scan.keeps_flagsMarkup Flint.grammar_lawful
      Flint.grammar_accountable Flint.grammar_watchful)
  have absent : ∀ s ∈ result.outline.scopes, s.kind ≠ .illegal :=
    conforms.of_mem_scopes tiles
  have illegal : ∀ span,
      (∃ token ∈ result.tokens.toList, token.kind = .illegal ∧ token.span = span) ↔
        ∃ p ∈ result.outline.pieces, p.kind = .illegal ∧ p.span = span :=
    fun span => tiles.mem_tokens_iff runs absent (by decide)
  refine ⟨fun flagging offset markup => ⟨?_, ?_⟩, fun token member isIllegal => ?_,
    fun silent token member isIllegal => ?_⟩
  · rintro ⟨token, member, isIllegal, span⟩
    obtain ⟨p, inPieces, kind, same⟩ := (illegal _).1 ⟨token, member, isIllegal, span⟩
    obtain ⟨_, _, _, outside⟩ := conforms.of_illegal tiles inPieces kind
    rw [same] at outside
    refine ⟨outside, token, member, ?_, by rw [isIllegal]; decide, by rw [isIllegal]; decide⟩
    rw [span, Span.contains_eq_true]
    exact ⟨Nat.le_refl _, by simp only; omega⟩
  · rintro ⟨outside, token, member, covers, notComment, notString⟩
    obtain ⟨p, inPieces, contains, kind⟩ := tiles.exists_piece runs member covers
    exact (illegal _).2 ⟨p, inPieces, conforms.span_of_markupAt tiles inPieces contains flagging
      markup outside (kind ▸ notComment) (kind ▸ notString)⟩
  · obtain ⟨p, inPieces, kind, same⟩ := (illegal _).1 ⟨token, member, isIllegal, rfl⟩
    obtain ⟨_, markup, span, _⟩ := conforms.of_illegal tiles inPieces kind
    have cut := (runs.covers tiles).slices token member
    rw [← same, span] at cut
    refine Text.bytes_injective ?_
    rw [Text.bytes_of_slice? cut, Nat.add_sub_cancel_left]
    exact (List.prefix_iff_eq_take.1 markup).symm
  · obtain ⟨p, inPieces, kind, _⟩ := (illegal _).1 ⟨token, member, isIllegal, rfl⟩
    have flagging : options.flagMarkup = true := (conforms.of_illegal tiles inPieces kind).1
    rw [silent] at flagging
    cases flagging

/-- A closing tag behind a word is flagged. -/
theorem markup_flagged_behind_word :
    let result := (Highlighter.default.withOptions ⟨64, true⟩).highlight "a</b>"
    ∃ token ∈ result.tokens.toList, token.kind = .illegal ∧ token.span = ⟨1, 3⟩ :=
  ((markup_flagged_exactly ⟨64, true⟩ "a</b>").1 rfl 1 (by decide)).2 (by decide)

end ModalHighlight
