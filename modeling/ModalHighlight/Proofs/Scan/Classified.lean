import ModalHighlight.Proofs.Grammar.Reserved
import ModalHighlight.Proofs.Lexeme.Joined
import ModalHighlight.Proofs.Scan.Content
import ModalHighlight.Proofs.Scan.Markup
import ModalHighlight.Proofs.Scan.Spelling
import ModalHighlight.Proofs.Token.Lookup

/-! # Words outside all modes are classified exactly

Where a word begins with a small letter, the ground mode takes a name in front of `::`,
a name that is called, or content, and each of them is the whole word.  All else that it
takes goes through no such place: a number or type name has its small letters behind
other bytes of the same word, and an operator has none.  The rules for names are tried
before content, so content is neither the head of a path nor called.
-/

namespace ModalHighlight

open Lexeme (BeginsSmall Joined wordLength)

/-- A piece under the first letter of a word gets the kind of the word, and is the word
unless it is plain. -/
def Piece.Classifies (text : String) (offset : Nat) (p : Piece) : Prop :=
  let rest := (Text.bytes text).drop offset
  p.kind = Flint.wordKind (rest.take (wordLength rest)) (rest.drop (wordLength rest)) ∧
    (p.kind ≠ .plain → p.span = ⟨offset, offset + wordLength rest⟩)

/-- What the leaves of the ground mode are. -/
theorem Flint.ground_leaves : ∀ id ∈ grammar.rootRule.contains, ∀ rule ∈ grammar.rule? id,
    rule.isMode = false →
      rule.head = .rule ∧ rule.kind ∈ [Kind.comment, .string, .symbol, .operator, .number, .type] ∨
        rule ∈ [constant, qualifiedPath, call] := by
  decide

theorem Flint.ground_names : Id.qualifiedPath ∈ grammar.rootRule.contains ∧
    Id.call ∈ grammar.rootRule.contains ∧ grammar.rule? Id.qualifiedPath = some qualifiedPath ∧
      grammar.rule? Id.call = some call := by
  decide

/-- The ground mode takes its content word by word, or else character by character. -/
theorem Flint.contentAt_root (rest : List UInt8) : grammar.rootRule.contentAt rest =
    if wordLength rest = 0 then .content .plain (Byte.charLength rest)
    else .content ((keywords.classify (rest.take (wordLength rest))).getD .plain)
      (wordLength rest) := by
  have each : grammar.rootRule.contentAt rest =
      Scan.Action.eachContent { source with contains := code } rest := by
    rw [rootRule_grammar]
    rfl
  rw [each, Scan.Action.eachContent]
  cases wordLength rest <;> rfl

namespace Lexeme

/-- The head of a path is a whole word, and `::` stands behind it. -/
theorem head_of_qualifiedPath {rest : List UInt8} {head stop : Nat}
    (found : qualifiedPath rest = some (head, stop)) :
    head = wordLength rest ∧ Text.bytes "::" <+: rest.drop (wordLength rest) := by
  cases word : identifier rest with
  | none => simp [qualifiedPath, word] at found
  | some inner =>
    obtain rfl := wordFrom_eq_some word
    simp only [qualifiedPath, word, Option.ite_none_right_eq_some, Option.some.injEq,
      Prod.mk.injEq, List.isPrefixOf_iff_prefix] at found
    exact ⟨found.2.1.symm, found.1⟩

end Lexeme

namespace Scan

variable {options : Options} {text : String} {forced : Force → Span → Prop} {mode : OpenMode}
variable {rule : Rule} {hit : Hit} {start offset reach length : Nat} {kind : Kind} {p : Piece}

theorem not_joined (begins : BeginsSmall (Text.bytes text) offset)
    (contains : p.span.contains offset = true) : ¬Joined (p.span.bytes text) := by
  obtain ⟨lower, upper⟩ := Span.contains_eq_true.1 contains
  have here : p.span.start + (offset - p.span.start) = offset := Nat.add_sub_cancel' lower
  exact fun joined => joined.not_beginsSmall
    (BeginsSmall.within (here ▸ begins) (by rw [Span.length]; omega))

/-- What is spelled as an operator, a number or a type name is joined. -/
theorem joined_of_spelled (spelled : p.Spelled text)
    (kind : p.kind ∈ [Kind.operator, .number, .type]) : Joined (p.span.bytes text) := by
  simp only [List.mem_cons, List.not_mem_nil, or_false] at kind
  rw [Piece.Spelled] at spelled
  rcases kind with same | same | same <;> rw [same] at spelled
  · obtain ⟨operator, listed, bytes⟩ := List.mem_map.1 spelled.1
    exact bytes ▸ Lexeme.joined_of_operator operator listed
  · exact Lexeme.joined_number spelled
  · exact Lexeme.joined_typeName spelled.1.1

/-! ## Names -/

theorem classifies_path (begins : BeginsSmall (Text.bytes text) offset)
    (matched : Flint.qualifiedPath.opening.matchAt? 0
      (Cursor.ofOffset (Text.bytes text) start) = some hit)
    (member : p ∈ matchPieces Flint.qualifiedPath hit text start)
    (contains : p.span.contains offset = true) : p.Classifies text offset := by
  have spelled := spelled_path matched member
  obtain ⟨_, matched⟩ := Option.ite_none_right_eq_some.1 matched
  obtain ⟨⟨head, stop⟩, path, rfl⟩ := Option.map_eq_some_iff.1 matched
  obtain ⟨lower, upper⟩ := Span.contains_eq_true.1 contains
  have member := (List.mem_filter.1 member).1
  simp only [List.mem_cons, List.not_mem_nil, or_false] at member
  rcases member with rfl | rfl
  · obtain ⟨rfl, colons⟩ := Lexeme.head_of_qualifiedPath path
    obtain rfl := begins.eq_of_lt_wordLength lower upper
    exact ⟨(Flint.wordKind_of_colons colons).symm, fun _ => rfl⟩
  · have isOperator : Flint.qualifiedPath.kind ∈ [Kind.operator, .number, .type] := List.mem_cons_self
    exact absurd (joined_of_spelled spelled isOperator) (not_joined begins contains)

theorem classifies_call (begins : BeginsSmall (Text.bytes text) offset)
    (matched : Flint.call.opening.matchAt? 0
      (Cursor.ofOffset (Text.bytes text) start) = some hit)
    (member : p ∈ matchPieces Flint.call hit text start)
    (contains : p.span.contains offset = true) : p.Classifies text offset := by
  obtain ⟨_, matched⟩ := Option.ite_none_right_eq_some.1 matched
  obtain ⟨stop, called, rfl⟩ := Option.map_eq_some_iff.1 matched
  obtain ⟨isCall, free⟩ := Option.filter_eq_some_iff.1 called
  obtain ⟨isWord, calls⟩ := Option.filter_eq_some_iff.1 isCall
  obtain rfl := Lexeme.wordFrom_eq_some isWord
  obtain ⟨kind, span⟩ := eq_of_mem_matchPieces rfl member
  rw [span] at contains
  obtain ⟨lower, upper⟩ := Span.contains_eq_true.1 contains
  obtain rfl := begins.eq_of_lt_wordLength lower upper
  rw [Bool.not_eq_true', ← Bool.not_eq_true, Flint.reserves_iff] at free
  exact ⟨kind.trans (Flint.wordKind_of_calls free (eq_of_beq calls)).symm, fun _ => span⟩

theorem classifies_leaf (begins : BeginsSmall (Text.bytes text) offset)
    (found : Flint.grammar.firstMatch? Flint.grammar.rootRule.contains
      (Cursor.ofOffset (Text.bytes text) start) = some (rule, hit))
    (leaf : rule.isMode = false) (member : p ∈ matchPieces rule hit text start)
    (contains : p.span.contains offset = true)
    (other : p.kind ∉ [Kind.comment, .string, .symbol, .error]) : p.Classifies text offset := by
  obtain ⟨id, listed, isRule, matched⟩ := Grammar.firstMatch?_eq_some found
  have absurd_of_joined : Joined (p.span.bytes text) → p.Classifies text offset :=
    fun joined => absurd joined (not_joined begins contains)
  rcases Flint.ground_leaves id listed rule isRule leaf with ⟨head, kinds⟩ | names
  · have kind : p.kind = rule.kind := by
      rcases kind_of_mem_matchPieces member with kind | kind
      · rw [kind, Action.headKind, head]
      · exact kind
    have spelled := spelled_leaf (.inl rfl) found leaf member
    rw [← kind] at kinds
    refine absurd_of_joined (joined_of_spelled spelled ?_)
    simp only [List.mem_cons, List.not_mem_nil, or_false] at kinds other ⊢
    tauto
  · simp only [List.mem_cons, List.not_mem_nil, or_false] at names
    rcases names with rfl | rfl | rfl
    · obtain ⟨stop, isConstant, rfl⟩ :=
        Option.map_eq_some_iff.1 (Option.ite_none_right_eq_some.1 matched).2
      have isName := (Lexeme.capitalized_spelled (Option.filter_eq_some_iff.1 isConstant).1).1
      obtain ⟨_, span⟩ := eq_of_mem_matchPieces rfl member
      refine absurd_of_joined (Lexeme.joined_typeName ?_)
      rw [span, Span.bytes, Span.length, Nat.add_sub_cancel_left]
      exact isName
    · exact classifies_path begins matched member contains
    · exact classifies_call begins matched member contains

/-- Where a word begins that is content, no rule for names applies. -/
theorem wordKind_of_unmatched (begins : BeginsSmall (Text.bytes text) offset)
    (unmatched : Flint.grammar.firstMatch? Flint.grammar.rootRule.contains
      (Cursor.ofOffset (Text.bytes text) offset) = none) :
    let rest := (Text.bytes text).drop offset
    Flint.wordKind (rest.take (wordLength rest)) (rest.drop (wordLength rest)) =
      (Flint.keywords.classify (rest.take (wordLength rest))).getD .plain := by
  intro rest
  have wordStart := Lexeme.atWordStart_eq_true.2 begins.apart
  have small := begins.small_drop
  obtain ⟨pathListed, callListed, isPath, isCall⟩ := Flint.ground_names
  have noPath := Grammar.matchAt?_eq_none unmatched pathListed isPath
  have noCall := Grammar.matchAt?_eq_none unmatched callListed isCall
  change (if _ then (Lexeme.qualifiedPath rest).map _ else none) = none at noPath
  change (if _ then ((Lexeme.call rest).filter _).map _ else none) = none at noCall
  rw [if_pos wordStart, Option.map_eq_none_iff, Lexeme.qualifiedPath_of_small small,
    ite_eq_right_iff] at noPath
  rw [if_pos wordStart, Option.map_eq_none_iff, Lexeme.call_of_small small] at noCall
  refine Flint.wordKind_of_content (fun colons => nomatch noPath colons) ?_
  rintro ⟨free, calls⟩
  rw [if_pos calls, Option.filter_some, ite_eq_right_iff, Bool.not_eq_true', ← Bool.not_eq_true,
    Flint.reserves_iff] at noCall
  cases noCall free

theorem classifies_content (begins : BeginsSmall (Text.bytes text) offset)
    (border : Text.Border text start)
    (unmatched : Flint.grammar.firstMatch? Flint.grammar.rootRule.contains
      (Cursor.ofOffset (Text.bytes text) start) = none)
    (taken : Flint.grammar.rootRule.contentAt ((Text.bytes text).drop start) =
      .content kind length)
    (lower : start ≤ offset) (upper : offset < start + length) :
    Piece.Classifies text offset ⟨kind, ⟨start, start + length⟩⟩ := by
  rw [Flint.contentAt_root] at taken
  split at taken
  next noWord =>
    -- The letter would have to stand inside a character, or be one.
    obtain ⟨-, rfl⟩ := Action.content.inj taken
    obtain ⟨b, stands, small⟩ := begins.small
    rcases Nat.eq_or_lt_of_le lower with rfl | behind
    · have pos := (Lexeme.identifier_fits (Lexeme.identifier_of_small begins.small_drop)).pos
      exact absurd noWord (Nat.ne_of_gt pos)
    · exact absurd (Byte.isLower_ascii small) (border.not_ascii_within behind upper stands)
  next isWord =>
    obtain ⟨sorted, rfl⟩ := Action.content.inj taken
    obtain rfl := begins.eq_of_lt_wordLength lower upper
    exact ⟨sorted.symm.trans (wordKind_of_unmatched begins unmatched).symm, fun _ => rfl⟩

theorem Written.classifies (written : Written Flint.grammar options text forced mode reach p)
    (ground : mode.rule.isMode = false) (begins : BeginsSmall (Text.bytes text) offset)
    (contains : p.span.contains offset = true)
    (other : p.kind ∉ [Kind.comment, .string, .symbol, .error]) : p.Classifies text offset := by
  have root := written.rule_eq_root ground
  cases written with
  | opening _ opens =>
    rw [opens.isMode] at ground
    cases ground
  | closing opens =>
    rw [opens.isMode] at ground
    cases ground
  | leaf _ _ found leaf member =>
    exact classifies_leaf begins (root ▸ found) leaf member contains other
  | content before _ unmatched taken =>
    obtain ⟨lower, upper⟩ := Span.contains_eq_true.1 contains
    exact classifies_content begins (before.border Flint.grammar_lawful) (root ▸ unmatched)
      (root ▸ taken) lower upper
  | @flag start _ _ _ _ rejects found =>
    -- The flagged text has no letters.
    rw [root, Flint.grammar_watchful.illegal] at rejects
    obtain rfl := Option.some.inj rejects
    obtain ⟨stands, rfl⟩ := Matcher.matchAt?_literal.1 found
    have quiet : ∀ b ∈ Text.bytes "</", Byte.isLower b = false := by decide +kernel
    refine absurd (Joined.of_quiet ?_) (not_joined begins contains)
    rw [Span.bytes, Span.length, Nat.add_sub_cancel_left, Hit.whole,
      ← List.prefix_iff_eq_take.1 stands]
    exact quiet
  | error => simp at other

end Scan

/-! ## Highlighting -/

theorem Span.not_encloses {s inner : Span} {offset : Nat} (outside : s.contains offset = false)
    (contains : inner.contains offset = true) : ¬s.encloses inner = true := by
  rw [← Bool.not_eq_true, contains_eq_true] at outside
  rw [contains_eq_true] at contains
  rw [encloses_eq_true]
  omega

namespace Highlighter

variable {highlighter : Highlighter} {text : String} {offset : Nat}

/-- Outside all scopes, the ground mode wrote the piece under an offset. -/
theorem exists_written_ground (lawful : highlighter.language.grammar.Lawful)
    (grounded : highlighter.language.grammar.Grounded)
    (outside : ∀ s ∈ (highlighter.highlight text).outline.scopes, s.span.contains offset = false)
    {p : Piece} (member : p ∈ (highlighter.highlight text).outline.pieces)
    (contains : p.span.contains offset = true) :
    ∃ mode reach, Scan.Written highlighter.language.grammar highlighter.options text
      (highlighter.highlight text).Forced mode reach p ∧ mode.rule.isMode = false := by
  have tiles := (highlighter.tiles_highlight lawful text).1
  have conforms := highlighter.conforms_highlight lawful text (Scan.keeps_written grounded)
  obtain ⟨mode, reach, written, around⟩ := conforms.of_mem_pieces tiles p member offset contains
  rw [Outline.innermostAt?_eq_none.2 outside] at around
  refine ⟨mode, reach, written, ?_⟩
  by_contra isMode
  rw [Bool.not_eq_false] at isMode
  rw [Rule.modeKind?, if_pos isMode] at around
  cases around

/-- Outside all scopes, the piece under the first letter of a word gets its kind. -/
theorem classifies_outside {options : Scan.Options} (begins : BeginsSmall (Text.bytes text) offset)
    (outside : ∀ s ∈ ((default.withOptions options).highlight text).outline.scopes,
      s.span.contains offset = false)
    {p : Piece} (member : p ∈ ((default.withOptions options).highlight text).outline.pieces)
    (contains : p.span.contains offset = true)
    (other : p.kind ∉ [Kind.comment, .string, .symbol, .error]) : p.Classifies text offset := by
  obtain ⟨mode, reach, written, ground⟩ :=
    exists_written_ground Flint.grammar_lawful Flint.grammar_grounded outside member contains
  exact written.classifies ground begins contains other

end Highlighter

/-- With any options, a word outside all scopes that begins with a small letter gets the
kind that the lists and the text behind it give it, and is a token unless it is plain. -/
theorem words_classified_exactly (options : Scan.Options) (text : String)
    (small : text.utf8ByteSize ≤ 2 ^ 30) (offset : Nat)
    (begins : BeginsSmall (Text.bytes text) offset) :
    let result := (Highlighter.default.withOptions options).highlight text
    let rest := (Text.bytes text).drop offset
    let word := rest.takeWhile Byte.isIdentifier
    let behind := rest.dropWhile Byte.isIdentifier
    (∀ s ∈ result.scopes, s.span.contains offset = false) →
      (∃ token ∈ result.tokens.toList, token.span.contains offset = true) ∧
        ∀ token ∈ result.tokens.toList, token.span.contains offset = true →
          token.kind ∉ [Kind.comment, .string, .symbol, .error] →
            token.kind = Flint.wordKind word behind ∧
              (token.kind ≠ .plain → token.span = ⟨offset, offset + word.length⟩ ∧
                Text.bytes token.text = word) := by
  intro result rest word behind outside
  have tiles := (Highlighter.tiles_withOptions options text).1
  have runs := Highlighter.runs_withOptions options text
  have kinds : ∀ s ∈ result.outline.scopes, s.kind ≠ .plain :=
    ((Highlighter.default.withOptions options).conforms_highlight Flint.grammar_lawful text
      (Scan.keeps_written Flint.grammar_grounded)).of_mem_scopes tiles
  have isWord : rest.take (wordLength rest) = word := Byte.take_runLength Byte.isIdentifier rest
  have isBehind : rest.drop (wordLength rest) = behind := Byte.drop_runLength Byte.isIdentifier rest
  have inside : offset < text.utf8ByteSize := by
    obtain ⟨b, stands, _⟩ := begins.small
    rw [← Text.length_bytes]
    exact (List.getElem?_eq_some_iff.1 stands).1
  refine ⟨Token.exists_contains (runs.tiles tiles) (Nat.zero_le offset) inside,
    fun token member covers other => ?_⟩
  obtain ⟨p, inPieces, contains, kind⟩ := tiles.exists_piece runs member covers
  obtain ⟨isKind, _⟩ :=
    Highlighter.classifies_outside begins outside inPieces contains (kind ▸ other)
  rw [isWord, isBehind, kind] at isKind
  refine ⟨isKind, fun notPlain => ?_⟩
  -- Two pieces are joined only if they are plain or in a scope of their kind.
  have alone : ∀ s ∈ result.outline.scopes, s.kind = token.kind →
      ¬s.span.encloses token.span = true :=
    fun s inScopes _ => Span.not_encloses (outside s inScopes) covers
  obtain ⟨q, inPieces, kind, span, _⟩ :=
    tiles.exists_piece_of_alone runs (Scan.Numbering.short_of_le small) kinds member notPlain alone
  obtain ⟨_, whole⟩ :=
    Highlighter.classifies_outside begins outside inPieces (span ▸ covers) (kind ▸ other)
  have isSpan : token.span = ⟨offset, offset + wordLength rest⟩ := span ▸ whole (kind ▸ notPlain)
  have cut := (runs.covers tiles).slices token member
  rw [isSpan] at cut
  refine ⟨isSpan, ?_⟩
  rw [Text.bytes_of_slice? cut, Nat.add_sub_cancel_left]
  exact isWord

/-- A name that is called behind a letter of another script and a dot. -/
theorem words_classified_exactly_call :
    let text := "fn é.of \n(x)"
    let result := (Highlighter.default.withOptions ⟨64, true⟩).highlight text
    let token : Token := ⟨.function, ⟨6, 8⟩, "of"⟩
    (text.utf8ByteSize ≤ 2 ^ 30 ∧ BeginsSmall (Text.bytes text) 6 ∧ (∀ s ∈ result.scopes, s.span.contains 6 = false) ∧
        token ∈ result.tokens.toList ∧ token.span.contains 6 = true ∧
          token.kind ∉ [Kind.comment, .string, .symbol, .error]) ∧
      token.kind = Flint.wordKind (Text.bytes "of") (Text.bytes " \n(x)") := by
  intro text result token
  have small : text.utf8ByteSize ≤ 2 ^ 30 := by decide
  have begins : BeginsSmall (Text.bytes text) 6 :=
    ⟨⟨0x6f, by decide, by decide⟩, Lexeme.atWordStart_eq_true.1 (by decide)⟩
  have outside : ∀ s ∈ result.scopes, s.span.contains 6 = false := by decide
  have member : token ∈ result.tokens.toList := by decide
  refine ⟨⟨small, begins, outside, member, rfl, by decide⟩, ?_⟩
  exact (((words_classified_exactly ⟨64, true⟩ text small 6 begins outside).2 token member rfl
    (by decide)).1).trans (by decide)

end ModalHighlight
