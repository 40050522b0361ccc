import ModalHighlight.Proofs.Grammar.Spelling
import ModalHighlight.Proofs.Scan.Ended
import ModalHighlight.Proofs.Scan.Origins
import ModalHighlight.Proofs.Token.Coverage

/-! # Tokens are spelled as their kinds promise

A token outside the scopes of its kind is written at once: as the head of a header,
as the match of a leaf or as a reserved word among content.  Each time a recogniser
has looked at the text behind it as well, so the promise of its kind is kept there.
-/

namespace ModalHighlight

/-- A piece is spelled as its kind promises. -/
def Piece.Spelled (text : String) (p : Piece) : Prop :=
  Flint.Spells p.kind (p.span.bytes text) ((Text.bytes text).drop p.span.stop)

namespace Scan

variable {options : Options} {text : String} {forced : Force → Span → Prop}
variable {mode around : OpenMode} {rule : Rule} {hit : Hit} {offset length : Nat} {p : Piece}

theorem spelled_at {kind : Kind}
    (spells : Flint.Spells kind (((Text.bytes text).drop offset).take length)
      (((Text.bytes text).drop offset).drop length)) :
    Piece.Spelled text ⟨kind, ⟨offset, offset + length⟩⟩ := by
  rw [List.drop_drop] at spells
  simpa [Piece.Spelled, Span.bytes, Span.length] using spells

/-- A match that is not split is spelled as the kind of its rule promises. -/
theorem spelled_match (member : p ∈ matchPieces rule hit text offset)
    (whole : hit.headStop = hit.stop) (head : rule.head = .rule)
    (spells : Flint.Spells rule.kind (((Text.bytes text).drop offset).take hit.stop)
      (((Text.bytes text).drop offset).drop hit.stop)) : p.Spelled text := by
  obtain ⟨kind, span⟩ := eq_of_mem_matchPieces whole member
  simp only [Action.headKind, head] at kind
  have same : p = ⟨rule.kind, ⟨offset, offset + hit.stop⟩⟩ := by
    rw [← kind, ← span]
  rw [same]
  exact spelled_at spells

/-! ## Leaves -/

/-- A type name stands where no constant does. -/
theorem spelled_typeName {around : Rule} (known : Flint.grammar.Has around)
    (found : Flint.grammar.firstMatch? around.contains
      (Cursor.ofOffset (Text.bytes text) offset) = some (Flint.typeName, hit))
    (member : p ∈ matchPieces Flint.typeName hit text offset) : p.Spelled text := by
  obtain ⟨_, _, _, matched⟩ := Grammar.firstMatch?_eq_some found
  have other := Flint.grammar_triesBefore.1.unmatched known found
  obtain ⟨wordStart, matched⟩ := Option.ite_none_right_eq_some.1 matched
  obtain ⟨stop, isWord, rfl⟩ := Option.map_eq_some_iff.1 matched
  change (if _ then (Lexeme.screamingCase ((Text.bytes text).drop offset)).map Hit.whole
    else none) = none at other
  rw [if_pos wordStart, Option.map_eq_none_iff] at other
  exact spelled_match member rfl rfl (Flint.spells_type isWord other)

/-- A called name stands where no type name does. -/
theorem spelled_call {around : Rule} (known : Flint.grammar.Has around)
    (found : Flint.grammar.firstMatch? around.contains
      (Cursor.ofOffset (Text.bytes text) offset) = some (Flint.call, hit))
    (member : p ∈ matchPieces Flint.call hit text offset) : p.Spelled text := by
  obtain ⟨_, _, _, matched⟩ := Grammar.firstMatch?_eq_some found
  have other := Flint.grammar_triesBefore.2.unmatched known found
  obtain ⟨wordStart, matched⟩ := Option.ite_none_right_eq_some.1 matched
  obtain ⟨stop, called, rfl⟩ := Option.map_eq_some_iff.1 matched
  obtain ⟨isCall, free⟩ := Option.filter_eq_some_iff.1 called
  change (if _ then (Lexeme.capitalized ((Text.bytes text).drop offset)).map Hit.whole
    else none) = none at other
  rw [if_pos wordStart, Option.map_eq_none_iff] at other
  rw [Bool.not_eq_true'] at free
  exact spelled_match member rfl rfl (Flint.spells_call isCall other free)

theorem spelled_path (matched : Flint.qualifiedPath.opening.matchAt? 0
      (Cursor.ofOffset (Text.bytes text) offset) = some hit)
    (member : p ∈ matchPieces Flint.qualifiedPath hit text offset) : p.Spelled text := by
  obtain ⟨_, matched⟩ := Option.ite_none_right_eq_some.1 matched
  obtain ⟨⟨head, stop⟩, path, rfl⟩ := Option.map_eq_some_iff.1 matched
  obtain ⟨le, name, colons⟩ := Flint.spells_path path
  have member := (List.mem_filter.1 member).1
  simp only [List.mem_cons, List.not_mem_nil, or_false] at member
  rcases member with rfl | rfl
  · exact spelled_at name
  · have behind : offset + head + (stop - head) = offset + stop := by omega
    have spelled : Piece.Spelled text ⟨.operator, ⟨offset + head, offset + head + (stop - head)⟩⟩ := by
      refine spelled_at ?_
      rw [List.drop_drop, behind, ← List.drop_drop, ← List.drop_drop]
      exact colons
    rwa [behind] at spelled

/-- The leaves that promise nothing, those that are not split, and the one that is. -/
theorem leaf_rules : ∀ rule ∈ Flint.grammar.rules, rule.isMode = false →
    rule.head = .rule ∧ rule.kind ∈ [Kind.plain, .comment, .string] ∨
      rule ∈ [Flint.symbol, Flint.constant, Flint.typeName, Flint.arrow, Flint.operator,
        Flint.number, Flint.title, Flint.call] ∨
      rule = Flint.qualifiedPath := by
  decide

theorem spelled_leaf {around : Rule} (known : Flint.grammar.Has around)
    (found : Flint.grammar.firstMatch? around.contains
      (Cursor.ofOffset (Text.bytes text) offset) = some (rule, hit))
    (leaf : rule.isMode = false) (member : p ∈ matchPieces rule hit text offset) :
    p.Spelled text := by
  obtain ⟨id, _, isRule, matched⟩ := Grammar.firstMatch?_eq_some found
  rcases leaf_rules rule (Array.mem_of_getElem? isRule) leaf with
    ⟨head, silent⟩ | listed | rfl
  · -- The head and the rest of the match are of one kind, which promises nothing.
    have kind : p.kind = rule.kind := by
      rcases kind_of_mem_matchPieces member with kind | kind
      · rw [kind, Action.headKind, head]
      · exact kind
    simp only [List.mem_cons, List.not_mem_nil, or_false] at silent
    rw [Piece.Spelled, kind]
    rcases silent with same | same | same <;> rw [same] <;> trivial
  · simp only [List.mem_cons, List.not_mem_nil, or_false] at listed
    rcases listed with rfl | rfl | rfl | rfl | rfl | rfl | rfl | rfl
    · obtain ⟨stop, isSymbol, rfl⟩ := Option.map_eq_some_iff.1 matched
      refine spelled_match member rfl rfl ?_
      exact Lexeme.symbol_spelled isSymbol
    · obtain ⟨stop, isConstant, rfl⟩ :=
        Option.map_eq_some_iff.1 (Option.ite_none_right_eq_some.1 matched).2
      obtain ⟨spelled, ends⟩ := Lexeme.screamingCase_spelled isConstant
      refine spelled_match member rfl rfl ?_
      exact ⟨.inr spelled, ends⟩
    · exact spelled_typeName known found member
    · obtain ⟨stop, isArrow, rfl⟩ := Option.map_eq_some_iff.1 matched
      refine spelled_match member rfl rfl ?_
      exact Flint.spells_literal "->" (by decide) (by decide) isArrow
    · obtain ⟨stop, isOperator, rfl⟩ := Option.map_eq_some_iff.1 matched
      refine spelled_match member rfl rfl ?_
      exact Flint.spells_operator isOperator
    · obtain ⟨stop, isNumber, rfl⟩ :=
        Option.map_eq_some_iff.1 (Option.ite_none_right_eq_some.1 matched).2
      refine spelled_match member rfl rfl ?_
      exact Lexeme.number_spelled isNumber
    · obtain ⟨stop, isTitle, rfl⟩ := Option.map_eq_some_iff.1 matched
      refine spelled_match member rfl rfl ?_
      exact Lexeme.identifier_spelled isTitle
    · exact spelled_call known found member
  · exact spelled_path matched member

/-! ## Headers and content -/

theorem mode_rules : ∀ rule ∈ Flint.grammar.rules, rule.isMode = true →
    rule.head = .rule ∨ rule.head = .kind .keyword ∧
      ∃ words ∈ [["def"], Flint.typeHeaderWords], rule.opening = .keywordThenSpace words := by
  decide

theorem header_words_reserved : ∀ words ∈ [["def"], Flint.typeHeaderWords], ∀ word ∈ words,
    word ∈ Flint.keywords.keyword := by
  decide +kernel

/-- The head of a header is one of its words. -/
theorem spelled_opening (opens : Opens Flint.grammar options text around mode hit)
    (member : p ∈ matchPieces mode.rule hit text mode.start) (other : p.kind ≠ mode.rule.kind) :
    p.Spelled text := by
  obtain ⟨_, _, isRule, _⟩ := Grammar.firstMatch?_eq_some opens.found
  rcases mode_rules mode.rule (Array.mem_of_getElem? isRule) opens.isMode with
    head | ⟨head, words, isHeader, opening⟩
  · rcases kind_of_mem_matchPieces member with kind | kind
    · rw [Action.headKind, head] at kind
      exact absurd kind other
    · exact absurd kind other
  · have matched := opens.matched
    rw [opening] at matched
    obtain ⟨length, found, rfl⟩ :=
      Option.map_eq_some_iff.1 (Option.ite_none_right_eq_some.1 matched).2
    obtain ⟨kind, span⟩ := eq_of_mem_matchPieces rfl member
    simp only [Action.headKind, head] at kind
    have same : p = ⟨.keyword, ⟨mode.start, mode.start + length⟩⟩ := by
      rw [← kind, ← show p.span = ⟨mode.start, mode.start + length⟩ from span]
    rw [same]
    exact spelled_at (Flint.spells_keyword (header_words_reserved words isHeader) found)

/-- Content has the kind of its mode, or is a word that a table sorts. -/
theorem reserved_of_contentAt {rest : List UInt8} {kind : Kind}
    (taken : rule.contentAt rest = .content kind length) :
    kind = rule.kind ∨ ∃ table ∈ rule.keywords,
      length = Lexeme.wordLength rest ∧ table.classify (rest.take length) = some kind := by
  rw [Rule.contentAt] at taken
  split at taken
  next =>
    rw [Action.eachContent] at taken
    split at taken
    next => exact .inl (Action.content.inj taken).1.symm
    next others isWord =>
      obtain ⟨sorted, rfl⟩ := Action.content.inj taken
      cases words : rule.keywords with
      | none => exact .inl (by simpa [words] using sorted.symm)
      | some table =>
        cases found : table.classify (rest.take (others + 1)) with
        | none => exact .inl (by simpa [words, found] using sorted.symm)
        | some inner =>
          refine .inr ⟨table, rfl, isWord.symm, found.trans ?_⟩
          simpa [words, found] using sorted
  next => exact .inl (Action.content.inj taken).1.symm

theorem keywords_eq : ∀ rule ∈ Flint.grammar.rootRule :: Flint.grammar.rules.toList,
    ∀ table ∈ rule.keywords, table = Flint.keywords := by
  decide

theorem spelled_content {kind : Kind} (known : Flint.grammar.Has rule)
    (taken : rule.contentAt ((Text.bytes text).drop offset) = .content kind length)
    (other : kind ≠ rule.kind) : Piece.Spelled text ⟨kind, ⟨offset, offset + length⟩⟩ := by
  obtain ⟨table, isTable, rfl, found⟩ := (reserved_of_contentAt taken).resolve_left other
  obtain rfl := keywords_eq rule known.mem_table table isTable
  exact spelled_at (Flint.spells_reserved found)

/-- Whatever is written into a mode of another kind is spelled as its kind promises. -/
theorem Written.spelled {reach : Nat}
    (written : Written Flint.grammar options text forced mode reach p)
    (other : mode.rule.modeKind? ≠ some p.kind) : p.Spelled text := by
  have apart : mode.rule.isMode = true → p.kind ≠ mode.rule.kind := by
    intro isMode same
    rw [Rule.modeKind?, if_pos isMode, same] at other
    exact other rfl
  cases written with
  | opening _ opens member => exact spelled_opening opens member (apart opens.isMode)
  | leaf before _ found leaf member => exact spelled_leaf before.known found leaf member
  | @content offset length kind before _ _ taken =>
    by_cases isMode : mode.rule.isMode = true
    · exact spelled_content before.known taken (apart isMode)
    · have ground := before.rule_eq_root (Bool.not_eq_true _ ▸ isMode)
      by_cases plain : kind = mode.rule.kind
      · rw [ground, Flint.grammar_grounded.root] at plain
        subst plain
        trivial
      · exact spelled_content before.known taken plain
  | flag => trivial
  | closing opens => exact absurd rfl (apart opens.isMode)
  | error => trivial

end Scan

/-! ## Highlighting -/

theorem Flint.kind_of_mode : ∀ rule ∈ grammar.rules, rule.isMode = true →
    rule.kind ∈ [Kind.comment, .string, .subst, .function, .classHeader] := by
  decide

/-- With any options, every token is spelled as its kind promises, but for content of
function headers. -/
theorem tokens_spelled (options : Scan.Options) (text : String)
    (small : text.utf8ByteSize ≤ 2 ^ 30) :
    let result := (Highlighter.default.withOptions options).highlight text
    ∀ token ∈ result.tokens.toList,
      (token.kind = .function →
        ∀ s ∈ result.scopes, s.kind = .function → s.span.encloses token.span = false) →
      Flint.Spells token.kind (Text.bytes token.text)
        ((Text.bytes text).drop token.span.stop) := by
  intro result token member outside
  have tiles := (Highlighter.tiles_withOptions options text).1
  have slice := ((Highlighter.runs_withOptions options text).covers tiles).slices token member
  have spelling : Text.bytes token.text = token.span.bytes text := Text.bytes_of_slice? slice
  rw [spelling]
  by_cases silent : token.kind ∈ [Kind.plain, .comment, .string, .subst, .classHeader]
  · simp only [List.mem_cons, List.not_mem_nil, or_false] at silent
    rcases silent with same | same | same | same | same <;> rw [same] <;> trivial
  have alone : ∀ s ∈ result.scopes, s.kind = token.kind → ¬s.span.encloses token.span = true := by
    intro s inScopes same
    by_cases isFunction : token.kind = .function
    · simpa using outside isFunction s inScopes (same.trans isFunction)
    · obtain ⟨mode, ended, kind, _⟩ :=
        (Highlighter.default.withOptions options).exists_ended Flint.grammar_lawful text inScopes
      have ofMode := Flint.kind_of_mode _ (ended.mem_rules Flint.grammar_lawful) ended.isMode
      rw [kind, same] at ofMode
      simp only [List.mem_cons, List.not_mem_nil, or_false] at ofMode silent
      tauto
  have other : token.kind ≠ .plain := fun plain => silent (by simp [plain])
  obtain ⟨mode, reach, written, apart⟩ := Highlighter.exists_written Flint.grammar_lawful
    Flint.grammar_accountable Flint.grammar_grounded (Scan.Numbering.short_of_le small) member other
    alone
  exact written.spelled apart

/-- A name that is called behind the header of a function. -/
theorem tokens_spelled_call :
    let text := "def g(x) f (x)"
    let result := (Highlighter.default.withOptions ⟨64, true⟩).highlight text
    let token : Token := ⟨.function, ⟨9, 10⟩, "f"⟩
    (text.utf8ByteSize ≤ 2 ^ 30 ∧ token ∈ result.tokens.toList ∧
        ⟨.function, ⟨0, 5⟩⟩ ∈ result.scopes ∧
        ∀ s ∈ result.scopes, s.kind = .function → s.span.encloses token.span = false) ∧
      Flint.Spells .function (Text.bytes "f") ((Text.bytes text).drop 10) :=
  have small : "def g(x) f (x)".utf8ByteSize ≤ 2 ^ 30 := by decide
  have member : (⟨.function, ⟨9, 10⟩, "f"⟩ : Token) ∈ ((Highlighter.default.withOptions
      ⟨64, true⟩).highlight "def g(x) f (x)").tokens.toList := by
    decide
  have header : (⟨.function, ⟨0, 5⟩⟩ : Scope) ∈ ((Highlighter.default.withOptions
      ⟨64, true⟩).highlight "def g(x) f (x)").scopes := by
    decide
  have outside : ∀ s ∈ ((Highlighter.default.withOptions ⟨64, true⟩).highlight
      "def g(x) f (x)").scopes, s.kind = .function → s.span.encloses ⟨9, 10⟩ = false := by
    decide
  ⟨⟨small, member, header, outside⟩,
    tokens_spelled ⟨64, true⟩ "def g(x) f (x)" small _ member fun _ => outside⟩

end ModalHighlight
