import ModalHighlight.Proofs.Scan.Bodies
import ModalHighlight.Proofs.Token.Neighbours

/-! # Plain text

Plain text is what is content of the ground mode.  The one exception is a name
in front of `::`, which is plain inside other modes as well if it is not that of
a built-in type.  The colon behind it sees to it that such a name never meets
other plain text, and so any two pieces of plain text that meet are one token.
-/

namespace ModalHighlight

/-! ## Names in front of a colon -/

/-- A piece inside a scope is a name, and a colon follows it there. -/
structure Piece.HeadsPath (text : String) (s : Scope) (p : Piece) : Prop where
  behind : s.span.start < p.span.start
  before : p.span.stop < s.span.stop
  name : ∃ b, (Text.bytes text)[p.span.start]? = some b ∧ Byte.isIdentifierStart b = true
  colon : (Text.bytes text)[p.span.stop]? = some 0x3a

theorem Lexeme.of_qualifiedPath {text : List UInt8} {head length : Nat}
    (found : qualifiedPath text = some (head, length)) :
    (∃ b, text[0]? = some b ∧ Byte.isIdentifierStart b = true) ∧
      text[head]? = some 0x3a ∧ head < length := by
  cases word : identifier text with
  | none => simp [qualifiedPath, word] at found
  | some name =>
    simp only [qualifiedPath, word, Option.ite_none_right_eq_some, Option.some.injEq,
      Prod.mk.injEq, List.isPrefixOf_iff_prefix] at found
    obtain ⟨⟨behind, colons⟩, rfl, rfl⟩ := found
    refine ⟨?_, ?_, Nat.lt_add_of_pos_right (by decide)⟩
    · cases text with
      | nil => cases word
      | cons lead more => exact ⟨lead, rfl, (Option.ite_none_right_eq_some.1 word).1⟩
    · have first := congrArg (·[0]?) colons
      rw [List.getElem?_drop, Nat.add_zero] at first
      exact first.symm

/-- A grammar in which the ground mode is plain, and in other modes nothing is but
the heads of qualified paths. -/
structure Grammar.Grounded (grammar : Grammar) : Prop where
  root : grammar.rootRule.kind = .plain
  modes : ∀ rule ∈ grammar.rules, rule.isMode = true →
    .plain ∉ rule.leafKinds ++ rule.contentKinds
  leaves : ∀ rule ∈ grammar.rules, rule.isMode = true → ∀ id ∈ rule.contains,
    ∀ inner ∈ grammar.rule? id, inner.isMode = false →
      .plain ∉ inner.leafKinds ∨ inner.opening = .qualifiedPath ∧ inner.kind ≠ .plain

theorem Flint.grammar_grounded : Flint.grammar.Grounded := by
  constructor <;> decide

theorem Grammar.Grounded.mode_kind {grammar : Grammar} (grounded : grammar.Grounded) {rule : Rule}
    (known : rule ∈ grammar.rules) (isMode : rule.isMode = true) : rule.kind ≠ .plain := by
  intro plain
  exact grounded.modes rule known isMode (plain ▸ List.mem_append_left _ List.mem_cons_self)

namespace Scan

variable {grammar : Grammar} {options : Options} {text : String}
variable {forced : Force → Span → Prop} {mode : OpenMode} {reach limit : Nat} {p : Piece}

/-- Plain text that is written into a mode heads a path, wherever the mode will stop. -/
theorem Written.headsPath (written : Written grammar options text forced mode reach p)
    (lawful : grammar.Lawful) (grounded : grammar.Grounded) (isMode : mode.rule.isMode = true)
    (within : reach ≤ limit) (plain : p.kind = .plain) :
    p.HeadsPath text ⟨mode.rule.kind, ⟨mode.start, limit⟩⟩ := by
  have known : mode.rule ∈ grammar.rules := written.mem_rules lawful isMode
  have others := grounded.modes _ known isMode
  cases written with
  | opening _ _ member =>
    exact absurd (List.mem_append_left _ (plain ▸ kind_mem_leafKinds member)) others
  | @leaf rule offset hit _ before _ found leaf member =>
    obtain ⟨id, listed, rule?, matched⟩ := Grammar.firstMatch?_eq_some found
    rcases grounded.leaves _ known isMode id listed rule rule? leaf with other | ⟨path, kind⟩
    · exact absurd (plain ▸ kind_mem_leafKinds member) other
    · rw [path, Matcher.matchAt?, Matcher.match?] at matched
      obtain ⟨⟨head, stop⟩, isPath, rfl⟩ :=
        Option.map_eq_some_iff.1 (Option.ite_none_right_eq_some.1 matched).2
      obtain ⟨⟨lead, first, starts⟩, colon, shorter⟩ := Lexeme.of_qualifiedPath isPath
      -- What is left of the match is an operator, so the piece is the head.
      have isHead : p.span = ⟨offset, offset + head⟩ := by
        have member := (List.mem_filter.1 member).1
        simp only [List.mem_cons, List.not_mem_nil, or_false] at member
        rcases member with rfl | rfl
        · rfl
        · exact absurd plain kind
      constructor
      · rw [isHead]
        exact before.start_lt lawful isMode
      · rw [isHead]
        exact Nat.lt_of_lt_of_le (Nat.add_lt_add_left shorter offset) within
      · have start : (Text.bytes text)[offset]? = some lead := by
          rwa [Cursor.ofOffset, List.getElem?_drop, Nat.add_zero] at first
        exact ⟨lead, isHead ▸ start, starts⟩
      · rw [Cursor.ofOffset, List.getElem?_drop] at colon
        rwa [isHead]
  | content _ _ _ taken =>
    exact absurd (List.mem_append_right _ (plain ▸ contentAt_mem taken)) others
  | flag _ ground =>
    rw [isMode] at ground
    cases ground
  | closing => exact absurd plain (grounded.mode_kind known isMode)
  | error => cases plain

theorem keeps_headsPath (lawful : grammar.Lawful) (grounded : grammar.Grounded) :
    Keeps grammar options text forced (fun _ s => s.kind ≠ .plain)
      fun innermost p => p.kind = .plain → ∀ s ∈ innermost, p.HeadsPath text s where
  fitting _ opens _ _ := by
    obtain ⟨_, _, rule?, _⟩ := Grammar.firstMatch?_eq_some opens.found
    exact grounded.mode_kind (Array.mem_of_getElem? rule?) opens.isMode
  allowed written _ _ within plain s extent := by
    obtain ⟨isMode, isExtent⟩ := Option.ite_none_right_eq_some.1 extent
    exact Option.some.inj isExtent ▸ written.headsPath lawful grounded isMode within plain

end Scan

/-! ## Plain text that meets -/

namespace Outline.Conforms

variable {border : Nat → Prop} {start stop : Nat} {outline : Outline} {text : String}
variable {left right : Piece}

/-- Around plain text that meets there are no scopes. -/
theorem around_eq_nil
    (conforms : outline.Conforms (fun _ s => s.kind ≠ .plain)
      (fun innermost p => p.kind = .plain → ∀ s ∈ innermost, p.HeadsPath text s) none)
    (tiles : Tiles border start stop outline) (neighbours : [left, right] <:+: outline.pieces)
    (plainLeft : left.kind = .plain) (plainRight : right.kind = .plain) :
    Scope.around outline.scopes left.span.start = [] ∧
      Scope.around outline.scopes right.span.start = [] := by
  obtain ⟨⟨inLeft, properLeft⟩, ⟨inRight, properRight⟩, meet⟩ := tiles.of_neighbours neighbours
  -- Inside a scope, a plain piece heads a path, wherever it is looked at.
  have heads : ∀ p ∈ outline.pieces, p.kind = .plain → ∀ offset,
      p.span.contains offset = true → Scope.around outline.scopes offset ≠ [] →
      ∃ s ∈ Scope.around outline.scopes offset, p.HeadsPath text s := by
    intro p member plain offset contains inside
    refine ⟨_, List.getLast_mem inside, ?_⟩
    refine conforms.of_mem_pieces tiles p member offset contains plain _ ?_
    rw [Option.or_none, Scope.innermostAt?, List.getLast?_eq_some_getLast inside]
    rfl
  have noneRight : Scope.around outline.scopes right.span.start = [] := by
    by_contra inside
    obtain ⟨s, around, heading⟩ := heads right inRight plainRight _
      (Span.contains_eq_true.2 ⟨Nat.le_refl _, properRight⟩) inside
    have inScopes := (List.mem_filter.1 around).1
    have begins := heading.behind
    have ends := heading.before
    -- The scope begins further left, so the left piece heads a path as well, and a
    -- colon stands where the right one begins.
    have aroundLeft : s ∈ Scope.around outline.scopes (left.span.stop - 1) :=
      List.mem_filter.2 ⟨inScopes, Span.contains_eq_true.2 (by omega)⟩
    obtain ⟨_, _, headingLeft⟩ := heads left inLeft plainLeft _
      (Span.contains_eq_true.2 (by omega)) (List.ne_nil_of_mem aroundLeft)
    obtain ⟨lead, first, starts⟩ := heading.name
    rw [meet, headingLeft.colon] at first
    obtain rfl := Option.some.inj first
    exact absurd starts (by decide)
  refine ⟨?_, noneRight⟩
  by_contra inside
  obtain ⟨s, around, heading⟩ := heads left inLeft plainLeft _
    (Span.contains_eq_true.2 ⟨Nat.le_refl _, properLeft⟩) inside
  have begins := heading.behind
  have ends := heading.before
  have aroundRight : s ∈ Scope.around outline.scopes right.span.start :=
    List.mem_filter.2 ⟨(List.mem_filter.1 around).1, Span.contains_eq_true.2 (by omega)⟩
  rw [noneRight] at aroundRight
  cases aroundRight

/-- Two tokens of plain text never meet. -/
theorem plain_apart
    (conforms : outline.Conforms (fun _ s => s.kind ≠ .plain)
      (fun innermost p => p.kind = .plain → ∀ s ∈ innermost, p.HeadsPath text s) none)
    (tiles : Tiles border start stop outline) {exact : Prop} {source : String}
    {tokens : List Token} (runs : Token.Runs exact source outline.segments tokens)
    (isExact : exact) :
    tokens.IsChain fun first second => ¬(first.kind = .plain ∧ second.kind = .plain) := by
  refine List.isChain_iff_forall_rel_of_append_cons_cons.2 ?_
  rintro first second before behind whole ⟨plainFirst, plainSecond⟩
  obtain ⟨left, right, neighbours, kindLeft, kindRight, apart⟩ :=
    tiles.exists_neighbours_across runs whole
  have plainLeft := kindLeft.trans plainFirst
  have plainRight := kindRight.trans plainSecond
  obtain ⟨noneLeft, noneRight⟩ := conforms.around_eq_nil tiles neighbours plainLeft plainRight
  refine apart ((tiles.exists_token_iff runs isExact (conforms.of_mem_scopes tiles)
    neighbours).2 ?_)
  simp [Piece.IsContent, Scope.innermost?, Scope.chain?, noneLeft, noneRight, plainLeft, plainRight]

end Outline.Conforms

end ModalHighlight
