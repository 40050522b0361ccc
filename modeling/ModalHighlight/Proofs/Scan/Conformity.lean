import ModalHighlight.Proofs.Lexeme.Lookahead
import ModalHighlight.Proofs.Scan.Bodies
import ModalHighlight.Proofs.Scan.Coalescing

/-! # Tokens and scopes conform to the rules

Where a scope may lie and which kinds of text stand directly in it can be read
off the rules, and is checked for the rules of Flint by evaluation.  That tokens
keep to it, although they run across the borders of modes and are taken back
with modes that are given up, is a property of the outline that they come from.
-/

namespace ModalHighlight

/-! ## The rules as they are read -/

/-- The bytes of a text that a span covers. -/
def Span.bytes (s : Span) (text : String) : List UInt8 :=
  ((Text.bytes text).drop s.start).take s.length

/-- Where a scope may lie: the scope around it is as given, or there is none. -/
def Scope.Placed (text : String) (parent : Option Scope) (s : Scope) : Prop :=
  match s.kind with
  | .comment => ∀ outer ∈ parent, outer.kind = .subst ∨ outer.kind = .comment
  | .string | .function | .classHeader => ∀ outer ∈ parent, outer.kind = .subst
  | .subst => ∃ outer ∈ parent, outer.kind = .subst ∨
      outer.kind = .string ∧ Text.bytes "$\"" <+: outer.span.bytes text
  | _ => False

/-- The kind that a byte may have whose innermost scope is as given. -/
def Scope.Holds (text : String) (innermost : Option Scope) (offset : Nat) (kind : Kind) : Prop :=
  match innermost with
  | none => kind ∉ [Kind.subst, .title, .classHeader]
  | some s =>
    match s.kind with
    | .comment => kind = .comment
    | .string => kind = .string
    | .subst => kind ∉ [Kind.keyword, .title, .classHeader, .illegal]
    | .function => Text.bytes "def" <+: s.span.bytes text ∧
        (kind = .keyword ↔ offset < s.span.start + 3) ∧ kind ∈ [Kind.keyword, .function, .title]
    | .classHeader =>
        (kind = .keyword ↔ offset < s.span.start + Lexeme.wordLength (s.span.bytes text)) ∧
          kind ∈ [Kind.keyword, .classHeader, .title]
    | _ => False

/-! ## The rules of a grammar -/

namespace Kind

def isHeader : Kind → Bool
  | function | classHeader => true
  | _ => false

/-- The kinds of text in a mode of a kind, or in the ground mode, behind what
opened it. -/
def bodyOf : Option Kind → List Kind
  | none => all.filter (· ∉ [subst, title, classHeader])
  | some comment => [comment]
  | some string => [string]
  | some subst => all.filter (· ∉ [keyword, title, classHeader, illegal])
  | some function => [function, title]
  | some classHeader => [classHeader, title]
  | some _ => []

end Kind

namespace Rule

/-- What a mode is a mode of; nothing in the case of the ground mode. -/
def modeKind? (rule : Rule) : Option Kind := if rule.isMode then some rule.kind else none

/-- A mode may open inside another one. -/
def mayHold (around inner : Rule) : Bool :=
  match inner.kind with
  | .comment => around.modeKind? ∈ [none, some Kind.subst, some .comment]
  | .string | .function | .classHeader => around.modeKind? ∈ [none, some Kind.subst]
  | .subst => around.modeKind? = some .subst ∨
      around.modeKind? = some .string ∧ around.opening = .literal "$\""
  | _ => false

/-- What opens a mode has the kind of the mode, unless it is the word that opens
a header. -/
def headed (rule : Rule) : Bool :=
  if rule.kind.isHeader then
    rule.head = .kind .keyword && match rule.opening with
      | .keywordThenSpace words => rule.kind = .classHeader || words = ["def"]
      | _ => false
  else rule.head = .rule && rule.kind ∈ Kind.bodyOf (some rule.kind)

end Rule

/-- A grammar whose modes are those of Flint as far as their kinds are concerned. -/
structure Grammar.Conforming (grammar : Grammar) : Prop where
  body : ∀ rule ∈ grammar.rootRule :: grammar.rules.toList,
    rule = grammar.rootRule ∨ rule.isMode = true →
      ∀ kind ∈ grammar.bodyKinds rule, kind ∈ Kind.bodyOf rule.modeKind?
  headed : ∀ rule ∈ grammar.rules, rule.isMode = true → rule.headed = true
  placed : ∀ rule ∈ grammar.rootRule :: grammar.rules.toList, ∀ id ∈ rule.contains,
    ∀ inner ∈ grammar.rule? id, inner.isMode = true → rule.mayHold inner = true

theorem Flint.grammar_conforming : Flint.grammar.Conforming := by
  constructor <;> decide

/-! ## Headers -/

namespace Lexeme

variable {rest : List UInt8} {length : Nat}

theorem runLength_take {inClass : UInt8 → Bool} {text : List UInt8}
    (within : Byte.runLength inClass text ≤ length) :
    Byte.runLength inClass (text.take length) = Byte.runLength inClass text := by
  induction text generalizing length with
  | nil => simp
  | cons lead more ih =>
    cases isIn : inClass lead with
    | false => cases length <;> simp [Byte.runLength, isIn]
    | true =>
      have one : Byte.runLength inClass (lead :: more) = Byte.runLength inClass more + 1 := by
        simp [Byte.runLength, isIn]
      rw [one] at within ⊢
      cases length with
      | zero => exact absurd within (Nat.not_succ_le_zero _)
      | succ length =>
        rw [← ih (Nat.le_of_succ_le_succ within)]
        simp [Byte.runLength, isIn]

theorem wordLength_of_keywordBeforeBlank {words : List String}
    (found : keywordBeforeBlank words rest = some length) :
    length = wordLength rest ∧ ∃ word ∈ words, Text.bytes word = rest.take length := by
  obtain ⟨word, listed⟩ := Option.filter_eq_some_iff.1 found
  simp only [Bool.and_eq_true, List.any_eq_true, beq_iff_eq] at listed
  exact ⟨wordFrom_eq_some word, listed.1⟩

end Lexeme

namespace Scan

variable {grammar : Grammar} {options : Options} {text : String}
variable {forced : Force → Span → Prop} {phase : Phase} {mode around : OpenMode}
variable {offset limit reach : Nat} {p : Piece}

theorem bytes_of_le {start stop : Nat} (text : String) (front : List UInt8)
    (stands : front <+: (Text.bytes text).drop start) (within : start + front.length ≤ stop) :
    front <+: (⟨start, stop⟩ : Span).bytes text := by
  rw [Span.bytes, Span.length]
  exact List.prefix_take_iff.2 ⟨stands, by simp only; omega⟩

/-- The word that opens a header is all of what opens it. -/
structure Heads (text : String) (mode : OpenMode) (hit : Hit) : Prop where
  word : hit.stop = Lexeme.wordLength ((Text.bytes text).drop mode.start)
  whole : hit.headStop = hit.stop
  isDef : mode.rule.kind = .function →
    Text.bytes "def" <+: (Text.bytes text).drop mode.start ∧ hit.stop = 3

theorem heads_of_matchAt? (conforming : grammar.Conforming) (known : mode.rule ∈ grammar.rules)
    (isMode : mode.rule.isMode = true) (header : mode.rule.kind.isHeader = true) {hit : Hit}
    (matched : mode.rule.opening.matchAt? 0
      (Cursor.ofOffset (Text.bytes text) mode.start) = some hit) : Heads text mode hit := by
  have headed := conforming.headed _ known isMode
  rw [Rule.headed, if_pos header, Bool.and_eq_true] at headed
  cases opening : mode.rule.opening with
  | keywordThenSpace words =>
    rw [opening] at matched headed
    obtain ⟨stop, found, rfl⟩ :=
      Option.map_eq_some_iff.1 (Option.ite_none_right_eq_some.1 matched).2
    obtain ⟨word, w, listed, same⟩ := Lexeme.wordLength_of_keywordBeforeBlank found
    refine ⟨word, rfl, fun isFunction => ?_⟩
    have only : words = ["def"] := by simpa [isFunction] using headed.2
    subst only
    obtain rfl := List.mem_singleton.1 listed
    have inside : stop ≤ ((Text.bytes text).drop mode.start).length :=
      word.trans_le (Byte.runLength_le _ _)
    have stands : Text.bytes "def" = ((Text.bytes text).drop mode.start).take stop := same
    have size := congrArg List.length stands
    rw [List.length_take, Nat.min_eq_left inside] at size
    exact ⟨stands ▸ List.take_prefix _ _, size.symm⟩
  | _ =>
    rw [opening] at headed
    cases headed.2

/-! ## Scopes -/

theorem OpenMode.exists_extent? {mode : OpenMode} {kind : Kind}
    (isKind : mode.rule.modeKind? = some kind) (stop : Nat) :
    mode.rule.isMode = true ∧ mode.extent? stop = some ⟨kind, ⟨mode.start, stop⟩⟩ := by
  obtain ⟨isMode, same⟩ := Option.ite_none_right_eq_some.1 isKind
  obtain rfl := Option.some.inj same
  exact ⟨isMode, if_pos isMode⟩

theorem OpenMode.modeKind?_of_extent? {mode : OpenMode} {stop : Nat} {outer : Scope}
    (extent : mode.extent? stop = some outer) : mode.rule.modeKind? = some outer.kind := by
  obtain ⟨isMode, same⟩ := Option.ite_none_right_eq_some.1 extent
  obtain rfl := Option.some.inj same
  exact if_pos isMode

/-- An interpolated string that has grown begins with its opening. -/
theorem Grown.bytes_extent? (grown : Grown grammar options text forced phase mode offset)
    (lawful : grammar.Lawful) (within : offset ≤ limit) (isMode : mode.rule.isMode = true)
    {expected : String} (opening : mode.rule.opening = .literal expected) :
    Text.bytes expected <+: (⟨mode.start, limit⟩ : Span).bytes text := by
  obtain ⟨hit, found, _, reaches⟩ := grown.exists_opening lawful isMode
  rw [opening, Matcher.matchAt?, Matcher.match?] at found
  obtain ⟨stop, literal, rfl⟩ := Option.map_eq_some_iff.1 found
  rw [Lexeme.literal, Option.ite_none_right_eq_some, List.isPrefixOf_iff_prefix] at literal
  obtain ⟨stands, size⟩ := literal
  obtain rfl := Option.some.inj size
  exact bytes_of_le text _ stands (Nat.le_trans reaches within)

theorem Grown.placed (below : Grown grammar options text forced .growing around mode.start)
    (lawful : grammar.Lawful) (conforming : grammar.Conforming) {hit : Hit} {stop : Nat}
    (opens : Opens grammar options text around mode hit) (reaches : mode.start ≤ limit) :
    Scope.Placed text (around.extent? limit) ⟨mode.rule.kind, ⟨mode.start, stop⟩⟩ := by
  obtain ⟨id, listed, rule?, _⟩ := Grammar.firstMatch?_eq_some opens.found
  have holds := conforming.placed _ below.mem_table id listed _ rule? opens.isMode
  -- The two tables have the same rows, the one by rules and the other by scopes.
  cases kind : mode.rule.kind with
  | comment =>
    simp only [Rule.mayHold, kind] at holds
    intro outer extent
    rw [OpenMode.modeKind?_of_extent? extent] at holds
    simpa using holds
  | string | function | classHeader =>
    simp only [Rule.mayHold, kind] at holds
    intro outer extent
    rw [OpenMode.modeKind?_of_extent? extent] at holds
    simpa using holds
  | subst =>
    simp only [Rule.mayHold, kind] at holds
    rcases of_decide_eq_true holds with subst | ⟨string, opening⟩
    · exact ⟨_, (OpenMode.exists_extent? subst limit).2, .inl rfl⟩
    · obtain ⟨isMode, extent⟩ := OpenMode.exists_extent? string limit
      exact ⟨_, extent, .inr ⟨rfl, below.bytes_extent? lawful reaches isMode opening⟩⟩
  | _ =>
    simp only [Rule.mayHold, kind] at holds
    cases holds

/-! ## Pieces -/

theorem Written.body_of_mode (written : Written grammar options text forced mode reach p)
    (lawful : grammar.Lawful) (conforming : grammar.Conforming)
    (isMode : mode.rule.isMode = true) (member : p.kind ∈ grammar.bodyKinds mode.rule) :
    p.kind ∈ Kind.bodyOf (some mode.rule.kind) := by
  have known := List.mem_cons_of_mem grammar.rootRule
    (Array.mem_toList_iff.2 (written.mem_rules lawful isMode))
  have body := conforming.body _ known (.inr isMode) p.kind member
  rwa [Rule.modeKind?, if_pos isMode] at body

/-- Without a heading, what opens a mode is like the rest of it. -/
theorem Written.kind_mem (written : Written grammar options text forced mode reach p)
    (lawful : grammar.Lawful) (conforming : grammar.Conforming)
    (isMode : mode.rule.isMode = true) (other : mode.rule.kind.isHeader = false) :
    p.kind ∈ Kind.bodyOf (some mode.rule.kind) := by
  rcases written.opening_or_body lawful with ⟨_, _, opens, member⟩ | ⟨member, _⟩
  · have headed := conforming.headed _ (written.mem_rules lawful isMode) isMode
    rw [Rule.headed, other, if_neg Bool.false_ne_true, Bool.and_eq_true, decide_eq_true_eq,
      decide_eq_true_eq] at headed
    obtain ⟨head, own⟩ := headed
    rcases kind_of_mem_matchPieces member with heading | same
    · rw [heading, Action.headKind, head]
      exact own
    · exact same ▸ own
  · exact written.body_of_mode lawful conforming isMode member

theorem eq_of_mem_matchPieces {rule : Rule} {hit : Hit} (whole : hit.headStop = hit.stop)
    (member : p ∈ matchPieces rule hit text offset) :
    p.kind = Action.headKind rule (((Text.bytes text).drop offset).take hit.headStop) ∧
      p.span = ⟨offset, offset + hit.stop⟩ := by
  obtain ⟨member, proper⟩ := List.mem_filter.1 member
  simp only [List.mem_cons, List.not_mem_nil, or_false] at member
  rcases member with rfl | rfl
  · exact ⟨rfl, by rw [whole]⟩
  · simp [Span.isEmpty, whole] at proper

/-- In a header, the heading comes first and is the only keyword. -/
theorem Written.heading_or_body (written : Written grammar options text forced mode reach p)
    (lawful : grammar.Lawful) (conforming : grammar.Conforming)
    (isMode : mode.rule.isMode = true) (header : mode.rule.kind.isHeader = true) :
    ∃ hit, Heads text mode hit ∧
      ((p.kind = .keyword ∧ p.span = ⟨mode.start, mode.start + hit.stop⟩) ∨
        (p.kind ∈ Kind.bodyOf (some mode.rule.kind) ∧ mode.start + hit.stop ≤ p.span.start)) := by
  have known := written.mem_rules lawful isMode
  rcases written.opening_or_body lawful with ⟨_, hit, opens, member⟩ | ⟨member, _, behind, grown⟩
  · have heads := heads_of_matchAt? conforming known isMode header opens.matched
    obtain ⟨kind, span⟩ := eq_of_mem_matchPieces heads.whole member
    have headed := conforming.headed _ known isMode
    rw [Rule.headed, if_pos header, Bool.and_eq_true, decide_eq_true_eq] at headed
    refine ⟨hit, heads, .inl ⟨?_, span⟩⟩
    rw [kind, Action.headKind, headed.1]
  · obtain ⟨hit, matched, _, reaches⟩ := grown.exists_opening lawful isMode
    exact ⟨hit, heads_of_matchAt? conforming known isMode header matched,
      .inr ⟨written.body_of_mode lawful conforming isMode member, Nat.le_trans reaches behind⟩⟩

theorem Written.holds_ground (written : Written grammar options text forced mode reach p)
    (lawful : grammar.Lawful) (conforming : grammar.Conforming)
    (ground : mode.rule.isMode = false) :
    Scope.Holds text (mode.extent? limit) offset p.kind := by
  rw [OpenMode.extent?, ground]
  rcases written.opening_or_body lawful with ⟨_, _, opens, _⟩ | ⟨member, _⟩
  · rw [opens.isMode] at ground
    cases ground
  · have root := written.rule_eq_root ground
    have body := conforming.body _ (root ▸ List.mem_cons_self) (.inl root) p.kind member
    rw [Rule.modeKind?, ground] at body
    exact of_decide_eq_true (p := p.kind ∉ [Kind.subst, .title, .classHeader])
      (List.mem_filter.1 body).2

theorem Written.holds_body (written : Written grammar options text forced mode reach p)
    (lawful : grammar.Lawful) (conforming : grammar.Conforming)
    (isMode : mode.rule.isMode = true) (body : mode.rule.kind.isHeader = false) :
    Scope.Holds text (some ⟨mode.rule.kind, ⟨mode.start, limit⟩⟩) offset p.kind := by
  have member := written.kind_mem lawful conforming isMode body
  cases kind : mode.rule.kind with
  | comment | string =>
    rw [kind] at member
    exact List.mem_singleton.1 member
  | subst =>
    rw [kind] at member
    exact of_decide_eq_true (p := p.kind ∉ [Kind.keyword, .title, .classHeader, .illegal])
      (List.mem_filter.1 member).2
  | function | classHeader =>
    rw [kind] at body
    cases body
  | _ =>
    rw [kind] at member
    cases member

/-- The heading of a header is the text of its first word, as far as that goes in
the header. -/
theorem Written.holds_header (written : Written grammar options text forced mode reach p)
    (lawful : grammar.Lawful) (conforming : grammar.Conforming)
    (isMode : mode.rule.isMode = true) (header : mode.rule.kind.isHeader = true)
    (within : p.span.stop ≤ limit) (contains : p.span.contains offset = true) :
    Scope.Holds text (some ⟨mode.rule.kind, ⟨mode.start, limit⟩⟩) offset p.kind := by
  obtain ⟨fromStart, upTo⟩ := Span.contains_eq_true.1 contains
  obtain ⟨hit, heads, place⟩ := written.heading_or_body lawful conforming isMode header
  have reaches : mode.start + hit.stop ≤ limit := by
    rcases place with ⟨_, span⟩ | ⟨_, behind⟩
    · rwa [span] at within
    · omega
  have keyword : p.kind = .keyword ↔ offset < mode.start + hit.stop := by
    rcases place with ⟨isKeyword, span⟩ | ⟨member, behind⟩
    · rw [span] at upTo
      exact iff_of_true isKeyword upTo
    · refine iff_of_false ?_ (by omega)
      rintro isKeyword
      rw [isKeyword] at member
      cases kind : mode.rule.kind <;> simp [kind, Kind.isHeader, Kind.bodyOf] at header member
  have member : p.kind ∈ Kind.keyword :: Kind.bodyOf (some mode.rule.kind) := by
    rcases place with ⟨isKeyword, _⟩ | ⟨member, _⟩
    · exact isKeyword ▸ List.mem_cons_self
    · exact List.mem_cons_of_mem _ member
  cases kind : mode.rule.kind with
  | function =>
    obtain ⟨stands, three⟩ := heads.isDef kind
    rw [three] at keyword reaches
    rw [kind] at member
    exact ⟨bytes_of_le text _ stands reaches, keyword, member⟩
  | classHeader =>
    have word : hit.stop = Lexeme.wordLength ((⟨mode.start, limit⟩ : Span).bytes text) := by
      rw [heads.word] at reaches ⊢
      refine (Lexeme.runLength_take ?_).symm
      simp only [Span.length, Lexeme.wordLength] at *
      omega
    rw [word] at keyword
    rw [kind] at member
    exact ⟨keyword, member⟩
  | _ =>
    rw [kind] at header
    cases header

/-- Wherever a mode will stop, its pieces have kinds that it may hold there. -/
theorem Written.holds (written : Written grammar options text forced mode reach p)
    (lawful : grammar.Lawful) (conforming : grammar.Conforming) (within : p.span.stop ≤ limit)
    (contains : p.span.contains offset = true) :
    Scope.Holds text (mode.extent? limit) offset p.kind := by
  cases isMode : mode.rule.isMode with
  | false => exact written.holds_ground lawful conforming isMode
  | true =>
    rw [OpenMode.extent?, isMode]
    cases header : mode.rule.kind.isHeader with
    | false => exact written.holds_body lawful conforming isMode header
    | true => exact written.holds_header lawful conforming isMode header within contains

theorem keeps_holds (lawful : grammar.Lawful) (conforming : grammar.Conforming) :
    Keeps grammar options text forced (Scope.Placed text) fun innermost p =>
      ∀ offset, p.span.contains offset = true → Scope.Holds text innermost offset p.kind where
  fitting below opens opened within :=
    below.placed lawful conforming opens (by omega)
  allowed written _ upper within _ contains :=
    written.holds lawful conforming (Nat.le_trans upper within) contains

end Scan

/-! ## Highlighting -/

/-- With any options, the scopes of a text lie where the rules let them, and every
byte has a kind that the rules allow in its innermost scope. -/
theorem tokens_conform (options : Scan.Options) (text : String) :
    let result := (Highlighter.default.withOptions options).highlight text
    (∀ s ∈ result.scopes, s.Placed text (Scope.parent? result.scopes s)) ∧
      ∀ token ∈ result.tokens.toList, ∀ offset, token.span.contains offset = true →
        Scope.Holds text (Scope.innermostAt? result.scopes offset) offset token.kind := by
  intro result
  have tiles := (Highlighter.tiles_withOptions options text).1
  have conforms := (Highlighter.default.withOptions options).conforms_highlight
    Flint.grammar_lawful text (Scan.keeps_holds Flint.grammar_lawful Flint.grammar_conforming)
  constructor
  · intro s member
    have placed := conforms.of_mem_scopes tiles s member
    rwa [Option.or_none] at placed
  · intro token member offset covers
    have runs := Highlighter.runs_withOptions options text
    obtain ⟨p, inPieces, contains, kind⟩ := tiles.exists_piece runs member covers
    have holds := conforms.of_mem_pieces tiles p inPieces offset contains offset contains
    rwa [Option.or_none, kind] at holds

end ModalHighlight
