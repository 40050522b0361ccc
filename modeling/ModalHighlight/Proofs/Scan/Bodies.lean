import ModalHighlight.Proofs.Scan.Written

/-! # What modes may hold

The grammar says of each mode which kinds of text it may hold: those of its own
content, those of its leaves, and those of the marks that a scan may leave in
it.  A heading, the word that opens a header, is not among them, so that it can
be told from the rest of the header.
-/

namespace ModalHighlight

/-! ## Kinds -/

/-- The kinds of the lists of a table that are not empty. -/
def KeywordTable.ownKinds (table : KeywordTable) : List Kind :=
  (if table.keyword.isEmpty then [] else [.keyword]) ++
    (if table.literal.isEmpty then [] else [.literal]) ++
      if table.builtIn.isEmpty then [] else [.builtIn]

theorem KeywordTable.listed_eq_false {list : Array String} (empty : list.isEmpty = true)
    (word : List UInt8) : listed list word = false := by
  rw [Array.isEmpty_iff] at empty
  subst empty
  rfl

theorem KeywordTable.classify_mem_ownKinds {table : KeywordTable} {word : List UInt8}
    {kind : Kind} (found : table.classify word = some kind) : kind ∈ table.ownKinds := by
  have filled : ∀ {list : Array String}, listed list word = true → list.isEmpty = false :=
    fun isListed => Bool.eq_false_iff.2 fun empty => by
      rw [listed_eq_false empty word] at isListed
      cases isListed
  unfold classify at found
  unfold ownKinds
  split at found
  next keyword => simp [← Option.some.inj found, filled keyword]
  next =>
    split at found
    next literal => simp [← Option.some.inj found, filled literal]
    next =>
      obtain ⟨builtIn, isBuiltIn⟩ := Option.ite_none_right_eq_some.1 found
      simp [← Option.some.inj isBuiltIn, filled builtIn]

namespace Rule

/-- The kinds that the match of a leaf may get. -/
def leafKinds (rule : Rule) : List Kind :=
  rule.kind :: match rule.head with
    | .rule => []
    | .kind kind => [kind]
    | .lookup table fallback => fallback :: table.ownKinds

theorem headKind_mem_leafKinds (rule : Rule) (text : List UInt8) :
    Scan.Action.headKind rule text ∈ rule.leafKinds := by
  unfold Scan.Action.headKind leafKinds
  cases rule.head with
  | rule => exact List.mem_cons_self
  | kind kind => simp
  | lookup table fallback =>
    cases found : table.classify text with
    | none => simp [found]
    | some kind => simp [found, KeywordTable.classify_mem_ownKinds found]

/-- The kinds that a mode gets from a rule that it contains: those of a leaf, or
that of an error if the rule opens a mode that may be given up. -/
def kindsAround (inner : Rule) : List Kind :=
  if inner.isMode then if inner.illegal.isSome then [.error] else [] else inner.leafKinds

end Rule

/-- The kinds of text that a mode may hold behind what opened it. -/
def Grammar.bodyKinds (grammar : Grammar) (rule : Rule) : List Kind :=
  rule.contentKinds ++ (rule.contains.filterMap grammar.rule?).flatMap Rule.kindsAround ++
    if !rule.isMode && rule.illegal.isSome then [.illegal] else []

namespace Grammar

variable {grammar : Grammar} {rule inner : Rule} {kind : Kind}

theorem mem_bodyKinds_of_contentKinds (member : kind ∈ rule.contentKinds) :
    kind ∈ grammar.bodyKinds rule := by
  simp [bodyKinds, member]

theorem mem_bodyKinds_of_firstMatch? {place : Cursor} {hit : Hit}
    (found : grammar.firstMatch? rule.contains place = some (inner, hit))
    (member : kind ∈ inner.kindsAround) : kind ∈ grammar.bodyKinds rule := by
  obtain ⟨id, listed, rule?, _⟩ := firstMatch?_eq_some found
  have nested : inner ∈ rule.contains.filterMap grammar.rule? :=
    List.mem_filterMap.2 ⟨id, listed, rule?⟩
  rw [bodyKinds, List.mem_append, List.mem_append]
  exact .inl (.inr (List.mem_flatMap.2 ⟨inner, nested, member⟩))

end Grammar

/-! ## Pieces -/

namespace Scan

variable {grammar : Grammar} {options : Options} {text : String}
variable {forced : Force → Span → Prop} {mode : OpenMode} {reach : Nat} {p : Piece}

theorem kind_mem_leafKinds {rule : Rule} {hit : Hit} {offset : Nat}
    (member : p ∈ matchPieces rule hit text offset) : p.kind ∈ rule.leafKinds := by
  rcases kind_of_mem_matchPieces member with head | own
  · exact head ▸ Rule.headKind_mem_leafKinds _ _
  · exact own ▸ List.mem_cons_self

/-- What is written into a mode is a piece of what opened it, or stands behind
that and has one of the kinds that the mode may hold. -/
theorem Written.opening_or_body (written : Written grammar options text forced mode reach p)
    (lawful : grammar.Lawful) :
    (∃ around hit, Opens grammar options text around mode hit ∧
        p ∈ matchPieces mode.rule hit text mode.start) ∨
      p.kind ∈ grammar.bodyKinds mode.rule ∧
        ∃ offset ≤ p.span.start, Grown grammar options text forced .growing mode offset := by
  cases written with
  | opening below opens member => exact .inl ⟨_, _, opens, member⟩
  | leaf before goesOn found leaf member =>
    have fits := fits_of_firstMatch? lawful before.known found
    refine .inr ⟨Grammar.mem_bodyKinds_of_firstMatch? found ?_, _,
      (of_mem_matchPieces fits.le member).1, before⟩
    rw [Rule.kindsAround, leaf]
    exact kind_mem_leafKinds member
  | content before _ _ taken =>
    exact .inr ⟨Grammar.mem_bodyKinds_of_contentKinds (contentAt_mem taken), _, Nat.le_refl _,
      before⟩
  | flag before ground rejects =>
    exact .inr ⟨by simp [Grammar.bodyKinds, ground, rejects], _, Nat.le_refl _, before⟩
  | closing _ before =>
    exact .inr ⟨Grammar.mem_bodyKinds_of_contentKinds List.mem_cons_self, _, Nat.le_refl _,
      before⟩
  | error below opens _ rejects =>
    refine .inr ⟨Grammar.mem_bodyKinds_of_firstMatch? opens.found ?_, _, Nat.le_refl _, below⟩
    simp [Rule.kindsAround, opens.isMode, rejects]

theorem Written.mem_rules (written : Written grammar options text forced mode reach p)
    (lawful : grammar.Lawful) (isMode : mode.rule.isMode = true) :
    mode.rule ∈ grammar.rules := by
  rcases written.opening_or_body lawful with ⟨_, _, opens, _⟩ | ⟨_, _, _, grown⟩
  · obtain ⟨_, _, rule?, _⟩ := Grammar.firstMatch?_eq_some opens.found
    exact Array.mem_of_getElem? rule?
  · exact grown.mem_rules lawful isMode

end Scan

end ModalHighlight
