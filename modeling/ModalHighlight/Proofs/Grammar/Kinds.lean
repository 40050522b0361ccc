import ModalHighlight.Proofs.Scan.Decision

/-! # The kinds that rules write

What a scan writes into its outline has a kind that the rule at work names: its
own, that of its head, or one that its keyword table may answer.  Two kinds are
set aside for marks.  A grammar is accountable if its rules write no marks and
if a mode that may be given up holds leaves only, so that marks are never given
up with it.
-/

namespace ModalHighlight

/-! ## Kinds of a rule -/

/-- The kinds that a keyword table sorts words into. -/
def KeywordTable.kinds : List Kind := [.keyword, .literal, .builtIn]

theorem KeywordTable.classify_mem {table : KeywordTable} {word : List UInt8} {kind : Kind}
    (found : table.classify word = some kind) : kind ∈ kinds := by
  unfold classify at found
  split at found
  next => exact Option.some.inj found ▸ by decide
  next =>
    split at found
    next => exact Option.some.inj found ▸ by decide
    next =>
      simp only [Option.ite_none_right_eq_some, Option.some.injEq] at found
      exact found.2 ▸ by decide

namespace Rule

/-- The kinds that the text that opens a rule may get. -/
def headKinds (rule : Rule) : List Kind :=
  match rule.head with
  | .rule => [rule.kind]
  | .kind kind => [kind]
  | .lookup _ fallback => fallback :: KeywordTable.kinds

/-- The kinds that the content of a mode may get. -/
def contentKinds (rule : Rule) : List Kind :=
  rule.kind :: if rule.keywords.isSome then KeywordTable.kinds else []

theorem headKind_mem (rule : Rule) (text : List UInt8) :
    Scan.Action.headKind rule text ∈ rule.headKinds := by
  unfold Scan.Action.headKind headKinds
  cases rule.head with
  | rule => exact List.mem_cons_self
  | kind kind => exact List.mem_cons_self
  | lookup table fallback =>
    dsimp only
    cases found : table.classify text with
    | none => exact List.mem_cons_self
    | some kind => exact List.mem_cons_of_mem _ (KeywordTable.classify_mem found)

theorem content_mem {state : Scan.State} {kind : Kind} {length : Nat}
    (taken : Scan.Action.unclaimed state = .content kind length) :
    kind ∈ state.active.rule.contentKinds := by
  unfold Scan.Action.unclaimed at taken
  split at taken
  next =>
    unfold Scan.Action.eachContent at taken
    split at taken
    next => exact (Scan.Action.content.inj taken).1 ▸ List.mem_cons_self
    next length _ =>
      rw [← (Scan.Action.content.inj taken).1]
      cases table : state.active.rule.keywords with
      | none => exact List.mem_cons_self
      | some table' =>
        cases found : table'.classify (state.place.rest.take (length + 1)) with
        | none => simp [found, contentKinds]
        | some kind => simp [found, contentKinds, table, KeywordTable.classify_mem found]
  next => exact (Scan.Action.content.inj taken).1 ▸ List.mem_cons_self

end Rule

/-! ## Marks -/

/-- The kinds of text that a scan has recorded a problem about. -/
def Kind.isMark : Kind → Bool
  | error | illegal => true
  | _ => false

/-- A grammar in which every mark is made with a problem, and none is lost. -/
structure Grammar.Accountable (grammar : Grammar) : Prop where
  kinds : ∀ rule ∈ grammar.rootRule :: grammar.rules.toList,
    ∀ kind ∈ rule.headKinds ++ rule.contentKinds, kind.isMark = false
  leaves : ∀ rule ∈ grammar.rules, rule.isMode = true → rule.illegal.isSome = true →
    ∀ id ∈ rule.contains, ∀ inner ∈ grammar.rule? id, inner.isMode = false

namespace Grammar.Accountable

variable {grammar : Grammar} {rule : Rule} {kind : Kind}

theorem kinds_of_has (accountable : grammar.Accountable) (known : grammar.Has rule)
    (member : kind ∈ rule.headKinds ++ rule.contentKinds) : kind.isMark = false :=
  accountable.kinds rule known.mem_table kind member

theorem isMark_head (accountable : grammar.Accountable) (known : grammar.Has rule)
    (text : List UInt8) : (Scan.Action.headKind rule text).isMark = false :=
  accountable.kinds_of_has known (List.mem_append_left _ (rule.headKind_mem text))

theorem isMark_rule (accountable : grammar.Accountable) (known : grammar.Has rule) :
    rule.kind.isMark = false :=
  accountable.kinds_of_has known (List.mem_append_right _ List.mem_cons_self)

theorem ne_rule (accountable : grammar.Accountable) (known : grammar.Has rule)
    (mark : kind.isMark = true) : kind ≠ rule.kind := by
  rintro rfl
  rw [accountable.isMark_rule known] at mark
  cases mark

/-- A mode that opens another one is not one that may be given up. -/
theorem illegal_eq_none (accountable : grammar.Accountable) (known : rule ∈ grammar.rules)
    (mode : rule.isMode = true) {place : Cursor} {inner : Rule} {hit : Hit}
    (found : grammar.firstMatch? rule.contains place = some (inner, hit))
    (opens : inner.isMode = true) : rule.illegal = none := by
  obtain ⟨id, member, rule?, _⟩ := Grammar.firstMatch?_eq_some found
  cases rejects : rule.illegal with
  | none => rfl
  | some matcher =>
    have leaf := accountable.leaves rule known mode (by rw [rejects]; rfl) id member inner rule?
    rw [opens] at leaf
    cases leaf

end Grammar.Accountable

theorem Flint.grammar_accountable : Flint.grammar.Accountable := by
  constructor <;> decide

end ModalHighlight
