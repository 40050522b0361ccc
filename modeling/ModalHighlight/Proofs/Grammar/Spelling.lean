import ModalHighlight.Proofs.Grammar.Kinds
import ModalHighlight.Proofs.Lexeme.Spelling

/-! # What the kinds of Flint promise

A kind promises how the text is spelled that gets it: as an entry of a list, as an
operator, or as an expression says.  Some of it follows from the order in which rules
are tried, because what an earlier rule takes never comes to a later one.
-/

namespace ModalHighlight

open Spelling (EndsWord)

variable {word behind rest : List UInt8} {length : Nat}

/-! ## Reserved words -/

namespace KeywordTable

/-- A word is an entry of a list. -/
def Lists (list : Array String) (word : List UInt8) : Prop := ∃ entry ∈ list, Text.bytes entry = word

instance (list : Array String) (word : List UInt8) : Decidable (Lists list word) :=
  inferInstanceAs (Decidable (∃ entry ∈ list, Text.bytes entry = word))

theorem not_lists_empty (word : List UInt8) : ¬Lists #[] word := by
  rintro ⟨_, member, _⟩
  exact Array.not_mem_empty _ member

theorem lists_of_listed {list : Array String} (found : listed list word = true) :
    Lists list word := by
  obtain ⟨entry, isEntry⟩ := Option.isSome_iff_exists.1 found
  obtain ⟨member, same⟩ := Search.find?_eq_some isEntry
  exact ⟨entry, member, Std.LawfulEqCmp.eq_of_compare same⟩

theorem classify_eq_some {table : KeywordTable} {kind : Kind}
    (found : table.classify word = some kind) :
    kind = .keyword ∧ Lists table.keyword word ∨ kind = .literal ∧ Lists table.literal word ∨
      kind = .builtIn ∧ Lists table.builtIn word := by
  unfold classify at found
  split at found
  next isListed => exact .inl ⟨(Option.some.inj found).symm, lists_of_listed isListed⟩
  next =>
    split at found
    next isListed => exact .inr (.inl ⟨(Option.some.inj found).symm, lists_of_listed isListed⟩)
    next =>
      obtain ⟨isListed, found⟩ := Option.ite_none_right_eq_some.1 found
      exact .inr (.inr ⟨(Option.some.inj found).symm, lists_of_listed isListed⟩)

end KeywordTable

/-! ## The order of rules -/

namespace Grammar

/-- Wherever one rule is tried, another one has been tried before. -/
def TriesBefore (grammar : Grammar) (first second : Rule) : Prop :=
  ∀ rule ∈ grammar.rootRule :: grammar.rules.toList, ∀ n < rule.contains.length,
    rule.contains[n]?.bind grammar.rule? = some second →
      ∃ id ∈ rule.contains.take n, grammar.rule? id = some first

instance (grammar : Grammar) (first second : Rule) : Decidable (grammar.TriesBefore first second) :=
  inferInstanceAs (Decidable (∀ rule ∈ grammar.rootRule :: grammar.rules.toList,
    ∀ n < rule.contains.length, _))

/-- A rule that matches first has been reached in vain by those before it. -/
theorem TriesBefore.unmatched {grammar : Grammar} {first second around : Rule} {place : Cursor}
    {hit : Hit} (tries : grammar.TriesBefore first second) (known : grammar.Has around)
    (found : grammar.firstMatch? around.contains place = some (second, hit)) :
    first.opening.matchAt? 0 place = none := by
  obtain ⟨before, id, after, split, isSecond, _, absent⟩ := firstMatch?_split found
  obtain ⟨other, inFront, isFirst⟩ := tries around known.mem_table before.length
    (by simp [split]) (by simp [split, isSecond])
  rw [split, List.take_left] at inFront
  exact absent other inFront first isFirst

end Grammar

namespace Flint

theorem grammar_triesBefore :
    grammar.TriesBefore constant typeName ∧ grammar.TriesBefore typeName call := by
  decide

/-! ## Kinds -/

/-- The arrow, and the operators from the longest to the shortest. -/
def operators : List String :=
  ["->", "++", "--", "==", "!=", "<=", ">=", "+=", "-=", "*=", "/=", ":=", "::", "|>", "?.", "??",
    "!.", "=", "<", ">", "+", "-", "*", "/", "&", "!", "%", "?"]

/-- A kind promises that a word is spelled in a certain way in front of a text. -/
def Spells (kind : Kind) (word behind : List UInt8) : Prop :=
  match kind with
  | .keyword => KeywordTable.Lists keywords.keyword word ∧ EndsWord behind
  | .literal =>
    (KeywordTable.Lists keywords.literal word ∨ word ∈ Spelling.constant.matches') ∧
      EndsWord behind
  | .builtIn => KeywordTable.Lists keywords.builtIn word ∧ EndsWord behind
  | .type =>
    (word ∈ Spelling.typeName.matches' ∧ ∃ b ∈ word, Byte.isLower b = true) ∧ EndsWord behind
  | .operator =>
    word ∈ operators.map Text.bytes ∧
      (word = Text.bytes "?" → behind.head? = some Byte.parenthesis)
  | .number => word ∈ Spelling.number.matches'
  | .symbol => word ∈ Spelling.symbol.matches' ∧ EndsWord behind
  | .title => word ∈ Spelling.identifier.matches' ∧ EndsWord behind
  | .function =>
    (word ∈ Spelling.functionName.matches' ∧ ¬KeywordTable.Lists keywords.keyword word ∧
        ¬KeywordTable.Lists keywords.literal word ∧ ¬KeywordTable.Lists keywords.builtIn word) ∧
      (behind.dropWhile Byte.isBlank).head? = some Byte.parenthesis ∧ EndsWord behind
  | .plain | .string | .subst | .comment | .classHeader | .error | .illegal => True

/-! ## What lexemes get -/

theorem endsWord_wordLength (rest : List UInt8) :
    EndsWord (rest.drop (Lexeme.wordLength rest)) := by
  intro b next
  rw [List.head?_drop] at next
  exact Text.not_mem_of_getElem?_runLength next

theorem spells_reserved {kind : Kind}
    (found : keywords.classify (rest.take (Lexeme.wordLength rest)) = some kind) :
    Spells kind (rest.take (Lexeme.wordLength rest)) (rest.drop (Lexeme.wordLength rest)) := by
  have ends := endsWord_wordLength rest
  rcases KeywordTable.classify_eq_some found with
    ⟨rfl, isListed⟩ | ⟨rfl, isListed⟩ | ⟨rfl, isListed⟩
  · exact ⟨isListed, ends⟩
  · exact ⟨.inl isListed, ends⟩
  · exact ⟨isListed, ends⟩

theorem spells_keyword {words : List String} (listed : ∀ word ∈ words, word ∈ keywords.keyword)
    (found : Lexeme.keywordBeforeBlank words rest = some length) :
    Spells .keyword (rest.take length) (rest.drop length) := by
  obtain ⟨isWord, spelled⟩ := Option.filter_eq_some_iff.1 found
  rw [Bool.and_eq_true, List.any_eq_true] at spelled
  obtain ⟨⟨entry, inWords, same⟩, _⟩ := spelled
  exact ⟨⟨entry, listed entry inWords, eq_of_beq same⟩, (Lexeme.identifier_spelled isWord).2⟩

theorem spells_type (found : Lexeme.capitalized rest = some length)
    (other : Lexeme.screamingCase rest = none) :
    Spells .type (rest.take length) (rest.drop length) := by
  obtain ⟨spelled, ends⟩ := Lexeme.capitalized_spelled found
  exact ⟨⟨spelled, Lexeme.exists_lower_of_not_screamingCase found other⟩, ends⟩

theorem operators_listed :
    (∀ operator ∈ Lexeme.longOperators,
      operator ∈ operators.map Text.bytes ∧ operator ≠ Text.bytes "?") ∧
    ∀ b ∈ Lexeme.shortOperators, [b] ∈ operators.map Text.bytes ∧ [b] ≠ Text.bytes "?" := by
  decide +kernel

theorem spells_operator (found : Lexeme.operator rest = some length) :
    Spells .operator (rest.take length) (rest.drop length) := by
  cases rest with
  | nil => cases found
  | cons lead more =>
    simp only [Lexeme.operator] at found
    split at found
    next long =>
      obtain rfl := Option.some.inj found
      obtain ⟨listed, other⟩ := operators_listed.1 _ (List.contains_iff_mem.1 long)
      exact ⟨listed, fun same => absurd same other⟩
    next =>
      split at found
      next short =>
        obtain rfl := Option.some.inj found
        obtain ⟨listed, other⟩ := operators_listed.2 lead (List.contains_iff_mem.1 short)
        exact ⟨listed, fun same => absurd same other⟩
      next =>
        obtain ⟨asks, found⟩ := Option.ite_none_right_eq_some.1 found
        rw [Bool.and_eq_true, beq_iff_eq, beq_iff_eq] at asks
        obtain rfl := Option.some.inj found
        obtain ⟨rfl, next⟩ := asks
        refine ⟨?_, fun _ => next⟩
        show [Byte.question] ∈ operators.map Text.bytes
        decide

theorem spells_literal (operator : String) (listed : operator ∈ operators)
    (other : operator ≠ "?") (found : Lexeme.literal (Text.bytes operator) rest = some length) :
    Spells .operator (rest.take length) (rest.drop length) := by
  simp only [Lexeme.literal, Option.ite_none_right_eq_some, List.isPrefixOf_iff_prefix,
    Option.some.injEq] at found
  obtain ⟨⟨behind, rfl⟩, rfl⟩ := found
  rw [List.take_left]
  exact ⟨List.mem_map_of_mem listed, fun same => absurd (Text.bytes_injective same) other⟩

theorem spells_path {head : Nat} (found : Lexeme.qualifiedPath rest = some (head, length)) :
    head ≤ length ∧
      Spells ((builtInsOnly.classify (rest.take head)).getD .plain) (rest.take head)
        (rest.drop head) ∧
      Spells .operator ((rest.drop head).take (length - head)) (rest.drop length) := by
  cases word : Lexeme.identifier rest with
  | none => simp [Lexeme.qualifiedPath, word] at found
  | some inner =>
    simp only [Lexeme.qualifiedPath, word, Option.ite_none_right_eq_some, Option.some.injEq,
      Prod.mk.injEq] at found
    obtain ⟨colons, rfl, rfl⟩ := found
    refine ⟨Nat.le_add_right _ _, ?_, ?_⟩
    · have ends := (Lexeme.identifier_spelled word).2
      cases classified : builtInsOnly.classify (rest.take inner) with
      | none => trivial
      | some kind =>
        rcases KeywordTable.classify_eq_some classified with
          ⟨_, isListed⟩ | ⟨_, isListed⟩ | ⟨rfl, isListed⟩
        · exact absurd isListed (KeywordTable.not_lists_empty _)
        · exact absurd isListed (KeywordTable.not_lists_empty _)
        · exact ⟨isListed, ends⟩
    · have isColons : Lexeme.literal (Text.bytes "::") (rest.drop inner) = some 2 := if_pos colons
      have spelled := spells_literal "::" (by decide) (by decide) isColons
      rw [List.drop_drop] at spelled
      rwa [Nat.add_sub_cancel_left]

theorem reserves_of_lists : ∀ list ∈ [keywords.keyword, keywords.literal, keywords.builtIn],
    ∀ entry ∈ list, keywords.reserves (Text.bytes entry) = true := by
  decide

theorem spells_call (found : Lexeme.call rest = some length)
    (other : Lexeme.capitalized rest = none)
    (free : keywords.reserves (rest.take length) = false) :
    Spells .function (rest.take length) (rest.drop length) := by
  obtain ⟨spelled, ends, called⟩ := Lexeme.call_spelled found other
  have unlisted : ∀ list ∈ [keywords.keyword, keywords.literal, keywords.builtIn],
      ¬KeywordTable.Lists list (rest.take length) := by
    rintro list member ⟨entry, inList, same⟩
    have reserved := reserves_of_lists list member entry inList
    rw [same, free] at reserved
    cases reserved
  exact ⟨⟨spelled, unlisted _ (by simp), unlisted _ (by simp), unlisted _ (by simp)⟩, called, ends⟩

end Flint

end ModalHighlight
