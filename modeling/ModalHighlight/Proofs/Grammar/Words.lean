import ModalHighlight.Proofs.Lexeme.Boundary
import ModalHighlight.Proofs.Scan.Bodies

/-! # Rules and the borders of words

Of a rule of code it matters where its match may start and where it may end.  Most
rules ask for the start of a word, or match only in front of a byte that is in no
word.  The openings that a letter may begin ask for neither.  And most rules end
where a word ends, as numbers do not.
-/

namespace ModalHighlight

open Lexeme (SplitsWord LastIn)

/-! ## Matchers -/

namespace Matcher

variable {matcher : Matcher} {wordStart : Bool} {hashes : Nat} {rest : List UInt8} {hit : Hit}

/-- What the matcher takes never ends inside a word. -/
def endsWord : Matcher → Bool
  | literal text => (Text.bytes text).getLast?.any fun b => !Byte.isIdentifier b
  | lineComment | rawClose | charLiteral | symbol | screamingCase | capitalized | operator
  | qualifiedPath | call _ => true
  | _ => false

/-- The matcher takes nothing that begins with an identifier byte. -/
def foreign : Matcher → Bool
  | literal text => (Text.bytes text).head?.any fun b => !Byte.isIdentifier b
  | anyOf set => set.all fun b => !Byte.isIdentifier b
  | stray _ | lineComment | symbol | operator => true
  | _ => false

/-- The matcher takes nothing from inside a word. -/
def asksWordStart : Matcher → Bool
  | keywordThenSpace _ | screamingCase | capitalized | number | qualifiedPath | call _ => true
  | matcher => matcher.foreign

/-- A letter may begin what the matcher takes, wherever that letter stands. -/
def lettered : Matcher → Bool
  | quoteOpen | rawOpen | charLiteral => true
  | _ => false

theorem not_splitsWord (ends : matcher.endsWord = true)
    (found : matcher.match? wordStart hashes rest = some hit) : ¬SplitsWord rest hit.stop := by
  have apart : ∀ {result : Option Nat}, result.map Hit.whole = some hit →
      (∀ length, result = some length → ¬SplitsWord rest length) → ¬SplitsWord rest hit.stop := by
    intro result mapped apart
    obtain ⟨stop, some, rfl⟩ := Option.map_eq_some_iff.1 mapped
    exact apart stop some
  cases matcher with
  | literal text =>
    refine apart found fun _ literal => Lexeme.not_splitsWord_of_last ?_
    refine Lexeme.lastIn_literal literal ?_
    simpa [endsWord, Option.any_eq_true] using ends
  | lineComment => exact apart found fun _ => Lexeme.not_splitsWord_lineComment
  | rawClose =>
    exact apart found fun _ close => Lexeme.not_splitsWord_of_last (Lexeme.lastIn_rawClose close)
  | charLiteral =>
    exact apart found fun _ char => Lexeme.not_splitsWord_of_last (Lexeme.lastIn_charLiteral char)
  | symbol => exact apart found fun _ => Lexeme.not_splitsWord_symbol
  | operator =>
    exact apart found fun _ operator =>
      Lexeme.not_splitsWord_of_last (Lexeme.operator_foreign operator).2
  | screamingCase =>
    exact apart (Option.ite_none_right_eq_some.1 found).2 fun _ screaming =>
      Lexeme.not_splitsWord_wordFrom (Option.filter_eq_some_iff.1 screaming).1
  | capitalized =>
    exact apart (Option.ite_none_right_eq_some.1 found).2 fun _ => Lexeme.not_splitsWord_wordFrom
  | call reserved =>
    refine apart (Option.ite_none_right_eq_some.1 found).2 fun _ called => ?_
    have called := (Option.filter_eq_some_iff.1 called).1
    exact Lexeme.not_splitsWord_wordFrom (Option.filter_eq_some_iff.1 called).1
  | qualifiedPath =>
    obtain ⟨⟨head, stop⟩, path, rfl⟩ :=
      Option.map_eq_some_iff.1 (Option.ite_none_right_eq_some.1 found).2
    exact Lexeme.not_splitsWord_of_last (Lexeme.lastIn_qualifiedPath path)
  | anyOf _ | keywordThenSpace _ | stray _ | quoteOpen | rawOpen | number | identifier | escape =>
    cases ends

theorem isIdentifier_head_of_foreign (outside : matcher.foreign = true)
    (found : matcher.match? wordStart hashes rest = some hit) :
    ∀ b ∈ rest.head?, Byte.isIdentifier b = false := by
  intro b first
  obtain ⟨more, rfl⟩ := List.head?_eq_some_iff.1 first
  cases matcher with
  | literal text =>
    obtain ⟨stop, literal, rfl⟩ := Option.map_eq_some_iff.1 found
    simp only [Lexeme.literal, Option.ite_none_right_eq_some, List.isPrefixOf_iff_prefix]
      at literal
    obtain ⟨c, isFirst, foreign⟩ := (Option.any_eq_true _ _).1 outside
    obtain ⟨later, bytes⟩ := List.head?_eq_some_iff.1 isFirst
    obtain ⟨⟨behind, stands⟩, _⟩ := literal
    rw [bytes] at stands
    obtain rfl := (List.cons.inj stands).1
    simpa using foreign
  | anyOf set =>
    obtain ⟨stop, one, rfl⟩ := Option.map_eq_some_iff.1 found
    have listed := (Option.ite_none_right_eq_some.1 one).1
    simpa using List.all_eq_true.1 outside b (List.contains_iff_mem.1 listed)
  | stray allowed =>
    obtain ⟨stop, stray, rfl⟩ := Option.map_eq_some_iff.1 found
    have other := (Option.ite_none_left_eq_some.1 stray).1
    simp only [Bool.or_eq_true, not_or, Bool.not_eq_true] at other
    exact other.1
  | lineComment =>
    obtain ⟨stop, comment, rfl⟩ := Option.map_eq_some_iff.1 found
    cases slashes : Lexeme.literal (Text.bytes "//") (b :: more) with
    | none => simp [Lexeme.lineComment, slashes] at comment
    | some two =>
      simp only [Lexeme.literal, Option.ite_none_right_eq_some, List.isPrefixOf_iff_prefix]
        at slashes
      obtain ⟨⟨behind, stands⟩, _⟩ := slashes
      obtain rfl := (List.cons.inj stands).1
      decide
  | symbol =>
    obtain ⟨stop, symbol, rfl⟩ := Option.map_eq_some_iff.1 found
    rw [eq_of_beq (Option.ite_none_right_eq_some.1 symbol).1]
    decide
  | operator =>
    obtain ⟨stop, operator, rfl⟩ := Option.map_eq_some_iff.1 found
    exact (Lexeme.operator_foreign operator).1 b rfl
  | keywordThenSpace _ | quoteOpen | rawOpen | rawClose | charLiteral | screamingCase
  | capitalized | number | identifier | qualifiedPath | call _ | escape => cases outside

theorem isIdentifier_head_of_asksWordStart (asks : matcher.asksWordStart = true)
    (found : matcher.match? false hashes rest = some hit) :
    ∀ b ∈ rest.head?, Byte.isIdentifier b = false := by
  cases matcher with
  | keywordThenSpace _ | screamingCase | capitalized | number | qualifiedPath | call _ =>
    cases found
  | _ =>
    refine isIdentifier_head_of_foreign ?_ found
    exact asks

/-- The letter that begins such a match is a `b` or an `r`. -/
theorem mem_letters_of_lettered (letter : matcher.lettered = true)
    (found : matcher.match? wordStart hashes rest = some hit) :
    ∀ b ∈ rest.head?, Byte.isIdentifier b = true → b ∈ [Byte.letterB, Byte.letterR] := by
  intro b first isIn
  obtain ⟨more, rfl⟩ := List.head?_eq_some_iff.1 first
  cases matcher with
  | quoteOpen =>
    obtain ⟨stop, opened, rfl⟩ := Option.map_eq_some_iff.1 found
    simp only [Lexeme.quoteOpen] at opened
    split at opened
    next isQuote =>
      rw [eq_of_beq isQuote] at isIn
      cases isIn
    next =>
      have isB := (Option.ite_none_right_eq_some.1 opened).1
      rw [Bool.and_eq_true] at isB
      simp [eq_of_beq isB.1]
  | rawOpen =>
    obtain ⟨found, opened, _⟩ := Option.map_eq_some_iff.1 found
    simp [eq_of_beq (Option.ite_none_right_eq_some.1 opened).1]
  | charLiteral =>
    obtain ⟨stop, char, rfl⟩ := Option.map_eq_some_iff.1 found
    simp only [Lexeme.charLiteral] at char
    split at char
    next isB => simp [eq_of_beq isB]
    next =>
      rw [eq_of_beq (Option.ite_none_right_eq_some.1 char).1] at isIn
      cases isIn
  | literal _ | anyOf _ | keywordThenSpace _ | stray _ | lineComment | rawClose | symbol
  | screamingCase | capitalized | operator | number | identifier | qualifiedPath | call _
  | escape => cases letter

end Matcher

/-! ## Grammars -/

/-- The ground mode and substitutions hold code. -/
def Rule.holdsCode (rule : Rule) : Bool := !rule.isMode || rule.kind == .subst

/-- A grammar in which, as far as words go, only numbers end inside a word and only
openings that a letter may begin start there. -/
structure Grammar.Worded (grammar : Grammar) : Prop where
  closing : ∀ rule ∈ grammar.rules, ∀ matcher ∈ rule.closing,
    (if rule.excludesClosing then matcher.foreign else matcher.endsWord) = true
  illegal : ∀ rule ∈ grammar.rules, rule.isMode = true →
    ∀ matcher ∈ rule.illegal, matcher.foreign = true
  flagged : ∀ matcher ∈ grammar.rootRule.illegal, matcher.endsWord = true
  stops : ∀ rule ∈ grammar.rootRule :: grammar.rules.toList, rule.holdsCode = true →
    rule.stops = []
  starts : ∀ rule ∈ grammar.rootRule :: grammar.rules.toList, rule.holdsCode = true →
    ∀ id ∈ rule.contains, ∀ inner ∈ grammar.rule? id,
      inner.opening.asksWordStart = true ∨ inner.opening.lettered = true
  leaves : ∀ rule ∈ grammar.rootRule :: grammar.rules.toList, rule.holdsCode = true →
    ∀ id ∈ rule.contains, ∀ inner ∈ grammar.rule? id, inner.isMode = false →
      inner.opening.endsWord = true ∨ inner.kind = .number ∧ inner.head = .rule
  modes : ∀ rule ∈ grammar.rules, rule.isMode = true → rule.holdsCode = true →
    rule.opening.endsWord = true
  elsewhere : ∀ rule ∈ grammar.rules, rule.holdsCode = false →
    ∀ id ∈ rule.contains, ∀ inner ∈ grammar.rule? id, inner.isMode = true →
      inner.opening.foreign = true
  numbers : ∀ rule ∈ grammar.rules, Kind.number ∈ rule.leafKinds → rule.opening = .number
  content : ∀ rule ∈ grammar.rootRule :: grammar.rules.toList,
    rule = grammar.rootRule ∨ rule.isMode = true → Kind.number ∉ rule.contentKinds

theorem Flint.grammar_worded : Flint.grammar.Worded := by
  constructor <;> decide

end ModalHighlight
