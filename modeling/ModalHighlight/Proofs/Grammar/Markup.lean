import ModalHighlight.Proofs.Lexeme.Line
import ModalHighlight.Proofs.Scan.Growth

/-! # Lexemes that let markup be seen

A scan can only flag a `</` that it comes to.  So no lexeme may pass over a `<`,
unless it begins with it: most lexemes cannot hold one, and no operator of two
bytes ends in one.  A mode that may be given up must not take a `<` at all,
because all of its text becomes one piece.
-/

namespace ModalHighlight

open Text (Whole)

/-- `<` -/
abbrev Byte.less : UInt8 := 0x3c

variable {text rest : List UInt8} {start middle stop : Nat}

/-! ## Ranges without `<` -/

/-- No `<` stands in a range of a text, except maybe at its start. -/
def Text.Quiet (text : List UInt8) (start stop : Nat) : Prop :=
  ∀ offset, start < offset → offset < stop → text[offset]? ≠ some Byte.less

namespace Text

theorem Quiet.append (first : Quiet text start middle) (second : Quiet text middle stop)
    (between : text[middle]? ≠ some Byte.less) : Quiet text start stop := by
  intro offset behind before
  rcases Nat.lt_trichotomy offset middle with inFirst | rfl | inSecond
  · exact first offset behind inFirst
  · exact between
  · exact second offset inSecond before

theorem quiet_of_tail {length : Nat}
    (absent : Byte.less ∉ ((text.drop start).take length).tail) :
    Quiet text start (start + length) := by
  intro offset behind before here
  refine absent ?_
  rw [List.mem_iff_getElem?]
  refine ⟨offset - start - 1, ?_⟩
  have same : start + (offset - start - 1 + 1) = offset := by omega
  rw [List.getElem?_tail, List.getElem?_take_of_lt (by omega), List.getElem?_drop, same, here]

end Text

/-! ## Matchers -/

namespace Matcher

/-- What the matcher matches holds no `<` behind its first byte. -/
def Quiet : Matcher → Prop
  | literal text => Byte.less ∉ (Text.bytes text).tail
  | keywordThenSpace _ | symbol | screamingCase | capitalized | operator | number | identifier
  | qualifiedPath | call _ => True
  | anyOf _ | stray _ | lineComment | quoteOpen | rawOpen | rawClose | charLiteral | escape => False

instance : (matcher : Matcher) → Decidable matcher.Quiet
  | literal text => inferInstanceAs (Decidable (Byte.less ∉ (Text.bytes text).tail))
  | keywordThenSpace _ | symbol | screamingCase | capitalized | operator | number | identifier
  | qualifiedPath | call _ => inferInstanceAs (Decidable True)
  | anyOf _ | stray _ | lineComment | quoteOpen | rawOpen | rawClose | charLiteral | escape =>
    inferInstanceAs (Decidable False)

/-- The matcher matches wherever a `<` stands. -/
def StopsAtLess : Matcher → Prop
  | stray allowed => Byte.less ∉ allowed
  | _ => False

instance : (matcher : Matcher) → Decidable matcher.StopsAtLess
  | stray allowed => inferInstanceAs (Decidable (Byte.less ∉ allowed))
  | literal _ | anyOf _ | keywordThenSpace _ | symbol | screamingCase | capitalized | operator
  | number | identifier | qualifiedPath | call _ | lineComment | quoteOpen | rawOpen | rawClose
  | charLiteral | escape => inferInstanceAs (Decidable False)

end Matcher

namespace Lexeme

theorem less_not_mem_tail_operator {length : Nat} (found : operator rest = some length) :
    Byte.less ∉ (rest.take length).tail := by
  cases rest with
  | nil => cases found
  | cons lead more =>
    have absent : ∀ operator ∈ longOperators, Byte.less ∉ operator.tail := by decide
    simp only [operator, List.contains_iff_mem] at found
    split at found
    next long => exact Option.some.inj found ▸ absent _ long
    next =>
      split at found
      next => exact Option.some.inj found ▸ by simp
      next =>
        rw [Option.ite_none_right_eq_some] at found
        exact Option.some.inj found.2 ▸ by simp

theorem less_not_mem_tail_charLength (whole : Whole rest) :
    Byte.less ∉ (rest.take (Byte.charLength rest)).tail := by
  cases rest with
  | nil => simp
  | cons lead more =>
    by_cases less : lead = Byte.less
    · -- A `<` is a character of its own.
      subst less
      have width : Byte.charWidth Byte.less = 1 := by decide
      rw [Byte.charLength, width]
      simp
    · intro within
      exact not_mem_take_charLength whole (by decide) less (List.mem_of_mem_tail within)

end Lexeme

namespace Matcher

variable {matcher : Matcher} {wordStart : Bool} {hashes : Nat} {hit : Hit}

theorem less_not_mem_tail (quiet : matcher.Quiet)
    (found : matcher.match? wordStart hashes rest = some hit) :
    Byte.less ∉ (rest.take hit.stop).tail := by
  have absent : ∀ {result : Option Nat}, result.map Hit.whole = some hit →
      (∀ length, result = some length → Byte.less ∉ rest.take length) →
        Byte.less ∉ (rest.take hit.stop).tail := by
    intro result mapped absent within
    obtain ⟨stop, some, rfl⟩ := Option.map_eq_some_iff.1 mapped
    exact absent stop some (List.mem_of_mem_tail within)
  have foreign : Byte.isForeign Byte.less = true := by decide
  have outside : Byte.isIdentifier Byte.less = false := by decide
  cases matcher with
  | anyOf _ | stray _ | lineComment | quoteOpen | rawOpen | rawClose | charLiteral | escape =>
    exact quiet.elim
  | literal text =>
    obtain ⟨stop, literal, rfl⟩ := Option.map_eq_some_iff.1 found
    simp only [Lexeme.literal, Option.ite_none_right_eq_some, List.isPrefixOf_iff_prefix,
      Option.some.injEq] at literal
    obtain ⟨⟨later, rfl⟩, rfl⟩ := literal
    rw [Hit.whole, List.take_left]
    exact quiet
  | operator =>
    obtain ⟨stop, operator, rfl⟩ := Option.map_eq_some_iff.1 found
    exact Lexeme.less_not_mem_tail_operator operator
  | symbol => exact absent found fun _ => Lexeme.not_mem_take_symbol foreign
  | identifier => exact absent found fun _ => Lexeme.not_mem_take_wordFrom outside
  | keywordThenSpace words =>
    refine absent (Option.ite_none_right_eq_some.1 found).2 fun _ word => ?_
    exact Lexeme.not_mem_take_wordFrom outside (Option.filter_eq_some_iff.1 word).1
  | screamingCase =>
    refine absent (Option.ite_none_right_eq_some.1 found).2 fun _ word => ?_
    exact Lexeme.not_mem_take_wordFrom outside (Option.filter_eq_some_iff.1 word).1
  | capitalized =>
    exact absent (Option.ite_none_right_eq_some.1 found).2 fun _ =>
      Lexeme.not_mem_take_wordFrom outside
  | number =>
    exact absent (Option.ite_none_right_eq_some.1 found).2 fun _ =>
      Lexeme.not_mem_take_number foreign
  | call reserved =>
    refine absent (Option.ite_none_right_eq_some.1 found).2 fun _ word => ?_
    have call := (Option.filter_eq_some_iff.1 word).1
    exact Lexeme.not_mem_take_wordFrom outside (Option.filter_eq_some_iff.1 call).1
  | qualifiedPath =>
    obtain ⟨_, found⟩ := Option.ite_none_right_eq_some.1 found
    obtain ⟨⟨head, stop⟩, path, rfl⟩ := Option.map_eq_some_iff.1 found
    exact fun within => Lexeme.not_mem_take_qualifiedPath foreign path (List.mem_of_mem_tail within)

theorem getElem?_ne_less (stops : matcher.StopsAtLess) {offset : Nat}
    (unmatched : matcher.matchAt? hashes (Cursor.ofOffset text offset) = none) :
    text[offset]? ≠ some Byte.less := by
  intro here
  cases matcher with
  | stray allowed =>
    have rest : text.drop offset = Byte.less :: text.drop (offset + 1) := by
      rw [List.getElem?_eq_some_iff] at here
      obtain ⟨inside, here⟩ := here
      rw [List.drop_eq_getElem_cons inside, here]
    have word : Byte.isIdentifier Byte.less = false := by decide
    have absent : allowed.contains Byte.less = false :=
      Bool.eq_false_iff.2 fun contains => stops (List.contains_iff_mem.1 contains)
    rw [matchAt?, match?, Cursor.ofOffset, rest, Lexeme.stray, word, absent] at unmatched
    cases unmatched
  | _ => exact stops.elim

end Matcher

/-- Content that is taken piece by piece holds no `<` behind its first byte. -/
theorem Rule.less_not_mem_tail {rule : Rule} {kind : Kind} {length : Nat} (each : rule.stops = [])
    (whole : Whole rest) (taken : rule.contentAt rest = .content kind length) :
    Byte.less ∉ (rest.take length).tail := by
  rw [contentAt, each] at taken
  simp only [List.isEmpty_nil, if_true, Scan.Action.eachContent] at taken
  split at taken
  next => exact (Scan.Action.content.inj taken).2 ▸ Lexeme.less_not_mem_tail_charLength whole
  next count eq =>
    intro within
    have outside : Byte.isIdentifier Byte.less = false := by decide
    refine Byte.not_mem_take_runLength Byte.isIdentifier outside rest ?_
    have stop : count.succ = length := (Scan.Action.content.inj taken).2
    rw [← Lexeme.wordLength, eq, stop]
    exact List.mem_of_mem_tail within

/-! ## Grammars -/

/-- A mode of leaves that takes no `<` behind its first byte. -/
structure Rule.Narrow (grammar : Grammar) (rule : Rule) : Prop where
  opening : rule.opening.Quiet
  each : rule.stops = []
  illegal : ∀ matcher ∈ rule.illegal, matcher.StopsAtLess
  leaves : ∀ id ∈ rule.contains, ∀ inner ∈ grammar.rule? id,
    inner.isMode = false ∧ inner.opening.Quiet

instance (grammar : Grammar) (rule : Rule) : Decidable (rule.Narrow grammar) :=
  decidable_of_iff
    (rule.opening.Quiet ∧ rule.stops = [] ∧ (∀ matcher ∈ rule.illegal, matcher.StopsAtLess) ∧
      ∀ id ∈ rule.contains, ∀ inner ∈ grammar.rule? id,
        inner.isMode = false ∧ inner.opening.Quiet)
    ⟨fun ⟨opening, each, illegal, leaves⟩ => ⟨opening, each, illegal, leaves⟩,
      fun ⟨opening, each, illegal, leaves⟩ => ⟨opening, each, illegal, leaves⟩⟩

/-- A grammar with which a scan comes to every `</` outside scopes, comments and
strings. -/
structure Grammar.Watchful (grammar : Grammar) : Prop where
  illegal : grammar.rootRule.illegal = some (.literal "</")
  each : grammar.rootRule.stops = []
  leaves : ∀ id ∈ grammar.rootRule.contains, ∀ rule ∈ grammar.rule? id, rule.isMode = false →
    rule.opening.Quiet ∨ rule.head = .rule ∧ rule.kind ∈ [Kind.comment, Kind.string]
  narrow : ∀ rule ∈ grammar.rules, rule.isMode = true → rule.illegal.isSome = true →
    rule.Narrow grammar

theorem Flint.grammar_watchful : Flint.grammar.Watchful := by
  constructor <;> decide

end ModalHighlight
