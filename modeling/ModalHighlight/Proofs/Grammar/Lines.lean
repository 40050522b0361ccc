import ModalHighlight.Proofs.Grammar.Kinds
import ModalHighlight.Proofs.Lexeme.Line

/-! # Grammars that go by lines

Behind `;` and a line feed a scan starts afresh, provided that no fixed text of
the grammar reaches over the end of a line, and that what closes a mode or
stands by itself in the ground mode ends in its line.  The modes must not begin
with plain text, or else the text in front of them might be joined to it.
-/

namespace ModalHighlight

open Text (Whole)

/-- What is left of a text that ends with `;` and a line feed. -/
structure Text.Sealed (rest : List UInt8) : Prop where
  whole : Whole rest
  last : rest.getLast? = some Byte.newline
  ends : rest = [Byte.newline] ∨ Byte.semicolon ∈ rest

namespace Text.Sealed

variable {rest : List UInt8}

theorem line (closed : Sealed rest) : Byte.newline ∈ rest := List.mem_of_getLast? closed.last

theorem ne_nil (closed : Sealed rest) : rest ≠ [] := List.ne_nil_of_mem closed.line

/-- What does not hold a line feed is not all of the rest. -/
theorem length_lt (closed : Sealed rest) {length : Nat} (within : length ≤ rest.length)
    (absent : Byte.newline ∉ rest.take length) : length < rest.length := by
  refine Nat.lt_of_le_of_ne within ?_
  rintro rfl
  rw [List.take_length] at absent
  exact absent closed.line

end Text.Sealed

/-- The text ends with `;` and a line feed. -/
def Text.EndsStatement (text : String) : Prop := ∃ start : String, text = start ++ ";\n"

theorem Text.EndsStatement.exists_bytes {text : String} (ends : EndsStatement text) :
    ∃ front, bytes text = front ++ [Byte.semicolon, Byte.newline] := by
  obtain ⟨start, rfl⟩ := ends
  refine ⟨bytes start, ?_⟩
  rw [bytes_append]
  rfl

theorem Text.EndsStatement.sealed_drop {text : String} {offset : Nat} (ends : EndsStatement text)
    (whole : Whole ((bytes text).drop offset)) (left : (bytes text).drop offset ≠ []) :
    Sealed ((bytes text).drop offset) := by
  obtain ⟨front, eq⟩ := ends.exists_bytes
  rw [eq] at whole left ⊢
  have before : offset < front.length + 2 := by
    rw [ne_eq, List.drop_eq_nil_iff, Nat.not_le] at left
    simpa using left
  refine ⟨whole, ?_, ?_⟩
  · rw [List.getLast?_drop, if_neg (by simpa using before)]
    simp
  · by_cases inFront : offset ≤ front.length
    · refine .inr ?_
      rw [List.drop_append_of_le_length inFront]
      simp
    · have last : offset = front.length + 1 := by omega
      exact .inl (by simp [last])

/-! ## Matchers -/

namespace Matcher

/-- A matcher does not look for a line feed with more text behind it. -/
def WithinLine : Matcher → Prop
  | literal text => Byte.newline ∉ Text.bytes text
  | _ => True

/-- The matches of a matcher hold no line feed. -/
def EndsInLine : Matcher → Prop
  | literal text => Byte.newline ∉ Text.bytes text
  | anyOf set => Byte.newline ∉ set
  | stray _ | escape => False
  | _ => True

instance : (matcher : Matcher) → Decidable matcher.WithinLine
  | literal text => inferInstanceAs (Decidable (Byte.newline ∉ Text.bytes text))
  | anyOf _ | keywordThenSpace _ | stray _ | lineComment | quoteOpen | rawOpen | rawClose
  | charLiteral | symbol | screamingCase | capitalized | operator | number | identifier
  | qualifiedPath | call _ | escape => inferInstanceAs (Decidable True)

instance : (matcher : Matcher) → Decidable matcher.EndsInLine
  | literal text => inferInstanceAs (Decidable (Byte.newline ∉ Text.bytes text))
  | anyOf set => inferInstanceAs (Decidable (Byte.newline ∉ set))
  | stray _ | escape => inferInstanceAs (Decidable False)
  | keywordThenSpace _ | lineComment | quoteOpen | rawOpen | rawClose | charLiteral | symbol
  | screamingCase | capitalized | operator | number | identifier | qualifiedPath | call _ =>
    inferInstanceAs (Decidable True)

variable {matcher : Matcher} {rest : List UInt8} {wordStart : Bool} {hashes : Nat}

/-- What follows a sealed text makes no difference to a match. -/
theorem match?_append (within : matcher.WithinLine) (closed : Text.Sealed rest)
    (wordStart : Bool) (hashes : Nat) (later : List UInt8) :
    matcher.match? wordStart hashes (rest ++ later) = matcher.match? wordStart hashes rest := by
  have line := closed.line
  cases matcher with
  | literal text => rw [match?, match?, Lexeme.literal_append within line]
  | anyOf set => rw [match?, match?, Lexeme.oneOf_append closed.ne_nil]
  | keywordThenSpace words => rw [match?, match?, Lexeme.keywordBeforeBlank_append line]
  | stray allowed => rw [match?, match?, Lexeme.stray_append closed.whole closed.ne_nil]
  | lineComment => rw [match?, match?, Lexeme.lineComment_append line]
  | quoteOpen => rw [match?, match?, Lexeme.quoteOpen_append line]
  | rawOpen => rw [match?, match?, Lexeme.rawOpen_append line]
  | rawClose => rw [match?, match?, Lexeme.rawClose_append line]
  | charLiteral => rw [match?, match?, Lexeme.charLiteral_append closed.whole line]
  | symbol => rw [match?, match?, Lexeme.symbol_append line]
  | screamingCase => rw [match?, match?, Lexeme.screamingCase_append line]
  | capitalized => rw [match?, match?, Lexeme.capitalized, Lexeme.wordFrom_append _ line]; rfl
  | operator => rw [match?, match?, Lexeme.operator_append line]
  | number => rw [match?, match?, Lexeme.number_append line]
  | identifier => rw [match?, match?, Lexeme.identifier, Lexeme.wordFrom_append _ line]; rfl
  | qualifiedPath => rw [match?, match?, Lexeme.qualifiedPath_append line]
  | escape => rw [match?, match?, Lexeme.escape_append closed.whole line]
  | call reserved =>
    rw [match?, match?, Lexeme.call_append line closed.ends]
    cases found : Lexeme.call rest with
    | none => rfl
    | some length =>
      -- The word that a table may reserve stands in front of the seam.
      have inside := (Lexeme.call_fits found).cut.le_length
      simp only [Option.filter_some, List.take_append_of_le_length inside]

/-- A match that ends in its line holds no line feed. -/
theorem not_mem_take_of_match? (inLine : matcher.EndsInLine) (whole : Whole rest) {hit : Hit}
    (found : matcher.match? wordStart hashes rest = some hit) :
    Byte.newline ∉ rest.take hit.stop := by
  have simple : ∀ {result : Option Nat}, result.map Hit.whole = some hit →
      (∀ length, result = some length → Byte.newline ∉ rest.take length) →
        Byte.newline ∉ rest.take hit.stop := by
    intro result mapped absent
    obtain ⟨stop, some, rfl⟩ := Option.map_eq_some_iff.1 mapped
    exact absent stop some
  cases matcher with
  | stray _ | escape => exact inLine.elim
  | literal text => exact simple found fun _ => Lexeme.not_mem_take_literal inLine
  | anyOf set => exact simple found fun _ => Lexeme.not_mem_take_oneOf inLine
  | lineComment => exact simple found fun _ => Lexeme.not_mem_take_lineComment
  | quoteOpen => exact simple found fun _ => Lexeme.not_mem_take_quoteOpen
  | rawClose => exact simple found fun _ => Lexeme.not_mem_take_rawClose
  | charLiteral => exact simple found fun _ => Lexeme.not_mem_take_charLiteral whole
  | symbol => exact simple found fun _ => Lexeme.not_mem_take_symbol (by decide)
  | operator => exact simple found fun _ => Lexeme.not_mem_take_operator
  | identifier => exact simple found fun _ => Lexeme.not_mem_take_wordFrom (by decide)
  | keywordThenSpace words =>
    refine simple (Option.ite_none_right_eq_some.1 found).2 fun _ word => ?_
    exact Lexeme.not_mem_take_wordFrom (by decide) (Option.filter_eq_some_iff.1 word).1
  | screamingCase =>
    refine simple (Option.ite_none_right_eq_some.1 found).2 fun _ word => ?_
    exact Lexeme.not_mem_take_wordFrom (by decide) (Option.filter_eq_some_iff.1 word).1
  | capitalized =>
    exact simple (Option.ite_none_right_eq_some.1 found).2 fun _ =>
      Lexeme.not_mem_take_wordFrom (by decide)
  | number =>
    exact simple (Option.ite_none_right_eq_some.1 found).2 fun _ =>
      Lexeme.not_mem_take_number (by decide)
  | call reserved =>
    refine simple (Option.ite_none_right_eq_some.1 found).2 fun _ word => ?_
    have call := (Option.filter_eq_some_iff.1 word).1
    exact Lexeme.not_mem_take_wordFrom (by decide) (Option.filter_eq_some_iff.1 call).1
  | rawOpen =>
    obtain ⟨⟨stop, hashes⟩, opened, rfl⟩ := Option.map_eq_some_iff.1 found
    exact Lexeme.not_mem_take_rawOpen opened
  | qualifiedPath =>
    obtain ⟨_, found⟩ := Option.ite_none_right_eq_some.1 found
    obtain ⟨⟨head, stop⟩, path, rfl⟩ := Option.map_eq_some_iff.1 found
    exact Lexeme.not_mem_take_qualifiedPath (by decide) path

end Matcher

/-! ## Grammars -/

/-- The matchers that a scan may try in the mode of a rule stay within a line,
and those that close the mode end there. -/
structure Rule.Linewise (grammar : Grammar) (rule : Rule) : Prop where
  closing : ∀ matcher ∈ rule.closing, matcher.WithinLine ∧ matcher.EndsInLine
  illegal : ∀ matcher ∈ rule.illegal, matcher.WithinLine
  nested : ∀ id ∈ rule.contains, ∀ inner ∈ grammar.rule? id, inner.opening.WithinLine

instance (grammar : Grammar) (rule : Rule) : Decidable (rule.Linewise grammar) :=
  decidable_of_iff
    ((∀ matcher ∈ rule.closing, matcher.WithinLine ∧ matcher.EndsInLine) ∧
      (∀ matcher ∈ rule.illegal, matcher.WithinLine) ∧
      ∀ id ∈ rule.contains, ∀ inner ∈ grammar.rule? id, inner.opening.WithinLine)
    ⟨fun ⟨closing, illegal, nested⟩ => ⟨closing, illegal, nested⟩,
      fun ⟨closing, illegal, nested⟩ => ⟨closing, illegal, nested⟩⟩

/-- A grammar with which a scan starts afresh behind `;` and a line feed. -/
structure Grammar.Linewise (grammar : Grammar) : Prop where
  rules : ∀ rule ∈ grammar.rootRule :: grammar.rules.toList, rule.Linewise grammar
  /-- The ground mode is plain, and looks again at every character. -/
  root : grammar.rootRule.kind = .plain ∧ grammar.rootRule.stops = []
  /-- What is flagged or taken as it is in the ground mode ends in its line. -/
  illegal : ∀ matcher ∈ grammar.rootRule.illegal, matcher.EndsInLine
  leaves : ∀ id ∈ grammar.rootRule.contains, ∀ inner ∈ grammar.rule? id,
    inner.isMode = false → inner.opening.EndsInLine
  /-- No mode begins with plain text. -/
  heads : ∀ rule ∈ grammar.rules, rule.isMode = true → .plain ∉ rule.headKinds

theorem Grammar.Linewise.rule {grammar : Grammar} (linewise : grammar.Linewise) {rule : Rule}
    (known : grammar.Has rule) : rule.Linewise grammar :=
  linewise.rules rule known.mem_table

theorem Flint.grammar_linewise : Flint.grammar.Linewise := by
  constructor <;> decide

end ModalHighlight
