import ModalHighlight.Proofs.Scan.Conformity
import ModalHighlight.Proofs.Scan.Content
import ModalHighlight.Proofs.Scan.Ended
import ModalHighlight.Proofs.Text.Reading
import ModalHighlight.Proofs.Token.Single

/-! # Strings

A string ends at the first quote that no backslash escapes.  A scan does not look
at every character for that: it tries the closing quote, then an escape, and jumps
over what is neither.  Read from behind the opening quote on, one character or one
pair at a time, the text has its first quote where the scan finds it.
-/

namespace ModalHighlight

theorem Lexeme.exists_of_escape {rest : List UInt8} {length : Nat}
    (found : escape rest = some length) :
    ∃ next more, rest = Byte.backslash :: next :: more ∧
      length = 1 + Byte.charLength (next :: more) := by
  unfold escape at found
  split at found
  next lead next more =>
    obtain ⟨isBackslash, size⟩ := Option.ite_none_right_eq_some.1 found
    exact ⟨next, more, by rw [eq_of_beq isBackslash], (Option.some.inj size).symm⟩
  next => cases found

/-! ## Reading -/

namespace Quoted

/-- The bytes of a backslash and the character after it, or else of one character. -/
def unitLength : List UInt8 → Nat
  | [] => 0
  | lead :: more =>
    if lead == Byte.backslash then 1 + Byte.charLength more else Byte.charLength (lead :: more)

theorem unitLength_pos (lead : UInt8) (more : List UInt8) : 0 < unitLength (lead :: more) := by
  rw [unitLength]
  split
  · exact Nat.lt_add_right _ Nat.one_pos
  · exact Byte.charLength_pos lead more

/-- The number of bytes up to the end of the first quote.  A backslash and the
character after it are skipped as a pair. -/
def quoteEnd? : List UInt8 → Option Nat
  | [] => none
  | lead :: more =>
    if lead == Byte.quote then some 1
    else
      let length := unitLength (lead :: more)
      (quoteEnd? ((lead :: more).drop length)).map (length + ·)
termination_by rest => rest.length
decreasing_by
  have := unitLength_pos lead more
  simp only [List.length_drop, List.length_cons]
  omega

variable {rest bytes : List UInt8} {offset : Nat}

theorem quoteEnd?_of_quote (closes : Text.bytes "\"" <+: rest) : quoteEnd? rest = some 1 := by
  obtain ⟨more, rfl⟩ := closes
  rw [show Text.bytes "\"" ++ more = Byte.quote :: more from rfl, quoteEnd?]
  rfl

/-- In front of anything but a quote, reading goes on behind the next unit. -/
theorem passes (left : bytes.drop offset ≠ []) (unclosed : ¬Text.bytes "\"" <+: bytes.drop offset) :
    Text.Passes bytes quoteEnd? quoteEnd? offset
      (offset + unitLength (bytes.drop offset)) := by
  refine .of_drop ?_
  cases rest : bytes.drop offset with
  | nil => exact absurd rest left
  | cons lead more =>
    rw [rest] at unclosed
    have other : ¬(lead == Byte.quote) = true := fun isQuote => unclosed
      ⟨more, by rw [eq_of_beq isQuote]; rfl⟩
    rw [quoteEnd?, if_neg other]

theorem unitLength_of_escape {length : Nat} (found : Lexeme.escape rest = some length) :
    length = unitLength rest := by
  obtain ⟨next, more, rfl, rfl⟩ := Lexeme.exists_of_escape found
  rfl

/-- A backslash that escapes nothing is the last byte, and is read as it is. -/
theorem unitLength_of_escape_eq_none (unmatched : Lexeme.escape rest = none) :
    unitLength rest = Byte.charLength rest := by
  cases rest with
  | nil => rfl
  | cons lead more =>
    rw [unitLength]
    split
    next isBackslash =>
      cases more with
      | nil =>
        rw [eq_of_beq isBackslash]
        rfl
      | cons next more => simp [Lexeme.escape, isBackslash] at unmatched
    next => rfl

theorem unitLength_of_head (other : ∀ b ∈ rest.head?, b ≠ Byte.backslash) :
    unitLength rest = Byte.charLength rest := by
  cases rest with
  | nil => rfl
  | cons lead more => rw [unitLength, if_neg (by simpa using other lead rfl)]

end Quoted

/-! ## The rules of strings -/

namespace Flint

/-- The rule of quoted strings, with what may stand in them. -/
def escapedString : Rule := { quoted with contains := [Id.escape] }

/-- The rule of interpolated strings, with what may stand in them. -/
def interpolatedString : Rule :=
  { interpolated with contains := [Id.escape, Id.substitution] }

theorem mem_stringRules : ∀ rule ∈ grammar.rules, rule.isMode = true → rule.kind = .string →
    rule ∈ [escapedString, rawString, interpolatedString] := by
  decide

/-- The rule of the strings that begin with a byte. -/
def stringRule (lead : UInt8) : Rule :=
  if lead == Byte.letterR then rawString
  else if lead == 0x24 then interpolatedString
  else escapedString

theorem rule?_escape : grammar.rule? Id.escape = some escape := by decide

end Flint

namespace Scan

open Quoted (quoteEnd? unitLength)

variable {options : Options} {text : String} {forced : Force → Span → Prop}
variable {mode around : OpenMode} {offset stop : Nat} {hit : Hit}

theorem eq_escape_of_quoted {inner : Rule}
    (found : Flint.grammar.firstMatch? Flint.escapedString.contains
      (Cursor.ofOffset (Text.bytes text) offset) = some (inner, hit)) :
    inner = Flint.escape ∧ hit.stop = unitLength ((Text.bytes text).drop offset) := by
  obtain ⟨id, listed, known, matched⟩ := Grammar.firstMatch?_eq_some found
  obtain rfl := List.mem_singleton.1 listed
  obtain rfl := Option.some.inj (Flint.rule?_escape.symm.trans known)
  obtain ⟨length, escaped, rfl⟩ := Option.map_eq_some_iff.1 matched
  exact ⟨rfl, Quoted.unitLength_of_escape escaped⟩

/-- The first byte of a string tells its rule. -/
theorem Ended.rule_eq_stringRule (ended : Ended Flint.grammar options text forced mode stop)
    (isString : mode.rule.kind = .string) :
    ∀ lead ∈ ((Text.bytes text).drop mode.start).head?, mode.rule = Flint.stringRule lead := by
  have known := Flint.mem_stringRules _ (ended.mem_rules Flint.grammar_lawful) ended.isMode isString
  obtain ⟨hit, matched, _⟩ := ended.exists_opening Flint.grammar_lawful
  intro lead first
  obtain ⟨more, rest⟩ := List.head?_eq_some_iff.1 first
  simp only [List.mem_cons, List.not_mem_nil, or_false] at known
  rcases known with same | same | same
  · rw [same] at matched ⊢
    obtain ⟨length, opened, _⟩ := Option.map_eq_some_iff.1 matched
    rw [Cursor.ofOffset, rest, Lexeme.quoteOpen] at opened
    split at opened
    next isQuote => rw [eq_of_beq isQuote]; rfl
    next =>
      have isB := (Bool.and_eq_true _ _ ▸ (Option.ite_none_right_eq_some.1 opened).1).1
      rw [eq_of_beq isB]
      rfl
  · rw [same] at matched ⊢
    obtain ⟨found, opened, _⟩ := Option.map_eq_some_iff.1 matched
    rw [Cursor.ofOffset, rest, Lexeme.rawOpen] at opened
    rw [eq_of_beq (Option.ite_none_right_eq_some.1 opened).1]
    rfl
  · rw [same] at matched ⊢
    obtain ⟨⟨later, stands⟩, _⟩ := Matcher.matchAt?_literal.1 matched
    rw [rest] at stands
    rw [← (List.cons.inj stands).1]
    rfl

/-- In a quoted string, reading goes on where the string has grown to. -/
theorem maintains_quoteEnd : Maintains Flint.grammar options text forced Flint.escapedString
    fun mode offset => ∀ length,
      Lexeme.quoteOpen ((Text.bytes text).drop mode.start) = some length →
        Text.Passes (Text.bytes text) quoteEnd? quoteEnd? (mode.start + length) offset where
  opened _ opens length isOpening := by
    obtain ⟨found, opened, rfl⟩ := Option.map_eq_some_iff.1 opens.matched
    rw [OpenMode.start_addMatch] at isOpening ⊢
    obtain rfl := Option.some.inj (isOpening.symm.trans opened)
    exact .refl _ _ _
  leaf same _ passes goesOn found _ length isOpening := by
    obtain ⟨_, size⟩ := eq_escape_of_quoted found
    rw [OpenMode.start_addMatch] at isOpening ⊢
    have unclosed := goesOn.unclosed (.literal "\"") (by rw [same]; rfl)
    rw [size]
    exact (passes length isOpening).trans
      (Quoted.passes goesOn.left (Matcher.matchAt?_literal_eq_none.1 unclosed))
  content same grown passes goesOn unmatched taken length isOpening := by
    rw [OpenMode.start_add] at isOpening ⊢
    have unclosed := goesOn.unclosed (.literal "\"") (by rw [same]; rfl)
    have unescaped := Grammar.matchAt?_eq_none unmatched (List.mem_singleton.2 rfl)
      Flint.rule?_escape
    refine content_induction (grown.border Flint.grammar_lawful) (by decide +kernel)
      (by decide) goesOn.left taken (passes length isOpening) ?_
    intro place _ left unstopped here
    -- A backslash in front of the first character would be an escape, unless it is the
    -- last byte; in front of the others it would be a stop.
    obtain ⟨single, other⟩ : unitLength ((Text.bytes text).drop place) =
        Byte.charLength ((Text.bytes text).drop place) ∧
          ¬Text.bytes "\"" <+: (Text.bytes text).drop place := by
      rcases unstopped with rfl | unstopped
      · exact ⟨Quoted.unitLength_of_escape_eq_none (Option.map_eq_none_iff.1 unescaped),
          Matcher.matchAt?_literal_eq_none.1 unclosed⟩
      · refine ⟨Quoted.unitLength_of_head fun b first isBackslash => ?_, ?_⟩
        · exact unstopped b first (isBackslash ▸ by decide)
        · rintro ⟨more, stands⟩
          exact unstopped _ (by rw [← stands]; rfl) (by decide)
    have next := Quoted.passes left other
    rw [single] at next
    exact here.trans next
  closed same _ _ opens := by
    have isMode := opens.isMode
    have found := opens.found
    rw [same] at found
    rw [(eq_escape_of_quoted found).1] at isMode
    cases isMode

theorem Grown.passes_quoteEnd {length : Nat}
    (grown : Grown Flint.grammar options text forced .growing mode offset)
    (same : mode.rule = Flint.escapedString)
    (opening : Lexeme.quoteOpen ((Text.bytes text).drop mode.start) = some length) :
    Text.Passes (Text.bytes text) quoteEnd? quoteEnd? (mode.start + length) offset :=
  maintains_quoteEnd.of_grown Flint.grammar_lawful rfl (by decide) grown same length opening

/-- A quoted string ends with its first quote, or else with the text. -/
theorem Ended.quoteEnd (ended : Ended Flint.grammar options text forced mode stop)
    (same : mode.rule = Flint.escapedString) {length : Nat}
    (opening : Lexeme.quoteOpen ((Text.bytes text).drop mode.start) = some length) :
    (∃ further, quoteEnd? ((Text.bytes text).drop (mode.start + length)) = some further ∧
        stop = mode.start + length + further) ∨
      quoteEnd? ((Text.bytes text).drop (mode.start + length)) = none ∧
        stop = text.utf8ByteSize ∧ forced .textEnd ⟨mode.start, stop⟩ := by
  cases ended with
  | @closed mode _ offset matcher _ hit _ before _ ends found =>
    rw [OpenMode.rule_addClosing] at same
    rw [OpenMode.start_addClosing] at opening ⊢
    have passes := before.passes_quoteEnd same opening
    have isClosing : mode.rule.closing = some (.literal "\"") := by rw [same]; rfl
    obtain ⟨stands, stop⟩ := OpenMode.closes_literal isClosing (by rw [same]; rfl) ends found
    refine .inl ⟨_, passes.eq_some (Quoted.quoteEnd?_of_quote stands), ?_⟩
    rw [stop, Nat.add_sub_cancel' (Nat.le_succ_of_le passes.le)]
    rfl
  | cut _ before isForced =>
    obtain ⟨rfl, grown⟩ := before.of_closing_flat (same ▸ by decide)
    refine .inr ⟨?_, before.eq_utf8ByteSize Flint.grammar_lawful, isForced⟩
    rw [(grown.passes_quoteEnd same opening).eq, before.drop_eq_nil, quoteEnd?]
    rfl

end Scan

/-! ## Highlighting -/

section Highlighting

variable {options : Scan.Options} {text : String}

/-- A string without substitutions is part of one token. -/
theorem exists_string_token {s : Scope}
    (member : s ∈ ((Highlighter.default.withOptions options).highlight text).scopes)
    (isString : s.kind = .string) (plain : ¬Text.bytes "$\"" <+: s.span.bytes text) :
    ∃ token ∈ ((Highlighter.default.withOptions options).highlight text).tokens.toList,
      token.kind = .string ∧ token.span.encloses s.span = true := by
  have tiles := (Highlighter.tiles_withOptions options text).1
  have conforms := (Highlighter.default.withOptions options).conforms_highlight
    Flint.grammar_lawful text (Scan.keeps_holds Flint.grammar_lawful Flint.grammar_conforming)
  obtain ⟨inside, occurs⟩ := Outline.exists_occurs member
  -- No kind of scope may lie in such a string.
  have alone : ∀ t, ¬Scope.Placed text (some s) t := by
    intro t placed
    unfold Scope.Placed at placed
    split at placed <;> simp [isString, plain] at placed
  obtain ⟨flat, pieces⟩ := (occurs.conforms conforms).of_not_fits alone
  have within := (occurs.tiles tiles).1
  have own : ∀ p ∈ inside.pieces, p.kind = s.kind := by
    intro p inPieces
    have proper := (within.pieces.of_mem (List.mem_map_of_mem inPieces)).2.1
    have holds := pieces p inPieces p.span.start
      (Span.contains_eq_true.2 ⟨Nat.le_refl _, proper⟩)
    rw [Scope.Holds, isString] at holds
    exact holds.trans isString.symm
  have runs := Highlighter.runs_withOptions options text
  obtain ⟨token, inTokens, kind, encloses⟩ := occurs.exists_token tiles runs flat own
  exact ⟨token, inTokens, kind.trans isString, encloses⟩

theorem prefix_drop_of_bytes {front : List UInt8} {span : Span} (begins : front <+: span.bytes text) :
    front <+: (Text.bytes text).drop span.start :=
  begins.trans (List.take_prefix _ _)

/-- What the opening of a quoted string tells. -/
theorem quoteOpen_of_opener {opener : String} (plain : opener ∈ ["\"", "b\""])
    {rest : List UInt8} (stands : Text.bytes opener <+: rest) :
    Lexeme.quoteOpen rest = some opener.utf8ByteSize ∧
      (∃ lead ∈ rest.head?, Flint.stringRule lead = Flint.escapedString) ∧
        ¬Text.bytes "$\"" <+: rest := by
  obtain ⟨more, rfl⟩ := stands
  have other : ∀ lead : UInt8, lead ≠ 0x24 → ∀ later, ¬Text.bytes "$\"" <+: lead :: later := by
    rintro lead differs later ⟨behind, same⟩
    exact differs (List.cons.inj same).1.symm
  simp only [List.mem_cons, List.not_mem_nil, or_false] at plain
  rcases plain with rfl | rfl
  · exact ⟨rfl, ⟨_, rfl, rfl⟩, other _ (by decide) _⟩
  · exact ⟨rfl, ⟨_, rfl, rfl⟩, other _ (by decide) _⟩

end Highlighting

/-- With any options, a string that begins with a quote, alone or behind a `b`, stops
behind the first quote that is not skipped with a backslash.  Where there is none,
it stops where the text does and is reported.  Either way it is part of one token. -/
theorem quoted_strings_end (options : Scan.Options) (text : String) :
    let result := (Highlighter.default.withOptions options).highlight text
    ∀ s ∈ result.scopes, s.kind = .string →
      ∀ opener ∈ ["\"", "b\""], Text.bytes opener <+: s.span.bytes text →
        (match Quoted.quoteEnd? ((Text.bytes text).drop (s.span.start + opener.utf8ByteSize)) with
          | some length => s.span.stop = s.span.start + opener.utf8ByteSize + length
          | none => s.span.stop = text.utf8ByteSize ∧ result.Forced .textEnd s.span) ∧
        ∃ token ∈ result.tokens.toList, token.kind = .string ∧
          token.span.encloses s.span = true := by
  intro result s member isString opener plain begins
  have stands := prefix_drop_of_bytes begins
  obtain ⟨mode, ended, kind, start, _⟩ :=
    (Highlighter.default.withOptions options).exists_ended Flint.grammar_lawful text member
  have rules := ended.rule_eq_stringRule (kind.trans isString)
  obtain ⟨opening, ⟨lead, first, rule⟩, _⟩ := quoteOpen_of_opener plain stands
  have other := (quoteOpen_of_opener plain begins).2.2
  rw [← start] at first opening ⊢
  refine ⟨?_, exists_string_token member isString other⟩
  rcases ended.quoteEnd ((rules lead first).trans rule) opening with
    ⟨length, found, stop⟩ | ⟨none, stop, isForced⟩
  · rw [found]
    exact stop
  · rw [start] at isForced
    rw [none]
    exact ⟨stop, isForced⟩

/-- Escaped quotes do not end a string. -/
theorem quoted_strings_end_escaped :
    let text := "b\"\\\"\" x"
    let result := (Highlighter.default.withOptions ⟨64, true⟩).highlight text
    let s : Scope := ⟨.string, ⟨0, 5⟩⟩
    (s ∈ result.scopes ∧ s.kind = .string ∧ "b\"" ∈ ["\"", "b\""] ∧
        Text.bytes "b\"" <+: s.span.bytes text) ∧
      (match Quoted.quoteEnd? ((Text.bytes text).drop (0 + 2)) with
        | some length => 5 = 0 + 2 + length
        | none => 5 = 7 ∧ result.Forced .textEnd ⟨0, 5⟩) ∧
      ∃ token ∈ result.tokens.toList, token.kind = .string ∧
        token.span.encloses ⟨0, 5⟩ = true :=
  have met : (⟨.string, ⟨0, 5⟩⟩ : Scope) ∈
      ((Highlighter.default.withOptions ⟨64, true⟩).highlight "b\"\\\"\" x").scopes := by
    decide
  have listed : "b\"" ∈ ["\"", "b\""] := by decide
  have begins : Text.bytes "b\"" <+:
      (⟨0, 5⟩ : Span).bytes "b\"\\\"\" x" := by
    decide
  ⟨⟨met, rfl, listed, begins⟩,
    quoted_strings_end ⟨64, true⟩ "b\"\\\"\" x" ⟨.string, ⟨0, 5⟩⟩ met rfl "b\"" listed begins⟩

example : Quoted.quoteEnd? (Text.bytes "\\\"\" x") = some 3 := by decide +kernel

end ModalHighlight
