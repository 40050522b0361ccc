import ModalHighlight.Proofs.Scan.Content
import ModalHighlight.Proofs.Scan.Markup
import ModalHighlight.Proofs.Scan.Origins
import ModalHighlight.Proofs.Scan.Strings

/-! # Declaration headers

A header goes on over names and blanks until a byte decides what becomes of it.
The parameters of a function end its header in front of them, a colon ends that of
a type, and anything else gives the header of a type up.  Names, words that begin
with a digit and whole characters are stepped over in different ways, none of which
passes a byte that decides.
-/

namespace ModalHighlight

open Text (Border)

/-- `:` -/
abbrev Byte.colon : UInt8 := 0x3a

namespace Header

/-- The first offset behind a start whose byte decides. -/
def decision? (decides : UInt8 → Bool) (bytes : List UInt8) (start : Nat) : Option Nat :=
  ((bytes.drop (start + 1)).findIdx? decides).map (start + 1 + ·)

/-- What ends the header of a function: `(` or `<`. -/
def endsFunction (b : UInt8) : Bool := b == Byte.parenthesis || b == Byte.less

/-- What ends the header of a type, for good or bad: neither a blank nor part of a
word. -/
def endsType (b : UInt8) : Bool := !Byte.isIdentifier b && !Byte.isBlank b

/-- One of some words stands in front, with a blank after it. -/
def Begins (words : List String) (bytes : List UInt8) : Prop :=
  ∃ word ∈ words, ∃ blank, Byte.isBlank blank = true ∧ Text.bytes word ++ [blank] <+: bytes

/-- No byte decides from a start on up to a stop. -/
def Undecided (decides : UInt8 → Bool) (bytes : List UInt8) (start stop : Nat) : Prop :=
  ∀ place, start ≤ place → place < stop → ∀ b ∈ bytes[place]?, decides b = false

variable {decides : UInt8 → Bool} {bytes rest : List UInt8} {start middle stop : Nat}

theorem Undecided.append (first : Undecided decides bytes start middle)
    (second : Undecided decides bytes middle stop) : Undecided decides bytes start stop := by
  intro place behind before
  by_cases earlier : place < middle
  · exact first place behind earlier
  · exact second place (Nat.not_lt.1 earlier) before

/-- The header is decided where the first byte decides it, if any byte does. -/
theorem Undecided.decision?_eq (undecided : Undecided decides bytes start stop)
    (behind : start < stop) (ends : ∀ b ∈ bytes[stop]?, decides b = true) :
    decision? decides bytes start = bytes[stop]?.map fun _ => stop := by
  have shift : ∀ n, (bytes.drop (start + 1))[n]? = bytes[start + 1 + n]? := fun n =>
    List.getElem?_drop
  cases last : bytes[stop]? with
  | none =>
    -- Nothing stands behind the stop, so what did not decide is all there is.
    have outside : bytes.length ≤ stop := List.getElem?_eq_none_iff.1 last
    rw [Option.map_none, decision?, Option.map_eq_none_iff, List.findIdx?_eq_none_iff]
    intro b member
    obtain ⟨n, found⟩ := List.getElem?_of_mem member
    rw [shift] at found
    obtain ⟨inside, _⟩ := List.getElem?_eq_some_iff.1 found
    exact undecided _ (by omega) (by omega) b found
  | some b =>
    rw [Option.map_some, decision?, Option.map_eq_some_iff]
    refine ⟨stop - (start + 1), List.findIdx?_eq_some_iff_getElem.2 ?_, by omega⟩
    obtain ⟨inside, isLast⟩ := List.getElem?_eq_some_iff.1 last
    refine ⟨by rw [List.length_drop]; omega, ?_, fun n before => ?_⟩
    · have here : start + 1 + (stop - (start + 1)) = stop := by omega
      simpa [here, isLast] using ends b last
    · have earlier := undecided (start + 1 + n) (by omega) (by omega)
      simpa using earlier _ (List.getElem?_eq_getElem (by omega))

theorem undecided_word {length : Nat} (words : ∀ b, Byte.isIdentifier b = true → decides b = false)
    (within : length ≤ Lexeme.wordLength (bytes.drop start)) :
    Undecided decides bytes start (start + length) := by
  intro place behind before b found
  obtain ⟨c, same, isWord⟩ := Text.mem_class_of_lt_runLength
    (show place - start < Byte.runLength Byte.isIdentifier (bytes.drop start) from by
      have : Lexeme.wordLength (bytes.drop start) =
        Byte.runLength Byte.isIdentifier (bytes.drop start) := rfl
      omega)
  rw [Option.mem_def, List.getElem?_drop, Nat.add_sub_cancel' behind] at same
  obtain rfl := Option.some.inj (same.symm.trans found)
  exact words _ isWord

/-- No byte of a character decides if its first does not, as long as the bytes that
are not of ASCII are all alike. -/
theorem undecided_char {text : String} (border : Border text start)
    (wide : ∀ b c : UInt8, ¬b < 0x80 → ¬c < 0x80 → decides b = decides c)
    (first : ∀ b ∈ ((Text.bytes text).drop start).head?, decides b = false) :
    Undecided decides (Text.bytes text) start
      (start + Byte.charLength ((Text.bytes text).drop start)) := by
  intro place behind before b found
  cases rest : (Text.bytes text).drop start with
  | nil =>
    rw [rest, Byte.charLength] at before
    omega
  | cons lead more =>
    have lower : decides lead = false := first lead (by rw [rest]; rfl)
    rcases Nat.eq_or_lt_of_le behind with rfl | inner
    · rw [Option.mem_def, ← List.head?_drop, rest] at found
      obtain rfl := Option.some.inj found
      exact lower
    · have notAscii := border.not_ascii_within inner before found
      -- An ASCII byte would be all of its character.
      have leadToo : ¬lead < 0x80 := by
        intro ascii
        have narrow : Byte.charWidth lead = 1 := if_pos (by
          rw [UInt8.lt_iff_toNat_lt] at ascii ⊢
          exact Nat.lt_trans ascii (by decide))
        rw [rest, Byte.charLength, narrow, List.length_take, List.length_cons] at before
        omega
      rw [wide b lead notAscii leadToo]
      exact lower

theorem begins_of_keywordBeforeBlank {words : List String} {length : Nat}
    (found : Lexeme.keywordBeforeBlank words rest = some length) :
    length = Lexeme.wordLength rest ∧ (∃ blank ∈ rest[length]?, Byte.isBlank blank = true) ∧
      ∀ front, front <+: rest → length < front.length → Begins words front := by
  obtain ⟨isWord, word, listed, same⟩ := Lexeme.wordLength_of_keywordBeforeBlank found
  have spelled := (Option.filter_eq_some_iff.1 found).2
  rw [Bool.and_eq_true, Option.any_eq_true] at spelled
  obtain ⟨blank, next, isBlank⟩ := spelled.2
  refine ⟨isWord, ⟨blank, next, isBlank⟩, fun front stands longer => ?_⟩
  refine ⟨word, listed, blank, isBlank, ?_⟩
  obtain ⟨inside, isNext⟩ := List.getElem?_eq_some_iff.1 next
  rw [same, ← isNext, List.take_append_getElem inside]
  exact List.prefix_of_prefix_length_le (List.take_prefix _ _) stands
    (by rw [List.length_take]; omega)

end Header

/-! ## The rules of headers -/

/-- A rule of headers: some words open it, it holds names, and it goes on as long as
no byte decides. -/
structure Rule.Declares (rule : Rule) (words : List String) (decides : UInt8 → Bool) : Prop where
  opening : rule.opening = .keywordThenSpace words
  contains : rule.contains = [Flint.Id.title]
  stops : rule.stops = []
  words : ∀ b, Byte.isIdentifier b = true → decides b = false
  blanks : ∀ b, Byte.isBlank b = true → decides b = false
  wide : ∀ b c : UInt8, ¬b < 0x80 → ¬c < 0x80 → decides b = decides c
  goesOn : ∀ {options : Scan.Options} {text : String} {mode : Scan.OpenMode} {offset : Nat},
    mode.rule = rule → mode.GoesOn options text offset →
      ∀ b ∈ ((Text.bytes text).drop offset).head?, decides b = false

theorem Rule.Declares.flat {rule : Rule} {words : List String} {decides : UInt8 → Bool}
    (declares : rule.Declares words decides) : rule.Flat Flint.grammar := by
  rw [Rule.Flat, declares.contains]
  decide

namespace Matcher

variable {set : List UInt8} {hashes offset : Nat} {text : List UInt8} {hit : Hit}

theorem matchAt?_anyOf :
    (anyOf set).matchAt? hashes (Cursor.ofOffset text offset) = some hit ↔
      ∃ b ∈ text[offset]?, b ∈ set ∧ hit = Hit.whole 1 := by
  show (Lexeme.oneOf set (text.drop offset)).map Hit.whole = some hit ↔ _
  rw [← List.head?_drop]
  cases text.drop offset with
  | nil => simp [Lexeme.oneOf]
  | cons b more => simp [Lexeme.oneOf, @eq_comm _ hit]

theorem matchAt?_stray :
    (stray set).matchAt? hashes (Cursor.ofOffset text offset) = some hit ↔
      ∃ b ∈ text[offset]?, (Byte.isIdentifier b = false ∧ b ∉ set) ∧
        hit = Hit.whole (Byte.charLength (text.drop offset)) := by
  show (Lexeme.stray set (text.drop offset)).map Hit.whole = some hit ↔ _
  rw [← List.head?_drop]
  cases text.drop offset with
  | nil => simp [Lexeme.stray]
  | cons b more => simp [Lexeme.stray, @eq_comm _ hit]

end Matcher

namespace Flint

/-- The rule of function headers, with what may stand in them. -/
def namedFunction : Rule := { functionHeader with contains := [Id.title] }

/-- The rule of the headers of types, with what may stand in them. -/
def namedType : Rule := { typeHeader with contains := [Id.title] }

theorem rule?_title : grammar.rule? Id.title = some title := by decide

theorem rule_eq_of_header : ∀ rule ∈ grammar.rules, rule.isMode = true →
    (rule.kind = .function → rule = namedFunction) ∧
      (rule.kind = .classHeader → rule = namedType) ∧
      (rule.illegal.isSome = true → rule = namedType) := by
  decide

theorem endsFunction_of_wide {b : UInt8} (wide : ¬b < 0x80) : Header.endsFunction b = false := by
  rw [Header.endsFunction, Bool.or_eq_false_iff, beq_eq_false_iff_ne, beq_eq_false_iff_ne]
  constructor <;> rintro rfl <;> exact wide (by decide)

theorem endsType_of_wide {b : UInt8} (wide : ¬b < 0x80) : Header.endsType b = true := by
  rw [Header.endsType, Bool.and_eq_true, Bool.not_eq_true', Bool.not_eq_true',
    ← Bool.not_eq_true, ← Bool.not_eq_true]
  refine ⟨fun isWord => wide (Byte.isIdentifier_ascii isWord), fun isBlank => ?_⟩
  simp only [Byte.isBlank, Bool.or_eq_true, beq_iff_eq] at isBlank
  rcases isBlank with (((rfl | rfl) | rfl) | rfl) | rfl <;> exact wide (by decide)

theorem endsFunction_iff {b : UInt8} :
    Header.endsFunction b = true ↔ b ∈ Text.bytes "(<" := by
  rw [show Text.bytes "(<" = [Byte.parenthesis, Byte.less] from rfl]
  simp [Header.endsFunction]

theorem endsType_iff {b : UInt8} : Header.endsType b = true ↔
    Byte.isIdentifier b = false ∧ (b ∉ Text.bytes " \t\r\n\x0c:" ∨ b = Byte.colon) := by
  rw [show Text.bytes " \t\r\n\x0c:" = [0x20, 0x09, 0x0d, Byte.newline, 0x0c, Byte.colon] from rfl]
  by_cases isColon : b = Byte.colon
  · subst isColon
    exact iff_of_true rfl ⟨rfl, .inr rfl⟩
  · simp [Header.endsType, Byte.isBlank, isColon]
    tauto

theorem prefix_colon_iff {bytes : List UInt8} {offset : Nat} :
    Text.bytes ":" <+: bytes.drop offset ↔ bytes[offset]? = some Byte.colon := by
  rw [← List.head?_drop, List.head?_eq_some_iff, show Text.bytes ":" = [Byte.colon] from rfl]
  simp [List.prefix_iff_exists_append_eq, eq_comm]

theorem namedFunction_declares : namedFunction.Declares ["def"] Header.endsFunction where
  opening := rfl
  contains := rfl
  stops := rfl
  words b isWord := by
    rw [Header.endsFunction, Bool.or_eq_false_iff, beq_eq_false_iff_ne, beq_eq_false_iff_ne]
    constructor <;> rintro rfl <;> cases isWord
  blanks b isBlank := by
    rw [Header.endsFunction, Bool.or_eq_false_iff, beq_eq_false_iff_ne, beq_eq_false_iff_ne]
    constructor <;> rintro rfl <;> cases isBlank
  wide b c wideB wideC := (endsFunction_of_wide wideB).trans (endsFunction_of_wide wideC).symm
  goesOn {options text mode offset} same goesOn b first := by
    have unclosed := goesOn.unclosed (.anyOf (Text.bytes "(<")) (by rw [same]; rfl)
    rw [List.head?_drop] at first
    by_contra ends
    rw [Bool.not_eq_false, endsFunction_iff] at ends
    rw [Matcher.matchAt?_anyOf.2 ⟨b, first, ends, rfl⟩] at unclosed
    cases unclosed

theorem namedType_declares : namedType.Declares typeHeaderWords Header.endsType where
  opening := rfl
  contains := rfl
  stops := rfl
  words b isWord := by simp [Header.endsType, isWord]
  blanks b isBlank := by simp [Header.endsType, isBlank]
  wide b c wideB wideC := (endsType_of_wide wideB).trans (endsType_of_wide wideC).symm
  goesOn {options text mode offset} same goesOn b first := by
    have unclosed := goesOn.unclosed (.literal ":") (by rw [same]; rfl)
    have admitted := goesOn.admits (.stray (Text.bytes " \t\r\n\x0c:")) (by rw [same]; rfl)
    rw [Matcher.matchAt?_literal_eq_none, prefix_colon_iff] at unclosed
    rw [List.head?_drop] at first
    by_contra ends
    rw [Bool.not_eq_false, endsType_iff] at ends
    have other : b ≠ Byte.colon := fun isColon => unclosed (isColon ▸ first)
    rcases admitted with unmatched | ⟨ground, _⟩
    · rw [Matcher.matchAt?_stray.2 ⟨b, first, ⟨ends.1, ends.2.resolve_right other⟩, rfl⟩]
        at unmatched
      cases unmatched
    · rw [same] at ground
      cases ground

end Flint

namespace Scan

open Header (Undecided decision?)

variable {options : Options} {text : String} {forced : Force → Span → Prop}
variable {mode around : OpenMode} {offset stop : Nat} {hit : Hit} {rule : Rule}
variable {words : List String} {decides : UInt8 → Bool}

theorem eq_title_of_named {inner : Rule} {hit : Hit}
    (found : Flint.grammar.firstMatch? [Flint.Id.title]
      (Cursor.ofOffset (Text.bytes text) offset) = some (inner, hit)) :
    inner = Flint.title ∧ hit.stop = Lexeme.wordLength ((Text.bytes text).drop offset) := by
  obtain ⟨id, listed, known, matched⟩ := Grammar.firstMatch?_eq_some found
  obtain rfl := List.mem_singleton.1 listed
  obtain rfl := Option.some.inj (Flint.rule?_title.symm.trans known)
  obtain ⟨length, name, rfl⟩ := Option.map_eq_some_iff.1 matched
  exact ⟨rfl, Lexeme.wordFrom_eq_some name⟩

/-- A header passes no byte that decides. -/
theorem maintains_undecided (declares : rule.Declares words decides) :
    Maintains Flint.grammar options text forced rule fun mode offset =>
      Undecided decides (Text.bytes text) mode.start offset where
  opened _ opens := by
    have matched := opens.matched
    rw [declares.opening] at matched
    obtain ⟨length, found, rfl⟩ :=
      Option.map_eq_some_iff.1 (Option.ite_none_right_eq_some.1 matched).2
    rw [OpenMode.start_addMatch]
    have isWord := (Lexeme.wordLength_of_keywordBeforeBlank found).1
    exact Header.undecided_word declares.words (Nat.le_of_eq isWord)
  leaf _ _ undecided _ found _ := by
    rw [declares.contains] at found
    rw [OpenMode.start_addMatch, (eq_title_of_named found).2]
    exact undecided.append (Header.undecided_word declares.words (Nat.le_refl _))
  content same grown undecided goesOn _ taken := by
    rw [OpenMode.start_add]
    refine undecided.append ?_
    rw [Rule.contentAt, declares.stops, List.isEmpty_nil, if_pos rfl,
      Action.eachContent] at taken
    split at taken
    next =>
      obtain ⟨_, rfl⟩ := Action.content.inj taken
      exact Header.undecided_char (grown.border Flint.grammar_lawful) declares.wide
        (declares.goesOn same goesOn)
    next length isWord =>
      obtain ⟨_, rfl⟩ := Action.content.inj taken
      exact Header.undecided_word declares.words (Nat.le_of_eq isWord.symm)
  closed same _ _ opens := by
    have isMode := opens.isMode
    have found := opens.found
    rw [same, declares.contains] at found
    rw [(eq_title_of_named found).1] at isMode
    cases isMode

/-- A header that has grown to where a byte decides, or to the end of the text, has
grown to the first such place, and begins with one of its words. -/
theorem Grown.decision (grown : Grown Flint.grammar options text forced .growing mode offset)
    (declares : rule.Declares words decides) (same : mode.rule = rule)
    (isMode : rule.isMode = true) (ends : ∀ b ∈ (Text.bytes text)[offset]?, decides b = true) :
    decision? decides (Text.bytes text) mode.start =
        (Text.bytes text)[offset]?.map (fun _ => offset) ∧
      ∀ stop, offset ≤ stop →
        Header.Begins words ((⟨mode.start, stop⟩ : Span).bytes text) := by
  have undecided := (maintains_undecided declares).of_grown Flint.grammar_lawful isMode
    declares.flat.steady grown same
  obtain ⟨hit, opened⟩ := grown.exists_opening Flint.grammar_lawful (same ▸ isMode)
  have matched := opened.matched
  rw [same, declares.opening] at matched
  obtain ⟨length, found, rfl⟩ :=
    Option.map_eq_some_iff.1 (Option.ite_none_right_eq_some.1 matched).2
  obtain ⟨isWord, ⟨blank, next, isBlank⟩, begins⟩ := Header.begins_of_keywordBeforeBlank found
  -- The blank behind the word does not decide, so the header reaches beyond it.
  have within : mode.start + length ≤ offset := opened.within
  have beyond : mode.start + length < offset := by
    refine Nat.lt_of_le_of_ne within ?_
    rintro rfl
    rw [Cursor.ofOffset, Option.mem_def, List.getElem?_drop] at next
    have decided := ends blank next
    rw [declares.blanks blank isBlank] at decided
    cases decided
  refine ⟨undecided.decision?_eq (by omega) ends, fun stop reaches => ?_⟩
  obtain ⟨inside, _⟩ := List.getElem?_eq_some_iff.1 next
  apply begins _ (List.take_prefix _ _)
  rw [Span.length, List.length_take]
  exact Nat.lt_min.2 ⟨by dsimp only; omega, inside⟩

theorem Grown.getElem?_eq_none (grown : Grown Flint.grammar options text forced
    (.closing .textEnd) mode offset) : (Text.bytes text)[offset]? = none := by
  rw [← List.head?_drop, grown.drop_eq_nil]
  rfl

/-- The header of a function ends in front of its parameters, or else with the text. -/
theorem Ended.function_header (ended : Ended Flint.grammar options text forced mode stop)
    (same : mode.rule = Flint.namedFunction) :
    Header.Begins ["def"] ((⟨mode.start, stop⟩ : Span).bytes text) ∧
      match decision? Header.endsFunction (Text.bytes text) mode.start with
      | some place => stop = place
      | none => stop = text.utf8ByteSize ∧ forced .textEnd ⟨mode.start, stop⟩ := by
  cases ended with
  | @closed mode _ offset matcher _ hit _ before _ ends found =>
    rw [OpenMode.rule_addClosing] at same
    rw [OpenMode.start_addClosing]
    obtain rfl : Matcher.anyOf (Text.bytes "(<") = matcher := by
      rw [same] at ends
      exact Option.some.inj ends
    obtain ⟨b, isLast, listed, rfl⟩ := Matcher.matchAt?_anyOf.1 found
    have decides : ∀ c ∈ (Text.bytes text)[offset]?, Header.endsFunction c = true := by
      intro c isIt
      obtain rfl := Option.some.inj (isLast.symm.trans isIt)
      exact Flint.endsFunction_iff.2 listed
    obtain ⟨decision, begins⟩ := before.decision Flint.namedFunction_declares same rfl decides
    have stop : mode.closingStop (Hit.whole 1) offset = offset := by
      rw [OpenMode.closingStop, same]
      rfl
    rw [decision, isLast, stop]
    exact ⟨begins offset (Nat.le_refl _), rfl⟩
  | cut _ before isForced =>
    obtain ⟨rfl, grown⟩ := before.of_closing_flat (same ▸ Flint.namedFunction_declares.flat)
    have none := before.getElem?_eq_none
    obtain ⟨decision, begins⟩ := grown.decision Flint.namedFunction_declares same rfl
      (by simp [none])
    rw [decision, none]
    exact ⟨begins stop (Nat.le_refl _), before.eq_utf8ByteSize Flint.grammar_lawful, isForced⟩

/-- The header of a type ends behind the colon that decides it, or else with the text. -/
theorem Ended.type_header (ended : Ended Flint.grammar options text forced mode stop)
    (same : mode.rule = Flint.namedType) :
    Header.Begins Flint.typeHeaderWords ((⟨mode.start, stop⟩ : Span).bytes text) ∧
      match decision? Header.endsType (Text.bytes text) mode.start with
      | some place => (Text.bytes text)[place]? = some Byte.colon ∧ stop = place + 1
      | none => stop = text.utf8ByteSize ∧ forced .textEnd ⟨mode.start, stop⟩ := by
  cases ended with
  | @closed mode _ offset matcher _ hit _ before _ ends found =>
    rw [OpenMode.rule_addClosing] at same
    rw [OpenMode.start_addClosing]
    have isClosing : mode.rule.closing = some (.literal ":") := by rw [same]; rfl
    obtain ⟨stands, stop⟩ := OpenMode.closes_literal isClosing (by rw [same]; rfl) ends found
    rw [Flint.prefix_colon_iff] at stands
    have decides : ∀ c ∈ (Text.bytes text)[offset]?, Header.endsType c = true := by
      intro c isIt
      obtain rfl := Option.some.inj (stands.symm.trans isIt)
      rfl
    obtain ⟨decision, begins⟩ := before.decision Flint.namedType_declares same rfl decides
    rw [decision, stands, stop]
    exact ⟨begins (offset + 1) (Nat.le_succ _), stands, rfl⟩
  | cut _ before isForced =>
    obtain ⟨rfl, grown⟩ := before.of_closing_flat (same ▸ Flint.namedType_declares.flat)
    have none := before.getElem?_eq_none
    obtain ⟨decision, begins⟩ := grown.decision Flint.namedType_declares same rfl
      (by simp [none])
    rw [decision, none]
    exact ⟨begins stop (Nat.le_refl _), before.eq_utf8ByteSize Flint.grammar_lawful, isForced⟩

/-- A piece in error is the text of a mode that was given up. -/
theorem Written.exists_error {grammar : Grammar} {reach : Nat} {p : Piece}
    (written : Written grammar options text forced mode reach p)
    (accountable : grammar.Accountable) (isError : p.kind = .error) :
    ∃ inner opening matcher hit, Opens grammar options text mode inner opening ∧
      Grown grammar options text forced .growing inner p.span.stop ∧
      inner.start = p.span.start ∧ inner.rule.illegal = some matcher ∧
        matcher.matchAt? inner.hashes (Cursor.ofOffset (Text.bytes text) p.span.stop) =
          some hit := by
  have marked : p.kind.isMark ≠ false := by rw [isError]; decide
  cases written with
  | opening _ opens member =>
    exact absurd (isMark_of_matchPieces accountable (has_of_firstMatch? opens.found) member) marked
  | leaf _ _ found _ member =>
    exact absurd (isMark_of_matchPieces accountable (has_of_firstMatch? found) member) marked
  | content before _ _ taken =>
    exact absurd (accountable.kinds_of_has before.known
      (List.mem_append_right _ (contentAt_mem taken))) marked
  | flag => cases isError
  | closing _ before => exact absurd (accountable.isMark_rule before.known) marked
  | error _ opens before rejects found => exact ⟨_, _, _, _, opens, before, rfl, rejects, found⟩

/-- What is in error is the header of a type up to a byte that decides it, other than
a colon. -/
theorem Written.error_header {reach : Nat} {p : Piece}
    (written : Written Flint.grammar options text forced mode reach p) (isError : p.kind = .error) :
    Header.Begins Flint.typeHeaderWords (p.span.bytes text) ∧
      decision? Header.endsType (Text.bytes text) p.span.start = some p.span.stop ∧
        (Text.bytes text)[p.span.stop]? ≠ some Byte.colon := by
  obtain ⟨inner, opening, matcher, hit, opens, grown, start, rejects, found⟩ :=
    written.exists_error Flint.grammar_accountable isError
  have known := grown.mem_rules Flint.grammar_lawful opens.isMode
  have same : inner.rule = Flint.namedType :=
    (Flint.rule_eq_of_header _ known opens.isMode).2.2 (by rw [rejects]; rfl)
  obtain rfl : Matcher.stray (Text.bytes " \t\r\n\x0c:") = matcher := by
    rw [same] at rejects
    exact Option.some.inj rejects
  obtain ⟨b, isLast, ⟨foreign, unlisted⟩, _⟩ := Matcher.matchAt?_stray.1 found
  have decides : ∀ c ∈ (Text.bytes text)[p.span.stop]?, Header.endsType c = true := by
    intro c isIt
    obtain rfl := Option.some.inj (isLast.symm.trans isIt)
    exact Flint.endsType_iff.2 ⟨foreign, .inl unlisted⟩
  obtain ⟨decision, begins⟩ := grown.decision Flint.namedType_declares same rfl decides
  rw [start, isLast] at decision
  refine ⟨?_, decision, fun isColon => ?_⟩
  · rw [start] at begins
    exact begins p.span.stop (Nat.le_refl _)
  · obtain rfl := Option.some.inj (isLast.symm.trans isColon)
    exact unlisted (by decide)

end Scan

/-! ## Highlighting -/

/-- With any options, the first byte behind a header that can stand in none decides
what becomes of it.  The header of a function ends in front of `(` or `<`.  That of
a type ends behind a colon, and is in error up to anything else.  A header that no
byte decides ends with the text and is reported. -/
theorem headers_resolve (options : Scan.Options) (text : String) :
    let result := (Highlighter.default.withOptions options).highlight text
    let bytes := Text.bytes text
    (∀ s ∈ result.scopes, s.kind = .function →
      Header.Begins ["def"] (s.span.bytes text) ∧
        match Header.decision? Header.endsFunction bytes s.span.start with
        | some place => s.span.stop = place
        | none => s.span.stop = text.utf8ByteSize ∧ result.Forced .textEnd s.span) ∧
    (∀ s ∈ result.scopes, s.kind = .classHeader →
      Header.Begins Flint.typeHeaderWords (s.span.bytes text) ∧
        match Header.decision? Header.endsType bytes s.span.start with
        | some place => bytes[place]? = some Byte.colon ∧ s.span.stop = place + 1
        | none => s.span.stop = text.utf8ByteSize ∧ result.Forced .textEnd s.span) ∧
    ∀ token ∈ result.tokens.toList, token.kind = .error →
      Header.Begins Flint.typeHeaderWords (token.span.bytes text) ∧
        Header.decision? Header.endsType bytes token.span.start = some token.span.stop ∧
          bytes[token.span.stop]? ≠ some Byte.colon := by
  intro result bytes
  have exists_ended : ∀ s ∈ result.scopes, ∃ mode,
      Scan.Ended Flint.grammar (Highlighter.default.withOptions options).options text
          result.Forced mode s.span.stop ∧
        mode.rule ∈ Flint.grammar.rules ∧ mode.rule.kind = s.kind ∧ mode.start = s.span.start := by
    intro s member
    obtain ⟨mode, ended, kind, start, _⟩ :=
      (Highlighter.default.withOptions options).exists_ended Flint.grammar_lawful text member
    exact ⟨mode, ended, ended.mem_rules Flint.grammar_lawful, kind, start⟩
  refine ⟨fun s member isFunction => ?_, fun s member isType => ?_, fun token member isError => ?_⟩
  · obtain ⟨mode, ended, known, kind, start⟩ := exists_ended s member
    have same := (Flint.rule_eq_of_header _ known ended.isMode).1 (kind.trans isFunction)
    have header := ended.function_header same
    rw [start] at header
    exact header
  · obtain ⟨mode, ended, known, kind, start⟩ := exists_ended s member
    have same := (Flint.rule_eq_of_header _ known ended.isMode).2.1 (kind.trans isType)
    have header := ended.type_header same
    rw [start] at header
    exact header
  · have absent : ∀ s ∈ result.scopes, s.kind ≠ token.kind := by
      intro s inScopes sameKind
      obtain ⟨mode, _, known, kind, _⟩ := exists_ended s inScopes
      have other : Kind.error ≠ mode.rule.kind :=
        Flint.grammar_accountable.ne_rule (.inr known) rfl
      exact other (isError.symm.trans (sameKind.symm.trans kind.symm))
    obtain ⟨mode, reach, written⟩ := Highlighter.exists_written_of_absent Flint.grammar_lawful
      Flint.grammar_accountable Flint.grammar_grounded member (by rw [isError]; decide) absent
    exact written.error_header isError

/-- A header of each sort, and one in error. -/
theorem headers_resolve_each :
    let text := "def f(x) data D: error e\x7b"
    let result := (Highlighter.default.withOptions ⟨64, true⟩).highlight text
    let bytes := Text.bytes text
    let error : Token := ⟨.error, ⟨17, 24⟩, "error e"⟩
    (⟨.function, ⟨0, 5⟩⟩ ∈ result.scopes ∧ ⟨.classHeader, ⟨9, 16⟩⟩ ∈ result.scopes ∧
        error ∈ result.tokens.toList) ∧
      (Header.Begins ["def"] ((⟨0, 5⟩ : Span).bytes text) ∧
        match Header.decision? Header.endsFunction bytes 0 with
        | some place => 5 = place
        | none => 5 = text.utf8ByteSize ∧ result.Forced .textEnd ⟨0, 5⟩) ∧
      (Header.Begins Flint.typeHeaderWords ((⟨9, 16⟩ : Span).bytes text) ∧
        match Header.decision? Header.endsType bytes 9 with
        | some place => bytes[place]? = some Byte.colon ∧ 16 = place + 1
        | none => 16 = text.utf8ByteSize ∧ result.Forced .textEnd ⟨9, 16⟩) ∧
      Header.Begins Flint.typeHeaderWords (error.span.bytes text) ∧
        Header.decision? Header.endsType bytes error.span.start = some error.span.stop ∧
          bytes[error.span.stop]? ≠ some Byte.colon :=
  have inFunction : (⟨.function, ⟨0, 5⟩⟩ : Scope) ∈ ((Highlighter.default.withOptions
      ⟨64, true⟩).highlight "def f(x) data D: error e\x7b").scopes := by
    decide
  have inType : (⟨.classHeader, ⟨9, 16⟩⟩ : Scope) ∈ ((Highlighter.default.withOptions
      ⟨64, true⟩).highlight "def f(x) data D: error e\x7b").scopes := by
    decide
  have inTokens : (⟨.error, ⟨17, 24⟩, "error e"⟩ : Token) ∈ ((Highlighter.default.withOptions
      ⟨64, true⟩).highlight "def f(x) data D: error e\x7b").tokens.toList := by
    decide +kernel
  have resolve := headers_resolve ⟨64, true⟩ "def f(x) data D: error e\x7b"
  ⟨⟨inFunction, inType, inTokens⟩, resolve.1 _ inFunction rfl, resolve.2.1 _ inType rfl,
    resolve.2.2 _ inTokens rfl⟩

example : Header.decision? Header.endsType (Text.bytes "error e\x7b") 0 = some 7 := by
  decide

end ModalHighlight
