import ModalHighlight.Proofs.Scan.Strings

/-! # Raw strings

What is between the quotes of a raw string means nothing but itself, so only the
hashes behind a quote tell whether the string ends there.  As many of them must
follow as stood in front of the quote that opened it, and no further one.
-/

namespace ModalHighlight

namespace Raw

/-- `r`, hashes and a quote. -/
def opener (hashes : Nat) : List UInt8 :=
  Byte.letterR :: (List.replicate hashes Byte.hash ++ [Byte.quote])

@[simp] theorem length_opener (hashes : Nat) : (opener hashes).length = hashes + 2 := by
  simp [opener]

/-- A quote stands at an offset, with a run of exactly so many hashes behind it. -/
def ClosesAt (bytes : List UInt8) (hashes offset : Nat) : Prop :=
  bytes[offset]? = some Byte.quote ∧
    Byte.runLength (· == Byte.hash) (bytes.drop (offset + 1)) = hashes

instance (bytes : List UInt8) (hashes offset : Nat) : Decidable (ClosesAt bytes hashes offset) :=
  inferInstanceAs (Decidable (_ ∧ _))

/-- The first place from an offset on where so many hashes close a string. -/
structure FirstClosing (bytes : List UInt8) (hashes start place : Nat) : Prop where
  le : start ≤ place
  closes : ClosesAt bytes hashes place
  first : ∀ earlier, start ≤ earlier → earlier < place → ¬ClosesAt bytes hashes earlier

variable {bytes rest : List UInt8} {hashes offset length : Nat}

theorem rawOpen_eq_some (found : Lexeme.rawOpen rest = some (length, hashes)) :
    opener hashes <+: rest ∧ length = hashes + 2 ∧ hashes ≤ Lexeme.mostHashes := by
  cases rest with
  | nil => cases found
  | cons lead more =>
    simp only [Lexeme.rawOpen, Option.ite_none_right_eq_some, Option.some.injEq, Prod.mk.injEq,
      Bool.and_eq_true, beq_iff_eq, decide_eq_true_eq] at found
    obtain ⟨rfl, ⟨closed, few⟩, rfl, rfl⟩ := found
    refine ⟨List.cons_prefix_cons.2 ⟨rfl, ?_⟩, rfl, few⟩
    -- The hashes are the whole run, and the quote is what ends it.
    have run : more.takeWhile (· == Byte.hash) =
        List.replicate (Byte.runLength (· == Byte.hash) more) Byte.hash :=
      List.eq_replicate_of_mem fun b inRun => by
        simpa using List.all_eq_true.1 List.all_takeWhile b inRun
    obtain ⟨inside, isQuote⟩ := List.getElem?_eq_some_iff.1 closed
    rw [← run, ← Byte.take_runLength, ← isQuote, List.take_append_getElem inside]
    exact List.take_prefix _ _

theorem rawClose_eq_some :
    Lexeme.rawClose hashes (bytes.drop offset) = some length ↔
      ClosesAt bytes hashes offset ∧ length = hashes + 1 := by
  rw [ClosesAt, ← List.head?_drop, ← List.drop_drop]
  cases bytes.drop offset with
  | nil => simp [Lexeme.rawClose]
  | cons lead more =>
    simp only [Lexeme.rawClose, Option.ite_none_right_eq_some, Bool.and_eq_true, beq_iff_eq,
      Option.some.injEq, List.head?_cons, List.drop_one, List.tail_cons]
    tauto

end Raw

namespace Scan

variable {options : Options} {text : String} {forced : Force → Span → Prop}
variable {mode : OpenMode} {offset stop : Nat} {hit : Hit}

theorem matchAt?_rawClose {hashes : Nat} :
    Matcher.rawClose.matchAt? hashes (Cursor.ofOffset (Text.bytes text) offset) = some hit ↔
      Raw.ClosesAt (Text.bytes text) hashes offset ∧ hit = Hit.whole (hashes + 1) := by
  rw [Matcher.matchAt?, Matcher.match?, Option.map_eq_some_iff]
  simp only [Cursor.ofOffset, Raw.rawClose_eq_some]
  constructor
  · rintro ⟨_, ⟨closes, rfl⟩, rfl⟩
    exact ⟨closes, rfl⟩
  · rintro ⟨closes, rfl⟩
    exact ⟨_, ⟨closes, rfl⟩, rfl⟩

theorem OpenMode.GoesOn.not_closesAt (goesOn : mode.GoesOn options text offset)
    (same : mode.rule = Flint.rawString) :
    ¬Raw.ClosesAt (Text.bytes text) mode.hashes offset := by
  intro closes
  have unclosed := goesOn.unclosed .rawClose (by rw [same]; rfl)
  rw [matchAt?_rawClose.2 ⟨closes, rfl⟩] at unclosed
  cases unclosed

/-- A raw string knows its hashes, and has passed no place where they close it. -/
theorem maintains_unclosed : Maintains Flint.grammar options text forced Flint.rawString
    fun mode offset => ∀ length hashes,
      Lexeme.rawOpen ((Text.bytes text).drop mode.start) = some (length, hashes) →
        mode.hashes = hashes ∧ ∀ place, mode.start + length ≤ place → place < offset →
          ¬Raw.ClosesAt (Text.bytes text) hashes place where
  opened _ opens length hashes isOpening := by
    obtain ⟨found, opened, same⟩ := Option.map_eq_some_iff.1 opens.matched
    rw [OpenMode.start_addMatch] at isOpening ⊢
    obtain rfl := Option.some.inj (isOpening.symm.trans opened)
    subst same
    refine ⟨OpenMode.hashes_addMatch .., fun place behind before => ?_⟩
    exact absurd before (Nat.not_lt.2 behind)
  leaf _ _ _ _ found := by cases found
  content {mode offset length kind} same grown known goesOn _ taken opening hashes isOpening := by
    rw [OpenMode.start_add] at isOpening ⊢
    rw [OpenMode.hashes_add]
    obtain ⟨rfl, unclosed⟩ := known opening hashes isOpening
    refine ⟨rfl, content_induction
      (motive := fun stop => ∀ place, mode.start + opening ≤ place → place < stop →
        ¬Raw.ClosesAt (Text.bytes text) mode.hashes place)
      (grown.border Flint.grammar_lawful) (by decide +kernel) (by decide +kernel) goesOn.left
      taken unclosed ?_⟩
    -- A quote is an ASCII byte, so it stands where content begins or not at all.
    intro here border left unstopped passed place behind before closes
    rcases Nat.lt_trichotomy place here with earlier | rfl | later
    · exact passed place behind earlier closes
    · rcases unstopped with rfl | unstopped
      · exact goesOn.not_closesAt same closes
      · exact unstopped _ (List.head?_drop ▸ closes.1) (by decide)
    · exact border.not_ascii_within later before closes.1 (by decide)
  closed same _ _ opens := by
    have found := opens.found
    rw [same] at found
    cases found

theorem Grown.not_closesAt {length hashes : Nat}
    (grown : Grown Flint.grammar options text forced .growing mode offset)
    (same : mode.rule = Flint.rawString)
    (opening : Lexeme.rawOpen ((Text.bytes text).drop mode.start) = some (length, hashes)) :
    mode.hashes = hashes ∧ ∀ place, mode.start + length ≤ place → place < offset →
      ¬Raw.ClosesAt (Text.bytes text) hashes place :=
  maintains_unclosed.of_grown Flint.grammar_lawful rfl (by decide) grown same _ _ opening

/-- A raw string ends with the hashes of the first place where they close it, or
else with the text. -/
theorem Ended.rawClosing (ended : Ended Flint.grammar options text forced mode stop)
    (same : mode.rule = Flint.rawString) {length hashes : Nat}
    (opening : Lexeme.rawOpen ((Text.bytes text).drop mode.start) = some (length, hashes)) :
    (∃ place, Raw.FirstClosing (Text.bytes text) hashes (mode.start + length) place ∧
        stop = place + 1 + hashes) ∨
      (∀ place, mode.start + length ≤ place → ¬Raw.ClosesAt (Text.bytes text) hashes place) ∧
        stop = text.utf8ByteSize ∧ forced .textEnd ⟨mode.start, stop⟩ := by
  cases ended with
  | @closed mode _ offset matcher _ hit opens before _ ends found =>
    rw [OpenMode.rule_addClosing] at same
    rw [OpenMode.start_addClosing] at opening ⊢
    obtain ⟨rfl, unclosed⟩ := before.not_closesAt same opening
    obtain rfl : Matcher.rawClose = matcher := by
      rw [same] at ends
      exact Option.some.inj ends
    obtain ⟨closes, rfl⟩ := matchAt?_rawClose.1 found
    refine .inl ⟨offset, ⟨?_, closes, unclosed⟩, ?_⟩
    · obtain ⟨hit, opened⟩ := before.exists_opening Flint.grammar_lawful opens.isMode
      have matched := opened.matched
      rw [same] at matched
      obtain ⟨_, found, rfl⟩ := Option.map_eq_some_iff.1 matched
      obtain rfl := Option.some.inj (opening.symm.trans found)
      exact opened.within
    · rw [OpenMode.closingStop, same]
      show offset + (mode.hashes + 1) = offset + 1 + mode.hashes
      omega
  | cut _ before isForced =>
    obtain ⟨rfl, grown⟩ := before.of_closing_flat (same ▸ by decide)
    obtain ⟨rfl, unclosed⟩ := grown.not_closesAt same opening
    have atEnd := before.eq_utf8ByteSize Flint.grammar_lawful
    refine .inr ⟨fun place behind closes => ?_, atEnd, isForced⟩
    apply unclosed place behind ?_ closes
    obtain ⟨inside, _⟩ := List.getElem?_eq_some_iff.1 closes.1
    rwa [atEnd, ← Text.length_bytes]

end Scan

/-! ## Highlighting -/

/-- With any options, a string that begins with an `r` begins as a raw string does,
with some number of hashes, and stops behind the first quote with exactly that
many hashes, or where the text does if there is none.  Whatever is in it, it is
part of one token. -/
theorem raw_strings_end (options : Scan.Options) (text : String) :
    let result := (Highlighter.default.withOptions options).highlight text
    ∀ s ∈ result.scopes, s.kind = .string → [Byte.letterR] <+: s.span.bytes text →
      (∃ hashes ≤ Lexeme.mostHashes, Raw.opener hashes <+: s.span.bytes text ∧
        let start := s.span.start + (Raw.opener hashes).length
        ((∃ place, Raw.FirstClosing (Text.bytes text) hashes start place ∧
            s.span.stop = place + 1 + hashes) ∨
          (∀ place, start ≤ place → ¬Raw.ClosesAt (Text.bytes text) hashes place) ∧
            s.span.stop = text.utf8ByteSize ∧ result.Forced .textEnd s.span)) ∧
      ∃ token ∈ result.tokens.toList, token.kind = .string ∧
        token.span.encloses s.span = true := by
  intro result s member isString begins
  obtain ⟨mode, ended, kind, start, _⟩ :=
    (Highlighter.default.withOptions options).exists_ended Flint.grammar_lawful text member
  obtain ⟨more, rest⟩ := prefix_drop_of_bytes begins
  have same : mode.rule = Flint.rawString :=
    ended.rule_eq_stringRule (kind.trans isString) Byte.letterR (by rw [start, ← rest]; rfl)
  obtain ⟨hit, opened⟩ := ended.exists_opening Flint.grammar_lawful
  have matched := opened.matched
  rw [same] at matched
  obtain ⟨⟨length, hashes⟩, opening, rfl⟩ := Option.map_eq_some_iff.1 matched
  obtain ⟨stands, rfl, few⟩ := Raw.rawOpen_eq_some opening
  have within := opened.within
  have ending := ended.rawClosing same opening
  rw [start] at stands within ending
  refine ⟨⟨hashes, few, ?_, ?_⟩, exists_string_token member isString ?_⟩
  · exact Scan.bytes_of_le text _ stands (by simpa using within)
  · simpa using ending
  · rintro ⟨later, dollar⟩
    rw [← dollar] at begins
    exact absurd (List.cons_prefix_cons.1 begins).1 (by decide)

/-- Quotes with fewer or more hashes behind them do not end a string. -/
theorem raw_strings_end_near_misses :
    let text := "r##\"a\"#b\"###\"## c"
    let result := (Highlighter.default.withOptions ⟨64, true⟩).highlight text
    let s : Scope := ⟨.string, ⟨0, 15⟩⟩
    (s ∈ result.scopes ∧ s.kind = .string ∧ [Byte.letterR] <+: s.span.bytes text) ∧
      (∃ hashes ≤ Lexeme.mostHashes, Raw.opener hashes <+: s.span.bytes text ∧
        let start := s.span.start + (Raw.opener hashes).length
        ((∃ place, Raw.FirstClosing (Text.bytes text) hashes start place ∧
            s.span.stop = place + 1 + hashes) ∨
          (∀ place, start ≤ place → ¬Raw.ClosesAt (Text.bytes text) hashes place) ∧
            s.span.stop = text.utf8ByteSize ∧ result.Forced .textEnd s.span)) ∧
      ∃ token ∈ result.tokens.toList, token.kind = .string ∧
        token.span.encloses s.span = true :=
  have met : (⟨.string, ⟨0, 15⟩⟩ : Scope) ∈ ((Highlighter.default.withOptions
      ⟨64, true⟩).highlight "r##\"a\"#b\"###\"## c").scopes := by
    decide
  have begins : [Byte.letterR] <+: (⟨0, 15⟩ : Span).bytes "r##\"a\"#b\"###\"## c" := by
    decide
  ⟨⟨met, rfl, begins⟩,
    raw_strings_end ⟨64, true⟩ "r##\"a\"#b\"###\"## c" ⟨.string, ⟨0, 15⟩⟩ met rfl begins⟩

end ModalHighlight
