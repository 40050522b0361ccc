import Mathlib.Data.List.Chain
import ModalHighlight.Proofs.Grammar.Spelling

/-! # Small letters inside lexemes

Operators hold no letters, and in a number or a type name every small letter stands
behind another byte of the same word.  So where a word begins with a small letter, no
such lexeme is under way.
-/

namespace ModalHighlight.Lexeme

variable {word text : List UInt8} {offset : Nat}

/-- A word begins with a small letter at an offset of a text. -/
structure BeginsSmall (text : List UInt8) (offset : Nat) : Prop where
  small : ∃ b ∈ text[offset]?, Byte.isLower b = true
  apart : ¬LastIn Byte.isIdentifier text offset

theorem BeginsSmall.small_drop (begins : BeginsSmall text offset) :
    ∃ b ∈ (text.drop offset).head?, Byte.isLower b = true := by
  rw [List.head?_drop]
  exact begins.small

/-- What a slice holds of a text stands in the text. -/
theorem BeginsSmall.within {start length : Nat} (begins : BeginsSmall text (start + offset))
    (inside : offset < length) : BeginsSmall ((text.drop start).take length) offset where
  small := by
    rw [List.getElem?_take_of_lt inside, List.getElem?_drop]
    exact begins.small
  apart := by
    rintro ⟨pos, b, stands, isIn⟩
    rw [List.getElem?_take_of_lt (by omega)] at stands
    exact begins.apart (.add ⟨pos, b, stands, isIn⟩)

/-- A word that reaches over an offset at which a word begins is that word. -/
theorem BeginsSmall.eq_of_lt_wordLength {start : Nat} (begins : BeginsSmall text offset)
    (lower : start ≤ offset) (upper : offset < start + wordLength (text.drop start)) :
    start = offset := by
  by_contra other
  have inside : offset - 1 - start < Byte.runLength Byte.isIdentifier (text.drop start) := by
    rw [← wordLength]
    omega
  obtain ⟨b, stands, isIn⟩ := Text.mem_class_of_lt_runLength inside
  rw [Option.mem_def, List.getElem?_drop] at stands
  have place : start + (offset - 1 - start) = offset - 1 := by omega
  exact begins.apart ⟨by omega, b, place ▸ stands, isIn⟩

/-- A lexeme in which every small letter stands behind an identifier byte. -/
structure Joined (word : List UInt8) : Prop where
  head : ∀ b ∈ word.head?, Byte.isLower b = false
  chain : word.IsChain fun before b => Byte.isLower b = true → Byte.isIdentifier before = true

namespace Joined

theorem not_beginsSmall (joined : Joined word) : ¬BeginsSmall word offset := by
  rintro ⟨⟨b, stands, small⟩, apart⟩
  cases offset with
  | zero =>
    rw [← List.head?_eq_getElem?] at stands
    rw [joined.head b stands] at small
    cases small
  | succ before =>
    obtain ⟨inside, rfl⟩ := List.getElem?_eq_some_iff.1 stands
    have isIn := List.isChain_iff_getElem.1 joined.chain before inside small
    exact apart (.snoc (List.getElem?_eq_getElem _) isIn)

theorem of_quiet (quiet : ∀ b ∈ word, Byte.isLower b = false) : Joined word where
  head b first := quiet b (List.mem_of_head? first)
  chain := by
    refine (List.pairwise_of_forall_mem_list fun _ _ b member small => ?_).isChain
    rw [quiet b member] at small
    cases small

theorem of_identifier (first : ∀ b ∈ word.head?, Byte.isLower b = false)
    (all : ∀ b ∈ word, Byte.isIdentifier b = true) : Joined word where
  head := first
  chain := by
    refine (List.pairwise_of_forall_mem_list fun before member _ _ _ => ?_).isChain
    exact all before member

/-- Bytes without small letters, the last of them an identifier byte, in front of others. -/
theorem append {front back : List UInt8} (quiet : ∀ b ∈ front, Byte.isLower b = false)
    (last : ∃ b ∈ front.getLast?, Byte.isIdentifier b = true)
    (later : ∀ b ∈ back.tail, Byte.isLower b = false) : Joined (front ++ back) where
  head b first := by
    obtain ⟨c, isLast, _⟩ := last
    rw [List.head?_append_of_ne_nil _ (List.ne_nil_of_mem (List.mem_of_getLast? isLast))] at first
    exact quiet b (List.mem_of_head? first)
  chain := by
    refine List.isChain_append.2 ⟨(of_quiet quiet).chain, ?_, fun b isLast _ _ _ => ?_⟩
    · cases back with
      | nil => exact .nil
      | cons lead more =>
        have behind := of_quiet later
        refine List.isChain_cons.2 ⟨fun b next small => ?_, behind.chain⟩
        rw [behind.head b next] at small
        cases small
    · obtain ⟨c, same, isIn⟩ := last
      obtain rfl := Option.some.inj (same.symm.trans isLast)
      exact isIn

end Joined

/-! ## Numbers -/

theorem isLower_of_isDigitOf {b : UInt8} (digit : isDigitOf Byte.isDigit b = true) :
    Byte.isLower b = false := by
  grind [isDigitOf, Byte.isDigit, Byte.isLower]

theorem isLower_of_isCapital {b : UInt8} (capital : Spelling.isCapital b = true) :
    Byte.isLower b = false := by
  grind [Spelling.isCapital, Byte.isUpper, Byte.isLower]

theorem joined_radix {letter : UInt8} {inClass : UInt8 → Bool}
    (announced : digitsAnnouncedBy letter = some inClass)
    (member : word ∈ (Spelling.radix letter inClass).matches') : Joined word := by
  obtain ⟨isLetter, identifier⟩ := digitsAnnouncedBy_identifier announced
  obtain ⟨_, rfl, _, ⟨_, rfl, digits, areDigits, rfl⟩, rfl⟩ := member
  refine .of_identifier (fun b first => Option.some.inj first ▸ by decide) fun b inWord => ?_
  rcases List.mem_cons.1 inWord with rfl | inWord
  · decide
  · rcases List.mem_cons.1 inWord with rfl | inDigits
    · exact isLetter
    · exact isIdentifier_of_isDigitOf identifier ((Spelling.of_mem_many areDigits).2 b inDigits)

theorem isLower_of_mem_digits (member : word ∈ (Spelling.digits Byte.isDigit).matches') :
    ∀ b ∈ word, Byte.isLower b = false :=
  fun b inWord => isLower_of_isDigitOf ((Spelling.of_mem_many member).2 b inWord)

theorem isIdentifier_getLast_of_mem_digits (nonempty : word ≠ [])
    (all : ∀ b ∈ word, isDigitOf Byte.isDigit b = true) :
    ∃ b ∈ word.getLast?, Byte.isIdentifier b = true := by
  refine ⟨_, List.getLast?_eq_some_getLast nonempty, ?_⟩
  exact isIdentifier_of_isDigitOf isIdentifier_of_isDigit (all _ (List.getLast_mem nonempty))

/-- Behind the letter of an exponent stand no others. -/
theorem isLower_of_mem_tail_exponent
    (member : word ∈ (Spelling.optional Spelling.exponent).matches') :
    ∀ b ∈ word.tail, Byte.isLower b = false := by
  rcases member with rfl | ⟨_, one, _, ⟨sign, isSign, power, isPower, rfl⟩, rfl⟩
  · exact fun b inTail => nomatch inTail
  · obtain ⟨letter, rfl, _⟩ := Spelling.mem_oneOf_iff.1 one
    intro b (inTail : b ∈ sign ++ power)
    rcases List.mem_append.1 inTail with inSign | inPower
    · rcases isSign with rfl | isSign
      · cases inSign
      · obtain ⟨c, rfl, plusOrMinus⟩ := Spelling.mem_oneOf_iff.1 isSign
        obtain rfl := List.mem_singleton.1 inSign
        rw [Bool.or_eq_true, beq_iff_eq, beq_iff_eq] at plusOrMinus
        rcases plusOrMinus with rfl | rfl <;> decide
    · exact isLower_of_mem_digits isPower b inPower

theorem joined_decimal (member : word ∈ Spelling.decimal.matches') : Joined word := by
  obtain ⟨whole, isWhole, _, ⟨fraction, isFraction, exponent, isExponent, rfl⟩, rfl⟩ := member
  obtain ⟨lead, more, rfl, digit, others⟩ := Spelling.exists_of_mem_wordOf isWhole
  have digits : ∀ b ∈ lead :: more, isDigitOf Byte.isDigit b = true :=
    List.forall_mem_cons.2 ⟨by simp [isDigitOf, digit], others⟩
  have letter := isLower_of_mem_tail_exponent isExponent
  have whole : ∀ b ∈ lead :: more, Byte.isLower b = false :=
    fun b inWhole => isLower_of_isDigitOf (digits b inWhole)
  change Joined (lead :: more ++ (fraction ++ exponent))
  -- A fraction that is there ends what stands in front of the exponent.
  rcases isFraction with rfl | ⟨_, rfl, places, arePlaces, rfl⟩
  · exact .append whole (isIdentifier_getLast_of_mem_digits (List.cons_ne_nil lead more) digits) letter
  · obtain ⟨nonempty, all⟩ := Spelling.of_mem_many arePlaces
    rw [← List.append_assoc]
    refine .append (fun b inFront => ?_) ?_ letter
    · rcases List.mem_append.1 inFront with inWhole | inFraction
      · exact whole b inWhole
      · rcases List.mem_cons.1 inFraction with rfl | inPlaces
        · decide
        · exact isLower_of_mem_digits arePlaces b inPlaces
    · obtain ⟨b, isLast, isIn⟩ := isIdentifier_getLast_of_mem_digits nonempty all
      exact ⟨b, by rw [List.getLast?_append, List.getLast?_append, isLast]; rfl, isIn⟩

theorem joined_number (member : word ∈ Spelling.number.matches') : Joined word := by
  rcases member with ((binary | octal) | hexadecimal) | decimal
  · exact joined_radix rfl binary
  · exact joined_radix rfl octal
  · exact joined_radix rfl hexadecimal
  · exact joined_decimal decimal

/-! ## Operators and type names -/

theorem joined_of_operator : ∀ operator ∈ Flint.operators, Joined (Text.bytes operator) := by
  have quiet : ∀ operator ∈ Flint.operators, ∀ b ∈ Text.bytes operator, Byte.isLower b = false := by
    decide +kernel
  exact fun operator listed => .of_quiet (quiet operator listed)

theorem joined_typeName (member : word ∈ Spelling.typeName.matches') : Joined word := by
  obtain ⟨lead, more, rfl, capital, all⟩ := Spelling.exists_of_mem_wordOf member
  refine .of_identifier (fun b first => ?_)
    (List.forall_mem_cons.2 ⟨isIdentifier_of_capital lead capital, all⟩)
  obtain rfl := Option.some.inj first
  exact isLower_of_isCapital capital

end ModalHighlight.Lexeme
