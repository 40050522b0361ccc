import ModalHighlight.Matcher
import ModalHighlight.Proofs.Lexeme.Longest

/-! # Numbers are read as far as they go

A number is read part by part, with one byte or two in view, and a part that would hold
no digit is left out.  No other reading gets further: behind the digits of a part stands
no digit, and a fraction, an exponent and its sign each begin with a byte that no digit is.
-/

namespace ModalHighlight

namespace Lexeme

variable {text more word : List UInt8} {b letter : UInt8} {inClass : UInt8 → Bool} {length : Nat}

/-! ## Beginnings -/

theorem isDigitOf_of_head? (member : word ∈ (Spelling.digits inClass).matches')
    (first : word.head? = some b) : isDigitOf inClass b = true :=
  (Spelling.of_mem_many member).2 b (List.mem_of_head? first)

theorem head?_of_mem_mul {left : RegularExpression UInt8} {behind : RegularExpression UInt8}
    (bytes : SingleBytes left.matches' inClass) (member : word ∈ (left * behind).matches') :
    ∃ b, word.head? = some b ∧ inClass b = true := by
  obtain ⟨_, one, rest, _, rfl⟩ := Language.mem_mul.1 member
  obtain ⟨b, rfl, isIn⟩ := (bytes _).1 one
  exact ⟨b, rfl, isIn⟩

/-- `[eE]` -/
def isExponentLetter (b : UInt8) : Bool := b == 0x65 || b == 0x45

theorem isExponentLetter_of_head? (member : word ∈ (Spelling.optional Spelling.exponent).matches')
    (first : word.head? = some b) : isExponentLetter b = true := by
  rcases member with rfl | member
  · cases first
  · obtain ⟨c, same, isLetter⟩ := head?_of_mem_mul (singleBytes_oneOf isExponentLetter) member
    exact Option.some.inj (same.symm.trans first) ▸ isLetter

/-- What follows the whole part of a decimal begins with a dot or an exponent's letter. -/
theorem dot_or_exponentLetter_of_head?
    (member : word ∈ (Spelling.optional Spelling.fraction * Spelling.optional Spelling.exponent).matches')
    (first : word.head? = some b) : b = Byte.dot ∨ isExponentLetter b = true := by
  obtain ⟨fraction, isFraction, exponent, isExponent, rfl⟩ := Language.mem_mul.1 member
  rcases isFraction with rfl | isFraction
  · exact .inr (isExponentLetter_of_head? isExponent first)
  · obtain ⟨c, same, isDot⟩ := head?_of_mem_mul (singleBytes_char Byte.dot) isFraction
    rw [List.head?_append, same] at first
    exact .inl (Option.some.inj first ▸ eq_of_beq isDot)

/-! ## Parts of numbers -/

/-- The number of digits and underscores in front of a text, if there are any. -/
def digits? (inClass : UInt8 → Bool) (text : List UInt8) : Option Nat :=
  if Byte.runLength (isDigitOf inClass) text = 0 then none
  else some (Byte.runLength (isDigitOf inClass) text)

theorem longest_digits (inClass : UInt8 → Bool) (text : List UInt8) :
    Longest (Spelling.digits inClass).matches' text (digits? inClass text) :=
  .many (isDigitOf inClass) text

theorem digits?_cases (inClass : UInt8 → Bool) (text : List UInt8) :
    Byte.runLength (isDigitOf inClass) text = 0 ∧ digits? inClass text = none ∨
      ∃ others, Byte.runLength (isDigitOf inClass) text = others + 1 ∧
        digits? inClass text = some (others + 1) := by
  rw [digits?]
  cases Byte.runLength (isDigitOf inClass) text with
  | zero => exact .inl ⟨rfl, rfl⟩
  | succ others => exact .inr ⟨others, rfl, rfl⟩

theorem fractionLength_cons (lead : UInt8) (more : List UInt8) : fractionLength (lead :: more) =
    (if lead == Byte.dot then (digits? Byte.isDigit more).map (1 + ·) else none).getD 0 := by
  rw [fractionLength]
  split
  next =>
    rcases digits?_cases Byte.isDigit more with ⟨count, read⟩ | ⟨others, count, read⟩ <;>
      rw [count, read]
    · rfl
    · exact Nat.add_comm (others + 1) 1
  next => rfl

theorem exponentLength_cons (lead : UInt8) (more : List UInt8) : exponentLength (lead :: more) =
    (if isExponentLetter lead then ((digits? Byte.isDigit (more.drop (signLength more))).map
      (signLength more + ·)).map (1 + ·) else none).getD 0 := by
  rw [exponentLength, ← isExponentLetter]
  split
  next =>
    dsimp only
    rcases digits?_cases Byte.isDigit (more.drop (signLength more)) with
      ⟨count, read⟩ | ⟨others, count, read⟩ <;> rw [count, read]
    · rfl
    · exact Nat.add_comm (signLength more + (others + 1)) 1
  next => rfl

theorem longest_fraction (text : List UInt8) :
    Longest (Spelling.optional Spelling.fraction).matches' text (some (fractionLength text)) := by
  cases text with
  | nil => exact (Longest.byte_nil (singleBytes_char Byte.dot)).none_mul.optional
  | cons lead more =>
    have digits := longest_digits Byte.isDigit more
    rw [fractionLength_cons]
    exact (digits.byte_mul (singleBytes_char Byte.dot) lead).optional

theorem longest_sign (text : List UInt8) :
    Longest (Spelling.optional (Spelling.oneOf fun b => b == Byte.plus || b == Byte.minus)).matches'
      text (some (signLength text)) := by
  cases text with
  | nil => exact (Longest.byte_nil (singleBytes_oneOf _)).optional
  | cons lead more =>
    have sign := (Longest.byte (singleBytes_oneOf fun b => b == Byte.plus || b == Byte.minus)
      lead more).optional
    rw [signLength]
    split at sign
    next isSign => exact if_pos isSign ▸ sign
    next other => exact if_neg other ▸ sign

theorem signLength_eq_one (pos : 0 < signLength text) :
    signLength text = 1 ∧ ∀ b ∈ text[0]?, (b == Byte.plus || b == Byte.minus) = true := by
  cases text with
  | nil => exact absurd pos (Nat.lt_irrefl 0)
  | cons lead more =>
    simp only [signLength] at pos ⊢
    split at pos
    next isSign => exact ⟨if_pos isSign, fun b first => Option.some.inj first ▸ isSign⟩
    next => exact absurd pos (Nat.lt_irrefl 0)

/-- A sign is no digit. -/
theorem isDigitOf_sign (isSign : (b == Byte.plus || b == Byte.minus) = true) :
    isDigitOf Byte.isDigit b = false := by
  rw [Bool.or_eq_true, beq_iff_eq, beq_iff_eq] at isSign
  rcases isSign with rfl | rfl <;> decide

theorem longest_exponent (text : List UInt8) :
    Longest (Spelling.optional Spelling.exponent).matches' text (some (exponentLength text)) := by
  cases text with
  | nil => exact (Longest.byte_nil (singleBytes_oneOf isExponentLetter)).none_mul.optional
  | cons lead more =>
    have digits := longest_digits Byte.isDigit (more.drop (signLength more))
    have signed := (longest_sign more).mul digits fun n before _ b next word isDigits first => by
      -- Where a sign is left out, it stands in the place of the first digit.
      obtain ⟨one, isSign⟩ := signLength_eq_one (Nat.zero_lt_of_lt before)
      obtain rfl : n = 0 := by omega
      have digit := isDigitOf_of_head? isDigits first
      rw [isDigitOf_sign (isSign b next)] at digit
      cases digit
    rw [exponentLength_cons]
    exact (signed.byte_mul (singleBytes_oneOf isExponentLetter) lead).optional

/-- Behind fewer digits than there are stands a digit, which begins nothing that a decimal
goes on with. -/
theorem isDigitOf_ne (isDigit : isDigitOf Byte.isDigit b = true) :
    b ≠ Byte.dot ∧ isExponentLetter b = false := by
  refine ⟨?_, ?_⟩
  · rintro rfl
    cases isDigit
  · by_contra isLetter
    rw [Bool.not_eq_false, isExponentLetter, Bool.or_eq_true, beq_iff_eq, beq_iff_eq] at isLetter
    rcases isLetter with rfl | rfl <;> cases isDigit

theorem longest_behind (text : List UInt8) :
    Longest (Spelling.optional Spelling.fraction * Spelling.optional Spelling.exponent).matches' text
      (some (fractionLength text + exponentLength (text.drop (fractionLength text)))) := by
  refine (longest_fraction text).mul (longest_exponent _) fun n before _ b next word isExponent first => ?_
  have letter := isExponentLetter_of_head? isExponent first
  -- A fraction is left out as a whole, or some digits at its end are.
  cases text with
  | nil => cases next
  | cons lead more =>
    rw [fractionLength_cons] at before
    split at before
    next isDot =>
      rcases digits?_cases Byte.isDigit more with ⟨count, read⟩ | ⟨others, count, read⟩
      · simp [read] at before
      · simp only [read, Option.map_some, Option.getD_some] at before
        cases n with
        | zero =>
          obtain rfl := Option.some.inj next
          rw [eq_of_beq isDot] at letter
          cases letter
        | succ n =>
          have inside : n < Byte.runLength (isDigitOf Byte.isDigit) more := by omega
          obtain ⟨c, stands, isDigit⟩ := Text.mem_class_of_lt_runLength inside
          obtain rfl := Option.some.inj (stands.symm.trans next)
          rw [(isDigitOf_ne isDigit).2] at letter
          cases letter
    next => exact absurd before (Nat.not_lt_zero n)

theorem longest_decimal {lead : UInt8} (isDigit : Byte.isDigit lead = true) (more : List UInt8) :
    Longest Spelling.decimal.matches' (lead :: more) (some (decimalLength (lead :: more))) := by
  have within : ∀ b, Byte.isDigit b = true → isDigitOf Byte.isDigit b = true := fun b digit => by
    simp [isDigitOf, digit]
  have whole : Longest (Spelling.wordOf Byte.isDigit (isDigitOf Byte.isDigit)).matches'
      (lead :: more) (some (Byte.runLength (isDigitOf Byte.isDigit) (lead :: more))) :=
    .wordOf within isDigit
  rw [decimalLength, Nat.add_assoc, ← List.drop_drop]
  refine whole.mul (longest_behind _) fun n before _ b next word isBehind first => ?_
  obtain ⟨c, stands, digit⟩ := Text.mem_class_of_lt_runLength before
  obtain rfl := Option.some.inj (stands.symm.trans next)
  obtain ⟨notDot, notLetter⟩ := isDigitOf_ne digit
  rcases dot_or_exponentLetter_of_head? isBehind first with isDot | isLetter
  · exact notDot isDot
  · rw [notLetter] at isLetter
    cases isLetter

/-! ## Whole numbers -/

/-- No number with a prefix stands where another prefix or none does. -/
theorem longest_radix_of_apart (inClass : UInt8 → Bool)
    (apart : ∀ more, text ≠ Byte.zero :: letter :: more) :
    Longest (Spelling.radix letter inClass).matches' text none := by
  refine .of_forall_not fun word member stands => ?_
  obtain ⟨_, rfl, _, behind, rfl⟩ := Language.mem_mul.1 member
  obtain ⟨_, rfl, digits, _, rfl⟩ := Language.mem_mul.1 behind
  obtain ⟨rest, rfl⟩ := stands
  exact apart (digits ++ rest) rfl

theorem longest_radix (announced : digitsAnnouncedBy letter = some inClass) (more : List UInt8) :
    Longest (Spelling.radix letter inClass).matches' (Byte.zero :: letter :: more)
      (radixNumber (Byte.zero :: letter :: more)) := by
  have read := ((longest_digits inClass more).byte_mul (singleBytes_char letter) letter).byte_mul
    (singleBytes_char Byte.zero) Byte.zero
  rw [if_pos (beq_self_eq_true _), if_pos (beq_self_eq_true _)] at read
  simp only [radixNumber, beq_self_eq_true, if_true, announced]
  rcases digits?_cases inClass more with ⟨count, digits⟩ | ⟨others, count, digits⟩ <;>
    rw [digits] at read <;> rw [count]
  · exact read
  · have same : 1 + (1 + (others + 1)) = others + 3 := by omega
    rw [Option.map_some, Option.map_some, same] at read
    exact read

theorem longest_radixNumber (text : List UInt8) :
    Longest (Spelling.radix 0x62 Byte.isBinaryDigit + Spelling.radix 0x6f Byte.isOctalDigit +
      Spelling.radix 0x78 Byte.isHexDigit).matches' text (radixNumber text) := by
  by_cases prefixed : ∃ letter inClass more,
      digitsAnnouncedBy letter = some inClass ∧ text = Byte.zero :: letter :: more
  · obtain ⟨letter, inClass, more, announced, rfl⟩ := prefixed
    have read := longest_radix announced more
    have other : ∀ (c : UInt8) (digits : UInt8 → Bool), letter ≠ c →
        Longest (Spelling.radix c digits).matches' (Byte.zero :: letter :: more) none :=
      fun c digits differs => longest_radix_of_apart digits fun rest same => by simp_all
    rcases digitsAnnouncedBy_eq_some announced with ⟨rfl, rfl⟩ | ⟨rfl, rfl⟩ | ⟨rfl, rfl⟩
    · exact (read.or_none (other 0x6f _ (by decide))).or_none (other 0x78 _ (by decide))
    · exact ((other 0x62 _ (by decide)).none_or read).or_none (other 0x78 _ (by decide))
    · exact ((other 0x62 _ (by decide)).or_none (other 0x6f _ (by decide))).none_or read
  · have apart : ∀ {letter inClass}, digitsAnnouncedBy letter = some inClass →
        Longest (Spelling.radix letter inClass).matches' text none :=
      fun announced => longest_radix_of_apart _ fun more same =>
        prefixed ⟨_, _, more, announced, same⟩
    have absent : radixNumber text = none := by
      match text with
      | [] | [_] => rfl
      | lead :: letter :: more =>
        rw [radixNumber, ite_eq_right_iff, beq_iff_eq]
        rintro rfl
        cases announced : digitsAnnouncedBy letter with
        | none => rfl
        | some inClass => exact absurd ⟨letter, inClass, more, announced, rfl⟩ prefixed
    rw [absent]
    exact ((apart rfl).or_none (apart rfl)).or_none (apart rfl)

theorem exists_digit_of_mem_number (member : word ∈ Spelling.number.matches') :
    ∃ b, word.head? = some b ∧ Byte.isDigit b = true := by
  have zero : ∀ {letter inClass}, word ∈ (Spelling.radix letter inClass).matches' →
      ∃ b, word.head? = some b ∧ Byte.isDigit b = true := by
    intro letter inClass isRadix
    obtain ⟨b, first, isZero⟩ := head?_of_mem_mul (singleBytes_char Byte.zero) isRadix
    exact ⟨b, first, by rw [eq_of_beq isZero]; decide⟩
  rcases member with ((binary | octal) | hex) | decimal
  · exact zero binary
  · exact zero octal
  · exact zero hex
  · obtain ⟨_, whole, rest, _, rfl⟩ := Language.mem_mul.1 decimal
    obtain ⟨lead, more, rfl, isDigit, _⟩ := Spelling.exists_of_mem_wordOf whole
    exact ⟨lead, rfl, isDigit⟩

/-- In front of a letter that announces digits, a decimal is only the zero. -/
theorem decimalLength_of_announced (announced : digitsAnnouncedBy letter = some inClass)
    (more : List UInt8) : decimalLength (Byte.zero :: letter :: more) = 1 := by
  have foreign : isDigitOf Byte.isDigit letter = false ∧ (letter == Byte.dot) = false ∧
      isExponentLetter letter = false := by
    rcases digitsAnnouncedBy_eq_some announced with ⟨rfl, _⟩ | ⟨rfl, _⟩ | ⟨rfl, _⟩ <;> decide
  obtain ⟨notDigit, notDot, notLetter⟩ := foreign
  have whole : Byte.runLength (isDigitOf Byte.isDigit) (Byte.zero :: letter :: more) = 1 := by
    rw [Text.runLength_cons_of_mem (by decide), Text.runLength_cons_of_not_mem notDigit]
  have fraction : fractionLength (letter :: more) = 0 := by
    rw [fractionLength_cons, notDot]
    rfl
  have exponent : exponentLength (letter :: more) = 0 := by
    rw [exponentLength_cons, notLetter]
    rfl
  simp only [decimalLength, whole, List.drop_succ_cons, List.drop_zero, fraction, Nat.add_zero,
    exponent]

theorem decimalLength_le_of_radixNumber (found : radixNumber text = some length) :
    decimalLength text ≤ length := by
  have pos := (radixNumber_fits found).pos
  match text with
  | [] | [_] => cases found
  | lead :: letter :: more =>
    simp only [radixNumber, beq_iff_eq, Option.ite_none_right_eq_some] at found
    obtain ⟨rfl, found⟩ := found
    cases announced : digitsAnnouncedBy letter with
    | none => simp [announced] at found
    | some inClass =>
      rw [decimalLength_of_announced announced]
      exact pos

theorem longest_number (text : List UInt8) : Longest Spelling.number.matches' text (number text) := by
  have outside : (∀ b ∈ text.head?, Byte.isDigit b = false) →
      Longest Spelling.number.matches' text none := by
    refine fun other => .of_forall_not fun word member stands => ?_
    obtain ⟨b, first, isDigit⟩ := exists_digit_of_mem_number member
    have ne : word ≠ [] := by
      rintro rfl
      cases first
    rw [other b ((head?_of_isPrefix ne stands).symm.trans first)] at isDigit
    cases isDigit
  cases text with
  | nil => exact outside fun b first => nomatch first
  | cons lead more =>
    rw [number]
    split
    next isDigit =>
      have read := (longest_radixNumber (lead :: more)).or (longest_decimal isDigit more)
        fun m isRadix n isDecimal => by
          obtain rfl := Option.some.inj isDecimal
          exact decimalLength_le_of_radixNumber isRadix
      cases radix : radixNumber (lead :: more) with
      | none =>
        rw [radix] at read
        exact read
      | some length =>
        rw [radix] at read
        exact read
    next other => exact outside fun b first => Option.some.inj first ▸ Bool.not_eq_true _ ▸ other

theorem isSome_number_iff :
    (number text).isSome = true ↔ ∃ b ∈ text.head?, Byte.isDigit b = true := by
  cases text with
  | nil => simp [number]
  | cons lead more =>
    rw [number, List.head?_cons]
    split
    next isDigit =>
      cases radixNumber (lead :: more) <;> simpa using isDigit
    next other => simpa using other

end Lexeme

/-! ## Numbers at an offset -/

/-- Inside a text, a number is found wherever a digit begins a word, and it stops where the
longest reading of one does. -/
theorem number_stops_furthest (text : List UInt8) (offset hashes : Nat)
    (inside : offset < text.length) :
    ∃ found, Matcher.number.find text offset hashes = .ok found ∧
      (found.isSome = true ↔ (∃ b ∈ text[offset]?, Byte.isDigit b = true) ∧
        ¬Lexeme.LastIn Byte.isIdentifier text offset) ∧
      ∀ hit ∈ found, IsGreatest (Text.stops Spelling.number.matches' text offset) hit.stop := by
  refine ⟨_, Matcher.find_of_lt Matcher.number hashes inside, ?_, fun hit isHit => ?_⟩
  · rw [Option.isSome_map, Matcher.matchAt?, Matcher.match?, ← Lexeme.atWordStart_eq_true]
    split
    next wordStart =>
      have first : (Cursor.ofOffset text offset).rest.head? = text[offset]? := List.head?_drop
      rw [Option.isSome_map, Lexeme.isSome_number_iff, first]
      exact (and_iff_left wordStart).symm
    next other => simp [other]
  · obtain ⟨_, matched, rfl⟩ := Option.map_eq_some_iff.1 isHit
    obtain ⟨length, isNumber, rfl⟩ :=
      Option.map_eq_some_iff.1 (Option.ite_none_right_eq_some.1 matched).2
    have longest := Lexeme.longest_number (text.drop offset)
    rw [show Lexeme.number (text.drop offset) = some length from isNumber] at longest
    exact longest.isGreatest (Nat.le_of_lt inside)

/-- Digits on both sides of an exponent's sign, and a letter behind the number. -/
theorem number_stops_furthest_exponent :
    2 < (Text.bytes "7 1_0.5e-3x").length ∧
      IsGreatest (Text.stops Spelling.number.matches' (Text.bytes "7 1_0.5e-3x") 2) 10 := by
  have inside : 2 < (Text.bytes "7 1_0.5e-3x").length := by decide
  obtain ⟨found, isFound, _, furthest⟩ := number_stops_furthest (Text.bytes "7 1_0.5e-3x") 2 0 inside
  have here : Matcher.number.find (Text.bytes "7 1_0.5e-3x") 2 0 = .ok (some (Hit.whole 10)) := by
    rfl
  obtain rfl := Except.ok.inj (isFound.symm.trans here)
  exact ⟨inside, furthest _ rfl⟩

end ModalHighlight
