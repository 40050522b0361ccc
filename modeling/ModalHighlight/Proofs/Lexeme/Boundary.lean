import ModalHighlight.Cursor
import ModalHighlight.Proofs.Lexeme.Lookahead

/-! # Lexemes and the borders of words

A word is a run of identifier bytes.  Most lexemes end where a word ends, because
they take words whole or end with a byte that is in none.  Numbers do not: a digit
that their form has no place for is left standing, and so is a letter.
-/

namespace ModalHighlight.Lexeme

variable {text more : List UInt8} {length first second : Nat} {b lead : UInt8}
variable {inClass : UInt8 → Bool}

/-! ## Last bytes -/

/-- The last of some bytes in front of a text is in a class. -/
def LastIn (inClass : UInt8 → Bool) (text : List UInt8) (length : Nat) : Prop :=
  0 < length ∧ ∃ b ∈ text[length - 1]?, inClass b = true

namespace LastIn

theorem snoc (last : text[length]? = some b) (isIn : inClass b = true) :
    LastIn inClass text (length + 1) :=
  ⟨Nat.succ_pos length, b, last, isIn⟩

theorem cons (last : LastIn inClass more length) : LastIn inClass (lead :: more) (length + 1) := by
  obtain ⟨pos, b, stands, isIn⟩ := last
  refine snoc ?_ isIn
  obtain ⟨length, rfl⟩ : ∃ before, length = before + 1 := ⟨length - 1, by omega⟩
  exact stands

theorem add (last : LastIn inClass (text.drop first) second) :
    LastIn inClass text (first + second) := by
  obtain ⟨pos, b, stands, isIn⟩ := last
  rw [List.getElem?_drop] at stands
  have place : first + second - 1 = first + (second - 1) := by omega
  exact ⟨by omega, b, place ▸ stands, isIn⟩

theorem imp {other : UInt8 → Bool} (last : LastIn inClass text length)
    (within : ∀ b, inClass b = true → other b = true) : LastIn other text length := by
  obtain ⟨pos, b, stands, isIn⟩ := last
  exact ⟨pos, b, stands, within b isIn⟩

end LastIn

theorem lastIn_runLength (pos : 0 < Byte.runLength inClass text) :
    LastIn inClass text (Byte.runLength inClass text) :=
  ⟨pos, Text.mem_class_of_lt_runLength (Nat.sub_one_lt_of_lt pos)⟩

theorem atWordStart_eq_false {offset : Nat} :
    (Cursor.ofOffset text offset).atWordStart = false ↔ LastIn Byte.isIdentifier text offset := by
  rw [Cursor.atWordStart, Cursor.ofOffset, LastIn]
  rcases Nat.eq_zero_or_pos offset with rfl | pos
  · simp
  · rw [if_neg (Nat.ne_of_gt pos)]
    cases text[offset - 1]? <;> simp [pos]

theorem atWordStart_eq_true {offset : Nat} :
    (Cursor.ofOffset text offset).atWordStart = true ↔ ¬LastIn Byte.isIdentifier text offset := by
  rw [← atWordStart_eq_false, Bool.not_eq_false]

/-! ## Words that are split -/

/-- The last of some bytes in front of a text and the byte after them are in one word. -/
def SplitsWord (text : List UInt8) (length : Nat) : Prop :=
  LastIn Byte.isIdentifier text length ∧ ∃ b ∈ text[length]?, Byte.isIdentifier b = true

theorem not_splitsWord_of_last (last : LastIn (fun b => !Byte.isIdentifier b) text length) :
    ¬SplitsWord text length := by
  rintro ⟨⟨_, b, stands, isIn⟩, _⟩
  obtain ⟨_, other, same, outside⟩ := last
  obtain rfl := Option.some.inj (stands.symm.trans same)
  simp [isIn] at outside

theorem not_splitsWord_of_next (next : ∀ b ∈ text[length]?, Byte.isIdentifier b = false) :
    ¬SplitsWord text length := by
  rintro ⟨_, b, stands, isIn⟩
  rw [next b stands] at isIn
  cases isIn

theorem not_splitsWord_wordLength (text : List UInt8) : ¬SplitsWord text (wordLength text) :=
  not_splitsWord_of_next fun _ next => Text.not_mem_of_getElem?_runLength next

theorem not_splitsWord_wordFrom {starts : UInt8 → Bool} (found : wordFrom starts text = some length) :
    ¬SplitsWord text length :=
  wordFrom_eq_some found ▸ not_splitsWord_wordLength text

theorem not_splitsWord_cons (apart : ¬SplitsWord more length) (pos : 0 < length) :
    ¬SplitsWord (lead :: more) (length + 1) := by
  rintro ⟨⟨_, b, stands, isIn⟩, next⟩
  refine apart ⟨⟨pos, b, ?_, isIn⟩, next⟩
  obtain ⟨length, rfl⟩ : ∃ before, length = before + 1 := ⟨length - 1, by omega⟩
  exact stands

/-! ## Lexemes that end with a word -/

theorem lastIn_literal {expected : List UInt8} (found : literal expected text = some length)
    (last : ∃ b ∈ expected.getLast?, inClass b = true) : LastIn inClass text length := by
  simp only [literal, Option.ite_none_right_eq_some, List.isPrefixOf_iff_prefix,
    Option.some.injEq] at found
  obtain ⟨⟨rest, rfl⟩, rfl⟩ := found
  obtain ⟨b, isLast, isIn⟩ := last
  have nonempty : expected ≠ [] := by
    rintro rfl
    cases isLast
  have pos := List.length_pos_iff.2 nonempty
  refine ⟨pos, b, ?_, isIn⟩
  rw [List.getElem?_append_left (by omega), ← List.getLast?_eq_getElem?]
  exact isLast

theorem not_splitsWord_lineComment (found : lineComment text = some length) :
    ¬SplitsWord text length := by
  cases slashes : literal (Text.bytes "//") text with
  | none => simp [lineComment, slashes] at found
  | some two =>
    simp only [lineComment, slashes, Option.some.injEq] at found
    -- A line feed follows, or nothing does.
    refine not_splitsWord_of_next fun b next => ?_
    rw [← found, ← List.getElem?_drop] at next
    have line := Text.not_mem_of_getElem?_runLength next
    obtain rfl := bne_eq_false_iff_eq.1 line
    decide

theorem lastIn_rawClose {hashes : Nat} (found : rawClose hashes text = some length) :
    LastIn (fun b => !Byte.isIdentifier b) text length := by
  cases text with
  | nil => cases found
  | cons lead more =>
    simp only [rawClose, Option.ite_none_right_eq_some, Bool.and_eq_true, beq_iff_eq,
      Option.some.injEq] at found
    obtain ⟨⟨rfl, count⟩, rfl⟩ := found
    rcases Nat.eq_zero_or_pos hashes with rfl | pos
    · exact .snoc (b := Byte.quote) rfl (by decide)
    · have hash := lastIn_runLength (count ▸ pos)
      rw [count] at hash
      refine (hash.imp fun b isHash => ?_).cons
      rw [eq_of_beq isHash]
      decide

theorem lastIn_closedAfter {count : Nat} (found : closedAfter count text = some length) :
    LastIn (fun b => !Byte.isIdentifier b) text length := by
  simp only [closedAfter, beq_iff_eq, Option.ite_none_right_eq_some, Option.some.injEq] at found
  exact found.2 ▸ .snoc found.1 (by decide)

theorem lastIn_charBody (found : charBody text = some length) :
    LastIn (fun b => !Byte.isIdentifier b) text length := by
  have counted : ∀ {letter : UInt8} {count : Nat}, countedEscape letter count text = some length →
      LastIn (fun b => !Byte.isIdentifier b) text length := by
    intro letter count found
    cases text with
    | nil => cases found
    | cons lead more => exact lastIn_closedAfter (Option.ite_none_right_eq_some.1 found).2
  simp only [charBody, Option.or_eq_some_iff] at found
  rcases found with two | ⟨_, four | ⟨_, eight | ⟨_, char⟩⟩⟩
  · exact counted two
  · exact counted four
  · exact counted eight
  · cases text with
    | nil => cases char
    | cons lead more => exact lastIn_closedAfter (Option.ite_none_left_eq_some.1 char).2

theorem LastIn.of_map_succ {result : Option Nat}
    (last : ∀ inner, result = some inner → LastIn inClass more inner)
    (found : result.map (· + 1) = some length) : LastIn inClass (lead :: more) length := by
  obtain ⟨inner, isSome, rfl⟩ := Option.map_eq_some_iff.1 found
  exact (last inner isSome).cons

theorem lastIn_quotedChar (found : quotedChar text = some length) :
    LastIn (fun b => !Byte.isIdentifier b) text length := by
  cases text with
  | nil => cases found
  | cons lead more =>
    refine .of_map_succ (fun inner content => ?_) (Option.ite_none_right_eq_some.1 found).2
    cases more with
    | nil => cases content
    | cons lead more =>
      simp only [charContent] at content
      split at content
      next =>
        rcases Option.or_eq_some_iff.1 content with escaped | ⟨_, plain⟩
        · exact .of_map_succ (fun _ => lastIn_charBody) escaped
        · exact lastIn_charBody plain
      next => exact lastIn_charBody content

theorem lastIn_charLiteral (found : charLiteral text = some length) :
    LastIn (fun b => !Byte.isIdentifier b) text length := by
  cases text with
  | nil => cases found
  | cons lead more =>
    simp only [charLiteral] at found
    split at found
    next => exact .of_map_succ (fun _ => lastIn_quotedChar) found
    next => exact lastIn_quotedChar found

theorem not_splitsWord_symbol (found : symbol text = some length) : ¬SplitsWord text length := by
  cases text with
  | nil => cases found
  | cons lead more =>
    obtain ⟨_, found⟩ := Option.ite_none_right_eq_some.1 found
    obtain ⟨inner, word, rfl⟩ := Option.map_eq_some_iff.1 found
    exact not_splitsWord_cons (not_splitsWord_wordFrom word) (identifier_fits word).pos

theorem lastIn_qualifiedPath {head : Nat} (found : qualifiedPath text = some (head, length)) :
    LastIn (fun b => !Byte.isIdentifier b) text length := by
  cases word : identifier text with
  | none => simp [qualifiedPath, word] at found
  | some inner =>
    simp only [qualifiedPath, word, Option.ite_none_right_eq_some, Option.some.injEq,
      Prod.mk.injEq, List.isPrefixOf_iff_prefix] at found
    obtain ⟨⟨rest, colons⟩, rfl, rfl⟩ := found
    have last : LastIn (fun b => !Byte.isIdentifier b) (text.drop inner) 2 := by
      rw [← colons]
      exact ⟨Nat.two_pos, _, rfl, by decide⟩
    exact last.add

theorem operators_foreign :
    (∀ operator ∈ longOperators, operator.length = 2 ∧
        operator.all (fun b => !Byte.isIdentifier b) = true) ∧
      shortOperators.all (fun b => !Byte.isIdentifier b) = true := by
  decide

/-- No byte of an operator is part of a word. -/
theorem operator_foreign (found : operator text = some length) :
    (∀ b ∈ text.head?, Byte.isIdentifier b = false) ∧
      LastIn (fun b => !Byte.isIdentifier b) text length := by
  cases text with
  | nil => cases found
  | cons lead more =>
    simp only [operator, List.contains_iff_mem, Bool.and_eq_true, beq_iff_eq] at found
    split at found
    next long =>
      obtain ⟨two, foreign⟩ := operators_foreign.1 _ long
      cases more with
      | nil => simp at two
      | cons next rest =>
        have both : Byte.isIdentifier lead = false ∧ Byte.isIdentifier next = false := by
          simpa using foreign
        refine ⟨by simpa using both.1, Option.some.inj found ▸ .snoc (b := next) rfl ?_⟩
        simpa using both.2
    next =>
      have one : ∀ b, Byte.isIdentifier b = false → (∀ c ∈ (b :: more).head?,
          Byte.isIdentifier c = false) ∧
            LastIn (fun b => !Byte.isIdentifier b) (b :: more) 1 := fun b outside =>
        ⟨by simpa using outside, .snoc (b := b) rfl (by simpa using outside)⟩
      split at found
      next short =>
        have foreign := List.all_eq_true.1 operators_foreign.2 lead short
        exact Option.some.inj found ▸ one lead (by simpa using foreign)
      next =>
        simp only [Option.ite_none_right_eq_some, Option.some.injEq] at found
        exact found.2 ▸ found.1.1 ▸ one Byte.question (by decide)

/-! ## Numbers -/

theorem isIdentifier_of_isDigitOf (identifier : ∀ b, inClass b = true → Byte.isIdentifier b = true)
    (isIn : isDigitOf inClass b = true) : Byte.isIdentifier b = true := by
  simp only [isDigitOf, Bool.or_eq_true, beq_iff_eq] at isIn
  rcases isIn with digit | rfl
  · exact identifier b digit
  · decide

theorem lastIn_digits (identifier : ∀ b, inClass b = true → Byte.isIdentifier b = true)
    {others : Nat} (count : Byte.runLength (isDigitOf inClass) text = others + 1) :
    LastIn Byte.isIdentifier text (others + 1) := by
  have last : LastIn (isDigitOf inClass) text (Byte.runLength (isDigitOf inClass) text) :=
    lastIn_runLength (by omega)
  rw [count] at last
  exact last.imp fun _ => isIdentifier_of_isDigitOf identifier

theorem isIdentifier_of_isDigit (b : UInt8) (digit : Byte.isDigit b = true) :
    Byte.isIdentifier b = true := by
  simp [Byte.isIdentifier, digit]

theorem lastIn_radixNumber (found : radixNumber text = some length) :
    LastIn Byte.isIdentifier text length := by
  match text with
  | [] | [_] => cases found
  | lead :: letter :: more =>
    simp only [radixNumber, beq_iff_eq, Option.ite_none_right_eq_some] at found
    obtain ⟨_, found⟩ := found
    cases announced : digitsAnnouncedBy letter with
    | none => simp [announced] at found
    | some inClass =>
      cases count : Byte.runLength (isDigitOf inClass) more with
      | zero => simp [announced, count] at found
      | succ others =>
        simp only [announced, count, Option.some.injEq] at found
        exact found ▸ (lastIn_digits (digitsAnnouncedBy_identifier announced).2 count).cons.cons

theorem lastIn_fraction (pos : 0 < fractionLength text) :
    LastIn Byte.isIdentifier text (fractionLength text) := by
  cases text with
  | nil => exact absurd pos (Nat.lt_irrefl 0)
  | cons lead more =>
    simp only [fractionLength] at pos ⊢
    split at pos
    next dot =>
      rw [if_pos dot]
      split at pos
      next => exact absurd pos (Nat.lt_irrefl 0)
      next others count => exact (lastIn_digits isIdentifier_of_isDigit count).cons
    next => exact absurd pos (Nat.lt_irrefl 0)

theorem lastIn_exponent (pos : 0 < exponentLength text) :
    LastIn Byte.isIdentifier text (exponentLength text) := by
  cases text with
  | nil => exact absurd pos (Nat.lt_irrefl 0)
  | cons lead more =>
    simp only [exponentLength] at pos ⊢
    split at pos
    next letter =>
      rw [if_pos letter]
      split at pos
      next => exact absurd pos (Nat.lt_irrefl 0)
      next others count => exact (lastIn_digits isIdentifier_of_isDigit count).add.cons
    next => exact absurd pos (Nat.lt_irrefl 0)

/-- A number ends with an identifier byte, whatever follows it. -/
theorem lastIn_number (found : number text = some length) :
    LastIn Byte.isIdentifier text length := by
  cases text with
  | nil => cases found
  | cons lead more =>
    simp only [number, Option.ite_none_right_eq_some] at found
    obtain ⟨digit, found⟩ := found
    cases radix : radixNumber (lead :: more) with
    | some inner =>
      simp only [radix, Option.some.injEq] at found
      exact found ▸ lastIn_radixNumber radix
    | none =>
      simp only [radix, Option.some.injEq] at found
      subst found
      have first : isDigitOf Byte.isDigit lead = true := by simp [isDigitOf, digit]
      -- The last of the parts that are there ends the number.
      rw [decimalLength]
      rcases Nat.eq_zero_or_pos (exponentLength _) with noExponent | pos
      · rw [noExponent, Nat.add_zero]
        rcases Nat.eq_zero_or_pos (fractionLength _) with noFraction | pos
        · rw [noFraction, Nat.add_zero]
          exact (lastIn_runLength (by rw [Text.runLength_cons_of_mem first]; omega)).imp
            fun _ => isIdentifier_of_isDigitOf isIdentifier_of_isDigit
        · exact (lastIn_fraction pos).add
      · exact (lastIn_exponent pos).add

end ModalHighlight.Lexeme
