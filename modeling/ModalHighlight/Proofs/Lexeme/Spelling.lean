import Mathlib.Computability.RegularExpressions
import ModalHighlight.Proofs.Lexeme.Boundary

/-! # How lexemes are spelled

Words, symbols and numbers are spelled as regular expressions say, each of them the
one that is written beside its recogniser.  The expressions know nothing of how the
recognisers count, or of what they look at behind a lexeme.
-/

namespace ModalHighlight

open RegularExpression (char)

namespace Spelling

variable {inClass : UInt8 → Bool} {spelling : RegularExpression UInt8} {b : UInt8}
variable {word : List UInt8}

/-! ## Expressions -/

/-- One byte of a class. -/
def oneOf (inClass : UInt8 → Bool) : RegularExpression UInt8 :=
  ((((List.range 256).map UInt8.ofNat).filter inClass).map char).sum

def many (spelling : RegularExpression UInt8) : RegularExpression UInt8 :=
  spelling * spelling.star

def optional (spelling : RegularExpression UInt8) : RegularExpression UInt8 := 1 + spelling

/-- A byte of one class, and any number of another. -/
def wordOf (first others : UInt8 → Bool) : RegularExpression UInt8 := oneOf first * (oneOf others).star

theorem mem_sum_char {bytes : List UInt8} (member : b ∈ bytes) :
    [b] ∈ ((bytes.map char).sum).matches' := by
  induction bytes with
  | nil => cases member
  | cons c others ih =>
    rw [List.map_cons, List.sum_cons, RegularExpression.matches'_add, Language.mem_add]
    rcases List.mem_cons.1 member with rfl | inOthers
    · exact .inl rfl
    · exact .inr (ih inOthers)

theorem exists_of_mem_sum_char {bytes : List UInt8}
    (member : word ∈ ((bytes.map char).sum).matches') : ∃ b ∈ bytes, word = [b] := by
  induction bytes with
  | nil => exact absurd member (Language.notMem_zero word)
  | cons c others ih =>
    rw [List.map_cons, List.sum_cons, RegularExpression.matches'_add, Language.mem_add] at member
    rcases member with here | among
    · exact ⟨c, List.mem_cons_self, here⟩
    · obtain ⟨b, inOthers, same⟩ := ih among
      exact ⟨b, List.mem_cons_of_mem c inOthers, same⟩

theorem mem_oneOf (isIn : inClass b = true) : [b] ∈ (oneOf inClass).matches' := by
  refine mem_sum_char (List.mem_filter.2 ⟨List.mem_map.2 ⟨b.toNat, ?_, UInt8.ofNat_toNat⟩, isIn⟩)
  exact List.mem_range.2 b.toNat_lt

theorem mem_oneOf_iff :
    word ∈ (oneOf inClass).matches' ↔ ∃ b, word = [b] ∧ inClass b = true := by
  constructor
  · intro member
    obtain ⟨b, listed, same⟩ := exists_of_mem_sum_char member
    exact ⟨b, same, (List.mem_filter.1 listed).2⟩
  · rintro ⟨b, rfl, isIn⟩
    exact mem_oneOf isIn

theorem mem_star (all : ∀ b ∈ word, inClass b = true) : word ∈ (oneOf inClass).star.matches' := by
  rw [RegularExpression.matches'_star, Language.mem_kstar]
  refine ⟨word.map fun b => [b], ?_, fun one member => ?_⟩
  · rw [← List.flatMap_def, List.flatMap_singleton']
  · obtain ⟨b, inWord, rfl⟩ := List.mem_map.1 member
    exact mem_oneOf (all b inWord)

theorem of_mem_star (member : word ∈ (oneOf inClass).star.matches') :
    ∀ b ∈ word, inClass b = true := by
  rw [RegularExpression.matches'_star, Language.mem_kstar] at member
  obtain ⟨words, rfl, each⟩ := member
  intro b inWord
  obtain ⟨one, inWords, inOne⟩ := List.mem_flatten.1 inWord
  obtain ⟨c, rfl, isIn⟩ := mem_oneOf_iff.1 (each one inWords)
  exact List.mem_singleton.1 inOne ▸ isIn

theorem cons_mem_mul {more : List UInt8} {behind : RegularExpression UInt8}
    (first : [b] ∈ spelling.matches') (others : more ∈ behind.matches') :
    b :: more ∈ (spelling * behind).matches' :=
  Language.append_mem_mul first others

theorem mem_wordOf {first others : UInt8 → Bool} (isFirst : first b = true)
    (all : ∀ c ∈ word, others c = true) : b :: word ∈ (wordOf first others).matches' :=
  cons_mem_mul (mem_oneOf isFirst) (mem_star all)

theorem exists_of_mem_wordOf {first others : UInt8 → Bool}
    (member : word ∈ (wordOf first others).matches') :
    ∃ lead more, word = lead :: more ∧ first lead = true ∧ ∀ b ∈ more, others b = true := by
  obtain ⟨_, one, more, all, rfl⟩ := Language.mem_mul.1 member
  obtain ⟨lead, rfl, isFirst⟩ := mem_oneOf_iff.1 one
  exact ⟨lead, more, rfl, isFirst, of_mem_star all⟩

theorem mem_many (nonempty : word ≠ []) (all : ∀ b ∈ word, inClass b = true) :
    word ∈ (many (oneOf inClass)).matches' := by
  obtain ⟨b, more, rfl⟩ := List.exists_cons_of_ne_nil nonempty
  exact mem_wordOf (all b List.mem_cons_self) fun c member => all c (List.mem_cons_of_mem b member)

theorem of_mem_many (member : word ∈ (many (oneOf inClass)).matches') :
    word ≠ [] ∧ ∀ b ∈ word, inClass b = true := by
  obtain ⟨lead, more, rfl, isFirst, all⟩ := exists_of_mem_wordOf member
  exact ⟨List.cons_ne_nil lead more, List.forall_mem_cons.2 ⟨isFirst, all⟩⟩

theorem nil_mem_optional : [] ∈ (optional spelling).matches' := .inl rfl

theorem mem_optional (member : word ∈ spelling.matches') : word ∈ (optional spelling).matches' :=
  .inr member

/-! ## Words -/

/-- A word ends in front of a text. -/
def EndsWord (behind : List UInt8) : Prop := ∀ b ∈ behind.head?, Byte.isIdentifier b = false

/-- `[A-Z_]` -/
def isCapital (b : UInt8) : Bool := Byte.isUpper b || b == Byte.underscore

/-- `[A-Za-z_]\w*` -/
def identifier : RegularExpression UInt8 := wordOf Byte.isIdentifierStart Byte.isIdentifier

/-- `[A-Z_][A-Z0-9_]*` -/
def constant : RegularExpression UInt8 := wordOf isCapital fun b => isCapital b || Byte.isDigit b

/-- `[A-Z_][A-Za-z0-9_]*` -/
def typeName : RegularExpression UInt8 := wordOf isCapital Byte.isIdentifier

/-- `[a-z]\w*` -/
def functionName : RegularExpression UInt8 := wordOf Byte.isLower Byte.isIdentifier

/-- `'` and an identifier. -/
def symbol : RegularExpression UInt8 := char Byte.apostrophe * identifier

/-! ## Numbers -/

/-- Digits of a class and underscores, at least one of them. -/
def digits (inClass : UInt8 → Bool) : RegularExpression UInt8 :=
  many (oneOf (Lexeme.isDigitOf inClass))

/-- `0`, a letter and digits of a class. -/
def radix (letter : UInt8) (inClass : UInt8 → Bool) : RegularExpression UInt8 :=
  char Byte.zero * (char letter * digits inClass)

/-- `\.[0-9_]+` -/
def fraction : RegularExpression UInt8 := char Byte.dot * digits Byte.isDigit

/-- `[eE][+-]?[0-9_]+` -/
def exponent : RegularExpression UInt8 :=
  oneOf (fun b => b == 0x65 || b == 0x45) *
    (optional (oneOf fun b => b == Byte.plus || b == Byte.minus) * digits Byte.isDigit)

/-- `[0-9][0-9_]*(\.[0-9_]+)?([eE][+-]?[0-9_]+)?` -/
def decimal : RegularExpression UInt8 :=
  wordOf Byte.isDigit (Lexeme.isDigitOf Byte.isDigit) * (optional fraction * optional exponent)

/-- `0b[01_]+`, `0o[0-7_]+`, `0x[0-9A-Fa-f_]+` or a decimal. -/
def number : RegularExpression UInt8 :=
  radix 0x62 Byte.isBinaryDigit + radix 0x6f Byte.isOctalDigit + radix 0x78 Byte.isHexDigit + decimal

example : Text.bytes "0x1_F" ∈ number.matches' := by decide

example : Text.bytes "1.e3" ∉ number.matches' := by decide

end Spelling

namespace Lexeme

open Spelling (mem_oneOf mem_wordOf mem_many cons_mem_mul nil_mem_optional mem_optional)

variable {inClass starts : UInt8 → Bool} {rest more : List UInt8} {length : Nat} {lead : UInt8}

/-! ## Words that are recognised -/

/-- A word is its first byte and the identifier bytes after it, and none comes behind. -/
theorem exists_word (within : ∀ b, starts b = true → Byte.isIdentifier b = true)
    (found : wordFrom starts rest = some length) :
    (∃ lead others, rest.take length = lead :: others ∧ starts lead = true ∧
      ∀ b ∈ others, Byte.isIdentifier b = true) ∧
    Spelling.EndsWord (rest.drop length) := by
  cases rest with
  | nil => cases found
  | cons lead more =>
    simp only [wordFrom, Option.ite_none_right_eq_some, Option.some.injEq] at found
    obtain ⟨isStart, rfl⟩ := found
    refine ⟨⟨lead, more.take (wordLength more), ?_, isStart, ?_⟩, fun b next => ?_⟩
    · rw [wordLength, Text.runLength_cons_of_mem (within lead isStart)]
      rfl
    · exact fun b member => Text.mem_class_of_mem_take member
    · rw [List.head?_drop] at next
      exact Text.not_mem_of_getElem?_runLength next

theorem isIdentifier_of_start (b : UInt8) (isStart : Byte.isIdentifierStart b = true) :
    Byte.isIdentifier b = true := by
  simp [Byte.isIdentifier, isStart]

theorem isIdentifier_of_capital (b : UInt8) (capital : Spelling.isCapital b = true) :
    Byte.isIdentifier b = true := by
  refine isIdentifier_of_start b ?_
  simp only [Spelling.isCapital, Bool.or_eq_true] at capital
  simp only [Byte.isIdentifierStart, Bool.or_eq_true]
  tauto

theorem isIdentifier_of_lower (b : UInt8) (lower : Byte.isLower b = true) :
    Byte.isIdentifier b = true :=
  isIdentifier_of_start b (by simp [Byte.isIdentifierStart, lower])

theorem identifier_spelled (found : identifier rest = some length) :
    rest.take length ∈ Spelling.identifier.matches' ∧
      Spelling.EndsWord (rest.drop length) := by
  obtain ⟨⟨lead, others, word, isStart, isWord⟩, behind⟩ := exists_word isIdentifier_of_start found
  exact ⟨word ▸ mem_wordOf isStart isWord, behind⟩

theorem symbol_spelled (found : symbol rest = some length) :
    rest.take length ∈ Spelling.symbol.matches' ∧
      Spelling.EndsWord (rest.drop length) := by
  cases rest with
  | nil => cases found
  | cons lead more =>
    simp only [symbol, Option.ite_none_right_eq_some, beq_iff_eq] at found
    obtain ⟨rfl, found⟩ := found
    obtain ⟨inner, name, rfl⟩ := Option.map_eq_some_iff.1 found
    obtain ⟨spelled, behind⟩ := identifier_spelled name
    exact ⟨cons_mem_mul rfl spelled, behind⟩

theorem capitalized_spelled (found : capitalized rest = some length) :
    rest.take length ∈ Spelling.typeName.matches' ∧
      Spelling.EndsWord (rest.drop length) := by
  obtain ⟨⟨lead, others, word, capital, isWord⟩, behind⟩ :=
    exists_word isIdentifier_of_capital found
  exact ⟨word ▸ mem_wordOf capital isWord, behind⟩

theorem screamingCase_spelled (found : screamingCase rest = some length) :
    rest.take length ∈ Spelling.constant.matches' ∧
      Spelling.EndsWord (rest.drop length) := by
  obtain ⟨isWord, loud⟩ := Option.filter_eq_some_iff.1 found
  obtain ⟨⟨lead, others, word, capital, inWord⟩, behind⟩ :=
    exists_word isIdentifier_of_capital isWord
  rw [word] at loud ⊢
  refine ⟨mem_wordOf capital fun b member => ?_, behind⟩
  have notLower := List.all_eq_true.1 loud b (List.mem_cons_of_mem lead member)
  have isIn := inWord b member
  simp only [Byte.isIdentifier, Byte.isIdentifierStart, Bool.or_eq_true] at isIn
  simp only [Bool.not_eq_true'] at notLower
  simp only [Spelling.isCapital, Bool.or_eq_true]
  rw [notLower] at isIn
  tauto

/-- What begins like a constant but is none has a letter that is not loud. -/
theorem exists_lower_of_not_screamingCase (found : capitalized rest = some length)
    (other : screamingCase rest = none) : ∃ b ∈ rest.take length, Byte.isLower b = true := by
  rw [screamingCase, found, Option.filter_some, ite_eq_right_iff] at other
  by_contra quiet
  push Not at quiet
  have loud : (rest.take length).all (fun b => !Byte.isLower b) = true := by
    simpa using quiet
  cases other loud

/-- What is called and is no type name begins with a small letter. -/
theorem call_spelled (found : call rest = some length) (other : capitalized rest = none) :
    rest.take length ∈ Spelling.functionName.matches' ∧
      Spelling.EndsWord (rest.drop length) ∧
        ((rest.drop length).dropWhile Byte.isBlank).head? = some Byte.parenthesis := by
  obtain ⟨isWord, called⟩ := Option.filter_eq_some_iff.1 found
  cases rest with
  | nil => cases isWord
  | cons lead more =>
    simp only [wordFrom, Option.ite_none_right_eq_some] at isWord
    simp only [capitalized, wordFrom, ite_eq_right_iff, reduceCtorEq, imp_false] at other
    have lower : Byte.isLower lead = true := by
      simp only [Bool.or_eq_true] at isWord other
      tauto
    have small : wordFrom Byte.isLower (lead :: more) = some length := by
      rw [wordFrom, if_pos lower]
      exact isWord.2
    obtain ⟨⟨first, others, word, isFirst, inWord⟩, behind⟩ :=
      exists_word isIdentifier_of_lower small
    exact ⟨word ▸ mem_wordOf isFirst inWord, behind, eq_of_beq called⟩

/-! ## Numbers that are recognised -/

theorem take_add_mem_mul {first second : RegularExpression UInt8} {front back : Nat}
    (inFront : rest.take front ∈ first.matches')
    (behind : (rest.drop front).take back ∈ second.matches') :
    rest.take (front + back) ∈ (first * second).matches' := by
  rw [List.take_add]
  exact Language.append_mem_mul inFront behind

theorem digits_spelled {others : Nat}
    (count : Byte.runLength (isDigitOf inClass) rest = others + 1) :
    rest.take (others + 1) ∈ (Spelling.digits inClass).matches' := by
  rw [← count]
  refine mem_many ?_ fun b member => Text.mem_class_of_mem_take member
  rw [← List.length_pos_iff, List.length_take]
  have le := Byte.runLength_le (isDigitOf inClass) rest
  omega

theorem digitsAnnouncedBy_eq_some (found : digitsAnnouncedBy lead = some inClass) :
    lead = 0x62 ∧ inClass = Byte.isBinaryDigit ∨ lead = 0x6f ∧ inClass = Byte.isOctalDigit ∨
      lead = 0x78 ∧ inClass = Byte.isHexDigit := by
  simp only [digitsAnnouncedBy, beq_iff_eq] at found
  split at found
  next isB => exact .inl ⟨isB, (Option.some.inj found).symm⟩
  next =>
    split at found
    next isO => exact .inr (.inl ⟨isO, (Option.some.inj found).symm⟩)
    next =>
      obtain ⟨isX, found⟩ := Option.ite_none_right_eq_some.1 found
      exact .inr (.inr ⟨isX, (Option.some.inj found).symm⟩)

theorem radixNumber_spelled (found : radixNumber rest = some length) :
    rest.take length ∈ (Spelling.radix 0x62 Byte.isBinaryDigit +
      Spelling.radix 0x6f Byte.isOctalDigit + Spelling.radix 0x78 Byte.isHexDigit).matches' := by
  match rest with
  | [] | [_] => cases found
  | lead :: letter :: more =>
    simp only [radixNumber, beq_iff_eq, Option.ite_none_right_eq_some] at found
    obtain ⟨rfl, found⟩ := found
    cases announced : digitsAnnouncedBy letter with
    | none => simp [announced] at found
    | some inClass =>
      cases count : Byte.runLength (isDigitOf inClass) more with
      | zero => simp [announced, count] at found
      | succ others =>
        simp only [announced, count, Option.some.injEq] at found
        subst found
        have spelled : (Byte.zero :: letter :: more).take (others + 3) ∈
            (Spelling.radix letter inClass).matches' :=
          cons_mem_mul rfl (cons_mem_mul rfl (digits_spelled count))
        rcases digitsAnnouncedBy_eq_some announced with
          ⟨rfl, rfl⟩ | ⟨rfl, rfl⟩ | ⟨rfl, rfl⟩
        · exact .inl (.inl spelled)
        · exact .inl (.inr spelled)
        · exact .inr spelled

theorem fraction_spelled (rest : List UInt8) :
    rest.take (fractionLength rest) ∈ (Spelling.optional Spelling.fraction).matches' := by
  cases rest with
  | nil => exact nil_mem_optional
  | cons lead more =>
    simp only [fractionLength]
    split
    next dot =>
      split
      next => exact nil_mem_optional
      next others count =>
        rw [eq_of_beq dot]
        exact mem_optional (cons_mem_mul rfl (digits_spelled count))
    next => exact nil_mem_optional

theorem sign_spelled (rest : List UInt8) : rest.take (signLength rest) ∈
    (Spelling.optional (Spelling.oneOf fun b => b == Byte.plus || b == Byte.minus)).matches' := by
  cases rest with
  | nil => exact nil_mem_optional
  | cons lead more =>
    simp only [signLength]
    split
    next sign => exact mem_optional (mem_oneOf sign)
    next => exact nil_mem_optional

theorem exponent_spelled (rest : List UInt8) :
    rest.take (exponentLength rest) ∈ (Spelling.optional Spelling.exponent).matches' := by
  cases rest with
  | nil => exact nil_mem_optional
  | cons lead more =>
    simp only [exponentLength]
    split
    next letter =>
      split
      next => exact nil_mem_optional
      next others count =>
        have unsigned : (more.drop (signLength more)).take (others + 1) ∈
            (Spelling.digits Byte.isDigit).matches' := digits_spelled count
        have signed := take_add_mem_mul (sign_spelled more) unsigned
        exact mem_optional (cons_mem_mul (mem_oneOf letter) signed)
    next => exact nil_mem_optional

theorem decimal_spelled (digit : Byte.isDigit lead = true) :
    (lead :: more).take (decimalLength (lead :: more)) ∈ Spelling.decimal.matches' := by
  have isDigit : isDigitOf Byte.isDigit lead = true := by simp [isDigitOf, digit]
  rw [decimalLength, Nat.add_assoc]
  refine take_add_mem_mul ?_ (take_add_mem_mul (fraction_spelled _) ?_)
  · rw [Text.runLength_cons_of_mem isDigit]
    exact mem_wordOf digit fun b member => Text.mem_class_of_mem_take member
  · rw [List.drop_drop]
    exact exponent_spelled _

theorem number_spelled (found : number rest = some length) :
    rest.take length ∈ Spelling.number.matches' := by
  cases rest with
  | nil => cases found
  | cons lead more =>
    simp only [number, Option.ite_none_right_eq_some] at found
    obtain ⟨digit, found⟩ := found
    cases radix : radixNumber (lead :: more) with
    | some inner =>
      simp only [radix, Option.some.injEq] at found
      exact .inl (found ▸ radixNumber_spelled radix)
    | none =>
      simp only [radix, Option.some.injEq] at found
      exact .inr (found ▸ decimal_spelled digit)

end Lexeme

end ModalHighlight
