import Mathlib.Data.Nat.Digits.Defs
import ModalHighlight.Text.Numeral

/-! # Texts that are numerals

Reading succeeds exactly on the texts that write a number that is not too large.  What makes a
text a numeral is said without the reader: it consists of decimal digits, of which there is one
at least, with or without a plus sign in front.  The most significant digit comes first.
-/

namespace ModalHighlight.Text

/-- The text writes the number. -/
def IsNumeral (text : String) (number : Nat) : Prop :=
  ∃ digits : List Nat, digits ≠ [] ∧ (∀ digit ∈ digits, digit < 10) ∧
    Nat.ofDigits 10 digits.reverse = number ∧
      (text.toList = digits.map Nat.digitChar ∨ text.toList = '+' :: digits.map Nat.digitChar)

variable {greatest value number digit : Nat} {c : Char} {chars : List Char}

theorem digitValue?_eq_some_iff :
    digitValue? c = some digit ↔ digit < 10 ∧ c = Nat.digitChar digit := by
  have inOrder : '0' ≤ c ∧ c ≤ '9' ↔ 48 ≤ c.toNat ∧ c.toNat ≤ 57 := Iff.rfl
  have zero : '0'.toNat = 48 := rfl
  rw [digitValue?, Option.ite_none_right_eq_some, inOrder, zero, Option.some.injEq]
  constructor
  · rintro ⟨within, rfl⟩
    refine ⟨by omega, Char.toNat_inj.1 ?_⟩
    rw [Nat.toNat_digitChar_of_lt_ten (by omega)]
    omega
  · rintro ⟨small, rfl⟩
    rw [Nat.toNat_digitChar_of_lt_ten small]
    omega

/-- Digits behind others that make up a value already. -/
theorem readDigits_eq_ok_iff (fits : value ≤ greatest) :
    readDigits greatest value chars = .ok number ↔
      number ≤ greatest ∧ ∃ digits : List Nat, (∀ digit ∈ digits, digit < 10) ∧
        chars = digits.map Nat.digitChar ∧
          digits.foldl (fun value digit => digit + 10 * value) value = number := by
  induction chars generalizing value with
  | nil =>
    constructor
    · intro read
      obtain rfl : value = number := Except.ok.inj read
      exact ⟨fits, [], by simp, rfl, rfl⟩
    · rintro ⟨_, digits, _, none, rfl⟩
      rw [List.map_eq_nil_iff.1 none.symm]
      rfl
  | cons c rest ih =>
    constructor
    · intro read
      rw [readDigits] at read
      cases first : digitValue? c with
      | none => simp [first] at read
      | some digit =>
        obtain ⟨small, rfl⟩ := digitValue?_eq_some_iff.1 first
        simp only [first] at read
        split at read
        next => cases read
        next room =>
          obtain ⟨within, digits, all, rfl, sum⟩ := (ih (Nat.not_lt.1 room)).1 read
          refine ⟨within, digit :: digits, List.forall_mem_cons.2 ⟨small, all⟩, rfl, ?_⟩
          rw [List.foldl_cons, Nat.add_comm]
          exact sum
    · rintro ⟨within, digits, all, written, sum⟩
      cases digits with
      | nil => cases written
      | cons digit digits =>
        obtain ⟨rfl, rfl⟩ := List.cons.inj written
        obtain ⟨small, others⟩ := List.forall_mem_cons.1 all
        rw [List.foldl_cons, Nat.add_comm] at sum
        -- No further digit makes a number smaller, so one that fits in the end fitted before.
        have room : 10 * value + digit ≤ greatest :=
          Nat.le_trans (sum ▸ le_foldl digits _) within
        rw [readDigits, digitValue?_eq_some_iff.2 ⟨small, rfl⟩]
        simp only [Nat.not_lt.2 room, if_false]
        exact (ih room).2 ⟨within, digits, others, rfl, sum⟩
where
  le_foldl (digits : List Nat) (value : Nat) :
      value ≤ digits.foldl (fun value digit => digit + 10 * value) value := by
    induction digits generalizing value with
    | nil => exact Nat.le_refl value
    | cons digit digits ih => exact Nat.le_trans (by omega) (ih (digit + 10 * value))

/-- Digits from the first one on. -/
theorem readDigits_zero_eq_ok_iff :
    readDigits greatest 0 chars = .ok number ↔
      number ≤ greatest ∧ ∃ digits : List Nat, (∀ digit ∈ digits, digit < 10) ∧
        chars = digits.map Nat.digitChar ∧ Nat.ofDigits 10 digits.reverse = number := by
  have sum : ∀ digits : List Nat, Nat.ofDigits 10 digits.reverse =
      digits.foldl (fun value digit => digit + 10 * value) 0 := by
    intro digits
    rw [Nat.ofDigits_eq_foldr, List.foldr_reverse]
    rfl
  simp only [readDigits_eq_ok_iff (Nat.zero_le greatest), sum]

/-- No digit is a sign. -/
theorem plus_cons_ne_map {digits : List Nat} (all : ∀ digit ∈ digits, digit < 10) :
    '+' :: chars ≠ digits.map Nat.digitChar := by
  have noSign : ∀ digit < 10, '+' ≠ Nat.digitChar digit := by decide
  cases digits with
  | nil => simp
  | cons digit digits =>
    intro same
    exact noSign digit (all digit List.mem_cons_self) (List.cons.inj same).1

/-- Exactly the numerals of numbers that are not too large are read. -/
theorem readNumeral_eq_ok_iff {text : String} :
    readNumeral greatest text = .ok number ↔ number ≤ greatest ∧ IsNumeral text number := by
  rw [readNumeral, IsNumeral]
  split
  next empty =>
    -- There is no digit in an empty text.
    simp [empty]
  next sign =>
    constructor
    · intro read
      cases read
    · rintro ⟨_, digits, nonempty, all, _, bare | signed⟩
      · exact absurd (sign.symm.trans bare) (plus_cons_ne_map all)
      · rw [sign] at signed
        exact absurd (List.map_eq_nil_iff.1 (List.cons.inj signed).2.symm) nonempty
  next chars further signed =>
    rw [readDigits_zero_eq_ok_iff]
    constructor
    · rintro ⟨within, digits, all, rfl, sum⟩
      have nonempty : digits ≠ [] := by
        rintro rfl
        exact further rfl
      exact ⟨within, digits, nonempty, all, sum, .inr signed⟩
    · rintro ⟨within, digits, _, all, sum, bare | same⟩
      · exact absurd (signed.symm.trans bare) (plus_cons_ne_map all)
      · exact ⟨within, digits, all, (List.cons.inj (signed.symm.trans same)).2, sum⟩
  next filled _ unsigned =>
    rw [readDigits_zero_eq_ok_iff]
    constructor
    · rintro ⟨within, digits, all, written, sum⟩
      have nonempty : digits ≠ [] := by
        rintro rfl
        exact filled written
      exact ⟨within, digits, nonempty, all, sum, .inl written⟩
    · rintro ⟨within, digits, _, all, sum, bare | signed⟩
      · exact ⟨within, digits, all, bare, sum⟩
      · exact absurd signed (unsigned _)

/-- A text is the numeral of one number at most. -/
theorem IsNumeral.unique {text : String} {other : Nat} (numeral : IsNumeral text number)
    (too : IsNumeral text other) : number = other := by
  have read := readNumeral_eq_ok_iff.2 ⟨Nat.le_max_left number other, numeral⟩
  have readToo := readNumeral_eq_ok_iff.2 ⟨Nat.le_max_right number other, too⟩
  exact Except.ok.inj (read.symm.trans readToo)

end ModalHighlight.Text
