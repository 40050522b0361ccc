import Mathlib.Order.Bounds.Defs
import ModalHighlight.Proofs.Lexeme.Spelling

/-! # Longest prefixes

A text may begin with several words of a language.  A reader that commits to each part
of a word as soon as it has read it finds the longest of them, if no shorter reading of
a part can be gone on with: the byte behind it begins no word of what comes next.
-/

namespace ModalHighlight

/-- Where the words of a language stop that start at an offset of a text. -/
def Text.stops (language : Language UInt8) (text : List UInt8) (start : Nat) : Set Nat :=
  {stop | start ≤ stop ∧ stop ≤ text.length ∧ text.extract start stop ∈ language}

namespace Lexeme

variable {first second : Language UInt8} {text more word : List UInt8} {b : UInt8}
variable {inClass : UInt8 → Bool} {found other : Option Nat} {length : Nat}

/-- The length of the longest prefix of a text that is in a language, or nothing if no
prefix is. -/
structure Longest (language : Language UInt8) (text : List UInt8) (found : Option Nat) : Prop where
  mem : ∀ length ∈ found, length ≤ text.length ∧ text.take length ∈ language
  le : ∀ word ∈ language, word <+: text → ∃ length ∈ found, word.length ≤ length

/-- The words of a language are the single bytes of a class. -/
def SingleBytes (language : Language UInt8) (inClass : UInt8 → Bool) : Prop :=
  ∀ word, word ∈ language ↔ ∃ b, word = [b] ∧ inClass b = true

theorem singleBytes_oneOf (inClass : UInt8 → Bool) :
    SingleBytes (Spelling.oneOf inClass).matches' inClass :=
  fun _ => Spelling.mem_oneOf_iff

theorem singleBytes_char (b : UInt8) :
    SingleBytes (RegularExpression.char b).matches' (· == b) := by
  intro word
  simp only [beq_iff_eq, exists_eq_right]
  exact Iff.rfl

/-- A text begins as its prefixes do. -/
theorem head?_of_isPrefix (ne : word ≠ []) (stands : word <+: text) : word.head? = text.head? := by
  obtain ⟨behind, rfl⟩ := stands
  rw [List.head?_append_of_ne_nil _ ne]

/-- A run of bytes of a class is the longest word of such bytes. -/
theorem length_le_runLength (all : ∀ b ∈ word, inClass b = true) (stands : word <+: text) :
    word.length ≤ Byte.runLength inClass text := by
  rw [Byte.runLength]
  refine List.IsPrefix.length_le ?_
  obtain ⟨behind, rfl⟩ := stands
  rw [List.takeWhile_append_of_pos all]
  exact List.prefix_append ..

namespace Longest

theorem of_forall_not (absent : ∀ word ∈ first, ¬word <+: text) : Longest first text none where
  mem _ isSome := nomatch isSome
  le word member stands := absurd stands (absent word member)

/-! ## Parts of a word -/

theorem byte (bytes : SingleBytes first inClass) (b : UInt8) (more : List UInt8) :
    Longest first (b :: more) (if inClass b then some 1 else none) where
  mem length isLength := by
    obtain ⟨isIn, same⟩ := Option.ite_none_right_eq_some.1 isLength
    obtain rfl := Option.some.inj same
    exact ⟨by simp, (bytes _).2 ⟨b, rfl, isIn⟩⟩
  le word member stands := by
    obtain ⟨c, rfl, isIn⟩ := (bytes word).1 member
    obtain ⟨rest, whole⟩ := stands
    obtain rfl := (List.cons.inj whole).1
    exact ⟨1, if_pos isIn, Nat.le_refl 1⟩

theorem byte_nil (bytes : SingleBytes first inClass) : Longest first [] none := by
  refine of_forall_not fun word member stands => ?_
  obtain ⟨b, rfl, _⟩ := (bytes word).1 member
  cases List.prefix_nil.1 stands

theorem wordOf {starts : UInt8 → Bool} (within : ∀ b, starts b = true → inClass b = true)
    (isStart : starts b = true) :
    Longest (Spelling.wordOf starts inClass).matches' (b :: more)
      (some (Byte.runLength inClass (b :: more))) where
  mem length isLength := by
    obtain rfl := Option.some.inj isLength
    refine ⟨Byte.runLength_le .., ?_⟩
    rw [Text.runLength_cons_of_mem (within b isStart)]
    exact Spelling.mem_wordOf isStart fun c member => Text.mem_class_of_mem_take member
  le word member stands := by
    obtain ⟨lead, others, rfl, isFirst, all⟩ := Spelling.exists_of_mem_wordOf member
    refine ⟨_, rfl, length_le_runLength (fun c inWord => ?_) stands⟩
    rcases List.mem_cons.1 inWord with rfl | inOthers
    · exact within c isFirst
    · exact all c inOthers

theorem many (inClass : UInt8 → Bool) (text : List UInt8) :
    Longest (Spelling.many (Spelling.oneOf inClass)).matches' text
      (if Byte.runLength inClass text = 0 then none else some (Byte.runLength inClass text)) where
  mem length isLength := by
    obtain ⟨pos, same⟩ := Option.ite_none_left_eq_some.1 isLength
    obtain rfl := Option.some.inj same
    have le := Byte.runLength_le inClass text
    refine ⟨le, Spelling.mem_many ?_ fun b member => Text.mem_class_of_mem_take member⟩
    rw [← List.length_pos_iff, List.length_take]
    omega
  le word member stands := by
    obtain ⟨ne, all⟩ := Spelling.of_mem_many member
    have le := length_le_runLength all stands
    have pos := List.length_pos_iff.2 ne
    exact ⟨_, if_neg (by omega), le⟩

/-! ## Parts put together -/

theorem optional (longest : Longest first text found) :
    Longest (1 + first) text (some (found.getD 0)) where
  mem length isLength := by
    obtain rfl := Option.some.inj isLength
    cases found with
    | none => exact ⟨Nat.zero_le _, .inl rfl⟩
    | some length => exact (longest.mem length rfl).imp_right .inr
  le word member stands := by
    refine ⟨_, rfl, ?_⟩
    rcases member with rfl | member
    · exact Nat.zero_le _
    · obtain ⟨length, isLength, le⟩ := longest.le word member stands
      obtain rfl := Option.mem_def.1 isLength
      exact le

/-- One part behind another, where the text goes on behind a shorter reading of the first
with a byte that begins no word of the second. -/
theorem mul (front : Longest first text (some length))
    (behind : Longest second (text.drop length) found)
    (apart : ∀ n < length, text.take n ∈ first → ∀ b ∈ text[n]?, ∀ word ∈ second,
      word.head? ≠ some b) :
    Longest (first * second) text (found.map (length + ·)) where
  mem total isTotal := by
    obtain ⟨inner, isInner, rfl⟩ := Option.map_eq_some_iff.1 isTotal
    obtain ⟨le, isFirst⟩ := front.mem length rfl
    obtain ⟨leInner, isSecond⟩ := behind.mem inner isInner
    rw [List.length_drop] at leInner
    refine ⟨by omega, ?_⟩
    rw [List.take_add]
    exact Language.append_mem_mul isFirst isSecond
  le word member stands := by
    obtain ⟨left, isFirst, right, isSecond, rfl⟩ := Language.mem_mul.1 member
    have leftStands := (List.prefix_append left right).trans stands
    have taken := List.prefix_iff_eq_take.1 leftStands
    have rightStands : right <+: text.drop left.length := by
      obtain ⟨rest, rfl⟩ := stands
      rw [List.append_assoc, List.drop_left]
      exact List.prefix_append right rest
    obtain ⟨length, isLength, le⟩ := front.le left isFirst leftStands
    obtain rfl := Option.some.inj isLength
    rcases Nat.eq_or_lt_of_le le with rfl | shorter
    · obtain ⟨inner, isInner, leInner⟩ := behind.le right isSecond rightStands
      refine ⟨_, Option.map_eq_some_iff.2 ⟨inner, isInner, rfl⟩, ?_⟩
      rw [List.length_append]
      omega
    · -- A shorter reading of the first part leaves nothing for the second.
      obtain rfl : right = [] := by
        by_contra ne
        obtain ⟨b, next⟩ := Option.isSome_iff_exists.1 (List.isSome_head?.2 ne)
        have same := (head?_of_isPrefix ne rightStands).symm.trans next
        rw [List.head?_drop] at same
        exact apart left.length shorter (taken ▸ isFirst) b same right isSecond next
      obtain ⟨inner, isInner, _⟩ := behind.le [] isSecond List.nil_prefix
      refine ⟨_, Option.map_eq_some_iff.2 ⟨inner, isInner, rfl⟩, ?_⟩
      rw [List.append_nil]
      omega

theorem none_mul (front : Longest first text none) : Longest (first * second) text none := by
  refine of_forall_not fun word member stands => ?_
  obtain ⟨left, isFirst, right, _, rfl⟩ := Language.mem_mul.1 member
  obtain ⟨_, isSome, _⟩ := front.le left isFirst ((List.prefix_append left right).trans stands)
  cases isSome

/-- A byte of a class in front of another part. -/
theorem byte_mul (behind : Longest second more found) (bytes : SingleBytes first inClass)
    (b : UInt8) :
    Longest (first * second) (b :: more) (if inClass b then found.map (1 + ·) else none) := by
  have front := byte bytes b more
  split
  next isIn =>
    rw [if_pos isIn] at front
    refine front.mul behind fun n before member => ?_
    obtain ⟨c, same, _⟩ := (bytes _).1 member
    obtain rfl : n = 0 := Nat.lt_one_iff.1 before
    cases same
  next isOut =>
    rw [if_neg isOut] at front
    exact front.none_mul

/-- One of two languages, the first of which has the longer word whenever both have one. -/
theorem or (left : Longest first text found) (right : Longest second text other)
    (longer : ∀ m ∈ found, ∀ n ∈ other, n ≤ m) :
    Longest (first + second) text (found.or other) where
  mem length isLength := by
    rcases Option.or_eq_some_iff.1 isLength with inLeft | ⟨_, inRight⟩
    · exact (left.mem length inLeft).imp_right .inl
    · exact (right.mem length inRight).imp_right .inr
  le word member stands := by
    rcases member with inFirst | inSecond
    · obtain ⟨length, isLength, le⟩ := left.le word inFirst stands
      exact ⟨length, Option.or_eq_some_iff.2 (.inl isLength), le⟩
    · obtain ⟨length, isLength, le⟩ := right.le word inSecond stands
      cases found with
      | none => exact ⟨length, isLength, le⟩
      | some longest =>
        exact ⟨longest, rfl, Nat.le_trans le (longer longest rfl length isLength)⟩

theorem or_none (left : Longest first text found) (right : Longest second text none) :
    Longest (first + second) text found := by
  have either := left.or right fun _ _ _ isSome => nomatch isSome
  rwa [Option.or_none] at either

theorem none_or (left : Longest first text none) (right : Longest second text other) :
    Longest (first + second) text other :=
  left.or right fun _ isSome => nomatch isSome

/-! ## Offsets -/

theorem isGreatest {start : Nat} (longest : Longest first (text.drop start) (some length))
    (inside : start ≤ text.length) :
    IsGreatest (Text.stops first text start) (start + length) := by
  obtain ⟨le, member⟩ := longest.mem length rfl
  rw [List.length_drop] at le
  refine ⟨⟨Nat.le_add_right start length, by omega, ?_⟩, fun stop ⟨behind, within, isWord⟩ => ?_⟩
  · rwa [List.extract_eq_take_drop, Nat.add_sub_cancel_left]
  · rw [List.extract_eq_take_drop] at isWord
    obtain ⟨longest, isLongest, atMost⟩ := longest.le _ isWord (List.take_prefix _ _)
    obtain rfl := Option.some.inj isLongest
    rw [List.length_take, List.length_drop] at atMost
    omega

theorem stops_eq_empty {start : Nat} (longest : Longest first (text.drop start) none) :
    Text.stops first text start = ∅ := by
  refine Set.eq_empty_of_forall_notMem fun stop ⟨_, _, isWord⟩ => ?_
  rw [List.extract_eq_take_drop] at isWord
  obtain ⟨_, isSome, _⟩ := longest.le _ isWord (List.take_prefix _ _)
  cases isSome

end Longest

end Lexeme

end ModalHighlight
