import ModalHighlight.Matcher
import ModalHighlight.Proofs.Lexeme.Longest

/-! # Character literals are read as far as they go

The readings of a character literal are tried in a fixed order.  An escape that counts its
bytes is longer than the character that it begins with, and a backslash in front of a
reading makes it longer than the backslash alone.  So the first reading that fits is the
longest one.
-/

namespace ModalHighlight

open RegularExpression (char)

/-! ## How character literals are spelled -/

namespace Spelling

variable {inClass : UInt8 → Bool} {word : List UInt8}

/-- A letter and a number of identifier bytes. -/
def counted (letter : UInt8) (count : Nat) : RegularExpression UInt8 :=
  char letter * oneOf Byte.isIdentifier ^ count

/-- Any one character but a line feed. -/
def oneCharacter : Language UInt8 :=
  {word | ∃ c : Char, c ≠ '\n' ∧ word = String.utf8EncodeChar c}

/-- `x\w{2}`, `u\w{4}`, `U\w{8}` or any one character but a line feed. -/
def content : Language UInt8 :=
  (counted 0x78 2).matches' + ((counted 0x75 4).matches' +
    ((counted 0x55 8).matches' + oneCharacter))

/-- An optional `b`, `'`, an optional backslash, the content and `'`. -/
def characterLiteral : Language UInt8 :=
  (optional (char Byte.letterB)).matches' * ((char Byte.apostrophe).matches' *
    ((optional (char Byte.backslash)).matches' *
      (content * (char Byte.apostrophe).matches')))

theorem mem_pow_iff {count : Nat} : word ∈ (oneOf inClass ^ count).matches' ↔
    word.length = count ∧ ∀ b ∈ word, inClass b = true := by
  rw [RegularExpression.matches'_pow]
  induction count generalizing word with
  | zero =>
    rw [pow_zero, Language.mem_one, List.length_eq_zero_iff, iff_self_and]
    rintro rfl b member
    cases member
  | succ count ih =>
    rw [pow_succ', Language.mem_mul]
    constructor
    · rintro ⟨one, isOne, rest, isRest, rfl⟩
      obtain ⟨b, rfl, isIn⟩ := mem_oneOf_iff.1 isOne
      obtain ⟨size, all⟩ := ih.1 isRest
      exact ⟨congrArg (· + 1) size, List.forall_mem_cons.2 ⟨isIn, all⟩⟩
    · rintro ⟨size, all⟩
      obtain ⟨b, rest, rfl⟩ := List.exists_cons_of_length_eq_add_one size
      obtain ⟨isIn, others⟩ := List.forall_mem_cons.1 all
      exact ⟨[b], mem_oneOf isIn, rest, ih.2 ⟨Nat.succ.inj size, others⟩, rfl⟩

end Spelling

namespace Lexeme

variable {first behind : Language UInt8} {text more : List UInt8} {lead letter : UInt8}
variable {found here : Option Nat} {count length : Nat}

/-! ## The closing quote -/

namespace Longest

/-- Words of one length, the first of which stands in front of a text, and a closing `'`. -/
theorem closed (front : text.take count ∈ first) (inside : count ≤ text.length)
    (fixed : ∀ word ∈ first, word <+: text → word.length = count) :
    Longest (first * (char Byte.apostrophe).matches') text (closedAfter count text) := by
  have prefixes : Longest first text (some count) := {
    mem := fun length isLength => Option.some.inj isLength ▸ ⟨inside, front⟩
    le := fun word member stands => ⟨count, rfl, (fixed word member stands).le⟩ }
  have quote : Longest (char Byte.apostrophe).matches' (text.drop count)
      (if text[count]? == some Byte.apostrophe then some 1 else none) := by
    rw [← List.head?_drop]
    cases text.drop count with
    | nil => exact byte_nil (singleBytes_char _)
    | cons b rest => exact byte (singleBytes_char _) b rest
  have both := prefixes.mul quote fun n shorter member => by
    have size := fixed _ member (List.take_prefix n text)
    rw [List.length_take] at size
    omega
  rw [closedAfter]
  split
  next closes =>
    rwa [if_pos closes] at both
  next unclosed =>
    rwa [if_neg unclosed] at both

/-- What comes behind a byte is asked for only if the byte is there. -/
theorem char_mul (taken : lead = letter → Longest behind more found) :
    Longest ((char letter).matches' * behind) (lead :: more)
      (if lead == letter then found.map (· + 1) else none) := by
  have front := byte (singleBytes_char letter) lead more
  split
  next same =>
    have read := (taken (eq_of_beq same)).byte_mul (singleBytes_char letter) lead
    rw [if_pos same] at read
    rwa [show (1 + · : Nat → Nat) = (· + 1) from funext (Nat.add_comm 1)] at read
  next other =>
    rw [if_neg other] at front
    exact front.none_mul

theorem optional_char_mul_eq (letter : UInt8) (behind : Language UInt8) :
    (Spelling.optional (char letter)).matches' * behind = (char letter).matches' * behind + behind := by
  rw [Spelling.optional, RegularExpression.matches'_add, RegularExpression.matches'_epsilon,
    add_mul, one_mul, add_comm]

/-- A byte that may be left out, where to leave it out is not the longer reading. -/
theorem optional_char_mul (taken : lead = letter → Longest behind more found)
    (left : Longest behind (lead :: more) here)
    (longer : lead = letter → ∀ m ∈ found, ∀ n ∈ here, n ≤ m + 1) :
    Longest ((Spelling.optional (char letter)).matches' * behind) (lead :: more)
      (if lead == letter then (found.map (· + 1)).or here else here) := by
  have both : Longest _ (lead :: more) _ := (char_mul taken).or left fun m isTaken n isLeft => by
    obtain ⟨same, isTaken⟩ := Option.ite_none_right_eq_some.1 isTaken
    obtain ⟨inner, isInner, rfl⟩ := Option.map_eq_some_iff.1 isTaken
    exact longer (eq_of_beq same) inner isInner n isLeft
  rwa [apply_ite (Option.or · here), Option.none_or, ← optional_char_mul_eq] at both

theorem optional_char_mul_nil (left : Longest behind [] here) :
    Longest ((Spelling.optional (char letter)).matches' * behind) [] here := by
  have absent : Longest ((char letter).matches' * behind) [] none :=
    (byte_nil (singleBytes_char letter)).none_mul
  rw [optional_char_mul_eq]
  exact absent.none_or left

end Longest

/-! ## Escapes that count their bytes -/

theorem longest_pow (count : Nat) (text : List UInt8) :
    Longest ((Spelling.oneOf Byte.isIdentifier ^ count).matches' * (char Byte.apostrophe).matches')
      text (if (text.take count).length == count && (text.take count).all Byte.isIdentifier then
        closedAfter count text else none) := by
  split
  next inside =>
    rw [Bool.and_eq_true, beq_iff_eq, List.all_eq_true] at inside
    refine .closed (Spelling.mem_pow_iff.2 inside) ?_ fun word member _ =>
      (Spelling.mem_pow_iff.1 member).1
    rw [← inside.1]
    exact List.length_take_le' count text
  next outside =>
    refine (Longest.of_forall_not fun word member stands => outside ?_).none_mul
    obtain ⟨rfl, all⟩ := Spelling.mem_pow_iff.1 member
    rw [← List.prefix_iff_eq_take.1 stands]
    simpa using all

theorem longest_counted (letter : UInt8) (count : Nat) (text : List UInt8) :
    Longest ((Spelling.counted letter count).matches' * (char Byte.apostrophe).matches') text
      (countedEscape letter count text) := by
  rw [Spelling.counted, RegularExpression.matches'_mul, mul_assoc]
  cases text with
  | nil => exact (Longest.byte_nil (singleBytes_char letter)).none_mul
  | cons lead more =>
    have read : Longest ((char letter).matches' * _) (lead :: more) _ :=
      .char_mul fun _ => longest_pow count more
    have later : closedAfter (1 + count) (lead :: more) = (closedAfter count more).map (· + 1) := by
      rw [closedAfter, closedAfter, Nat.add_comm, List.getElem?_cons_succ]
      split <;> rfl
    rw [countedEscape, later, Bool.and_assoc]
    cases same : lead == letter with
    | false =>
      rw [same] at read
      exact read
    | true =>
      rw [same, if_pos rfl, apply_ite (Option.map _)] at read
      exact read

theorem exists_of_countedEscape (found : countedEscape letter count text = some length) :
    ∃ more, text = letter :: more ∧ length = count + 2 := by
  cases text with
  | nil => cases found
  | cons lead more =>
    simp only [countedEscape, closedAfter, Option.ite_none_right_eq_some, Bool.and_eq_true,
      beq_iff_eq, Option.some.injEq] at found
    obtain ⟨⟨⟨rfl, _⟩, _⟩, _, rfl⟩ := found
    exact ⟨more, rfl, by omega⟩

theorem countedEscape_of_ne (other : lead ≠ letter) (count : Nat) (more : List UInt8) :
    countedEscape letter count (lead :: more) = none := by
  simp [countedEscape, other]

/-! ## Characters -/

/-- A text begins with one character only. -/
theorem eq_of_encodeChar_append {c d : Char} {rest other : List UInt8}
    (same : String.utf8EncodeChar c ++ rest = String.utf8EncodeChar d ++ other) : c = d := by
  have size := Text.charLength_encodeChar_append c rest
  rw [same, Text.charLength_encodeChar_append d other] at size
  rw [← String.length_utf8EncodeChar, ← String.length_utf8EncodeChar] at size
  obtain ⟨chars, _⟩ := List.append_inj same size.symm
  have texts : String.singleton c = String.singleton d :=
    Text.bytes_injective (by simpa [Text.bytes_eq_flatMap] using chars)
  simpa using congrArg String.toList texts

theorem longest_closedChar (whole : Text.Whole text) :
    Longest (Spelling.oneCharacter * (char Byte.apostrophe).matches') text (closedChar text) := by
  have noWord : (∀ word ∈ Spelling.oneCharacter, ¬word <+: text) →
      Longest (Spelling.oneCharacter * (char Byte.apostrophe).matches') text none :=
    fun absent => (Longest.of_forall_not absent).none_mul
  cases text with
  | nil =>
    refine noWord ?_
    rintro word ⟨c, _, isChar⟩ stands
    have size := String.length_utf8EncodeChar c
    rw [← isChar, List.prefix_nil.1 stands] at size
    exact absurd size.symm c.utf8Size_pos.ne'
  | cons lead more =>
    obtain ⟨c, rest, isChar, _⟩ := whole.eq_encodeChar_append
    rw [closedChar]
    split
    next newline =>
      refine noWord ?_
      rintro word ⟨d, other, rfl⟩ ⟨behind, stands⟩
      obtain rfl := eq_of_beq newline
      have lineFeed : String.utf8EncodeChar '\n' ++ more = Byte.newline :: more := rfl
      exact other (eq_of_encodeChar_append (stands.trans lineFeed.symm))
    next line =>
      rw [isChar, Text.charLength_encodeChar_append, ← String.length_utf8EncodeChar]
      refine .closed ?_ (by simp) ?_
      · rw [List.take_left]
        refine ⟨c, ?_, rfl⟩
        rintro rfl
        exact line (beq_iff_eq.2 (List.cons.inj isChar).1)
      · rintro _ ⟨d, _, rfl⟩ ⟨behind, stands⟩
        rw [eq_of_encodeChar_append stands]

/-- An ASCII byte is a character of its own. -/
theorem eq_two_of_closedChar (ascii : lead < 0x80) (found : closedChar (lead :: more) = some length) :
    length = 2 := by
  have one : Byte.charLength (lead :: more) = 1 := by
    have width : Byte.charWidth lead = 1 := if_pos (UInt8.lt_trans ascii (by decide))
    rw [Byte.charLength, width]
    rfl
  simp only [closedChar, one, closedAfter, Option.ite_none_left_eq_some,
    Option.ite_none_right_eq_some, Option.some.injEq] at found
  exact found.2.2.symm

/-! ## Character literals -/

theorem longest_charBody (whole : Text.Whole text) :
    Longest (Spelling.content * (char Byte.apostrophe).matches') text (charBody text) := by
  rw [Spelling.content, add_mul, add_mul, add_mul]
  refine (longest_counted ..).or ((longest_counted ..).or ((longest_counted ..).or
    (longest_closedChar whole) ?_) ?_) ?_ <;> intro m isCounted n isOther <;>
    obtain ⟨more, rfl, rfl⟩ := exists_of_countedEscape isCounted
  · exact (eq_two_of_closedChar (by decide) isOther).le.trans (by decide)
  · rw [countedEscape_of_ne (by decide), Option.none_or] at isOther
    exact (eq_two_of_closedChar (by decide) isOther).le.trans (by decide)
  · rw [countedEscape_of_ne (by decide), countedEscape_of_ne (by decide), Option.none_or,
      Option.none_or] at isOther
    exact (eq_two_of_closedChar (by decide) isOther).le.trans (by decide)

/-- What begins with a backslash is the backslash itself. -/
theorem eq_two_of_charBody (found : charBody (Byte.backslash :: more) = some length) :
    length = 2 := by
  rw [charBody, countedEscape_of_ne (by decide), countedEscape_of_ne (by decide),
    countedEscape_of_ne (by decide), Option.none_or, Option.none_or, Option.none_or] at found
  exact eq_two_of_closedChar (by decide) found

theorem longest_charContent (whole : Text.Whole text) :
    Longest ((Spelling.optional (char Byte.backslash)).matches' *
      (Spelling.content * (char Byte.apostrophe).matches')) text (charContent text) := by
  have plain := longest_charBody whole
  cases text with
  | nil => exact plain.optional_char_mul_nil
  | cons lead more =>
    have behind : lead = Byte.backslash → Text.Whole more :=
      fun same => whole_of_cons whole (same ▸ by decide)
    refine .optional_char_mul (fun same => longest_charBody (behind same)) plain ?_
    rintro rfl m isEscape n isPlain
    have two := eq_two_of_charBody isPlain
    have pos := (charBody_fits isEscape).pos
    omega

theorem longest_quotedChar (whole : Text.Whole text) :
    Longest ((char Byte.apostrophe).matches' *
      ((Spelling.optional (char Byte.backslash)).matches' *
        (Spelling.content * (char Byte.apostrophe).matches'))) text (quotedChar text) := by
  cases text with
  | nil => exact (Longest.byte_nil (singleBytes_char _)).none_mul
  | cons lead more =>
    exact .char_mul fun same => longest_charContent (whole_of_cons whole (same ▸ by decide))

theorem longest_charLiteral (whole : Text.Whole text) :
    Longest Spelling.characterLiteral text (charLiteral text) := by
  have plain := longest_quotedChar whole
  cases text with
  | nil => exact plain.optional_char_mul_nil
  | cons lead more =>
    have behind : lead = Byte.letterB → Text.Whole more :=
      fun same => whole_of_cons whole (same ▸ by decide)
    have notPlain : lead = Byte.letterB → quotedChar (lead :: more) = none := by
      rintro rfl
      rfl
    have read : Longest _ (lead :: more) _ :=
      .optional_char_mul (fun same => longest_quotedChar (behind same)) plain
        fun same m _ n isPlain => by
          rw [notPlain same] at isPlain
          cases isPlain
    rw [charLiteral]
    split
    next same =>
      rwa [if_pos same, notPlain (eq_of_beq same), Option.or_none] at read
    next other =>
      rwa [if_neg other] at read

end Lexeme

/-! ## Character literals at an offset -/

/-- In front of a character of a text, a character literal is found wherever one may be read,
and it stops where the longest reading does. -/
theorem charLiteral_stops_furthest (text : String) (offset hashes : Nat)
    (border : Text.Border text offset) (inside : offset < text.utf8ByteSize) :
    ∃ found, Matcher.charLiteral.find (Text.bytes text) offset hashes = .ok found ∧
      (found.isSome = true ↔
        (Text.stops Spelling.characterLiteral (Text.bytes text) offset).Nonempty) ∧
      ∀ hit ∈ found,
        IsGreatest (Text.stops Spelling.characterLiteral (Text.bytes text) offset) hit.stop := by
  rw [← Text.length_bytes] at inside
  refine ⟨_, Matcher.find_of_lt Matcher.charLiteral hashes inside, ?_⟩
  have longest := Lexeme.longest_charLiteral (Text.border_iff_whole_drop.1 border).2
  rw [Matcher.matchAt?, Matcher.match?, Cursor.ofOffset]
  cases read : Lexeme.charLiteral ((Text.bytes text).drop offset) with
  | none =>
    rw [read] at longest
    rw [longest.stops_eq_empty]
    refine ⟨iff_of_false Bool.false_ne_true Set.not_nonempty_empty, fun hit isHit => ?_⟩
    cases isHit
  | some length =>
    rw [read] at longest
    have greatest := longest.isGreatest (Nat.le_of_lt inside)
    refine ⟨iff_of_true rfl ⟨_, greatest.1⟩, fun hit isHit => ?_⟩
    obtain rfl := Option.some.inj isHit
    exact greatest

/-- Behind the quote a backslash may be the character, and so may the quote that it escapes. -/
theorem charLiteral_stops_furthest_escaped :
    Text.Border "é b'\\''" 3 ∧ 3 < "é b'\\''".utf8ByteSize ∧
      IsGreatest (Text.stops Spelling.characterLiteral (Text.bytes "é b'\\''") 3) 8 := by
  have border : Text.Border "é b'\\''" 3 :=
    Text.border_iff_whole_drop.2 ⟨by decide, "b'\\''", by decide⟩
  have inside : 3 < "é b'\\''".utf8ByteSize := by decide
  obtain ⟨found, isFound, _, furthest⟩ := charLiteral_stops_furthest "é b'\\''" 3 0 border inside
  have here : Matcher.charLiteral.find (Text.bytes "é b'\\''") 3 0 = .ok (some (Hit.whole 8)) := by
    rfl
  obtain rfl := Except.ok.inj (isFound.symm.trans here)
  exact ⟨border, inside, furthest _ rfl⟩

end ModalHighlight
