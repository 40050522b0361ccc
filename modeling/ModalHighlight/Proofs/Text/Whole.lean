import ModalHighlight.Byte
import ModalHighlight.Span

/-! # Whole characters

Bytes are whole if they are the bytes of a text, that is, a sequence of whole
characters.  A text that is cut in two has whole parts on either both sides of
the cut or on none, and a cut in front of an ASCII byte is never inside a
character.  This is all that a scan over bytes needs to know of UTF-8: the
offsets at which what remains is whole are the borders of the characters.
-/

namespace ModalHighlight.Text

/-! ## The bytes of a text -/

@[simp] theorem bytes_append (a b : String) : bytes (a ++ b) = bytes a ++ bytes b := by
  simp [bytes]

@[simp] theorem length_bytes (text : String) : (bytes text).length = text.utf8ByteSize := by
  simp [bytes, ← String.size_toByteArray]

theorem bytes_injective {a b : String} (h : bytes a = bytes b) : a = b :=
  String.toByteArray_inj.1 (ByteArray.ext (Array.toList_inj.1 h))

theorem bytes_ofList (chars : List Char) :
    bytes (String.ofList chars) = chars.flatMap String.utf8EncodeChar := by
  simp [bytes, List.utf8Encode]

theorem bytes_eq_flatMap (text : String) :
    bytes text = text.toList.flatMap String.utf8EncodeChar := by
  rw [← bytes_ofList, String.ofList_toList]

theorem toList_extract (text : String) (start stop : Nat) :
    (text.toByteArray.extract start stop).data.toList =
      ((bytes text).drop start).take (stop - start) := by
  simp [bytes, Array.toList_extract, List.extract]

/-! ## Whole bytes and borders -/

/-- The bytes are those of a text. -/
def Whole (piece : List UInt8) : Prop := ∃ text : String, bytes text = piece

/-- The offset is the start or the end of a character of the text. -/
def Border (text : String) (offset : Nat) : Prop := (⟨offset⟩ : String.Pos.Raw).IsValid text

theorem whole_bytes (text : String) : Whole (bytes text) := ⟨text, rfl⟩

theorem whole_nil : Whole [] := ⟨"", rfl⟩

theorem whole_encodeChar (c : Char) : Whole (String.utf8EncodeChar c) :=
  ⟨String.singleton c, by simp [bytes_eq_flatMap]⟩

theorem whole_iff_isValidUTF8 (array : ByteArray) :
    Whole array.data.toList ↔ array.IsValidUTF8 := by
  constructor
  · rintro ⟨text, h⟩
    have same : text.toByteArray = array := ByteArray.ext (Array.toList_inj.1 h)
    exact same ▸ text.isValidUTF8
  · exact fun valid => ⟨⟨array, valid⟩, rfl⟩

theorem Border.le_utf8ByteSize {text : String} {offset : Nat} (border : Border text offset) :
    offset ≤ text.utf8ByteSize :=
  String.Pos.Raw.IsValid.le_utf8ByteSize border

theorem border_iff_whole_drop {text : String} {offset : Nat} :
    Border text offset ↔ offset ≤ text.utf8ByteSize ∧ Whole ((bytes text).drop offset) := by
  have all : ((bytes text).drop offset).take (text.utf8ByteSize - offset) =
      (bytes text).drop offset :=
    List.take_of_length_le (by simp)
  rw [← all, ← toList_extract, whole_iff_isValidUTF8]
  exact String.Pos.Raw.isValid_iff_isValidUTF8_extract_utf8ByteSize

theorem border_iff_whole_take {text : String} {offset : Nat} :
    Border text offset ↔ offset ≤ text.utf8ByteSize ∧ Whole ((bytes text).take offset) := by
  have front : (bytes text).take offset = ((bytes text).drop 0).take (offset - 0) := rfl
  rw [front, ← toList_extract, whole_iff_isValidUTF8]
  exact String.Pos.Raw.isValid_iff_isValidUTF8_extract_zero

theorem border_zero (text : String) : Border text 0 := String.Pos.Raw.isValid_zero

/-- A cut through whole bytes leaves either both parts whole or none. -/
theorem whole_left_iff_whole_right {left right : List UInt8} (h : Whole (left ++ right)) :
    Whole left ↔ Whole right := by
  obtain ⟨text, eq⟩ := h
  have inside : left.length ≤ text.utf8ByteSize := by rw [← length_bytes, eq]; simp
  -- The cut is a border of the text or it is none, and either part tells which.
  have byTake := @border_iff_whole_take text left.length
  have byDrop := @border_iff_whole_drop text left.length
  simp only [eq, List.take_left', List.drop_left', inside, true_and] at byTake byDrop
  rw [← byTake, byDrop]

/-! ## ASCII bytes and lead bytes -/

theorem encodeChar_ofUInt8 {b : UInt8} (ascii : b < 0x80) :
    String.utf8EncodeChar (Char.ofUInt8 b) = [b] := by
  have small : b.toNat ≤ 0x7f := Nat.le_of_lt_succ ascii
  have value : (Char.ofUInt8 b).val.toNat = b.toNat := UInt8.toNat_toUInt32 b
  simp only [String.utf8EncodeChar, value, small, if_true, UInt8.ofNat_toNat]

theorem whole_ascii {b : UInt8} (ascii : b < 0x80) : Whole [b] :=
  encodeChar_ofUInt8 ascii ▸ whole_encodeChar (Char.ofUInt8 b)

theorem isUTF8FirstByte_of_ascii {b : UInt8} (ascii : b < 0x80) : b.IsUTF8FirstByte := by
  have masked : ∀ n < 0x80, n &&& 0x80 = 0 := by decide
  exact .inl (UInt8.toNat_inj.1 (masked b.toNat ascii))

theorem charWidth_ofNat {n : Nat} (small : n < 256) :
    Byte.charWidth (UInt8.ofNat n) =
      if n < 0xc0 then 1 else if n < 0xe0 then 2 else if n < 0xf0 then 3 else 4 := by
  simp only [Byte.charWidth, UInt8.lt_iff_toNat_lt, UInt8.toNat_ofNat', UInt8.reduceToNat,
    Nat.mod_eq_of_lt small]

/-- The lead byte of a character announces as many bytes as the character has. -/
theorem charWidth_encodeChar {c : Char} {lead : UInt8} {more rest : List UInt8}
    (h : lead :: more = String.utf8EncodeChar c ++ rest) : Byte.charWidth lead = c.utf8Size := by
  rw [← String.length_utf8EncodeChar]
  -- One case for each width: the lead byte is a sum whose size gives the width away.
  revert h
  fun_cases String.utf8EncodeChar c <;> intro h <;>
    rw [(List.cons.inj h).1, charWidth_ofNat (by omega)] <;>
    simp only [List.length_cons, List.length_nil] <;>
    grind

theorem charLength_encodeChar_append (c : Char) (rest : List UInt8) :
    Byte.charLength (String.utf8EncodeChar c ++ rest) = c.utf8Size := by
  have size := String.length_utf8EncodeChar c
  cases front : String.utf8EncodeChar c ++ rest with
  | nil => simp at front
  | cons lead more =>
    rw [Byte.charLength, charWidth_encodeChar front.symm, ← front, List.length_take,
      List.length_append, size]
    omega

/-- Whole bytes begin with a whole character. -/
theorem Whole.eq_encodeChar_append {lead : UInt8} {more : List UInt8}
    (whole : Whole (lead :: more)) :
    ∃ c rest, lead :: more = String.utf8EncodeChar c ++ rest ∧ Whole rest := by
  obtain ⟨text, eq⟩ := whole
  rw [bytes_eq_flatMap] at eq
  cases chars : text.toList with
  | nil => simp [chars] at eq
  | cons c later =>
    refine ⟨c, later.flatMap String.utf8EncodeChar, ?_, String.ofList later, bytes_ofList later⟩
    rw [← eq, chars, List.flatMap_cons]

/-! ## Cuts -/

/-- A cut lies within the bytes, and leaves what follows it whole if they are. -/
structure Cut (piece : List UInt8) (length : Nat) : Prop where
  le_length : length ≤ piece.length
  whole : Whole piece → Whole (piece.drop length)

theorem cut_zero (piece : List UInt8) : Cut piece 0 := ⟨Nat.zero_le _, id⟩

/-- A cut of what follows a border is a border. -/
theorem Border.add {text : String} {offset length : Nat} (border : Border text offset)
    (cut : Cut ((bytes text).drop offset) length) : Border text (offset + length) := by
  have here := border_iff_whole_drop.1 border
  have within := cut.le_length
  rw [List.length_drop, length_bytes] at within
  refine border_iff_whole_drop.2 ⟨by omega, ?_⟩
  rw [← List.drop_drop]
  exact cut.whole here.2

/-- A cut of what follows a cut is a cut. -/
theorem Cut.add {piece : List UInt8} {first second : Nat} (outer : Cut piece first)
    (inner : Cut (piece.drop first) second) : Cut piece (first + second) where
  le_length := by
    have := outer.le_length
    have := inner.le_length
    simp only [List.length_drop] at this
    omega
  whole h := by
    rw [← List.drop_drop]
    exact inner.whole (outer.whole h)

/-- Between two cuts of whole bytes lies a cut of what follows the first. -/
theorem Cut.sub {piece : List UInt8} {first second : Nat} (whole : Whole piece)
    (inner : Cut piece second) (ordered : first ≤ second) :
    Cut (piece.drop first) (second - first) where
  le_length := by
    have := inner.le_length
    simp only [List.length_drop]
    omega
  whole _ := by
    rw [List.drop_drop, Nat.add_sub_cancel' ordered]
    exact inner.whole whole

theorem cut_ascii {b : UInt8} (more : List UInt8) (ascii : b < 0x80) : Cut (b :: more) 1 where
  le_length := by simp
  whole h := by
    have split : Whole ([b] ++ more) := h
    exact (whole_left_iff_whole_right split).1 (whole_ascii ascii)

theorem Cut.cons {b : UInt8} {more : List UInt8} {length : Nat} (ascii : b < 0x80)
    (cut : Cut more length) : Cut (b :: more) (length + 1) := by
  rw [Nat.add_comm]
  exact (cut_ascii more ascii).add cut

theorem Cut.snoc {piece : List UInt8} {length : Nat} {b : UInt8} (cut : Cut piece length)
    (next : piece[length]? = some b) (ascii : b < 0x80) : Cut piece (length + 1) := by
  have inside : length < piece.length := (List.getElem?_eq_some_iff.1 next).1
  have value : piece[length] = b := (List.getElem?_eq_some_iff.1 next).2
  refine cut.add ?_
  rw [List.drop_eq_getElem_cons inside, value]
  exact cut_ascii _ ascii

theorem cut_append {front : List UInt8} (whole : Whole front) (rest : List UInt8) :
    Cut (front ++ rest) front.length where
  le_length := by simp
  whole h := by
    rw [List.drop_left]
    exact (whole_left_iff_whole_right h).1 whole

theorem cut_charLength (piece : List UInt8) : Cut piece (Byte.charLength piece) where
  le_length := Byte.charLength_le piece
  whole h := by
    cases piece with
    | nil => exact whole_nil
    | cons lead more =>
      obtain ⟨c, rest, eq, whole⟩ := h.eq_encodeChar_append
      rwa [eq, charLength_encodeChar_append, ← String.length_utf8EncodeChar, List.drop_left]

/-- No cut lies inside the first character. -/
theorem Cut.charLength_le {piece : List UInt8} {length : Nat} (cut : Cut piece length)
    (whole : Whole piece) (pos : 0 < length) : Byte.charLength piece ≤ length := by
  cases piece with
  | nil => exact Nat.zero_le _
  | cons lead more =>
    have front : Whole ((lead :: more).take length) := by
      refine (whole_left_iff_whole_right ?_).2 (cut.whole whole)
      rwa [List.take_append_drop]
    -- The part in front of the cut begins with a character too, and the lead byte
    -- tells the size of both.
    obtain ⟨size, rfl⟩ : ∃ size, length = size + 1 := ⟨length - 1, by omega⟩
    obtain ⟨c, rest, eq, _⟩ := front.eq_encodeChar_append
    have width := charWidth_encodeChar eq
    have within := congrArg List.length eq
    have taken := cut.le_length
    rw [List.length_append, String.length_utf8EncodeChar, ← width] at within
    simp only [List.length_cons, List.length_take] at within taken
    simp only [Byte.charLength, List.length_take, List.length_cons]
    omega

/-- No character begins in front of an ASCII byte without ending there. -/
theorem cut_of_ascii_next {piece : List UInt8} {length : Nat} (inside : length ≤ piece.length)
    (ascii : ∀ b ∈ piece[length]?, b < 0x80) : Cut piece length where
  le_length := inside
  whole := by
    rintro ⟨text, rfl⟩
    rcases Nat.lt_or_eq_of_le inside with before | atEnd
    · have size : length < text.utf8ByteSize := length_bytes text ▸ before
      have border : Border text length := String.Pos.Raw.isValid_iff_isUTF8FirstByte.2
        (.inr ⟨size, isUTF8FirstByte_of_ascii (ascii _ (List.getElem?_eq_getElem before))⟩)
      exact (border_iff_whole_drop.1 border).2
    · rw [atEnd, List.drop_length]
      exact whole_nil

/-! ## Runs -/

theorem runLength_cons_of_mem {inClass : UInt8 → Bool} {b : UInt8} (member : inClass b = true)
    (more : List UInt8) :
    Byte.runLength inClass (b :: more) = Byte.runLength inClass more + 1 := by
  simp only [Byte.runLength, List.takeWhile_cons, member, if_true, List.length_cons]

theorem runLength_cons_of_not_mem {inClass : UInt8 → Bool} {b : UInt8}
    (outside : inClass b = false) (more : List UInt8) :
    Byte.runLength inClass (b :: more) = 0 := by
  simp [Byte.runLength, outside]

theorem not_mem_of_getElem?_runLength {inClass : UInt8 → Bool} {piece : List UInt8} {b : UInt8}
    (next : piece[Byte.runLength inClass piece]? = some b) : inClass b = false := by
  induction piece with
  | nil => simp at next
  | cons lead more ih =>
    cases member : inClass lead with
    | true =>
      rw [runLength_cons_of_mem member, List.getElem?_cons_succ] at next
      exact ih next
    | false =>
      rw [runLength_cons_of_not_mem member, List.getElem?_cons_zero] at next
      exact Option.some.inj next ▸ member

theorem mem_class_of_mem_take {inClass : UInt8 → Bool} {piece : List UInt8} {b : UInt8}
    (member : b ∈ piece.take (Byte.runLength inClass piece)) : inClass b = true := by
  rw [Byte.take_runLength] at member
  exact List.all_eq_true.1 List.all_takeWhile b member

/-- All that a run passes is in its class. -/
theorem mem_class_of_lt_runLength {inClass : UInt8 → Bool} {piece : List UInt8} {n : Nat}
    (within : n < Byte.runLength inClass piece) : ∃ b ∈ piece[n]?, inClass b = true := by
  induction piece generalizing n with
  | nil => exact absurd within (Nat.not_lt_zero n)
  | cons lead more ih =>
    cases member : inClass lead with
    | false =>
      rw [runLength_cons_of_not_mem member] at within
      exact absurd within (Nat.not_lt_zero n)
    | true =>
      rw [runLength_cons_of_mem member] at within
      cases n with
      | zero => exact ⟨lead, rfl, member⟩
      | succ n => exact ih (Nat.lt_of_succ_lt_succ within)

theorem runLength_le_of_getElem? {inClass : UInt8 → Bool} {piece : List UInt8} {length : Nat}
    (inside : length ≤ piece.length) (next : ∀ b ∈ piece[length]?, inClass b = false) :
    Byte.runLength inClass piece ≤ length := by
  induction piece generalizing length with
  | nil => exact Nat.zero_le _
  | cons lead more ih =>
    cases length with
    | zero => exact Nat.le_of_eq (runLength_cons_of_not_mem (next lead rfl) more)
    | succ length =>
      cases member : inClass lead with
      | true =>
        rw [runLength_cons_of_mem member]
        exact Nat.succ_le_succ (ih (Nat.le_of_succ_le_succ inside) next)
      | false =>
        rw [runLength_cons_of_not_mem member]
        exact Nat.zero_le _

/-- A run of ASCII bytes ends between characters. -/
theorem cut_run {inClass : UInt8 → Bool} (ascii : ∀ b, inClass b = true → b < 0x80)
    (piece : List UInt8) : Cut piece (Byte.runLength inClass piece) := by
  induction piece with
  | nil => exact cut_zero []
  | cons lead more ih =>
    cases member : inClass lead with
    | true => exact runLength_cons_of_mem member more ▸ ih.cons (ascii lead member)
    | false => exact runLength_cons_of_not_mem member more ▸ cut_zero _

theorem cut_run_until {inClass : UInt8 → Bool} (ascii : ∀ b, inClass b = false → b < 0x80)
    (piece : List UInt8) : Cut piece (Byte.runLength inClass piece) :=
  cut_of_ascii_next (Byte.runLength_le inClass piece)
    fun b next => ascii b (not_mem_of_getElem?_runLength next)

/-! ## Slices -/

/-- Between two borders lies a slice. -/
theorem slice?_of_border {text : String} {start stop : Nat} (ordered : start ≤ stop)
    (left : Border text start) (right : Border text stop) :
    ∃ slice, (⟨start, stop⟩ : Span).slice? text = some slice ∧
      bytes slice = ((bytes text).drop start).take (stop - start) := by
  rw [Span.slice?, dif_pos ⟨ordered, left, right⟩]
  refine ⟨_, rfl, ?_⟩
  rw [← toList_extract]
  rfl

theorem border_of_slice? {text slice : String} {start stop : Nat}
    (cut : (⟨start, stop⟩ : Span).slice? text = some slice) :
    start ≤ stop ∧ Border text start ∧ Border text stop := by
  unfold Span.slice? at cut
  split at cut
  next inside => exact inside
  next => cases cut

/-- A slice that exists holds the bytes between its ends. -/
theorem bytes_of_slice? {text slice : String} {start stop : Nat}
    (cut : (⟨start, stop⟩ : Span).slice? text = some slice) :
    bytes slice = ((bytes text).drop start).take (stop - start) := by
  obtain ⟨ordered, left, right⟩ := border_of_slice? cut
  obtain ⟨same, found, between⟩ := slice?_of_border ordered left right
  obtain rfl : slice = same := Option.some.inj (cut.symm.trans found)
  exact between

/-- Text that is added behind makes no difference to a slice. -/
theorem slice?_append_left {front slice : String} {s : Span} (cut : s.slice? front = some slice)
    (back : String) : s.slice? (front ++ back) = some slice := by
  obtain ⟨ordered, left, right⟩ := border_of_slice? cut
  have keeps : ∀ {offset : Nat}, Border front offset → Border (front ++ back) offset := by
    intro offset border
    obtain ⟨inside, whole⟩ := border_iff_whole_take.1 border
    refine border_iff_whole_take.2 ⟨?_, ?_⟩
    · rw [String.utf8ByteSize_append]
      exact Nat.le_trans inside (Nat.le_add_right _ _)
    · rwa [bytes_append, List.take_append_of_le_length (length_bytes front ▸ inside)]
  obtain ⟨same, found, between⟩ := slice?_of_border ordered (keeps left) (keeps right)
  have within := right.le_utf8ByteSize
  rw [found]
  refine congrArg some (bytes_injective ?_)
  rw [between, bytes_of_slice? cut, bytes_append, List.drop_append_of_le_length,
    List.take_append_of_le_length]
  · rw [List.length_drop, length_bytes]
    omega
  · rw [length_bytes]
    omega

/-- Slices move along with a text that is put behind another one. -/
theorem slice?_append_right {back slice : String} {s : Span} (cut : s.slice? back = some slice)
    (front : String) : (s.shift front.utf8ByteSize).slice? (front ++ back) = some slice := by
  obtain ⟨ordered, left, right⟩ := border_of_slice? cut
  have dropped : ∀ offset, (bytes (front ++ back)).drop (offset + front.utf8ByteSize) =
      (bytes back).drop offset := by
    intro offset
    rw [bytes_append, Nat.add_comm, ← length_bytes, ← List.drop_drop, List.drop_left]
  have keeps : ∀ {offset : Nat}, Border back offset →
      Border (front ++ back) (offset + front.utf8ByteSize) := by
    intro offset border
    obtain ⟨inside, whole⟩ := border_iff_whole_drop.1 border
    refine border_iff_whole_drop.2 ⟨?_, ?_⟩
    · rw [String.utf8ByteSize_append]
      omega
    · rwa [dropped]
  obtain ⟨same, found, between⟩ := slice?_of_border (Nat.add_le_add_right ordered _) (keeps left)
    (keeps right)
  rw [Span.shift, found]
  refine congrArg some (bytes_injective ?_)
  rw [between, bytes_of_slice? cut, dropped, Nat.add_sub_add_right]

theorem slice?_append {text left right : String} {start middle stop : Nat}
    (first : (⟨start, middle⟩ : Span).slice? text = some left)
    (second : (⟨middle, stop⟩ : Span).slice? text = some right) :
    (⟨start, stop⟩ : Span).slice? text = some (left ++ right) := by
  obtain ⟨before, atStart, _⟩ := border_of_slice? first
  obtain ⟨behind, _, atStop⟩ := border_of_slice? second
  obtain ⟨slice, cut, between⟩ := slice?_of_border (Nat.le_trans before behind) atStart atStop
  -- All three slices are taken out of the same bytes, and the counts add up.
  have total : stop - start = (middle - start) + (stop - middle) := by omega
  rw [cut]
  refine congrArg some (bytes_injective ?_)
  rw [bytes_append, between, bytes_of_slice? first, bytes_of_slice? second, total,
    List.take_add, List.drop_drop, Nat.add_sub_cancel' before]

end ModalHighlight.Text
