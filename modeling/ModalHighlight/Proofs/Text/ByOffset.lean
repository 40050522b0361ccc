import ModalHighlight.Cursor
import ModalHighlight.Proofs.Text.Whole

/-! # Reading a text by offset

Bytes in memory are read at offsets, and each of these reads can miss them: an
index may lie behind the last byte, a slice may begin or end outside.  Here they
are read in that way, and every offset is checked before it is used; one that
the text does not have is an error.  Nothing is known of the text behind an
offset but what the checked reads answer, so a recogniser that is put together
from them alone and never ends in that error reads nothing outside the bytes.

Inside the text each read is a look at what follows an offset, which is how
lexemes are recognised.
-/

namespace ModalHighlight.ByOffset

open Cursor

/-! ## The reads -/

/-- The slice of a text from an offset on. -/
def tailAt (text : List UInt8) (start : Nat) : Except OutOfText (List UInt8) :=
  if start ≤ text.length then .ok (text.drop start) else .error ⟨start, text.length⟩

/-- The slice of a text between two offsets. -/
def slice (text : List UInt8) (start stop : Nat) : Except OutOfText (List UInt8) :=
  if start ≤ stop ∧ stop ≤ text.length then .ok ((text.drop start).take (stop - start))
  else .error ⟨max start stop, text.length⟩

/-- The end of the bytes of a class that start at an offset, which are passed one
after the other. -/
def runEnd (inClass : UInt8 → Bool) (text : List UInt8) (offset : Nat) : Except OutOfText Nat :=
  if offset < text.length then do
    let b ← byteAt text offset
    if inClass b then runEnd inClass text (offset + 1) else return offset
  else return offset
termination_by text.length - offset

/-- The end of the character at an offset, or that of the text where the
character is cut short. -/
def charEnd (text : List UInt8) (offset : Nat) : Except OutOfText Nat := do
  let lead ← byteAt text offset
  return min (offset + Byte.charWidth lead) text.length

/-- No identifier byte stands directly in front of an offset. -/
def startsWord (text : List UInt8) (offset : Nat) : Except OutOfText Bool :=
  if offset = 0 then return true
  else do
    let before ← byteAt text (offset - 1)
    return !Byte.isIdentifier before

/-! ## What they answer -/

theorem ok_bind {α β : Type} (a : α) (next : α → Except OutOfText β) :
    (Except.ok a >>= next) = next a := rfl

theorem map_ok {α β : Type} (f : α → β) (a : α) :
    f <$> (Except.ok a : Except OutOfText α) = .ok (f a) := rfl

variable {text : List UInt8} {offset : Nat}

theorem byteAt_of_lt (inside : offset < text.length) : byteAt text offset = .ok text[offset] := by
  rw [byteAt, List.getElem?_eq_getElem inside]

theorem tailAt_of_le (inside : offset ≤ text.length) :
    tailAt text offset = .ok (text.drop offset) :=
  if_pos inside

theorem slice_of_le {start length : Nat} (inside : start + length ≤ text.length) :
    slice text start (start + length) = .ok ((text.drop start).take length) := by
  rw [slice, if_pos ⟨Nat.le_add_right _ _, inside⟩, Nat.add_sub_cancel_left]

/-- A run is found without an error, also behind the text, where it is empty. -/
theorem runEnd_eq (inClass : UInt8 → Bool) (text : List UInt8) (offset : Nat) :
    runEnd inClass text offset = .ok (offset + Byte.runLength inClass (text.drop offset)) := by
  fun_induction runEnd inClass text offset with
  | case1 offset inside ih =>
    rw [byteAt_of_lt inside, ok_bind, List.drop_eq_getElem_cons inside]
    cases member : inClass text[offset] with
    | true =>
      rw [if_pos rfl, ih, Text.runLength_cons_of_mem member, Nat.add_assoc, Nat.add_comm 1]
    | false =>
      rw [if_neg Bool.false_ne_true, Text.runLength_cons_of_not_mem member]
      rfl
  | case2 offset outside =>
    rw [List.drop_eq_nil_of_le (Nat.le_of_not_lt outside)]
    rfl

theorem charEnd_of_lt (inside : offset < text.length) :
    charEnd text offset = .ok (offset + Byte.charLength (text.drop offset)) := by
  have enough : min (offset + Byte.charWidth text[offset]) text.length =
      offset + min (Byte.charWidth text[offset]) (text.length - offset) := by omega
  rw [charEnd, byteAt_of_lt inside, ok_bind, enough, ← List.length_drop, ← List.length_take,
    List.drop_eq_getElem_cons inside]
  rfl

theorem startsWord_of_le (inside : offset ≤ text.length) :
    startsWord text offset = .ok (Cursor.ofOffset text offset).atWordStart := by
  unfold startsWord
  split
  next atStart => rw [atStart]; rfl
  next later =>
    have before : offset - 1 < text.length := by omega
    rw [byteAt_of_lt before, ok_bind, Cursor.atWordStart, Cursor.ofOffset, if_neg later,
      List.getElem?_eq_getElem before]
    rfl

/-- The byte at an offset, and with it what follows. -/
theorem drop_eq_cons (inside : offset < text.length) :
    text.drop offset = text[offset] :: text.drop (offset + 1) :=
  List.drop_eq_getElem_cons inside

/-- A byte is asked for that may be missing: either it is there, and what follows
begins with it, or nothing follows. -/
theorem ahead (text : List UInt8) (offset : Nat) :
    (offset < text.length ∧ ∃ lead, text[offset]? = some lead ∧
      text.drop offset = lead :: text.drop (offset + 1)) ∨
    (text[offset]? = none ∧ text.drop offset = []) := by
  rcases Nat.lt_or_ge offset text.length with inside | outside
  · exact .inl ⟨inside, text[offset], List.getElem?_eq_getElem inside, drop_eq_cons inside⟩
  · exact .inr ⟨List.getElem?_eq_none outside, List.drop_eq_nil_of_le outside⟩

end ModalHighlight.ByOffset
