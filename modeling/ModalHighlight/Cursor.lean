import ModalHighlight.Byte

/-! # Places in a text

A cursor stands at an offset of a text and shows what a scan may look at: the
byte before it and everything after it.  Nothing else of the text in front of
a cursor can influence a scan.  Reading at an offset that the text does not
have is an error with a name, not a default.
-/

namespace ModalHighlight

/-- A place in a text. -/
structure Cursor where
  offset : Nat
  /-- The byte in front of the cursor; none at the start of the text. -/
  before : Option UInt8
  /-- The text after the cursor. -/
  rest : List UInt8
  deriving DecidableEq, Repr

/-- An offset was asked for that lies outside the text. -/
structure OutOfText where
  offset : Nat
  size : Nat
  deriving DecidableEq, Repr

namespace Cursor

/-- The start of a text. -/
def start (text : List UInt8) : Cursor := ⟨0, none, text⟩

/-- The place at an offset of a text. -/
def ofOffset (text : List UInt8) (offset : Nat) : Cursor :=
  ⟨offset, if offset = 0 then none else text[offset - 1]?, text.drop offset⟩

/-- Moves on by a number of bytes, or to the end of the text if fewer follow. -/
def skip : Nat → Cursor → Cursor
  | 0, place => place
  | _ + 1, ⟨offset, before, []⟩ => ⟨offset, before, []⟩
  | n + 1, ⟨offset, _, b :: more⟩ => skip n ⟨offset + 1, some b, more⟩

/-- No identifier byte stands directly in front. -/
def atWordStart (place : Cursor) : Bool :=
  match place.before with
  | none => true
  | some b => !Byte.isIdentifier b

/-! ## Reading at an offset -/

/-- The place at an offset that has a byte of the text after it. -/
def inside (text : List UInt8) (offset : Nat) : Except OutOfText Cursor :=
  if offset < text.length then .ok (Cursor.ofOffset text offset)
  else .error ⟨offset, text.length⟩

/-- The place at an offset of the text, its end included. -/
def upToEnd (text : List UInt8) (offset : Nat) : Except OutOfText Cursor :=
  if offset ≤ text.length then .ok (Cursor.ofOffset text offset)
  else .error ⟨offset, text.length⟩

/-- The byte at an offset. -/
def byteAt (text : List UInt8) (offset : Nat) : Except OutOfText UInt8 :=
  match text[offset]? with
  | some b => .ok b
  | none => .error ⟨offset, text.length⟩

/-- The offset of the next character: past the one at `offset`, or the end of
the text where that is cut short. -/
def nextChar (text : List UInt8) (offset : Nat) : Except OutOfText Nat :=
  (inside text offset).map fun place => offset + Byte.charLength place.rest

/-- Whether a word may start at an offset of the text. -/
def isWordStart (text : List UInt8) (offset : Nat) : Except OutOfText Bool :=
  (upToEnd text offset).map Cursor.atWordStart

/-- The end of the identifier bytes that start at an offset: the offset itself
where there are none. -/
def wordEnd (text : List UInt8) (offset : Nat) : Nat :=
  offset + Byte.runLength Byte.isIdentifier (text.drop offset)

/-! ## Moving -/

theorem start_eq_ofOffset (text : List UInt8) : start text = Cursor.ofOffset text 0 := rfl

@[simp] theorem skip_nil (n offset : Nat) (before : Option UInt8) :
    skip n ⟨offset, before, []⟩ = ⟨offset, before, []⟩ := by
  cases n <;> rfl

theorem rest_skip (n : Nat) (place : Cursor) : (skip n place).rest = place.rest.drop n := by
  induction n generalizing place with
  | zero => rfl
  | succ n ih =>
    obtain ⟨offset, before, rest⟩ := place
    cases rest with
    | nil => rfl
    | cons b more => exact ih ⟨offset + 1, some b, more⟩

theorem offset_skip (n : Nat) (place : Cursor) (h : n ≤ place.rest.length) :
    (skip n place).offset = place.offset + n := by
  induction n generalizing place with
  | zero => rfl
  | succ n ih =>
    obtain ⟨offset, before, rest⟩ := place
    cases rest with
    | nil => exact absurd h (by simp)
    | cons b more =>
      have := ih ⟨offset + 1, some b, more⟩ (by simpa using h)
      simp only [skip, this]
      omega

/-- Moving on within a text leads to the places of that text. -/
theorem skip_ofOffset (text : List UInt8) (n offset : Nat) (h : offset + n ≤ text.length) :
    skip n (Cursor.ofOffset text offset) = Cursor.ofOffset text (offset + n) := by
  induction n generalizing offset with
  | zero => rfl
  | succ n ih =>
    have lt : offset < text.length := by omega
    have step : skip (n + 1) (Cursor.ofOffset text offset) =
        skip n (Cursor.ofOffset text (offset + 1)) := by
      simp only [ofOffset, List.drop_eq_getElem_cons lt, skip, Nat.add_one_ne_zero, if_false,
        Nat.add_sub_cancel, List.getElem?_eq_getElem lt]
    rw [step, ih (offset + 1) (by omega), Nat.add_right_comm, Nat.add_assoc]

end Cursor

end ModalHighlight
