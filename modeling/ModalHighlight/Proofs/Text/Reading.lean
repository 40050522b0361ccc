import ModalHighlight.Byte

/-! # Readings

A reading goes over the bytes in front of it and answers with the number of bytes
up to where it stops, or with nothing if it stops nowhere.  It passes a stretch of
a text if its answer comes from what is behind that stretch.  A reading may go on
as another one there, as a count goes on from another number.
-/

namespace ModalHighlight.Text

/-- Reading from one offset on comes down to the reading `later` from a further
offset on. -/
structure Passes (bytes : List UInt8) (reading later : List UInt8 → Option Nat)
    (start stop : Nat) : Prop where
  le : start ≤ stop
  eq : reading (bytes.drop start) = (later (bytes.drop stop)).map (stop - start + ·)

namespace Passes

variable {bytes : List UInt8} {reading later last : List UInt8 → Option Nat}
variable {start middle stop : Nat}

theorem refl (bytes : List UInt8) (reading : List UInt8 → Option Nat) (offset : Nat) :
    Passes bytes reading reading offset offset := by
  refine ⟨Nat.le_refl _, ?_⟩
  rw [Nat.sub_self]
  cases reading (bytes.drop offset) <;> simp

theorem trans (first : Passes bytes reading later start middle)
    (second : Passes bytes later last middle stop) : Passes bytes reading last start stop := by
  have le := first.le
  have le' := second.le
  refine ⟨Nat.le_trans le le', ?_⟩
  rw [first.eq, second.eq, Option.map_map]
  refine congrArg (Option.map · _) (funext fun length => ?_)
  simp only [Function.comp_apply]
  omega

/-- A reading that passes what is in front of it by a number of bytes. -/
theorem of_drop {length : Nat}
    (eq : reading (bytes.drop start) =
      (later ((bytes.drop start).drop length)).map (length + ·)) :
    Passes bytes reading later start (start + length) := by
  refine ⟨Nat.le_add_right _ _, ?_⟩
  rw [eq, List.drop_drop, Nat.add_sub_cancel_left]

theorem eq_some {length : Nat} (passes : Passes bytes reading later start stop)
    (stops : later (bytes.drop stop) = some length) :
    reading (bytes.drop start) = some (stop + length - start) := by
  have le := passes.le
  rw [passes.eq, stops, Option.map_some]
  refine congrArg some ?_
  omega

end Passes

end ModalHighlight.Text
