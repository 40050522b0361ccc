import ModalHighlight.Proofs.Scan.Growth

/-! # Content character by character

A mode that looks again only at certain bytes takes many characters at once, and
the characters behind the first do not begin with such a byte.  So whatever reads
a text character by character comes to where the mode comes to, and all that it
meets on the way is known: at the first character the mode goes on and none of its
rules applies, and at the others there is no stop.
-/

namespace ModalHighlight

/-! ## Fixed texts -/

namespace Matcher

variable {expected : String} {hashes offset : Nat} {text : List UInt8} {hit : Hit}

theorem matchAt?_literal :
    (literal expected).matchAt? hashes (Cursor.ofOffset text offset) = some hit ↔
      Text.bytes expected <+: text.drop offset ∧ hit = Hit.whole (Text.bytes expected).length := by
  rw [matchAt?, match?, Option.map_eq_some_iff]
  simp only [Lexeme.literal, Option.ite_none_right_eq_some, List.isPrefixOf_iff_prefix,
    Option.some.injEq, Cursor.ofOffset]
  constructor
  · rintro ⟨_, ⟨stands, rfl⟩, rfl⟩
    exact ⟨stands, rfl⟩
  · rintro ⟨stands, rfl⟩
    exact ⟨_, ⟨stands, rfl⟩, rfl⟩

theorem matchAt?_literal_eq_none :
    (literal expected).matchAt? hashes (Cursor.ofOffset text offset) = none ↔
      ¬Text.bytes expected <+: text.drop offset := by
  rw [Option.eq_none_iff_forall_ne_some]
  simp only [ne_eq, matchAt?_literal, not_and, forall_eq_apply_imp_iff, imp_false]

end Matcher

/-- A mode that a fixed text closes, its own to the end, stops behind that text. -/
theorem Scan.OpenMode.closes_literal {mode : Scan.OpenMode} {expected text : String}
    {matcher : Matcher} {hit : Hit} {offset : Nat}
    (isClosing : mode.rule.closing = some (.literal expected))
    (included : mode.rule.excludesClosing = false) (ends : mode.rule.closing = some matcher)
    (found : matcher.matchAt? mode.hashes (Cursor.ofOffset (Text.bytes text) offset) = some hit) :
    Text.bytes expected <+: (Text.bytes text).drop offset ∧
      mode.closingStop hit offset = offset + (Text.bytes expected).length := by
  obtain rfl := Option.some.inj (isClosing.symm.trans ends)
  obtain ⟨stands, rfl⟩ := Matcher.matchAt?_literal.1 found
  refine ⟨stands, ?_⟩
  rw [closingStop, included]
  rfl

theorem Grammar.matchAt?_eq_none {grammar : Grammar} {ids : List RuleId} {place : Cursor}
    (unmatched : grammar.firstMatch? ids place = none) {id : RuleId} (listed : id ∈ ids)
    {rule : Rule} (known : grammar.rule? id = some rule) :
    rule.opening.matchAt? 0 place = none := by
  have tried := List.findSome?_eq_none_iff.1 unmatched id listed
  rw [known] at tried
  exact Option.map_eq_none_iff.1 tried

/-! ## Characters -/

namespace Text

variable {piece : List UInt8} {length : Nat}

/-- A cut through whole characters is reached character by character. -/
theorem Cut.char_induction {motive : Nat → Prop} (whole : Whole piece) (cut : Cut piece length)
    (zero : motive 0)
    (char : ∀ n < length, Cut piece n → motive n → motive (n + Byte.charLength (piece.drop n))) :
    motive length := by
  suffices onward : ∀ left n, Cut piece n → n + left = length → motive n → motive length from
    onward length 0 (cut_zero piece) (Nat.zero_add length) zero
  intro left
  induction left using Nat.strong_induction_on with
  | _ left ih =>
    intro n here total holds
    rcases Nat.eq_zero_or_pos left with rfl | pos
    · exact total ▸ holds
    · have rest := Cut.sub whole cut (by omega : n ≤ length)
      have within := rest.charLength_le (here.whole whole) (by omega)
      have width : 0 < Byte.charLength (piece.drop n) := by
        have inside := cut.le_length
        rw [List.drop_eq_getElem_cons (by omega)]
        exact Byte.charLength_pos _ _
      exact ih (left - Byte.charLength (piece.drop n)) (by omega) _
        (here.add (cut_charLength _)) (by omega) (char n (by omega) here holds)

/-- The bytes of a character behind its first are none of ASCII. -/
theorem Border.not_ascii_within {text : String} {start offset : Nat} {b : UInt8}
    (border : Border text start) (behind : start < offset)
    (within : offset < start + Byte.charLength ((bytes text).drop start))
    (found : (bytes text)[offset]? = some b) : ¬b < 0x80 := by
  intro ascii
  have whole := (border_iff_whole_drop.1 border).2
  obtain ⟨inside, _⟩ := List.getElem?_eq_some_iff.1 found
  have cut : Cut ((bytes text).drop start) (offset - start) := by
    refine cut_of_ascii_next (by rw [List.length_drop]; omega) fun next here => ?_
    rw [List.getElem?_drop, Nat.add_sub_cancel' (Nat.le_of_lt behind), found] at here
    exact Option.some.inj here ▸ ascii
  have := cut.charLength_le whole (by omega)
  omega

end Text

namespace Scan

open Text (Border Cut)

variable {text : String} {offset length : Nat} {rule : Rule} {kind : Kind}

theorem contentAt_of_stops {rest : List UInt8} (stopped : rule.stops ≠ [])
    (taken : rule.contentAt rest = .content kind length) :
    length = Byte.charLength rest + Byte.runLength (fun b => !rule.stops.contains b)
      (rest.drop (Byte.charLength rest)) := by
  rw [Rule.contentAt, if_neg (by simpa using stopped), Action.stoppedContent] at taken
  injection taken with _ size
  exact size.symm

/-- Behind the first character of its content, a mode has passed no stop. -/
theorem content_induction {motive : Nat → Prop} (border : Border text offset)
    (ascii : ∀ b ∈ rule.stops, b < 0x80) (stopped : rule.stops ≠ [])
    (left : (Text.bytes text).drop offset ≠ [])
    (taken : rule.contentAt ((Text.bytes text).drop offset) = .content kind length)
    (here : motive offset)
    (char : ∀ place, Border text place → (Text.bytes text).drop place ≠ [] →
      (place = offset ∨ ∀ b ∈ ((Text.bytes text).drop place).head?, b ∉ rule.stops) →
      motive place → motive (place + Byte.charLength ((Text.bytes text).drop place))) :
    motive (offset + length) := by
  have whole := (Text.border_iff_whole_drop.1 border).2
  have cut := (fits_of_contentAt ascii left taken).cut
  have size := contentAt_of_stops stopped taken
  refine Cut.char_induction (motive := fun n => motive (offset + n)) whole cut here ?_
  intro n before cutHere holds
  have next := char (offset + n) (border.add cutHere)
  rw [← List.drop_drop] at next
  rw [← Nat.add_assoc]
  refine next (List.drop_eq_nil_iff.not.2 ?_) ?_ holds
  · have inside := cut.le_length
    omega
  · rcases Nat.eq_zero_or_pos n with rfl | behind
    · exact .inl rfl
    · refine .inr fun b stands member => ?_
      have first := cutHere.charLength_le whole behind
      rw [List.head?_drop] at stands
      have within : n - Byte.charLength ((Text.bytes text).drop offset) <
          Byte.runLength (fun b => !rule.stops.contains b) (((Text.bytes text).drop offset).drop
            (Byte.charLength ((Text.bytes text).drop offset))) := by
        omega
      obtain ⟨c, same, unstopped⟩ := Text.mem_class_of_lt_runLength within
      rw [Option.mem_def, List.getElem?_drop, Nat.add_sub_cancel' first] at same
      obtain rfl := Option.some.inj (same.symm.trans stands)
      simp [member] at unstopped

end Scan

end ModalHighlight
