import ModalHighlight.Proofs.Scan.Strings

/-! # Interpolated strings

An interpolated string is a row of units: characters, escapes and substitutions.
A substitution may hold strings again, to any depth, but in the row it is one
unit, from its opening brace on to wherever its mode has ended.  The only text
that is no unit is a backslash with nothing after it, which ends the text.
-/

namespace ModalHighlight

/-! ## Characters and their slices -/

namespace Text

variable {text : String} {offset : Nat}

/-- In front of a border stands one character, which is as long as its first byte
says. -/
theorem exists_slice?_char (border : Border text offset) (left : (bytes text).drop offset ≠ []) :
    ∃ c, (⟨offset, offset + Byte.charLength ((bytes text).drop offset)⟩ : Span).slice? text =
        some (String.singleton c) ∧ bytes (String.singleton c) <+: (bytes text).drop offset := by
  have whole := (border_iff_whole_drop.1 border).2
  obtain ⟨c, later, rest⟩ : ∃ c later, (bytes text).drop offset =
      bytes (String.singleton c) ++ later := by
    cases rest : (bytes text).drop offset with
    | nil => exact absurd rest left
    | cons lead more =>
      rw [rest] at whole
      obtain ⟨c, later, same, _⟩ := whole.eq_encodeChar_append
      exact ⟨c, later, by simpa [bytes_eq_flatMap] using same⟩
  have cut := cut_charLength ((bytes text).drop offset)
  obtain ⟨slice, found, between⟩ := slice?_of_border (Nat.le_add_right _ _) border
    (border.add cut)
  have length : Byte.charLength ((bytes text).drop offset) = (bytes (String.singleton c)).length := by
    have encoded : bytes (String.singleton c) = String.utf8EncodeChar c := by
      simp [bytes_eq_flatMap]
    rw [rest, encoded, charLength_encodeChar_append, String.length_utf8EncodeChar]
  rw [Nat.add_sub_cancel_left, length, rest, List.take_left] at between
  exact ⟨c, bytes_injective between ▸ found, rest ▸ List.prefix_append _ _⟩

end Text

/-! ## Units -/

/-- A unit of the text of an interpolated string. -/
inductive Fragment where
  | char (span : Span)
  /-- A backslash and the character after it. -/
  | escape (span : Span)
  | substitution (scope : Scope)
  deriving DecidableEq, Repr

namespace Fragment

def span : Fragment → Span
  | char span => span
  | escape span => span
  | substitution scope => scope.span

def scope? : Fragment → Option Scope
  | substitution scope => some scope
  | _ => none

/-- What stands where a unit is. -/
def Reads (text : String) : Fragment → Prop
  | char span => ∃ c, span.slice? text = some (String.singleton c) ∧ c ∉ ['"', '\\', '\x7b']
  | escape span => ∃ c, span.slice? text = some ("\\" ++ String.singleton c)
  | substitution scope => scope.kind = .subst ∧ Text.bytes "\x7b" <+: scope.span.bytes text

/-- The text between two offsets is a row of units, with the given scopes as the
substitutions among them. -/
def Row (text : String) (start stop : Nat) (scopes : List Scope) : Prop :=
  ∃ fragments : List Fragment,
    Span.Tiles (Text.Border text) start stop (fragments.map span) ∧
      (∀ fragment ∈ fragments, fragment.Reads text) ∧ fragments.filterMap scope? = scopes

variable {text : String} {start stop offset : Nat} {scopes : List Scope}

theorem Row.nil (here : Text.Border text start) : Row text start start [] :=
  ⟨[], .nil here, fun _ member => (List.not_mem_nil member).elim, rfl⟩

theorem Row.snoc (row : Row text start stop scopes) {fragment : Fragment}
    (reads : fragment.Reads text) (follows : fragment.span.start = stop)
    (proper : stop < fragment.span.stop) (border : Text.Border text fragment.span.stop) :
    Row text start fragment.span.stop (scopes ++ fragment.scope?.toList) := by
  obtain ⟨fragments, tiles, all, rfl⟩ := row
  refine ⟨fragments ++ [fragment], ?_, ?_, ?_⟩
  · rw [List.map_append]
    exact tiles.append ⟨tiles.border_stop, follows, follows ▸ proper, .nil border⟩
  · intro other member
    rcases List.mem_append.1 member with inRow | last
    · exact all other inRow
    · exact List.mem_singleton.1 last ▸ reads
  · rw [List.filterMap_append]
    cases found : fragment.scope? <;> simp [found]

theorem Row.border_stop (row : Row text start stop scopes) : Text.Border text stop := by
  obtain ⟨_, tiles, _⟩ := row
  exact tiles.border_stop

/-- A character that is no quote, no backslash and no brace makes the row longer. -/
theorem Row.char (row : Row text start stop scopes) (left : (Text.bytes text).drop stop ≠ [])
    (noQuote : ¬Text.bytes "\"" <+: (Text.bytes text).drop stop)
    (noBackslash : ¬Text.bytes "\\" <+: (Text.bytes text).drop stop)
    (noBrace : ¬Text.bytes "\x7b" <+: (Text.bytes text).drop stop) :
    Row text start (stop + Byte.charLength ((Text.bytes text).drop stop)) scopes := by
  obtain ⟨c, slice, stands⟩ := Text.exists_slice?_char row.border_stop left
  have other : c ∉ ['"', '\\', '\x7b'] := by
    simp only [List.mem_cons, List.not_mem_nil, or_false]
    rintro (rfl | rfl | rfl)
    · exact noQuote stands
    · exact noBackslash stands
    · exact noBrace stands
  have border := (Text.border_of_slice? slice).2.2
  have width : 0 < Byte.charLength ((Text.bytes text).drop stop) := by
    cases rest : (Text.bytes text).drop stop with
    | nil => exact absurd rest left
    | cons lead more => exact Byte.charLength_pos lead more
  have longer : Row text start _ (scopes ++ []) :=
    @Row.snoc text start stop scopes row (.char ⟨stop, _⟩) ⟨c, slice, other⟩ rfl
      (Nat.lt_add_of_pos_right width) border
  rwa [List.append_nil] at longer

/-- An escape makes the row longer. -/
theorem Row.escape (row : Row text start stop scopes) {length : Nat}
    (found : Lexeme.escape ((Text.bytes text).drop stop) = some length) :
    Row text start (stop + length) scopes := by
  obtain ⟨next, more, rest, rfl⟩ := Lexeme.exists_of_escape found
  have middle := row.border_stop.add
    (rest ▸ Text.cut_ascii (next :: more) (by decide) : Text.Cut ((Text.bytes text).drop stop) 1)
  have behind : (Text.bytes text).drop (stop + 1) = next :: more := by
    rw [← List.drop_drop, rest]
    rfl
  obtain ⟨slice, front, between⟩ :=
    Text.slice?_of_border (Nat.le_add_right stop 1) row.border_stop middle
  obtain rfl : slice = "\\" := by
    refine Text.bytes_injective ?_
    rw [between, rest, Nat.add_sub_cancel_left]
    rfl
  obtain ⟨c, back, _⟩ := Text.exists_slice?_char middle (by rw [behind]; simp)
  rw [behind] at back
  have both := Text.slice?_append front back
  rw [Nat.add_assoc] at both
  have longer : Row text start _ (scopes ++ []) :=
    @Row.snoc text start stop scopes row (.escape ⟨stop, _⟩) ⟨c, both⟩ rfl
      (by simp only [span]; omega) (Text.border_of_slice? both).2.2
  rwa [List.append_nil] at longer

/-- A substitution makes the row longer. -/
theorem Row.substitution (row : Row text start stop scopes) (proper : stop < offset)
    (border : Text.Border text offset)
    (begins : Text.bytes "\x7b" <+: (⟨stop, offset⟩ : Span).bytes text) :
    Row text start offset (scopes ++ [⟨.subst, ⟨stop, offset⟩⟩]) :=
  @Row.snoc text start stop scopes row (.substitution ⟨.subst, ⟨stop, offset⟩⟩) ⟨rfl, begins⟩ rfl
    proper border

/-- The text between two offsets is a row of units, or such a row and a backslash
that ends the text. -/
def Remains (text : String) (start stop : Nat) (scopes : List Scope) : Prop :=
  Row text start stop scopes ∨
    ∃ last, stop = last + 1 ∧ (Text.bytes text).drop last = Text.bytes "\\" ∧
      Row text start last scopes

theorem Remains.row (remains : Remains text start stop scopes)
    (left : (Text.bytes text).drop stop ≠ []) : Row text start stop scopes := by
  rcases remains with row | ⟨last, rfl, rest, _⟩
  · exact row
  · rw [← List.drop_drop, rest] at left
    exact absurd rfl left

end Fragment

/-! ## The rules of interpolation -/

namespace Flint

/-- The rule of substitutions, with what may stand in them. -/
def nestedSubstitution : Rule := { substitution with contains := Id.substitution :: code }

theorem eq_nestedSubstitution : ∀ rule ∈ grammar.rules, rule.isMode = true → rule.kind = .subst →
    rule = nestedSubstitution := by
  decide

theorem rule?_substitution : grammar.rule? Id.substitution = some nestedSubstitution := by
  decide

end Flint

namespace Scan

open Fragment (Row Remains)

variable {options : Options} {text : String} {forced : Force → Span → Prop} {force : Force}
variable {mode around : OpenMode} {offset stop : Nat} {hit : Hit}

@[simp] theorem tops_add (mode : OpenMode) (kind : Kind) (span : Span) :
    (mode.add kind span).inside.tops = mode.inside.tops := by
  unfold OpenMode.add
  split <;> rfl

@[simp] theorem tops_addMatch (mode : OpenMode) (rule : Rule) (hit : Hit) (text : String)
    (offset : Nat) : (mode.addMatch rule hit text offset).inside.tops = mode.inside.tops := by
  simp [OpenMode.addMatch]

/-- In an interpolated string stand escapes and substitutions. -/
theorem of_interpolatedString {inner : Rule}
    (found : Flint.grammar.firstMatch? Flint.interpolatedString.contains
      (Cursor.ofOffset (Text.bytes text) offset) = some (inner, hit)) :
    inner = Flint.escape ∧ Lexeme.escape ((Text.bytes text).drop offset) = some hit.stop ∨
      inner = Flint.nestedSubstitution := by
  obtain ⟨id, listed, known, matched⟩ := Grammar.firstMatch?_eq_some found
  have among : id = Flint.Id.escape ∨ id = Flint.Id.substitution := by
    simpa [Flint.interpolatedString] using listed
  rcases among with rfl | rfl
  · obtain rfl := Option.some.inj (Flint.rule?_escape.symm.trans known)
    obtain ⟨length, escaped, rfl⟩ := Option.map_eq_some_iff.1 matched
    exact .inl ⟨rfl, escaped⟩
  · exact .inr (Option.some.inj (known.symm.trans Flint.rule?_substitution))

theorem Opens.eq_nestedSubstitution (opens : Opens Flint.grammar options text around mode hit)
    (same : around.rule = Flint.interpolatedString) : mode.rule = Flint.nestedSubstitution := by
  have found := opens.found
  rw [same] at found
  rcases of_interpolatedString found with ⟨escape, _⟩ | substitution
  · have isMode := opens.isMode
    rw [escape] at isMode
    cases isMode
  · exact substitution

/-- The content of an interpolated string is characters, or a backslash that ends
the text. -/
theorem remains_content {start length : Nat} {kind : Kind} {scopes : List Scope}
    (goesOn : mode.GoesOn options text offset) (same : mode.rule = Flint.interpolatedString)
    (unmatched : Flint.grammar.firstMatch? Flint.interpolatedString.contains
      (Cursor.ofOffset (Text.bytes text) offset) = none)
    (taken : Flint.interpolatedString.contentAt ((Text.bytes text).drop offset) =
      .content kind length)
    (row : Row text start offset scopes) : Remains text start (offset + length) scopes := by
  refine content_induction (motive := fun place => Remains text start place scopes)
    row.border_stop (by decide +kernel) (by decide +kernel) goesOn.left taken (.inl row)
    fun place _ left unstopped here => ?_
  have row := here.row left
  rcases unstopped with rfl | unstopped
  · have unclosed := goesOn.unclosed (.literal "\"") (by rw [same]; rfl)
    have unopened := Grammar.matchAt?_eq_none unmatched (by decide) Flint.rule?_substitution
    have unescaped := Option.map_eq_none_iff.1
      (Grammar.matchAt?_eq_none unmatched (by decide) Flint.rule?_escape)
    by_cases backslash : Text.bytes "\\" <+: (Text.bytes text).drop place
    · -- A backslash that escapes nothing has nothing after it.
      have rest : (Text.bytes text).drop place = Text.bytes "\\" := by
        obtain ⟨more, stands⟩ := backslash
        cases more with
        | nil => exact stands.symm
        | cons next more =>
          rw [Cursor.ofOffset, ← stands] at unescaped
          cases unescaped
      rw [rest]
      exact .inr ⟨place, rfl, rest, row⟩
    · exact .inl (row.char left (Matcher.matchAt?_literal_eq_none.1 unclosed) backslash
        (Matcher.matchAt?_literal_eq_none.1 unopened))
  · have other : ∀ b ∈ Flint.interpolatedString.stops,
        ¬[b] <+: (Text.bytes text).drop place := by
      rintro b listed ⟨more, stands⟩
      exact unstopped b (by rw [← stands]; rfl) listed
    exact .inl (row.char left (other _ (by decide)) (other _ (by decide))
      (other _ (by decide)))

/-- A substitution that has ended is one unit of the string around it. -/
theorem row_enclose {start : Nat} {inner : OpenMode}
    (row : Row text start mode.start around.inside.tops)
    (opens : Opens Flint.grammar options text around mode hit)
    (same : mode.rule = Flint.nestedSubstitution) (kind : inner.rule.kind = .subst)
    (begins : inner.start = mode.start) (reaches : mode.start + hit.stop ≤ stop)
    (border : Text.Border text stop) :
    Row text start stop (around.enclose inner stop).inside.tops := by
  have matched := opens.matched
  rw [same] at matched
  obtain ⟨stands, rfl⟩ := Matcher.matchAt?_literal.1 matched
  have proper : mode.start < stop := Nat.lt_of_succ_le reaches
  rw [OpenMode.enclose, Outline.tops, kind, begins]
  exact row.substitution proper border (bytes_of_le text _ stands reaches)

/-- An interpolated string is a row of units as far as it has grown. -/
theorem maintains_remains : Maintains Flint.grammar options text forced Flint.interpolatedString
    fun mode offset => Remains text (mode.start + 2) offset mode.inside.tops where
  opened below opens := by
    obtain ⟨stands, rfl⟩ := Matcher.matchAt?_literal.1 opens.matched
    have border := (Grown.opened below opens).border Flint.grammar_lawful
    rw [OpenMode.start_addMatch, tops_addMatch]
    exact .inl (.nil border)
  leaf same _ remains goesOn found leaf := by
    rw [OpenMode.start_addMatch, tops_addMatch]
    rcases of_interpolatedString found with ⟨_, escaped⟩ | substitution
    · exact .inl ((remains.row goesOn.left).escape escaped)
    · rw [substitution] at leaf
      cases leaf
  content same _ remains goesOn unmatched taken := by
    rw [OpenMode.start_add, tops_add]
    exact remains_content goesOn same unmatched taken (remains.row goesOn.left)
  closed same below remains opens before _ left ends found := by
    -- What the substitution holds does not matter, only where it ends.
    have inner := opens.eq_nestedSubstitution same
    have border := (Grown.closed below opens before left ends found).border Flint.grammar_lawful
    refine .inl (row_enclose (remains.row opens.goesOn.left) opens inner ?_
      (OpenMode.start_addClosing ..) ?_ border)
    · rw [OpenMode.rule_addClosing, inner]
      rfl
    · exact Nat.le_trans (before.opening_le Flint.grammar_lawful opens)
        (OpenMode.le_closingStop ..)

theorem Grown.remains (grown : Grown Flint.grammar options text forced .growing mode offset)
    (same : mode.rule = Flint.interpolatedString) :
    Remains text (mode.start + 2) offset mode.inside.tops :=
  maintains_remains.of_grown Flint.grammar_lawful rfl (by decide) grown same

/-- An interpolated string ends behind the quote that follows its row of units, or
it was cut off where the row ends or behind the backslash there. -/
theorem Ended.exists_row {result : Highlighted}
    (ended : Ended Flint.grammar options text result.Forced mode stop)
    (same : mode.rule = Flint.interpolatedString) :
    ∃ last, Row text (mode.start + 2) last mode.inside.tops ∧
      ((Text.bytes "\"" <+: (Text.bytes text).drop last ∧ stop = last + 1) ∨
        result.CutOff text ⟨mode.rule.kind, ⟨mode.start, stop⟩⟩ ∧
          (stop = last ∨ (Text.bytes text).drop last = Text.bytes "\\" ∧ stop = last + 1)) := by
  cases ended with
  | @closed mode _ offset matcher _ hit _ before left ends found =>
    rw [OpenMode.rule_addClosing] at same
    have row := (before.remains same).row left
    have isClosing : mode.rule.closing = some (.literal "\"") := by rw [same]; rfl
    obtain ⟨stands, stop⟩ := OpenMode.closes_literal isClosing (by rw [same]; rfl) ends found
    rw [OpenMode.start_addClosing, OpenMode.addClosing, tops_add]
    exact ⟨offset, row, .inl ⟨stands, stop⟩⟩
  | cut _ before isForced =>
    have cutOff := before.cutOff Flint.grammar_lawful isForced
    rcases before.of_closing with grown | ⟨around, inner, opening, rfl, below, opens, deeper⟩
    · rcases grown.remains same with row | ⟨last, behind, rest, row⟩
      · exact ⟨stop, row, .inr ⟨cutOff, .inl rfl⟩⟩
      · exact ⟨last, row, .inr ⟨cutOff, .inr ⟨rest, behind⟩⟩⟩
    · -- The last substitution in the string is cut off with it.
      have here : around.rule = Flint.interpolatedString := same
      have substitution := opens.eq_nestedSubstitution here
      have row := row_enclose ((below.remains here).row opens.goesOn.left) opens substitution
        (by rw [substitution]; rfl) rfl (deeper.opening_le Flint.grammar_lawful opens)
        (deeper.border Flint.grammar_lawful)
      exact ⟨stop, row, .inr ⟨cutOff, .inl rfl⟩⟩

/-- A substitution that was not cut off ends with its closing brace. -/
theorem Ended.brace_suffix {result : Highlighted}
    (ended : Ended Flint.grammar options text result.Forced mode stop)
    (same : mode.rule = Flint.nestedSubstitution) :
    result.CutOff text ⟨mode.rule.kind, ⟨mode.start, stop⟩⟩ ∨
      Text.bytes "\x7d" <:+ (⟨mode.start, stop⟩ : Span).bytes text := by
  cases ended with
  | cut _ before isForced => exact .inl (before.cutOff Flint.grammar_lawful isForced)
  | @closed mode _ offset matcher _ hit _ before left ends found =>
    rw [OpenMode.rule_addClosing] at same
    have isClosing : mode.rule.closing = some (.literal "\x7d") := by rw [same]; rfl
    obtain ⟨⟨more, stands⟩, stop⟩ :=
      OpenMode.closes_literal isClosing (by rw [same]; rfl) ends found
    have length : mode.closingStop hit offset - mode.start =
        (offset - mode.start) + (Text.bytes "\x7d").length := by
      rw [stop, Nat.sub_add_comm before.start_le]
    right
    rw [OpenMode.start_addClosing, Span.bytes, Span.length, length, List.take_add,
      List.drop_drop, Nat.add_sub_cancel' before.start_le, ← stands, List.take_left]
    exact List.suffix_append _ _

end Scan

/-! ## Highlighting -/

/-- With any options, the text behind the opening of an interpolated string is a row
of units, and its substitutions are the scopes that lie in the string directly.  A
quote follows the row and ends the string, or else the string was cut off there, or
behind a backslash that ends the text.  A substitution that was not cut off ends
with a brace. -/
theorem interpolated_strings_read (options : Scan.Options) (text : String) :
    let result := (Highlighter.default.withOptions options).highlight text
    (∀ s ∈ result.scopes, s.kind = .string → Text.bytes "$\"" <+: s.span.bytes text →
      ∃ last, Fragment.Row text (s.span.start + 2) last
          (Scope.children result.scopes (some s)) ∧
        ((Text.bytes "\"" <+: (Text.bytes text).drop last ∧ s.span.stop = last + 1) ∨
          result.CutOff text s ∧ (s.span.stop = last ∨
            (Text.bytes text).drop last = Text.bytes "\\" ∧ s.span.stop = last + 1))) ∧
    ∀ s ∈ result.scopes, s.kind = .subst →
      result.CutOff text s ∨ Text.bytes "\x7d" <:+ s.span.bytes text := by
  intro result
  have tiles := (Highlighter.tiles_withOptions options text).1
  refine ⟨fun s member isString begins => ?_, fun s member isSubst => ?_⟩
  · obtain ⟨mode, ended, kind, start, occurs⟩ :=
      (Highlighter.default.withOptions options).exists_ended Flint.grammar_lawful text member
    obtain ⟨more, stands⟩ := prefix_drop_of_bytes begins
    rw [← start] at stands
    have same := ended.rule_eq_stringRule (kind.trans isString) 0x24 (by rw [← stands]; rfl)
    obtain ⟨last, row, ends⟩ := ended.exists_row same
    rw [kind, start] at ends
    rw [start, occurs.tops_eq_children tiles] at row
    exact ⟨last, row, ends⟩
  · obtain ⟨mode, ended, kind, start, _⟩ :=
      (Highlighter.default.withOptions options).exists_ended Flint.grammar_lawful text member
    have same := Flint.eq_nestedSubstitution _ (ended.mem_rules Flint.grammar_lawful) ended.isMode
      (kind.trans isSubst)
    have ends := ended.brace_suffix same
    rw [kind, start] at ends
    exact ends

/-- A string that holds a substitution and ends behind a backslash, with the text. -/
theorem interpolated_strings_read_backslash :
    let text := "$\"a\x7bb\x7d\\"
    let result := (Highlighter.default.withOptions ⟨64, true⟩).highlight text
    let s : Scope := ⟨.string, ⟨0, 7⟩⟩
    let inner : Scope := ⟨.subst, ⟨3, 6⟩⟩
    (s ∈ result.scopes ∧ s.kind = .string ∧ Text.bytes "$\"" <+: s.span.bytes text) ∧
      (inner ∈ result.scopes ∧ inner.kind = .subst) ∧
      (∃ last, Fragment.Row text 2 last (Scope.children result.scopes (some s)) ∧
        ((Text.bytes "\"" <+: (Text.bytes text).drop last ∧ 7 = last + 1) ∨
          result.CutOff text s ∧ (7 = last ∨
            (Text.bytes text).drop last = Text.bytes "\\" ∧ 7 = last + 1))) ∧
      (result.CutOff text inner ∨ Text.bytes "\x7d" <:+ inner.span.bytes text) := by
  intro text result s inner
  have met : s ∈ result.scopes := by decide
  have begins : Text.bytes "$\"" <+: s.span.bytes text := by decide
  have metInner : inner ∈ result.scopes := by decide
  have read := interpolated_strings_read ⟨64, true⟩ text
  exact ⟨⟨met, rfl, begins⟩, ⟨metInner, rfl⟩, read.1 s met rfl begins, read.2 inner metInner rfl⟩

end ModalHighlight
