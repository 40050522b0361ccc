import ModalHighlight.Proofs.Lexeme.Cut

/-! # How far recognisers look ahead

No recogniser needs to look past the end of the line to know what stands in
front of it, but the one for calls, which passes over blanks and so has to come
to something else first.  What follows a line feed therefore makes no difference
to what is found in front of it.
-/

namespace ModalHighlight

open Text (Whole Cut)

/-- `;` -/
abbrev Byte.semicolon : UInt8 := 0x3b

/-- A byte that no word, path, symbol or number holds. -/
def Byte.isForeign (b : UInt8) : Bool :=
  !(isIdentifier b || b == apostrophe || b == plus || b == minus || b == dot || b == 0x3a)

variable {text : List UInt8} {b lead : UInt8} {more : List UInt8}

/-! ## Runs and characters -/

namespace Byte

theorem mem_of_class {inClass : UInt8 → Bool} (isIn : inClass lead = true)
    (outside : inClass b = false) (member : b ∈ lead :: more) : b ∈ more := by
  refine (List.mem_cons.1 member).resolve_left ?_
  rintro rfl
  rw [outside] at isIn
  cases isIn

theorem runLength_append (inClass : UInt8 → Bool) (outside : inClass b = false) (member : b ∈ text)
    (later : List UInt8) : runLength inClass (text ++ later) = runLength inClass text := by
  induction text with
  | nil => cases member
  | cons lead more ih =>
    cases isIn : inClass lead with
    | false => simp [runLength, isIn]
    | true =>
      have rest := ih (mem_of_class isIn outside member)
      simp only [runLength, List.cons_append, List.takeWhile_cons, isIn, if_true,
        List.length_cons] at rest ⊢
      rw [rest]

theorem not_mem_take_runLength (inClass : UInt8 → Bool) (outside : inClass b = false)
    (text : List UInt8) : b ∉ text.take (runLength inClass text) := by
  intro within
  rw [Text.mem_class_of_mem_take within] at outside
  cases outside

theorem not_mem_take_add {first second : Nat} (left : b ∉ text.take first)
    (right : b ∉ (text.drop first).take second) : b ∉ text.take (first + second) := by
  rw [List.take_add, List.mem_append, not_or]
  exact ⟨left, right⟩

theorem not_mem_take_cons {length : Nat} (other : lead ≠ b) (absent : b ∉ more.take length) :
    b ∉ (lead :: more).take (length + 1) := by
  rw [List.take_succ_cons, List.mem_cons, not_or]
  exact ⟨other.symm, absent⟩

theorem mem_drop_of_not_mem_take {length : Nat} (member : b ∈ text)
    (absent : b ∉ text.take length) : b ∈ text.drop length := by
  rw [← List.take_append_drop length text] at member
  exact (List.mem_append.1 member).resolve_left absent

theorem of_isForeign (foreign : isForeign b = true) :
    isIdentifier b = false ∧ b ≠ apostrophe ∧ b ≠ plus ∧ b ≠ minus ∧ b ≠ dot ∧ b ≠ 0x3a := by
  simpa [isForeign, and_assoc] using foreign

theorem ne_of_isForeign (foreign : isForeign b = true) (isIn : isIdentifier lead = true) :
    lead ≠ b := by
  rintro rfl
  rw [(of_isForeign foreign).1] at isIn
  cases isIn

/-- What is not in a class stands behind a run of it. -/
theorem mem_drop_runLength (inClass : UInt8 → Bool) (outside : inClass b = false)
    (member : b ∈ text) : b ∈ text.drop (runLength inClass text) :=
  mem_drop_of_not_mem_take member (not_mem_take_runLength inClass outside text)

theorem drop_runLength_append (inClass : UInt8 → Bool) (text later : List UInt8) :
    (text ++ later).drop (runLength inClass text) =
      text.drop (runLength inClass text) ++ later :=
  List.drop_append_of_le_length (runLength_le inClass text)

theorem charLength_append (whole : Whole text) (nonempty : text ≠ []) (later : List UInt8) :
    charLength (text ++ later) = charLength text := by
  cases text with
  | nil => exact absurd rfl nonempty
  | cons lead more =>
    obtain ⟨c, rest, eq, _⟩ := whole.eq_encodeChar_append
    rw [eq, List.append_assoc, Text.charLength_encodeChar_append, Text.charLength_encodeChar_append]

end Byte

namespace Lexeme

variable {later : List UInt8}

theorem mem_of_ne (line : Byte.newline ∈ lead :: more) (other : lead ≠ Byte.newline) :
    Byte.newline ∈ more :=
  (List.mem_cons.1 line).resolve_left other.symm

theorem mem_of_beq {marker : UInt8} (line : Byte.newline ∈ lead :: more)
    (here : (lead == marker) = true) (other : marker ≠ Byte.newline) : Byte.newline ∈ more :=
  mem_of_ne line (eq_of_beq here ▸ other)

/-! ## Fixed texts -/

theorem isPrefixOf_append {expected : List UInt8} (absent : Byte.newline ∉ expected)
    (line : Byte.newline ∈ text) (later : List UInt8) :
    expected.isPrefixOf (text ++ later) = expected.isPrefixOf text := by
  induction expected generalizing text with
  | nil => simp
  | cons first rest ih =>
    rw [List.mem_cons, not_or] at absent
    cases text with
    | nil => cases line
    | cons lead more =>
      by_cases same : first = lead
      · subst same
        simp [ih absent.2 (mem_of_ne line (Ne.symm absent.1))]
      · have differs : (first == lead) = false := beq_false_of_ne same
        simp only [List.cons_append, List.isPrefixOf_cons_cons, differs, Bool.false_and]

theorem literal_append {expected : List UInt8} (absent : Byte.newline ∉ expected)
    (line : Byte.newline ∈ text) (later : List UInt8) :
    literal expected (text ++ later) = literal expected text := by
  rw [literal, literal, isPrefixOf_append absent line]

theorem oneOf_append (nonempty : text ≠ []) (set later : List UInt8) :
    oneOf set (text ++ later) = oneOf set text := by
  cases text with
  | nil => exact absurd rfl nonempty
  | cons lead more => rfl

theorem stray_append (whole : Whole text) (nonempty : text ≠ []) (allowed later : List UInt8) :
    stray allowed (text ++ later) = stray allowed text := by
  have width := Byte.charLength_append whole nonempty later
  cases text with
  | nil => exact absurd rfl nonempty
  | cons lead more =>
    rw [List.cons_append] at width ⊢
    simp only [stray, width]

theorem lineComment_append (line : Byte.newline ∈ text) (later : List UInt8) :
    lineComment (text ++ later) = lineComment text := by
  have slashes : Byte.newline ∉ Text.bytes "//" := by decide
  rw [lineComment, lineComment, literal_append slashes line]
  cases found : literal (Text.bytes "//") text with
  | none => rfl
  | some length =>
    simp only [literal, Option.ite_none_right_eq_some, List.isPrefixOf_iff_prefix,
      Option.some.injEq] at found
    obtain ⟨⟨rest, rfl⟩, rfl⟩ := found
    have behind := (List.mem_append.1 line).resolve_left slashes
    simp only [List.append_assoc, List.drop_left]
    rw [Byte.runLength_append (· != Byte.newline) (by decide) behind]

/-! ## Quotes -/

theorem head?_append (line : Byte.newline ∈ lead :: more) (other : lead ≠ Byte.newline)
    (later : List UInt8) : (more ++ later).head? = more.head? := by
  cases more with
  | nil => cases mem_of_ne line other
  | cons next rest => rfl

theorem quoteOpen_append (line : Byte.newline ∈ text) (later : List UInt8) :
    quoteOpen (text ++ later) = quoteOpen text := by
  cases text with
  | nil => cases line
  | cons lead more =>
    by_cases letter : lead = Byte.letterB
    · have next := head?_append line (letter ▸ by decide) later
      simp only [List.cons_append, quoteOpen, next]
    · have other : (lead == Byte.letterB) = false := beq_false_of_ne letter
      simp [quoteOpen, other]

theorem hashes_append (line : Byte.newline ∈ text) (later : List UInt8) :
    Byte.runLength (· == Byte.hash) (text ++ later) = Byte.runLength (· == Byte.hash) text :=
  Byte.runLength_append (· == Byte.hash) (by decide) line later

/-- The byte behind a run is there, because the line feed is not in the run. -/
theorem getElem?_runLength_append (inClass : UInt8 → Bool) (outside : inClass Byte.newline = false)
    (line : Byte.newline ∈ text) (later : List UInt8) :
    (text ++ later)[Byte.runLength inClass text]? = text[Byte.runLength inClass text]? := by
  have behind := List.length_pos_of_mem (Byte.mem_drop_runLength inClass outside line)
  rw [List.length_drop] at behind
  exact List.getElem?_append_left (by omega)

theorem rawOpen_append (line : Byte.newline ∈ text) (later : List UInt8) :
    rawOpen (text ++ later) = rawOpen text := by
  cases text with
  | nil => cases line
  | cons lead more =>
    rw [List.cons_append]
    refine ite_congr rfl (fun letter => ?_) fun _ => rfl
    have behind := mem_of_beq line letter (by decide)
    have next := getElem?_runLength_append (· == Byte.hash) (by decide) behind later
    simp only [hashes_append behind, next]

theorem rawClose_append (line : Byte.newline ∈ text) (hashes : Nat) (later : List UInt8) :
    rawClose hashes (text ++ later) = rawClose hashes text := by
  cases text with
  | nil => cases line
  | cons lead more =>
    by_cases quote : lead = Byte.quote
    · have behind := mem_of_ne line (quote ▸ by decide)
      simp only [List.cons_append, rawClose, hashes_append behind]
    · have other : (lead == Byte.quote) = false := beq_false_of_ne quote
      simp [rawClose, other]

theorem whole_of_cons (whole : Whole (lead :: more)) (ascii : lead < 0x80) : Whole more :=
  (Text.cut_ascii more ascii).whole whole

theorem escape_append (whole : Whole text) (line : Byte.newline ∈ text) (later : List UInt8) :
    escape (text ++ later) = escape text := by
  match text with
  | [] => cases line
  | [only] =>
    obtain rfl := List.mem_singleton.1 line
    cases later <;> rfl
  | lead :: next :: more =>
    refine ite_congr rfl (fun backslash => ?_) fun _ => rfl
    have behind := whole_of_cons whole (eq_of_beq backslash ▸ by decide)
    exact congrArg (some <| 1 + ·) (Byte.charLength_append behind (List.cons_ne_nil _ _) later)

/-! ## Character literals -/

/-- A character that does not begin with an ASCII byte does not hold it. -/
theorem not_mem_take_charLength (whole : Whole (lead :: more)) (ascii : b < 0x80)
    (other : lead ≠ b) : b ∉ (lead :: more).take (Byte.charLength (lead :: more)) := by
  intro within
  obtain ⟨index, inside, found⟩ := List.getElem_of_mem within
  rw [List.getElem_take] at found
  rw [List.length_take] at inside
  have here : (lead :: more)[index]? = some b :=
    List.getElem?_eq_some_iff.2 ⟨by omega, found⟩
  have pos : 0 < index := by
    refine Nat.pos_of_ne_zero ?_
    rintro rfl
    exact other (Option.some.inj here)
  have cut : Cut (lead :: more) index :=
    Text.cut_of_ascii_next (by omega) fun b next => by
      rw [here] at next
      exact Option.some.inj next ▸ ascii
  have := cut.charLength_le whole pos
  omega

theorem closedAfter_append {length : Nat} (inside : length < text.length) (later : List UInt8) :
    closedAfter length (text ++ later) = closedAfter length text := by
  rw [closedAfter, closedAfter, List.getElem?_append_left inside]

theorem countedEscape_append {letter : UInt8} (other : letter ≠ Byte.newline)
    (line : Byte.newline ∈ text) (count : Nat) (later : List UInt8) :
    countedEscape letter count (text ++ later) = countedEscape letter count text := by
  cases text with
  | nil => cases line
  | cons lead more =>
    by_cases same : lead = letter
    · subst same
      have behind := mem_of_ne line other
      by_cases within : Byte.newline ∈ more.take count
      · -- The line feed is no identifier byte, so neither text has enough of them.
        have none : ∀ {bytes : List UInt8}, Byte.newline ∈ bytes →
            bytes.all Byte.isIdentifier = false := by
          intro bytes member
          exact List.all_eq_false.2 ⟨_, member, by decide⟩
        have also : Byte.newline ∈ (more ++ later).take count := by
          rw [List.take_append]
          exact List.mem_append_left _ within
        simp [countedEscape, none within, none also]
      · have inside := List.length_pos_of_mem (Byte.mem_drop_of_not_mem_take behind within)
        rw [List.length_drop] at inside
        have next : 1 + count < (lead :: more).length := by
          rw [List.length_cons]
          omega
        have closed := closedAfter_append next later
        have taken : (more ++ later).take count = more.take count :=
          List.take_append_of_le_length (by omega)
        rw [List.cons_append] at closed ⊢
        simp only [countedEscape, taken, closed]
    · have differs : (lead == letter) = false := beq_false_of_ne same
      simp [countedEscape, differs]

theorem closedChar_append (whole : Whole text) (line : Byte.newline ∈ text)
    (later : List UInt8) : closedChar (text ++ later) = closedChar text := by
  cases text with
  | nil => cases line
  | cons lead more =>
    by_cases same : lead = Byte.newline
    · subst same
      rfl
    · have behind :=
        Byte.mem_drop_of_not_mem_take line (not_mem_take_charLength whole (by decide) same)
      have inside := List.length_pos_of_mem behind
      rw [List.length_drop] at inside
      have width := Byte.charLength_append whole (List.cons_ne_nil lead more) later
      have next : Byte.charLength (lead :: more) < (lead :: more).length := by omega
      have closed := closedAfter_append next later
      rw [List.cons_append] at width closed ⊢
      simp only [closedChar, width, closed]

theorem charBody_append (whole : Whole text) (line : Byte.newline ∈ text) (later : List UInt8) :
    charBody (text ++ later) = charBody text := by
  rw [charBody, charBody, countedEscape_append (by decide) line,
    countedEscape_append (by decide) line, countedEscape_append (by decide) line,
    closedChar_append whole line]

theorem charContent_append (whole : Whole text) (line : Byte.newline ∈ text)
    (later : List UInt8) : charContent (text ++ later) = charContent text := by
  have body := charBody_append whole line later
  cases text with
  | nil => cases line
  | cons lead more =>
    rw [List.cons_append] at body ⊢
    refine ite_congr rfl (fun backslash => ?_) fun _ => body
    have behind := whole_of_cons whole (eq_of_beq backslash ▸ by decide)
    rw [charBody_append behind (mem_of_beq line backslash (by decide)), body]

theorem quotedChar_append (whole : Whole text) (line : Byte.newline ∈ text)
    (later : List UInt8) : quotedChar (text ++ later) = quotedChar text := by
  cases text with
  | nil => cases line
  | cons lead more =>
    rw [List.cons_append]
    refine ite_congr rfl (fun quote => ?_) fun _ => rfl
    have behind := whole_of_cons whole (eq_of_beq quote ▸ by decide)
    rw [charContent_append behind (mem_of_beq line quote (by decide))]

theorem charLiteral_append (whole : Whole text) (line : Byte.newline ∈ text)
    (later : List UInt8) : charLiteral (text ++ later) = charLiteral text := by
  have quoted := quotedChar_append whole line later
  cases text with
  | nil => cases line
  | cons lead more =>
    rw [List.cons_append] at quoted ⊢
    refine ite_congr rfl (fun letter => ?_) fun _ => quoted
    have behind := whole_of_cons whole (eq_of_beq letter ▸ by decide)
    rw [quotedChar_append behind (mem_of_beq line letter (by decide))]

/-! ## Words -/

theorem wordLength_append (line : Byte.newline ∈ text) (later : List UInt8) :
    wordLength (text ++ later) = wordLength text :=
  Byte.runLength_append Byte.isIdentifier (by decide) line later

theorem wordFrom_append (starts : UInt8 → Bool) (line : Byte.newline ∈ text)
    (later : List UInt8) : wordFrom starts (text ++ later) = wordFrom starts text := by
  have word := wordLength_append line later
  cases text with
  | nil => cases line
  | cons lead more =>
    rw [List.cons_append] at word ⊢
    simp only [wordFrom, word]

theorem wordFrom_eq_some {starts : UInt8 → Bool} {length : Nat}
    (found : wordFrom starts text = some length) : length = wordLength text := by
  cases text with
  | nil => cases found
  | cons lead more =>
    simp only [wordFrom, Option.ite_none_right_eq_some, Option.some.injEq] at found
    exact found.2.symm

theorem take_wordLength_append (text later : List UInt8) :
    (text ++ later).take (wordLength text) = text.take (wordLength text) :=
  List.take_append_of_le_length (Byte.runLength_le Byte.isIdentifier text)

theorem screamingCase_append (line : Byte.newline ∈ text) (later : List UInt8) :
    screamingCase (text ++ later) = screamingCase text := by
  have word := wordFrom_append (fun lead => Byte.isUpper lead || lead == Byte.underscore) line later
  rw [screamingCase, screamingCase, capitalized, capitalized, word]
  cases found : wordFrom (fun lead => Byte.isUpper lead || lead == Byte.underscore) text with
  | none => rfl
  | some length =>
    obtain rfl := wordFrom_eq_some found
    simp only [Option.filter_some, take_wordLength_append]

theorem keywordBeforeBlank_append (line : Byte.newline ∈ text) (words : List String)
    (later : List UInt8) : keywordBeforeBlank words (text ++ later) =
      keywordBeforeBlank words text := by
  rw [keywordBeforeBlank, keywordBeforeBlank, identifier, identifier, wordFrom_append _ line]
  cases found : wordFrom Byte.isIdentifierStart text with
  | none => rfl
  | some length =>
    obtain rfl := wordFrom_eq_some found
    have next : (text ++ later)[wordLength text]? = text[wordLength text]? :=
      getElem?_runLength_append Byte.isIdentifier (by decide) line later
    simp only [Option.filter_some, next, take_wordLength_append]

theorem qualifiedPath_append (line : Byte.newline ∈ text) (later : List UInt8) :
    qualifiedPath (text ++ later) = qualifiedPath text := by
  rw [qualifiedPath, qualifiedPath, identifier, identifier, wordFrom_append _ line]
  cases found : wordFrom Byte.isIdentifierStart text with
  | none => rfl
  | some length =>
    obtain rfl := wordFrom_eq_some found
    have behind := Byte.mem_drop_runLength Byte.isIdentifier (by decide) line
    have colons := isPrefixOf_append (by decide : Byte.newline ∉ Text.bytes "::") behind later
    rw [← Byte.drop_runLength_append] at colons
    simp only [wordLength, colons]
    rfl

theorem head?_dropWhile_append {inClass : UInt8 → Bool} (outside : inClass b = false)
    (member : b ∈ text) (later : List UInt8) :
    ((text ++ later).dropWhile inClass).head? = (text.dropWhile inClass).head? := by
  induction text with
  | nil => cases member
  | cons lead more ih =>
    cases isIn : inClass lead with
    | false => simp [isIn]
    | true =>
      simpa [isIn] using ih (Byte.mem_of_class isIn outside member)

/-- A call is told by the byte behind blanks, and a line feed is a blank. -/
theorem call_append (line : Byte.newline ∈ text)
    (ends : text = [Byte.newline] ∨ Byte.semicolon ∈ text) (later : List UInt8) :
    call (text ++ later) = call text := by
  rcases ends with rfl | ends
  · rfl
  · rw [call, call, wordFrom_append _ line]
    cases found : wordFrom (fun lead => Byte.isLower lead || lead == Byte.underscore) text with
    | none => rfl
    | some length =>
      obtain rfl := wordFrom_eq_some found
      have behind := Byte.mem_drop_runLength Byte.isIdentifier (by decide) ends
      have next := head?_dropWhile_append
        (by decide : Byte.isBlank Byte.semicolon = false) behind later
      rw [← Byte.drop_runLength_append] at next
      simp only [Option.filter_some, wordLength, next]

theorem symbol_append (line : Byte.newline ∈ text) (later : List UInt8) :
    symbol (text ++ later) = symbol text := by
  cases text with
  | nil => cases line
  | cons lead more =>
    rw [List.cons_append]
    refine ite_congr rfl (fun quote => ?_) fun _ => rfl
    rw [identifier, identifier, wordFrom_append _ (mem_of_beq line quote (by decide))]

/-! ## Operators and numbers -/

theorem operator_newline (more : List UInt8) : operator (Byte.newline :: more) = none := by
  have long : longOperators.contains ((Byte.newline :: more).take 2) = false := by
    cases more with
    | nil => decide
    | cons next rest =>
      have firsts : ∀ operator ∈ longOperators, operator.head? ≠ some Byte.newline := by decide
      refine Bool.eq_false_iff.2 fun contains => ?_
      exact firsts _ (List.contains_iff_mem.1 contains) rfl
  have short : shortOperators.contains Byte.newline = false := by decide
  have question : (Byte.newline == Byte.question) = false := by decide
  simp only [operator, long, short, question, Bool.false_and, Bool.false_eq_true, if_false]

theorem operator_append (line : Byte.newline ∈ text) (later : List UInt8) :
    operator (text ++ later) = operator text := by
  match text with
  | [] => cases line
  | [only] =>
    obtain rfl := List.mem_singleton.1 line
    rw [List.singleton_append, operator_newline, operator_newline]
  | lead :: next :: more => rfl

/-- Digits of all classes are identifier bytes, and so are the letters that
announce them. -/
theorem digitsAnnouncedBy_identifier {letter : UInt8} {inClass : UInt8 → Bool}
    (found : digitsAnnouncedBy letter = some inClass) :
    Byte.isIdentifier letter = true ∧ ∀ b, inClass b = true → Byte.isIdentifier b = true := by
  simp only [digitsAnnouncedBy, beq_iff_eq] at found
  split at found
  next h =>
    obtain rfl := Option.some.inj found
    exact ⟨h ▸ by decide, by grind [Byte.isBinaryDigit, Byte.isIdentifier, Byte.isDigit]⟩
  next =>
    split at found
    next h =>
      obtain rfl := Option.some.inj found
      exact ⟨h ▸ by decide, by grind [Byte.isOctalDigit, Byte.isIdentifier, Byte.isDigit]⟩
    next =>
      simp only [Option.ite_none_right_eq_some, Option.some.injEq] at found
      obtain ⟨rfl, rfl⟩ := found
      exact ⟨by decide, by
        grind [Byte.isHexDigit, Byte.isIdentifier, Byte.isIdentifierStart, Byte.isDigit,
          Byte.isUpper, Byte.isLower]⟩

theorem isDigitOf_of_foreign {inClass : UInt8 → Bool} (foreign : Byte.isForeign b = true)
    (identifier : ∀ b, inClass b = true → Byte.isIdentifier b = true) :
    isDigitOf inClass b = false := by
  obtain ⟨outside, _⟩ := Byte.of_isForeign foreign
  refine Bool.eq_false_iff.2 fun isIn => ?_
  simp only [isDigitOf, Bool.or_eq_true, beq_iff_eq] at isIn
  rcases isIn with isIn | rfl
  · rw [identifier b isIn] at outside
    cases outside
  · cases outside

theorem digitsAnnouncedBy_foreign {letter : UInt8} {inClass : UInt8 → Bool}
    (foreign : Byte.isForeign b = true) (found : digitsAnnouncedBy letter = some inClass) :
    letter ≠ b ∧ isDigitOf inClass b = false := by
  obtain ⟨isIn, identifier⟩ := digitsAnnouncedBy_identifier found
  exact ⟨Byte.ne_of_isForeign foreign isIn, isDigitOf_of_foreign foreign identifier⟩

theorem radixNumber_append (line : Byte.newline ∈ text) (later : List UInt8) :
    radixNumber (text ++ later) = radixNumber text := by
  have foreign : Byte.isForeign Byte.newline = true := by decide
  match text with
  | [] => cases line
  | [only] =>
    obtain rfl := List.mem_singleton.1 line
    cases later <;> rfl
  | lead :: letter :: more =>
    rw [List.cons_append, List.cons_append]
    refine ite_congr rfl (fun zero => ?_) fun _ => rfl
    cases announced : digitsAnnouncedBy letter with
    | none => rfl
    | some inClass =>
      obtain ⟨other, outside⟩ := digitsAnnouncedBy_foreign foreign announced
      have behind := mem_of_ne (mem_of_beq line zero (by decide)) other
      simp only [Byte.runLength_append (isDigitOf inClass) outside behind]

theorem digits_append (line : Byte.newline ∈ text) (later : List UInt8) :
    Byte.runLength (isDigitOf Byte.isDigit) (text ++ later) =
      Byte.runLength (isDigitOf Byte.isDigit) text :=
  Byte.runLength_append (isDigitOf Byte.isDigit) (by decide) line later

theorem not_mem_take_digits (foreign : Byte.isForeign b = true) (text : List UInt8) :
    b ∉ text.take (Byte.runLength (isDigitOf Byte.isDigit) text) := by
  refine Byte.not_mem_take_runLength _ (isDigitOf_of_foreign foreign fun digit isIn => ?_) text
  simp [Byte.isIdentifier, isIn]

theorem fractionLength_append (line : Byte.newline ∈ text) (later : List UInt8) :
    fractionLength (text ++ later) = fractionLength text := by
  cases text with
  | nil => cases line
  | cons lead more =>
    rw [List.cons_append]
    refine ite_congr rfl (fun dot => ?_) fun _ => rfl
    rw [digits_append (mem_of_beq line dot (by decide))]

theorem not_mem_take_fractionLength (foreign : Byte.isForeign b = true) (text : List UInt8) :
    b ∉ text.take (fractionLength text) := by
  cases text with
  | nil => exact List.not_mem_nil
  | cons lead more =>
    simp only [fractionLength, beq_iff_eq]
    have digits := not_mem_take_digits foreign more
    obtain ⟨_, _, _, _, other, _⟩ := Byte.of_isForeign foreign
    split
    next dot =>
      split
      next => exact List.not_mem_nil
      next count eq =>
        rw [eq] at digits
        exact Byte.not_mem_take_cons (dot ▸ other.symm) digits
    next => exact List.not_mem_nil

theorem signLength_append (nonempty : text ≠ []) (later : List UInt8) :
    signLength (text ++ later) = signLength text := by
  cases text with
  | nil => exact absurd rfl nonempty
  | cons lead more => rfl

theorem not_mem_take_signLength (foreign : Byte.isForeign b = true) (text : List UInt8) :
    b ∉ text.take (signLength text) := by
  cases text with
  | nil => exact List.not_mem_nil
  | cons lead more =>
    simp only [signLength, Bool.or_eq_true, beq_iff_eq]
    split
    next sign =>
      obtain ⟨_, _, notPlus, notMinus, _⟩ := Byte.of_isForeign foreign
      refine Byte.not_mem_take_cons ?_ List.not_mem_nil
      rcases sign with rfl | rfl
      · exact notPlus.symm
      · exact notMinus.symm
    next => exact List.not_mem_nil

theorem exponentLength_append (line : Byte.newline ∈ text) (later : List UInt8) :
    exponentLength (text ++ later) = exponentLength text := by
  cases text with
  | nil => cases line
  | cons lead more =>
    by_cases letter : lead = 0x65 ∨ lead = 0x45
    · have behind := mem_of_ne line (by rcases letter with rfl | rfl <;> decide)
      have sign := signLength_append (List.ne_nil_of_mem behind) later
      have digits := digits_append
        (Byte.mem_drop_of_not_mem_take behind (not_mem_take_signLength (by decide) more)) later
      rw [← List.drop_append_of_le_length (signLength_cut more).le_length] at digits
      simp only [List.cons_append, exponentLength, sign, digits]
    · have other : (lead == 0x65 || lead == 0x45) = false := by simpa using letter
      simp [exponentLength, other]

theorem not_mem_take_exponentLength (foreign : Byte.isForeign b = true) (text : List UInt8) :
    b ∉ text.take (exponentLength text) := by
  cases text with
  | nil => exact List.not_mem_nil
  | cons lead more =>
    simp only [exponentLength, Bool.or_eq_true, beq_iff_eq]
    have digits := not_mem_take_digits foreign (more.drop (signLength more))
    split
    next letter =>
      split
      next => exact List.not_mem_nil
      next count eq =>
        have both := Byte.not_mem_take_add (not_mem_take_signLength foreign more) (eq ▸ digits)
        refine Byte.not_mem_take_cons (Byte.ne_of_isForeign foreign ?_) both
        rcases letter with rfl | rfl <;> decide
    next => exact List.not_mem_nil

theorem decimalLength_append (line : Byte.newline ∈ text) (later : List UInt8) :
    decimalLength (text ++ later) = decimalLength text := by
  have behindWhole := Byte.mem_drop_of_not_mem_take line (not_mem_take_digits (by decide) text)
  have fraction := fractionLength_append behindWhole later
  have behindBoth :=
    Byte.mem_drop_of_not_mem_take behindWhole (not_mem_take_fractionLength (by decide) _)
  have exponent := exponentLength_append behindBoth later
  have within :=
    (fractionLength_cut (text.drop (Byte.runLength (isDigitOf Byte.isDigit) text))).le_length
  rw [← List.drop_append_of_le_length within, ← Byte.drop_runLength_append, List.drop_drop,
    List.drop_drop] at exponent
  rw [← Byte.drop_runLength_append] at fraction
  simp only [decimalLength, digits_append line, fraction, exponent]

theorem not_mem_take_decimalLength (foreign : Byte.isForeign b = true) (text : List UInt8) :
    b ∉ text.take (decimalLength text) := by
  refine Byte.not_mem_take_add (Byte.not_mem_take_add (not_mem_take_digits foreign text) ?_) ?_
  · exact not_mem_take_fractionLength foreign _
  · exact not_mem_take_exponentLength foreign _

theorem number_append (line : Byte.newline ∈ text) (later : List UInt8) :
    number (text ++ later) = number text := by
  have radix := radixNumber_append line later
  have decimal := decimalLength_append line later
  cases text with
  | nil => cases line
  | cons lead more =>
    rw [List.cons_append] at radix decimal ⊢
    simp only [number, radix, decimal]

end Lexeme

end ModalHighlight
