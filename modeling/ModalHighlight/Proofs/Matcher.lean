import ModalHighlight.Proofs.Grammar.Lawful
import ModalHighlight.Proofs.Lexeme.ByOffset

/-! # Matchers by offset

A matcher is tried with checked reads of the text alone, and the outcome is that
of `Matcher.find`: inside a text no read misses it.  Every hit then has a head
that is not empty and ends inside the text, the hits of the empty text apart;
and where the text has characters, the head and the hit end between two.

The reads may go anywhere in the text, yet of what stands in front of its place a
matcher learns one thing: whether a word may start there.  So a text that is read
again behind another one gives the same hits, moved by as much as the text is.
-/

namespace ModalHighlight

open Text

namespace Matcher

/-! ## Trying a matcher -/

/-- Reads the word that a call names, and drops the call if the table reserves it. -/
def callOutside (reserved : KeywordTable) (text : List UInt8) (offset : Nat) :
    Except OutOfText (Option Nat) :=
  ByOffset.andThen (ByOffset.call text offset) fun stop => do
    let word ← ByOffset.slice text offset stop
    return if reserved.reserves word then none else some stop

/-- Tries a matcher at an offset of a text that is read by offset. -/
def readAt (matcher : Matcher) (text : List UInt8) (offset hashes : Nat) :
    Except OutOfText (Option Hit) :=
  match matcher with
  | literal expected =>
    Option.map Hit.whole <$> ByOffset.literal (Text.bytes expected) text offset
  | anyOf set => Option.map Hit.whole <$> ByOffset.oneOf set text offset
  | keywordThenSpace words =>
    Option.map Hit.whole <$> ByOffset.keywordBeforeBlank words text offset
  | stray allowed => Option.map Hit.whole <$> ByOffset.stray allowed text offset
  | lineComment => Option.map Hit.whole <$> ByOffset.lineComment text offset
  | quoteOpen => Option.map Hit.whole <$> ByOffset.quoteOpen text offset
  | rawOpen =>
    (Option.map fun found => ⟨found.1, found.1, found.2⟩) <$> ByOffset.rawOpen text offset
  | rawClose => Option.map Hit.whole <$> ByOffset.rawClose hashes text offset
  | charLiteral => Option.map Hit.whole <$> ByOffset.charLiteral text offset
  | symbol => Option.map Hit.whole <$> ByOffset.symbol text offset
  | screamingCase => Option.map Hit.whole <$> ByOffset.screamingCase text offset
  | capitalized => Option.map Hit.whole <$> ByOffset.capitalized text offset
  | operator => Option.map Hit.whole <$> ByOffset.operator text offset
  | number => Option.map Hit.whole <$> ByOffset.number text offset
  | identifier => Option.map Hit.whole <$> ByOffset.identifier text offset
  | qualifiedPath =>
    (Option.map fun found => ⟨found.2, found.1, 0⟩) <$> ByOffset.qualifiedPath text offset
  | call reserved => Option.map Hit.whole <$> callOutside reserved text offset
  | escape => Option.map Hit.whole <$> ByOffset.escape text offset

variable {text : List UInt8} {offset : Nat}

theorem callOutside_eq (reserved : KeywordTable) (inside : offset < text.length) :
    callOutside reserved text offset =
      .ok ((if (Cursor.ofOffset text offset).atWordStart then
        (Lexeme.call (text.drop offset)).filter fun stop =>
          !reserved.reserves ((text.drop offset).take stop)
        else none).map (offset + ·)) := by
  rw [callOutside, ByOffset.call_eq inside]
  split
  next =>
    cases called : Lexeme.call (text.drop offset) with
    | none => rfl
    | some length =>
      have within := (Lexeme.call_fits called).cut.le_length
      rw [List.length_drop] at within
      show (ByOffset.slice text offset (offset + length) >>= _) = _
      rw [ByOffset.slice_of_le (by omega), ByOffset.ok_bind, Option.filter_some]
      cases reserved.reserves ((text.drop offset).take length) <;> rfl
  next => rfl

/-- A hit that is not split, measured from the start of the text. -/
theorem whole_of_eq {read : Except OutOfText (Option Nat)} {found : Option Nat}
    (eq : read = .ok (found.map (offset + ·))) :
    (Option.map Hit.whole <$> read) =
      .ok ((found.map Hit.whole).map (Hit.shift offset)) := by
  rw [eq]
  cases found <;> rfl

theorem whole_of_eq_ite {read : Except OutOfText (Option Nat)} {asked : Bool}
    {found : Option Nat}
    (eq : read = .ok ((if asked then found else none).map (offset + ·))) :
    (Option.map Hit.whole <$> read) =
      .ok ((if asked then found.map Hit.whole else none).map (Hit.shift offset)) := by
  cases asked with
  | true => exact whole_of_eq eq
  | false => rw [eq]; rfl

/-- No read of a matcher misses the text, and it finds what `find` finds. -/
theorem readAt_eq_find (matcher : Matcher) (hashes : Nat) (inside : offset < text.length) :
    matcher.readAt text offset hashes = matcher.find text offset hashes := by
  rw [find_of_lt matcher hashes inside]
  have upToEnd := Nat.le_of_lt inside
  cases matcher with
  | literal expected => exact whole_of_eq (ByOffset.literal_eq _ upToEnd)
  | anyOf set => exact whole_of_eq (ByOffset.oneOf_eq set inside)
  | stray allowed => exact whole_of_eq (ByOffset.stray_eq allowed inside)
  | lineComment => exact whole_of_eq (ByOffset.lineComment_eq upToEnd)
  | quoteOpen => exact whole_of_eq (ByOffset.quoteOpen_eq inside)
  | rawClose => exact whole_of_eq (ByOffset.rawClose_eq hashes inside)
  | charLiteral => exact whole_of_eq (ByOffset.charLiteral_eq inside)
  | symbol => exact whole_of_eq (ByOffset.symbol_eq inside)
  | operator => exact whole_of_eq (ByOffset.operator_eq inside)
  | identifier => exact whole_of_eq (ByOffset.identifier_eq inside)
  | escape => exact whole_of_eq (ByOffset.escape_eq inside)
  -- Words are read only where one may start.
  | keywordThenSpace words => exact whole_of_eq_ite (ByOffset.keywordBeforeBlank_eq words inside)
  | screamingCase => exact whole_of_eq_ite (ByOffset.screamingCase_eq inside)
  | capitalized => exact whole_of_eq_ite (ByOffset.wordFrom_eq _ inside)
  | number => exact whole_of_eq_ite (ByOffset.number_eq inside)
  | call reserved => exact whole_of_eq_ite (callOutside_eq reserved inside)
  -- The hits of these two are not made of an end alone.
  | rawOpen =>
    show (_ <$> ByOffset.rawOpen text offset) = _
    rw [ByOffset.rawOpen_eq inside, ByOffset.map_ok, Option.map_map, matchAt?, match?,
      Option.map_map]
    rfl
  | qualifiedPath =>
    show (_ <$> ByOffset.qualifiedPath text offset) = _
    rw [ByOffset.qualifiedPath_eq inside, ByOffset.map_ok, Option.map_map, matchAt?, match?]
    split
    · rw [Option.map_map]; rfl
    · rfl

/-- Behind the last byte, a matcher that looks at a byte misses the text. -/
example : operator.readAt (bytes "a=") 2 0 = .error ⟨0, 0⟩ ∧
    number.readAt (bytes "a=") 2 0 = .error ⟨2, 2⟩ := by
  constructor <;> rfl

/-! ## Where hits end -/

/-- All matchers but two kinds take whole lexemes whatever their parameters are. -/
theorem lawful_or (matcher : Matcher) :
    matcher.Lawful ∨ matcher = literal "" ∨ ∃ set, matcher = anyOf set := by
  cases matcher with
  | literal expected =>
    rcases Decidable.em (expected = "") with rfl | nonempty
    · exact .inr (.inl rfl)
    · exact .inl nonempty
  | anyOf set => exact .inr (.inr ⟨set, rfl⟩)
  | _ => exact .inl trivial

/-- A hit has a head and ends inside the text, also where a set holds parts of
characters. -/
theorem inside_of_match? {matcher : Matcher} (nonempty : matcher ≠ literal "")
    {wordStart : Bool} {hashes : Nat} {hit : Hit}
    (found : matcher.match? wordStart hashes text = some hit) :
    0 < hit.headStop ∧ hit.headStop ≤ hit.stop ∧ hit.stop ≤ text.length := by
  obtain lawful | empty | ⟨set, rfl⟩ := matcher.lawful_or
  · have fits := fits_of_match? lawful found
    exact ⟨fits.head.pos, fits.le, fits.whole.le_length⟩
  · exact absurd empty nonempty
  · obtain ⟨stop, one, rfl⟩ := Option.map_eq_some_iff.1 found
    cases text with
    | nil => cases one
    | cons b more =>
      obtain rfl := Option.some.inj (Option.ite_none_right_eq_some.1 one).2
      exact ⟨Nat.one_pos, Nat.le_refl 1, Nat.succ_pos more.length⟩

/-- Where the bytes of a set are ASCII, neither the head nor the hit ends inside a
character. -/
theorem cuts_of_match? {matcher : Matcher}
    (ascii : ∀ set, matcher = anyOf set → ∀ b ∈ set, b < 0x80)
    {wordStart : Bool} {hashes : Nat} {hit : Hit}
    (found : matcher.match? wordStart hashes text = some hit) :
    Cut text hit.headStop ∧ Cut text hit.stop := by
  have ofLawful : matcher.Lawful → Cut text hit.headStop ∧ Cut text hit.stop := by
    intro lawful
    have fits := fits_of_match? lawful found
    exact ⟨fits.head.cut, fits.whole⟩
  obtain lawful | rfl | ⟨set, rfl⟩ := matcher.lawful_or
  · exact ofLawful lawful
  · obtain rfl := Option.some.inj found
    exact ⟨cut_zero text, cut_zero text⟩
  · exact ofLawful (ascii set rfl)

/-- A matcher that is tried inside a text reads nothing outside, and what it
finds has a head and ends inside the text, between two characters if the text
has any; only the empty text is found without taking a byte. -/
theorem find_inside (matcher : Matcher) {text : List UInt8} {offset : Nat} (hashes : Nat)
    (inside : offset < text.length) :
    ∃ found, matcher.readAt text offset hashes = .ok found ∧
      matcher.find text offset hashes = .ok found ∧
      (matcher = literal "" → found = some (Hit.whole offset)) ∧
      ∀ hit ∈ found,
        (matcher ≠ literal "" →
          offset < hit.headStop ∧ hit.headStop ≤ hit.stop ∧ hit.stop ≤ text.length) ∧
        ∀ string, bytes string = text → Border string offset →
          (∀ set, matcher = anyOf set → ∀ b ∈ set, b < 0x80) →
          Border string hit.headStop ∧ Border string hit.stop := by
  have reads := readAt_eq_find matcher hashes inside
  have finds := find_of_lt matcher hashes inside
  refine ⟨_, reads.trans finds, finds, ?empty, ?hits⟩
  case empty => rintro rfl; rfl
  case hits =>
    intro hit found
    obtain ⟨here, matched, rfl⟩ := Option.map_eq_some_iff.1 found
    constructor
    · intro nonempty
      obtain ⟨head, ordered, within⟩ := inside_of_match? nonempty matched
      change here.stop ≤ (text.drop offset).length at within
      rw [List.length_drop] at within
      simp only [Hit.shift]
      omega
    · rintro string rfl border ascii
      obtain ⟨head, whole⟩ := cuts_of_match? ascii matched
      exact ⟨border.add head, border.add whole⟩

/-- A character literal behind a letter of two bytes, up to the end of the text. -/
theorem charLiteral_inside :
    charLiteral.readAt (bytes "é'é'") 2 0 = .ok (some (Hit.whole 6)) ∧
      2 < 6 ∧ 6 ≤ (bytes "é'é'").length ∧ Border "é'é'" 6 := by
  obtain ⟨found, reads, finds, _, hits⟩ :=
    find_inside charLiteral 0 (by decide : 2 < (bytes "é'é'").length)
  have outcome : charLiteral.find (bytes "é'é'") 2 0 = .ok (some (Hit.whole 6)) :=
    congrArg Except.ok (by decide)
  have start : Border "é'é'" 2 :=
    border_iff_whole_take.2 ⟨by decide, "é", by decide⟩
  obtain rfl : found = some (Hit.whole 6) := Except.ok.inj (finds.symm.trans outcome)
  obtain ⟨ends, borders⟩ := hits _ rfl
  obtain ⟨begins, _, within⟩ := ends (by decide)
  obtain ⟨_, border⟩ := borders "é'é'" rfl start (fun _ other => nomatch other)
  exact ⟨reads, begins, within, border⟩

end Matcher

/-! ## What stands in front -/

/-- A word may start behind some bytes: there are none, or the last of them is in no
identifier. -/
def Text.EndsOutsideWord (front : List UInt8) : Prop :=
  ∀ b ∈ front.getLast?, Byte.isIdentifier b = false

instance (front : List UInt8) : Decidable (Text.EndsOutsideWord front) :=
  inferInstanceAs (Decidable (∀ b ∈ front.getLast?, Byte.isIdentifier b = false))

/-- Two hits that are the same but for the places, `first` and `second`, from which they
are measured. -/
def Hit.Displaced (first second : Nat) (left right : Hit) : Prop :=
  (left.stop : Int) - right.stop = first - second ∧
    (left.headStop : Int) - right.headStop = first - second ∧ left.hashes = right.hashes

theorem Hit.displaced_shift (first second : Nat) (hit : Hit) :
    Displaced first second (hit.shift first) (hit.shift second) := by
  simp only [Displaced, shift, and_true]
  omega

theorem Cursor.ofOffset_append (front text : List UInt8) :
    ofOffset (front ++ text) front.length = ⟨front.length, front.getLast?, text⟩ := by
  rw [ofOffset, List.drop_left, List.getLast?_eq_getElem?]
  rcases front.eq_nil_or_concat with rfl | ⟨earlier, last, rfl⟩
  · rfl
  · rw [if_neg (by simp), List.getElem?_append_left (by simp)]

theorem Cursor.atWordStart_append (front text : List UInt8) :
    (ofOffset (front ++ text) front.length).atWordStart = true ↔ EndsOutsideWord front := by
  rw [ofOffset_append, atWordStart, EndsOutsideWord]
  cases front.getLast? <;> simp

namespace Matcher

variable {front other text : List UInt8}

/-- Two places in front of the same text are one to a matcher, if a word may start at
both or at neither. -/
theorem matchAt?_append (matcher : Matcher) (hashes : Nat)
    (alike : EndsOutsideWord front ↔ EndsOutsideWord other) :
    matcher.matchAt? hashes (Cursor.ofOffset (front ++ text) front.length) =
      matcher.matchAt? hashes (Cursor.ofOffset (other ++ text) other.length) := by
  have sameStart : (Cursor.ofOffset (front ++ text) front.length).atWordStart =
      (Cursor.ofOffset (other ++ text) other.length).atWordStart := by
    rw [Bool.eq_iff_iff, Cursor.atWordStart_append, Cursor.atWordStart_append, alike]
  rw [matchAt?, matchAt?, sameStart, Cursor.ofOffset_append, Cursor.ofOffset_append]

/-- Of all that stands in front of a place, only whether the byte directly in front is
in an identifier has a bearing on what a matcher reads and finds there. -/
theorem find_displaced (matcher : Matcher) (hashes : Nat) (nonempty : text ≠ [])
    (alike : EndsOutsideWord front ↔ EndsOutsideWord other) :
    ∃ left right,
      matcher.readAt (front ++ text) front.length hashes = .ok left ∧
      matcher.find (front ++ text) front.length hashes = .ok left ∧
      matcher.readAt (other ++ text) other.length hashes = .ok right ∧
      matcher.find (other ++ text) other.length hashes = .ok right ∧
      Option.Rel (Hit.Displaced front.length other.length) left right := by
  -- The text goes on at either place, so that every read there is answered.
  have inside : ∀ before : List UInt8, before.length < (before ++ text).length := by
    intro before
    rw [List.length_append]
    exact Nat.lt_add_of_pos_right (List.length_pos_iff.2 nonempty)
  have finds := find_of_lt matcher hashes (inside front)
  have findsOther := find_of_lt matcher hashes (inside other)
  refine ⟨_, _, (readAt_eq_find matcher hashes (inside front)).trans finds, finds,
    (readAt_eq_find matcher hashes (inside other)).trans findsOther, findsOther, ?_⟩
  rw [matchAt?_append matcher hashes alike]
  cases matcher.matchAt? hashes (Cursor.ofOffset (other ++ text) other.length) with
  | none => exact .none
  | some hit => exact .some (hit.displaced_shift front.length other.length)

/-- A call behind a letter of two bytes, neither of which is in an identifier, and at the
start of the text. -/
theorem call_displaced :
    bytes "go (1)" ≠ [] ∧ (EndsOutsideWord (bytes "é") ↔ EndsOutsideWord []) ∧
      (call Flint.keywords).readAt (bytes "égo (1)") 2 0 = .ok (some (Hit.whole 4)) ∧
      (call Flint.keywords).readAt (bytes "go (1)") 0 0 = .ok (some (Hit.whole 2)) ∧
      Hit.Displaced 2 0 (Hit.whole 4) (Hit.whole 2) := by
  have nonempty : bytes "go (1)" ≠ [] := by decide
  have alike : EndsOutsideWord (bytes "é") ↔ EndsOutsideWord [] :=
    iff_of_true (by decide +kernel) (by decide +kernel)
  obtain ⟨left, right, reads, finds, readsOther, findsOther, displaced⟩ :=
    find_displaced (call Flint.keywords) 0 nonempty alike
  have outcome : (call Flint.keywords).find (bytes "égo (1)") 2 0 = .ok (some (Hit.whole 4)) :=
    congrArg Except.ok (by decide +kernel)
  have outcomeOther : (call Flint.keywords).find (bytes "go (1)") 0 0 = .ok (some (Hit.whole 2)) :=
    congrArg Except.ok (by decide +kernel)
  obtain rfl := Except.ok.inj (finds.symm.trans outcome)
  obtain rfl := Except.ok.inj (findsOther.symm.trans outcomeOther)
  cases displaced with
  | some apart => exact ⟨nonempty, alike, reads, readsOther, apart⟩

/-- The byte in front does count: no number starts inside a word. -/
example : number.find (bytes "a1") 1 0 = .ok none ∧
    number.find (bytes "1") 0 0 = .ok (some (Hit.whole 1)) := by
  constructor <;> rfl

end Matcher

end ModalHighlight
