import ModalHighlight.Lexeme.Fixed
import ModalHighlight.Lexeme.Number
import ModalHighlight.Lexeme.Operator
import ModalHighlight.Lexeme.Quote
import ModalHighlight.Lexeme.Word
import ModalHighlight.Proofs.Lexeme.Cut
import ModalHighlight.Proofs.Text.ByOffset

/-! # Lexemes by offset

Each recogniser once more, as a procedure that is given the whole text and an
offset of it and goes on from there with checked reads alone.  It answers with
the offset at which the lexeme ends.

At an offset inside the text none of the reads fails, and the answer is that of
the recogniser in front of what follows the offset.  The window of a counted
escape, the second byte of an operator, the sign and the digits of an exponent
and the bytes behind a run of hashes are each where a read could miss the text.
-/

namespace ModalHighlight.ByOffset

open Cursor

variable {text : List UInt8} {offset : Nat}

/-! ## Going on -/

/-- Goes on with a second recogniser where a first one has found nothing. -/
def orElse (first second : Except OutOfText (Option Nat)) : Except OutOfText (Option Nat) := do
  match ← first with
  | some stop => return some stop
  | none => second

/-- Goes on with a second recogniser where a first one has found something. -/
def andThen {α : Type} (first : Except OutOfText (Option Nat))
    (next : Nat → Except OutOfText (Option α)) : Except OutOfText (Option α) := do
  match ← first with
  | some stop => next stop
  | none => return none

theorem orElse_ok (first second : Option Nat) :
    orElse (.ok first) (.ok second) = .ok (first.or second) := by
  cases first <;> rfl

/-! ## Fixed texts and single characters -/

def literal (expected text : List UInt8) (offset : Nat) : Except OutOfText (Option Nat) := do
  let rest ← tailAt text offset
  return if expected.isPrefixOf rest then some (offset + expected.length) else none

theorem literal_eq (expected : List UInt8) (inside : offset ≤ text.length) :
    literal expected text offset =
      .ok ((Lexeme.literal expected (text.drop offset)).map (offset + ·)) := by
  rw [literal, tailAt_of_le inside, ok_bind, Lexeme.literal]
  split <;> rfl

def oneOf (set text : List UInt8) (offset : Nat) : Except OutOfText (Option Nat) := do
  let b ← byteAt text offset
  return if set.contains b then some (offset + 1) else none

theorem oneOf_eq (set : List UInt8) (inside : offset < text.length) :
    oneOf set text offset = .ok ((Lexeme.oneOf set (text.drop offset)).map (offset + ·)) := by
  rw [oneOf, byteAt_of_lt inside, ok_bind, drop_eq_cons inside, Lexeme.oneOf]
  split <;> rfl

def stray (allowed text : List UInt8) (offset : Nat) : Except OutOfText (Option Nat) := do
  let b ← byteAt text offset
  if Byte.isIdentifier b || allowed.contains b then return none
  else some <$> charEnd text offset

theorem stray_eq (allowed : List UInt8) (inside : offset < text.length) :
    stray allowed text offset =
      .ok ((Lexeme.stray allowed (text.drop offset)).map (offset + ·)) := by
  rw [stray, byteAt_of_lt inside, ok_bind, charEnd_of_lt inside, drop_eq_cons inside,
    Lexeme.stray]
  split <;> rfl

/-- The line feed is searched for in the slice behind the slashes. -/
def lineComment (text : List UInt8) (offset : Nat) : Except OutOfText (Option Nat) := do
  let rest ← tailAt text offset
  if (Text.bytes "//").isPrefixOf rest then do
    let body ← tailAt text (offset + 2)
    return some (match body.findIdx? (· == Byte.newline) with
      | some distance => offset + 2 + distance
      | none => text.length)
  else return none

/-- A run ends at the first byte that is not of its class. -/
theorem runLength_eq_findIdx (inClass : UInt8 → Bool) (piece : List UInt8) :
    Byte.runLength inClass piece = piece.findIdx fun b => !inClass b := by
  rw [Byte.runLength, List.takeWhile_eq_take_findIdx_not, List.length_take]
  exact Nat.min_eq_left List.findIdx_le_length

theorem lineComment_eq (inside : offset ≤ text.length) :
    lineComment text offset =
      .ok ((Lexeme.lineComment (text.drop offset)).map (offset + ·)) := by
  rw [lineComment, tailAt_of_le inside, ok_bind, Lexeme.lineComment, Lexeme.literal]
  have two : (Text.bytes "//").length = 2 := rfl
  split
  next slashes =>
    have body : offset + 2 ≤ text.length := by
      have := (List.isPrefixOf_iff_prefix.1 slashes).length_le
      rw [List.length_drop] at this
      omega
    have line : Byte.runLength (· != Byte.newline) (text.drop (offset + 2)) =
        ((text.drop (offset + 2)).findIdx? (· == Byte.newline)).getD
          (text.drop (offset + 2)).length := by
      rw [runLength_eq_findIdx, ← List.findIdx_eq_getD_findIdx?]
      simp only [bne, Bool.not_not]
    -- Without a line feed the comment takes all that is left, up to the end of the text.
    simp only [tailAt_of_le body, ok_bind, two, List.drop_drop, line, Option.map_some]
    cases (text.drop (offset + 2)).findIdx? (· == Byte.newline) with
    | some distance => rw [Option.getD_some, ← Nat.add_assoc]; rfl
    | none =>
      rw [Option.getD_none, List.length_drop, ← Nat.add_assoc, Nat.add_sub_cancel' body]
      rfl
  next => rfl

/-! ## Quotes -/

def quoteOpen (text : List UInt8) (offset : Nat) : Except OutOfText (Option Nat) := do
  let lead ← byteAt text offset
  return if lead == Byte.quote then some (offset + 1)
    else if lead == Byte.letterB && text[offset + 1]? == some Byte.quote then some (offset + 2)
    else none

theorem quoteOpen_eq (inside : offset < text.length) :
    quoteOpen text offset = .ok ((Lexeme.quoteOpen (text.drop offset)).map (offset + ·)) := by
  rw [quoteOpen, byteAt_of_lt inside, ok_bind, drop_eq_cons inside, Lexeme.quoteOpen,
    List.head?_drop]
  split
  · rfl
  · split <;> rfl

theorem hashes_behind (offset hashes : Nat) : offset + 1 + hashes - offset - 1 = hashes := by
  omega

def rawOpen (text : List UInt8) (offset : Nat) : Except OutOfText (Option (Nat × Nat)) := do
  let lead ← byteAt text offset
  if lead == Byte.letterR then do
    let hashesEnd ← runEnd (· == Byte.hash) text (offset + 1)
    let hashes := hashesEnd - offset - 1
    return if text[hashesEnd]? == some Byte.quote && hashes ≤ Lexeme.mostHashes then
      some (hashesEnd + 1, hashes) else none
  else return none

theorem rawOpen_eq (inside : offset < text.length) :
    rawOpen text offset =
      .ok ((Lexeme.rawOpen (text.drop offset)).map fun found => (offset + found.1, found.2)) := by
  rw [rawOpen, byteAt_of_lt inside, ok_bind, drop_eq_cons inside, Lexeme.rawOpen]
  split
  next =>
    simp only [runEnd_eq, ok_bind, hashes_behind, List.getElem?_drop]
    split
    · rw [Nat.add_right_comm offset 1]; rfl
    · rfl
  next => rfl

def rawClose (hashes : Nat) (text : List UInt8) (offset : Nat) :
    Except OutOfText (Option Nat) := do
  let lead ← byteAt text offset
  if lead == Byte.quote then do
    let hashesEnd ← runEnd (· == Byte.hash) text (offset + 1)
    return if hashesEnd - offset - 1 == hashes then some (offset + 1 + hashes) else none
  else return none

theorem rawClose_eq (hashes : Nat) (inside : offset < text.length) :
    rawClose hashes text offset =
      .ok ((Lexeme.rawClose hashes (text.drop offset)).map (offset + ·)) := by
  rw [rawClose, byteAt_of_lt inside, ok_bind, drop_eq_cons inside, Lexeme.rawClose]
  cases text[offset] == Byte.quote with
  | true =>
    simp only [if_true, runEnd_eq, ok_bind, hashes_behind, Bool.true_and]
    split
    · rw [Nat.add_right_comm offset 1]; rfl
    · rfl
  | false => rfl

def escape (text : List UInt8) (offset : Nat) : Except OutOfText (Option Nat) := do
  let lead ← byteAt text offset
  if lead == Byte.backslash && offset + 1 < text.length then some <$> charEnd text (offset + 1)
  else return none

theorem escape_eq (inside : offset < text.length) :
    escape text offset = .ok ((Lexeme.escape (text.drop offset)).map (offset + ·)) := by
  rw [escape, byteAt_of_lt inside, ok_bind, drop_eq_cons inside]
  by_cases next : offset + 1 < text.length
  · rw [charEnd_of_lt next, drop_eq_cons next, Lexeme.escape, decide_eq_true next, Bool.and_true,
      Nat.add_assoc]
    split <;> rfl
  · rw [decide_eq_false next, Bool.and_false, List.drop_eq_nil_of_le (Nat.le_of_not_lt next)]
    rfl

/-! ## Character literals -/

/-- The closing `'` at an offset. -/
def closesAt (text : List UInt8) (offset : Nat) : Option Nat :=
  if text[offset]? == some Byte.apostrophe then some (offset + 1) else none

theorem closesAt_add (text : List UInt8) (offset length : Nat) :
    closesAt text (offset + length) =
      (Lexeme.closedAfter length (text.drop offset)).map (offset + ·) := by
  rw [closesAt, Lexeme.closedAfter, List.getElem?_drop]
  split <;> rfl

/-- The window behind the letter is cut out of the text only if it lies inside. -/
def countedEscape (letter : UInt8) (count : Nat) (text : List UInt8) (offset : Nat) :
    Except OutOfText (Option Nat) :=
  if text[offset]? == some letter && offset + 1 + count ≤ text.length then do
    let counted ← slice text (offset + 1) (offset + 1 + count)
    return if counted.all Byte.isIdentifier then closesAt text (offset + 1 + count) else none
  else return none

/-- The window behind the letter is complete if it ends inside the text. -/
theorem length_window (count : Nat) (inside : offset < text.length) :
    (((text.drop (offset + 1)).take count).length == count) =
      decide (offset + 1 + count ≤ text.length) := by
  rw [List.length_take, List.length_drop, Bool.eq_iff_iff, beq_iff_eq, decide_eq_true_iff]
  omega

theorem countedEscape_eq (letter : UInt8) (count : Nat) (text : List UInt8) (offset : Nat) :
    countedEscape letter count text offset =
      .ok ((Lexeme.countedEscape letter count (text.drop offset)).map (offset + ·)) := by
  rcases ahead text offset with ⟨inside, lead, next, rest⟩ | ⟨missing, empty⟩
  · rw [countedEscape, next, rest, Lexeme.countedEscape, length_window count inside, ← rest,
      Option.some_beq_some]
    split
    next begins =>
      -- What was asked before the window is cut out is what its cut needs.
      have window : offset + 1 + count ≤ text.length := by
        simpa using (Bool.and_eq_true_iff.1 begins).2
      rw [slice_of_le window, ok_bind, begins, Bool.true_and, Nat.add_assoc, closesAt_add]
      split <;> rfl
    next other => rw [(Bool.not_eq_true _).mp other]; rfl
  · rw [countedEscape, missing, empty]
    rfl

def closedChar (text : List UInt8) (offset : Nat) : Except OutOfText (Option Nat) :=
  match text[offset]? with
  | none => return none
  | some lead =>
    if lead == Byte.newline then return none else closesAt text <$> charEnd text offset

theorem closedChar_eq (text : List UInt8) (offset : Nat) :
    closedChar text offset = .ok ((Lexeme.closedChar (text.drop offset)).map (offset + ·)) := by
  rcases ahead text offset with ⟨inside, lead, next, rest⟩ | ⟨missing, empty⟩
  · rw [closedChar, next, charEnd_of_lt inside, map_ok, closesAt_add, rest, Lexeme.closedChar]
    dsimp only
    split <;> rfl
  · rw [closedChar, missing, empty]
    rfl

def charBody (text : List UInt8) (offset : Nat) : Except OutOfText (Option Nat) :=
  orElse (countedEscape 0x78 2 text offset) <| orElse (countedEscape 0x75 4 text offset) <|
    orElse (countedEscape 0x55 8 text offset) (closedChar text offset)

theorem charBody_eq (text : List UInt8) (offset : Nat) :
    charBody text offset = .ok ((Lexeme.charBody (text.drop offset)).map (offset + ·)) := by
  simp only [charBody, countedEscape_eq, closedChar_eq, orElse_ok, Lexeme.charBody, Option.map_or]

/-- What follows the opening `'`. -/
def charContent (text : List UInt8) (offset : Nat) : Except OutOfText (Option Nat) :=
  if text[offset]? == some Byte.backslash then
    orElse (charBody text (offset + 1)) (charBody text offset)
  else charBody text offset

/-- What is found one byte further on. -/
theorem map_succ (found : Option Nat) (offset : Nat) :
    (found.map (· + 1)).map (offset + ·) = found.map (offset + 1 + ·) := by
  rw [Option.map_map]
  congr 1
  funext length
  exact (Nat.succ_add_eq_add_succ offset length).symm

theorem charContent_eq (text : List UInt8) (offset : Nat) :
    charContent text offset =
      .ok ((Lexeme.charContent (text.drop offset)).map (offset + ·)) := by
  rw [charContent, charBody_eq, charBody_eq, orElse_ok]
  rcases ahead text offset with ⟨_, lead, next, rest⟩ | ⟨missing, empty⟩
  · rw [next, rest, Lexeme.charContent, Option.some_beq_some]
    split
    · rw [Option.map_or, map_succ]
    · rfl
  · rw [missing, empty]
    rfl

def charLiteral (text : List UInt8) (offset : Nat) : Except OutOfText (Option Nat) := do
  let lead ← byteAt text offset
  let opening := if lead == Byte.letterB then offset + 1 else offset
  if text[opening]? == some Byte.apostrophe then charContent text (opening + 1) else return none

theorem quotedChar_at (text : List UInt8) (offset : Nat) :
    (if text[offset]? == some Byte.apostrophe then charContent text (offset + 1) else .ok none) =
      .ok ((Lexeme.quotedChar (text.drop offset)).map (offset + ·)) := by
  rcases ahead text offset with ⟨_, lead, next, rest⟩ | ⟨missing, empty⟩
  · rw [charContent_eq, next, rest, Lexeme.quotedChar, Option.some_beq_some]
    split
    · rw [map_succ]
    · rfl
  · rw [missing, empty]
    rfl

theorem charLiteral_eq (inside : offset < text.length) :
    charLiteral text offset = .ok ((Lexeme.charLiteral (text.drop offset)).map (offset + ·)) := by
  rw [charLiteral, byteAt_of_lt inside, ok_bind, drop_eq_cons inside, Lexeme.charLiteral]
  split
  next letter => rw [map_succ, ← quotedChar_at]; rfl
  next other => rw [← drop_eq_cons inside, ← quotedChar_at]; rfl

/-! ## Words -/

/-- The end of the word at an offset, if it begins with a byte of a class and a
word may start there. -/
def wordFrom (starts : UInt8 → Bool) (text : List UInt8) (offset : Nat) :
    Except OutOfText (Option Nat) := do
  let lead ← byteAt text offset
  if starts lead then do
    if ← startsWord text offset then some <$> runEnd Byte.isIdentifier text offset
    else return none
  else return none

theorem wordFrom_eq (starts : UInt8 → Bool) (inside : offset < text.length) :
    wordFrom starts text offset =
      .ok ((if (Cursor.ofOffset text offset).atWordStart then
        Lexeme.wordFrom starts (text.drop offset) else none).map (offset + ·)) := by
  rw [wordFrom, byteAt_of_lt inside, ok_bind, startsWord_of_le (Nat.le_of_lt inside), ok_bind,
    runEnd_eq, drop_eq_cons inside, Lexeme.wordFrom, Lexeme.wordLength]
  cases (Cursor.ofOffset text offset).atWordStart with
  | true => split <;> rfl
  | false => split <;> rfl

theorem wordFrom_le_length {starts : UInt8 → Bool} {length : Nat}
    (found : Lexeme.wordFrom starts text = some length) : length ≤ text.length := by
  cases text with
  | nil => cases found
  | cons lead more =>
    simp only [Lexeme.wordFrom, Option.ite_none_right_eq_some, Option.some.injEq] at found
    exact found.2 ▸ Byte.runLength_le Byte.isIdentifier (lead :: more)

/-- What is asked of the end of a word is asked of its length, and the word lies
inside the text. -/
theorem andThen_wordFrom {α : Type} (starts : UInt8 → Bool) (inside : offset < text.length)
    {next : Nat → Except OutOfText (Option α)} (answer : Nat → Option α)
    (continues : ∀ length, offset + length ≤ text.length →
      next (offset + length) = .ok (answer length)) :
    andThen (wordFrom starts text offset) next =
      .ok (if (Cursor.ofOffset text offset).atWordStart then
        (Lexeme.wordFrom starts (text.drop offset)).bind answer else none) := by
  rw [wordFrom_eq starts inside]
  split
  next =>
    cases found : Lexeme.wordFrom starts (text.drop offset) with
    | none => rfl
    | some length =>
      have within := wordFrom_le_length found
      rw [List.length_drop] at within
      exact continues length (by omega)
  next => rfl

/-- A condition on words keeps some of them. -/
theorem andThen_wordFrom_filter (starts : UInt8 → Bool) (inside : offset < text.length)
    {next : Nat → Except OutOfText (Option Nat)} (accepts : Nat → Bool)
    (continues : ∀ length, offset + length ≤ text.length →
      next (offset + length) = .ok (if accepts length then some (offset + length) else none)) :
    andThen (wordFrom starts text offset) next =
      .ok ((if (Cursor.ofOffset text offset).atWordStart then
        (Lexeme.wordFrom starts (text.drop offset)).filter accepts else none).map
          (offset + ·)) := by
  rw [andThen_wordFrom starts inside _ continues]
  split
  next =>
    cases Lexeme.wordFrom starts (text.drop offset) with
    | none => rfl
    | some length =>
      rw [Option.bind_some, Option.filter_some]
      split <;> rfl
  next => rfl

def identifier (text : List UInt8) (offset : Nat) : Except OutOfText (Option Nat) := do
  let lead ← byteAt text offset
  if Byte.isIdentifierStart lead then some <$> runEnd Byte.isIdentifier text offset
  else return none

theorem identifier_eq (inside : offset < text.length) :
    identifier text offset = .ok ((Lexeme.identifier (text.drop offset)).map (offset + ·)) := by
  rw [identifier, byteAt_of_lt inside, ok_bind, runEnd_eq, drop_eq_cons inside,
    Lexeme.identifier, Lexeme.wordFrom, Lexeme.wordLength]
  split <;> rfl

def capitalized (text : List UInt8) (offset : Nat) : Except OutOfText (Option Nat) :=
  wordFrom (fun lead => Byte.isUpper lead || lead == Byte.underscore) text offset

def screamingCase (text : List UInt8) (offset : Nat) : Except OutOfText (Option Nat) :=
  andThen (capitalized text offset) fun stop => do
    let word ← slice text offset stop
    return if word.all fun b => !Byte.isLower b then some stop else none

theorem screamingCase_eq (inside : offset < text.length) :
    screamingCase text offset =
      .ok ((if (Cursor.ofOffset text offset).atWordStart then
        Lexeme.screamingCase (text.drop offset) else none).map (offset + ·)) := by
  apply andThen_wordFrom_filter _ inside
  intro length within
  rw [slice_of_le within]
  rfl

def keywordBeforeBlank (words : List String) (text : List UInt8) (offset : Nat) :
    Except OutOfText (Option Nat) :=
  andThen (wordFrom Byte.isIdentifierStart text offset) fun stop => do
    let word ← slice text offset stop
    return if words.any (fun known => Text.bytes known == word) && text[stop]?.any Byte.isBlank
      then some stop else none

theorem keywordBeforeBlank_eq (words : List String) (inside : offset < text.length) :
    keywordBeforeBlank words text offset =
      .ok ((if (Cursor.ofOffset text offset).atWordStart then
        Lexeme.keywordBeforeBlank words (text.drop offset) else none).map (offset + ·)) := by
  apply andThen_wordFrom_filter _ inside
  intro length within
  rw [slice_of_le within, ok_bind, List.getElem?_drop]
  rfl

def call (text : List UInt8) (offset : Nat) : Except OutOfText (Option Nat) :=
  andThen (wordFrom (fun lead => Byte.isLower lead || lead == Byte.underscore) text offset)
    fun stop => do
      let opening ← runEnd Byte.isBlank text stop
      return if text[opening]? == some Byte.parenthesis then some stop else none

theorem call_eq (inside : offset < text.length) :
    call text offset =
      .ok ((if (Cursor.ofOffset text offset).atWordStart then
        Lexeme.call (text.drop offset) else none).map (offset + ·)) := by
  apply andThen_wordFrom_filter _ inside
  intro length within
  rw [runEnd_eq, ok_bind, ← List.head?_drop, ← List.drop_drop, Byte.drop_runLength,
    List.drop_drop]
  rfl

def qualifiedPath (text : List UInt8) (offset : Nat) : Except OutOfText (Option (Nat × Nat)) :=
  andThen (wordFrom Byte.isIdentifierStart text offset) fun head => do
    let colons ← literal (Text.bytes "::") text head
    return colons.map fun stop => (head, stop)

theorem qualifiedPath_eq (inside : offset < text.length) :
    qualifiedPath text offset =
      .ok ((if (Cursor.ofOffset text offset).atWordStart then
        Lexeme.qualifiedPath (text.drop offset) else none).map
          fun found => (offset + found.1, offset + found.2)) := by
  have colons : ∀ length, offset + length ≤ text.length →
      (literal (Text.bytes "::") text (offset + length) >>= fun found =>
        pure (found.map fun stop => (offset + length, stop))) =
      .ok (if (Text.bytes "::").isPrefixOf ((text.drop offset).drop length) then
        some (offset + length, offset + (length + 2)) else none) := by
    intro length within
    rw [literal_eq _ within, ok_bind, List.drop_drop, Lexeme.literal]
    split <;> rfl
  rw [qualifiedPath, andThen_wordFrom _ inside _ colons]
  split
  next =>
    rw [Lexeme.qualifiedPath, Lexeme.identifier]
    cases Lexeme.wordFrom Byte.isIdentifierStart (text.drop offset) with
    | none => rfl
    | some length => dsimp only [Option.bind_some]; split <;> rfl
  next => rfl

def symbol (text : List UInt8) (offset : Nat) : Except OutOfText (Option Nat) := do
  let lead ← byteAt text offset
  if lead == Byte.apostrophe && text[offset + 1]?.any Byte.isIdentifierStart then
    some <$> runEnd Byte.isIdentifier text (offset + 1)
  else return none

theorem symbol_eq (inside : offset < text.length) :
    symbol text offset = .ok ((Lexeme.symbol (text.drop offset)).map (offset + ·)) := by
  rw [symbol, byteAt_of_lt inside, ok_bind, runEnd_eq, drop_eq_cons inside, Lexeme.symbol]
  cases text[offset] == Byte.apostrophe with
  | false => rfl
  | true =>
    rw [Bool.true_and, if_pos rfl, map_succ, ← List.head?_drop]
    cases text.drop (offset + 1) with
    | nil => rfl
    | cons next rest =>
      rw [List.head?_cons, Option.any_some, Lexeme.identifier, Lexeme.wordFrom]
      split <;> rfl

/-! ## Operators -/

/-- The first two bytes are cut out of the text only if there are as many. -/
def beginsLong (rest : List UInt8) : Except OutOfText Bool :=
  if 2 ≤ rest.length then Lexeme.longOperators.contains <$> slice rest 0 2 else return false

theorem beginsLong_eq (rest : List UInt8) :
    beginsLong rest = .ok (Lexeme.longOperators.contains (rest.take 2)) := by
  unfold beginsLong
  split
  next two =>
    have both : slice rest 0 2 = .ok (rest.take 2) := @slice_of_le rest 0 2 (by omega)
    rw [both, map_ok]
  next short =>
    -- What is shorter than two bytes is none of the operators that have two.
    cases listed : Lexeme.longOperators.contains (rest.take 2) with
    | false => rfl
    | true =>
      have two := (Lexeme.longOperators_ascii _ (List.contains_iff_mem.1 listed)).1
      rw [List.length_take] at two
      omega

def operator (text : List UInt8) (offset : Nat) : Except OutOfText (Option Nat) := do
  let rest ← tailAt text offset
  if ← beginsLong rest then return some (offset + 2)
  else do
    let lead ← byteAt rest 0
    return if Lexeme.shortOperators.contains lead then some (offset + 1)
      else if lead == Byte.question && rest[1]? == some Byte.parenthesis then some (offset + 1)
      else none

theorem operator_eq (inside : offset < text.length) :
    operator text offset = .ok ((Lexeme.operator (text.drop offset)).map (offset + ·)) := by
  rw [operator, tailAt_of_le (Nat.le_of_lt inside), ok_bind, beginsLong_eq, ok_bind,
    drop_eq_cons inside, Lexeme.operator]
  split
  · rfl
  · -- The slice is not empty, so that its first byte may be read.
    rw [byteAt_of_lt (Nat.succ_pos _), ok_bind, List.head?_eq_getElem?]
    dsimp only [List.getElem_cons_zero, List.getElem?_cons_succ]
    split
    · rfl
    · split <;> rfl

/-! ## Numbers -/

theorem any_getElem? (inClass : UInt8 → Bool) (text : List UInt8) (offset : Nat) :
    text[offset]?.any inClass = decide (0 < Byte.runLength inClass (text.drop offset)) := by
  rcases ahead text offset with ⟨_, lead, next, rest⟩ | ⟨missing, empty⟩
  · rw [next, rest, Option.any_some]
    cases member : inClass lead with
    | true => rw [Text.runLength_cons_of_mem member]; simp
    | false => rw [Text.runLength_cons_of_not_mem member]; simp
  · rw [missing, empty]
    rfl

/-- The digits that the letter behind a `0` announces. -/
def radixNumber (text : List UInt8) (offset : Nat) : Except OutOfText (Option Nat) :=
  match text[offset + 1]?.bind Lexeme.digitsAnnouncedBy with
  | none => return none
  | some inClass => do
    let stop ← runEnd (Lexeme.isDigitOf inClass) text (offset + 2)
    return if offset + 2 < stop then some stop else none

theorem radixNumber_eq (zero : text[offset]? = some Byte.zero) :
    radixNumber text offset =
      .ok ((Lexeme.radixNumber (text.drop offset)).map (offset + ·)) := by
  obtain ⟨inside, lead⟩ := List.getElem?_eq_some_iff.1 zero
  rw [radixNumber, drop_eq_cons inside, lead, ← List.head?_drop]
  by_cases letter : offset + 1 < text.length
  · rw [drop_eq_cons letter, List.head?_cons, Option.bind_some, Lexeme.radixNumber,
      if_pos (beq_self_eq_true Byte.zero)]
    cases Lexeme.digitsAnnouncedBy text[offset + 1] with
    | none => rfl
    | some inClass =>
      dsimp only
      rw [runEnd_eq, ok_bind]
      cases Byte.runLength (Lexeme.isDigitOf inClass) (text.drop (offset + 2)) with
      | zero => rw [if_neg (by omega)]; rfl
      | succ digits =>
        have behind : offset + (digits + 3) = offset + 2 + (digits + 1) := by omega
        rw [if_pos (by omega), Option.map_some, behind]
        rfl
  · rw [List.drop_eq_nil_of_le (Nat.le_of_not_lt letter)]
    rfl

/-- The end of a fraction at an offset, or the offset. -/
def fractionEnd (text : List UInt8) (offset : Nat) : Except OutOfText Nat :=
  if text[offset]? == some Byte.dot && text[offset + 1]?.any (Lexeme.isDigitOf Byte.isDigit) then
    runEnd (Lexeme.isDigitOf Byte.isDigit) text (offset + 1)
  else return offset

theorem fractionEnd_eq (text : List UInt8) (offset : Nat) :
    fractionEnd text offset = .ok (offset + Lexeme.fractionLength (text.drop offset)) := by
  rcases ahead text offset with ⟨_, lead, next, rest⟩ | ⟨missing, empty⟩
  · rw [fractionEnd, any_getElem?, runEnd_eq, next, rest, Lexeme.fractionLength,
      Option.some_beq_some]
    cases lead == Byte.dot with
    | false => rfl
    | true =>
      cases Byte.runLength (Lexeme.isDigitOf Byte.isDigit) (text.drop (offset + 1)) with
      | zero => rfl
      | succ digits =>
        have behind : offset + (digits + 2) = offset + 1 + (digits + 1) := by omega
        rw [if_pos (by simp)]
        exact congrArg Except.ok behind.symm
  · rw [fractionEnd, missing, empty]
    rfl

/-- The sign in front of a text is the byte that is asked for at its offset. -/
theorem signLength_drop (text : List UInt8) (offset : Nat) :
    (if text[offset]?.any fun b => b == Byte.plus || b == Byte.minus then offset + 1
      else offset) = offset + Lexeme.signLength (text.drop offset) := by
  rw [← List.head?_drop]
  cases text.drop offset with
  | nil => rfl
  | cons lead more =>
    rw [List.head?_cons, Option.any_some, Lexeme.signLength]
    split <;> rfl

/-- The end of an exponent at an offset, or the offset. -/
def exponentEnd (text : List UInt8) (offset : Nat) : Except OutOfText Nat :=
  if text[offset]?.any fun b => b == 0x65 || b == 0x45 then do
    let digits :=
      if text[offset + 1]?.any fun b => b == Byte.plus || b == Byte.minus then offset + 2
      else offset + 1
    let stop ← runEnd (Lexeme.isDigitOf Byte.isDigit) text digits
    return if digits < stop then stop else offset
  else return offset

theorem exponentEnd_eq (text : List UInt8) (offset : Nat) :
    exponentEnd text offset = .ok (offset + Lexeme.exponentLength (text.drop offset)) := by
  rcases ahead text offset with ⟨_, lead, next, rest⟩ | ⟨missing, empty⟩
  · rw [exponentEnd, next, rest, Lexeme.exponentLength, Option.any_some]
    split
    next =>
      rw [signLength_drop text (offset + 1)]
      dsimp only
      rw [runEnd_eq, ok_bind, List.drop_drop]
      cases Byte.runLength (Lexeme.isDigitOf Byte.isDigit)
          (text.drop (offset + 1 + Lexeme.signLength (text.drop (offset + 1)))) with
      | zero => rw [if_neg (by omega)]; rfl
      | succ digits => rw [if_pos (by omega)]; exact congrArg Except.ok (by dsimp only; omega)
    next => rfl
  · rw [exponentEnd, missing, empty]
    rfl

def decimalEnd (text : List UInt8) (offset : Nat) : Except OutOfText Nat := do
  let whole ← runEnd (Lexeme.isDigitOf Byte.isDigit) text (offset + 1)
  let fraction ← fractionEnd text whole
  exponentEnd text fraction

theorem decimalEnd_eq (inside : offset < text.length) (digit : Byte.isDigit text[offset] = true) :
    decimalEnd text offset = .ok (offset + Lexeme.decimalLength (text.drop offset)) := by
  have first : Lexeme.isDigitOf Byte.isDigit text[offset] = true := by
    simp [Lexeme.isDigitOf, digit]
  -- The first digit is part of the run, which is gone on with behind it.
  have whole : offset + 1 +
      Byte.runLength (Lexeme.isDigitOf Byte.isDigit) (text.drop (offset + 1)) =
      offset + Byte.runLength (Lexeme.isDigitOf Byte.isDigit) (text.drop offset) := by
    rw [drop_eq_cons inside, Text.runLength_cons_of_mem first]
    omega
  rw [decimalEnd, runEnd_eq, ok_bind, fractionEnd_eq, ok_bind, exponentEnd_eq, whole,
    Lexeme.decimalLength]
  simp only [List.drop_drop, Nat.add_assoc]

def number (text : List UInt8) (offset : Nat) : Except OutOfText (Option Nat) := do
  let lead ← byteAt text offset
  if Byte.isDigit lead then do
    if ← startsWord text offset then
      orElse (if lead == Byte.zero then radixNumber text offset else pure none)
        (some <$> decimalEnd text offset)
    else return none
  else return none

theorem radix_or_none (inside : offset < text.length) :
    (if text[offset] == Byte.zero then radixNumber text offset else pure none) =
      .ok ((Lexeme.radixNumber (text.drop offset)).map (offset + ·)) := by
  split
  next zero =>
    apply radixNumber_eq
    rw [List.getElem?_eq_getElem inside, eq_of_beq zero]
  next other =>
    rw [drop_eq_cons inside]
    cases text.drop (offset + 1) with
    | nil => rfl
    | cons letter more => rw [Lexeme.radixNumber, if_neg other]; rfl

theorem number_eq (inside : offset < text.length) :
    number text offset =
      .ok ((if (Cursor.ofOffset text offset).atWordStart then
        Lexeme.number (text.drop offset) else none).map (offset + ·)) := by
  rw [number, byteAt_of_lt inside, ok_bind, startsWord_of_le (Nat.le_of_lt inside), ok_bind,
    radix_or_none inside]
  split
  next digit =>
    rw [decimalEnd_eq inside digit, map_ok, orElse_ok, drop_eq_cons inside, Lexeme.number,
      if_pos digit]
    cases Lexeme.radixNumber (text[offset] :: text.drop (offset + 1)) <;> split <;> rfl
  next other =>
    rw [drop_eq_cons inside, Lexeme.number, if_neg other, ite_self]
    rfl

end ModalHighlight.ByOffset
