import ModalHighlight.Proofs.Grammar.Words
import ModalHighlight.Proofs.Scan.Growth
import ModalHighlight.Proofs.Scan.Marks

/-! # Where rules start in words

Code is scanned word by word, so that a rule of code starts at the start of a word,
or in front of a byte that is in none.  The exception is behind a number: a number
may leave the rest of its word standing, and a `b` or an `r` there opens a string or
a character literal all the same.  A scan keeps to this: wherever it stands inside
a word of code, a number is what it took last.
-/

namespace ModalHighlight.Scan

open Lexeme (SplitsWord LastIn)

variable {grammar : Grammar} {options : Options} {text : String} {state : State}
variable {action : Action} {length offset : Nat}

/-! ## What a scan took last -/

/-- The kind of the last piece. -/
def State.lastKind? (state : State) : Option Kind := state.pieces.getLast?.map Piece.kind

namespace State

theorem lastKind?_of_pieces_eq {other : State} (same : other.pieces = state.pieces) :
    other.lastKind? = state.lastKind? := by
  rw [lastKind?, same, lastKind?]

theorem lastKind?_take (state : State) (kind : Kind) (pos : 0 < length) :
    (state.take kind length).lastKind? = some kind := by
  rw [lastKind?, pieces_take, if_neg (Nat.ne_of_gt pos), List.getLast?_append_cons]
  rfl

theorem lastKind?_take_zero (state : State) (kind : Kind) :
    (state.take kind 0).lastKind? = state.lastKind? :=
  lastKind?_of_pieces_eq (by rw [pieces_take, if_pos rfl, List.append_nil])

theorem lastKind?_abandon (nested : state.outer ≠ []) (proper : state.active.start < state.offset) :
    state.abandon.lastKind? = some .error := by
  unfold abandon
  split
  next ground => exact absurd ground nested
  next around outer modes =>
    simp [lastKind?, pieces, OpenMode.add_of_lt _ .error proper]

end State

theorem exists_lastKind?_takeMatch (state : State) (rule : Rule) {hit : Hit}
    (fits : hit.Fits state.place.rest) :
    ∃ kind ∈ rule.leafKinds, (Action.takeMatch rule hit state).lastKind? = some kind ∧
      (rule.head = .rule → kind = rule.kind) := by
  have head := fits.head.pos
  rcases Nat.eq_zero_or_pos (hit.stop - hit.headStop) with none | pos
  · refine ⟨_, rule.headKind_mem_leafKinds (state.place.rest.take hit.headStop), ?_, ?_⟩
    · rw [Action.takeMatch, none, State.lastKind?_take_zero, State.lastKind?_take _ _ head]
    · intro plain
      rw [Action.headKind, plain]
  · exact ⟨rule.kind, List.mem_cons_self, State.lastKind?_take _ _ pos, fun _ => rfl⟩

/-! ## Words at offsets -/

theorem lastIn_add {bytes : List UInt8} (pos : 0 < length) :
    LastIn Byte.isIdentifier bytes (offset + length) ↔
      LastIn Byte.isIdentifier (bytes.drop offset) length := by
  refine ⟨fun ⟨_, b, stands, isIn⟩ => ⟨pos, b, ?_, isIn⟩, LastIn.add⟩
  rw [List.getElem?_drop, ← Nat.add_sub_assoc pos]
  exact stands

theorem splitsWord_add {bytes : List UInt8} (pos : 0 < length) :
    SplitsWord bytes (offset + length) ↔ SplitsWord (bytes.drop offset) length := by
  rw [SplitsWord, SplitsWord, lastIn_add pos, List.getElem?_drop]

/-- In front of what begins with no identifier byte, no word is split. -/
theorem State.Sound.not_splitsWord (sound : state.Sound grammar options text)
    {matcher : Matcher} {hashes : Nat} {hit : Hit} (outside : matcher.foreign = true)
    (found : matcher.matchAt? hashes state.place = some hit) :
    ¬SplitsWord (Text.bytes text) state.offset := by
  refine Lexeme.not_splitsWord_of_next fun b next => ?_
  refine Matcher.isIdentifier_head_of_foreign outside found b ?_
  rwa [sound.rest_eq, List.head?_drop]

/-- Content that is looked at again at every word ends where a word does. -/
theorem not_splitsWord_eachContent {rule : Rule} {rest : List UInt8} {kind : Kind}
    (whole : Text.Whole rest) (left : rest ≠ [])
    (taken : Action.eachContent rule rest = .content kind length) : ¬SplitsWord rest length := by
  unfold Action.eachContent at taken
  split at taken
  next none =>
    obtain rfl := (Action.content.inj taken).2
    cases rest with
    | nil => exact absurd rfl left
    | cons lead more =>
      rintro ⟨⟨pos, b, stands, isIn⟩, _⟩
      -- An identifier byte would be the whole character, and so begin a word.
      by_cases same : lead = b
      · rw [Lexeme.wordLength, Text.runLength_cons_of_mem (same ▸ isIn)] at none
        cases none
      · refine Lexeme.not_mem_take_charLength whole (Byte.isIdentifier_ascii isIn) same ?_
        refine List.mem_of_getElem? (i := Byte.charLength (lead :: more) - 1) ?_
        rw [List.getElem?_take_of_lt (Nat.sub_one_lt_of_lt pos)]
        exact stands
  next others count =>
    obtain rfl := (Action.content.inj taken).2
    have apart := Lexeme.not_splitsWord_wordLength rest
    rwa [count] at apart

/-! ## What a scan keeps to -/

/-- Inside a word of code, a scan has just taken a number, and a number ends with an
identifier byte. -/
structure State.Worded (text : String) (state : State) : Prop where
  code : state.active.rule.holdsCode = true → SplitsWord (Text.bytes text) state.offset →
    state.lastKind? = some .number
  number : state.lastKind? = some .number →
    LastIn Byte.isIdentifier (Text.bytes text) state.offset

namespace State.Worded

/-- At the border of a word, behind anything but a number. -/
theorem of_apart (apart : ¬SplitsWord (Text.bytes text) state.offset)
    (other : state.lastKind? ≠ some .number) : state.Worded text :=
  ⟨fun _ within => absurd within apart, fun isNumber => absurd isNumber other⟩

/-- Where the scan stays, it keeps to words if what it stands in does. -/
theorem stay {later : State} (kept : state.Worded text) (offset : later.offset = state.offset)
    (last : later.lastKind? = state.lastKind?)
    (code : state.active.rule.holdsCode = true ∨ ¬SplitsWord (Text.bytes text) state.offset) :
    later.Worded text := by
  refine ⟨fun _ within => ?_, fun isNumber => ?_⟩
  · rw [offset] at within
    rw [last]
    exact kept.code (code.resolve_right (not_not_intro within)) within
  · rw [offset]
    exact kept.number (last ▸ isNumber)

/-- Behind a piece that is no number and that ends where a word does. -/
theorem of_take {later : State} {kind : Kind} (sound : state.Sound grammar options text)
    (pos : 0 < length) (within : length ≤ state.place.rest.length)
    (apart : ¬SplitsWord state.place.rest length) (other : kind ≠ .number)
    (offset : later.offset = (state.take kind length).offset)
    (pieces : later.pieces = (state.take kind length).pieces) : later.Worded text := by
  refine .of_apart ?_ ?_
  · rw [offset, offset_take state kind within, splitsWord_add pos, ← sound.rest_eq]
    exact apart
  · rw [lastKind?_of_pieces_eq pieces, lastKind?_take state kind pos]
    exact fun isNumber => other (Option.some.inj isNumber)

theorem start (grammar : Grammar) (text : String) :
    (State.start grammar (Text.bytes text)).Worded text :=
  of_apart (fun within => Nat.lt_irrefl 0 within.1.1)
    (by simp [State.lastKind?, pieces, State.start])

/-- Behind a match that a rule of code has taken. -/
theorem takeMatch (place : state.place = Cursor.ofOffset (Text.bytes text) state.offset)
    (worded : grammar.Worded) {rule : Rule} {hit : Hit} (known : rule ∈ grammar.rules)
    (matched : rule.opening.matchAt? 0 state.place = some hit) (fits : hit.Fits state.place.rest)
    (ends : (Action.takeMatch rule hit state).active.rule.holdsCode = true →
      rule.opening.endsWord = true ∨ rule.kind = .number ∧ rule.head = .rule) :
    (Action.takeMatch rule hit state).Worded text := by
  obtain ⟨kind, among, last, own⟩ := exists_lastKind?_takeMatch state rule fits
  have moved := offset_takeMatch rule state fits
  have rest : state.place.rest = (Text.bytes text).drop state.offset := congrArg Cursor.rest place
  rw [Matcher.matchAt?, rest] at matched
  constructor
  · intro code within
    rcases ends code with endsWord | ⟨isNumber, plain⟩
    · rw [moved, splitsWord_add fits.stop_pos] at within
      exact absurd within (Matcher.not_splitsWord endsWord matched)
    · rw [last, own plain, isNumber]
  · intro isNumber
    obtain rfl : kind = .number := Option.some.inj (last.symm.trans isNumber)
    rw [worded.numbers rule known among] at matched
    obtain ⟨stop, number, rfl⟩ :=
      Option.map_eq_some_iff.1 (Option.ite_none_right_eq_some.1 matched).2
    rw [moved, lastIn_add fits.stop_pos]
    exact Lexeme.lastIn_number number

end State.Worded

/-- Whatever a scan decides to do, it keeps to words. -/
theorem State.Worded.perform {forced : Force → Span → Prop} (kept : state.Worded text)
    (sound : state.Sound grammar options text)
    (stacked : Stacked grammar options text forced .growing state.active state.outer state.offset)
    (lawful : grammar.Lawful) (worded : grammar.Worded) (left : state.place.rest ≠ [])
    (chosen : Chosen grammar options state action) :
    (action.perform options state).Worded text := by
  have fits := chosen.fits lawful sound.layered.known left
  have grown := stacked.grown
  have table := grown.mem_table
  have own : Kind.number ∉ state.active.rule.contentKinds := by
    refine worded.content _ table ?_
    cases isMode : state.active.rule.isMode with
    | true => exact .inr rfl
    | false => exact .inl (grown.rule_eq_root isMode)
  cases chosen with
  | @close matcher hit ends found =>
    have isMode : state.active.rule.isMode = true := by
      rw [Rule.isMode, ends]
      rfl
    have matched := worded.closing _ (grown.mem_rules lawful isMode) matcher ends
    simp only [Action.perform]
    split
    next excluded =>
      -- The closing text stays where it is, and it begins with no identifier byte.
      rw [if_pos excluded] at matched
      exact kept.stay (offset_leave state) (State.lastKind?_of_pieces_eq (State.pieces_leave state))
        (.inr (sound.not_splitsWord matched found))
    next included =>
      rw [if_neg included] at matched
      exact .of_take sound fits.stop_pos fits.whole.le_length (Matcher.not_splitsWord matched found)
        (fun isNumber => own (isNumber ▸ List.mem_cons_self)) (offset_leave _)
        (State.pieces_leave _)
  | @abandon matcher hit unclosed rejects found nested =>
    obtain ⟨_, _, _, _, opens, _⟩ := stacked.exists_around nested
    have known := grown.mem_rules lawful opens.isMode
    -- What the mode had taken is one piece in error now, in front of the text that
    -- the mode rejects.
    simp only [Action.perform]
    refine .of_apart ?_ ?_
    · rw [offset_abandon]
      exact sound.not_splitsWord (worded.illegal _ known opens.isMode matcher rejects) found
    · rw [State.lastKind?_abandon nested (sound.start_lt nested)]
      decide
  | @flag matcher hit unclosed rejects found ground flagging =>
    have root := sound.rule_eq_root ground
    have apart := Matcher.not_splitsWord (worded.flagged matcher (root ▸ rejects)) found
    have other : Kind.illegal ≠ .number := by decide
    exact .of_take sound fits.stop_pos fits.whole.le_length apart other rfl rfl
  | @leaf rule hit unclosed admitted found leaf =>
    obtain ⟨id, listed, rule?, matched⟩ := Grammar.firstMatch?_eq_some found
    refine .takeMatch sound.place worded (Array.mem_of_getElem? rule?) matched fits fun code => ?_
    rw [Action.takeMatch, State.take, State.take, OpenMode.rule_add, OpenMode.rule_add] at code
    exact worded.leaves _ table code id listed rule rule? leaf
  | @enter rule hit unclosed admitted found mode room =>
    obtain ⟨id, listed, rule?, matched⟩ := Grammar.firstMatch?_eq_some found
    have known : rule ∈ grammar.rules := Array.mem_of_getElem? rule?
    have entered := @State.Worded.takeMatch grammar text (state.enter rule hit.hashes)
    refine entered sound.place worded known matched fits fun code => ?_
    rw [Action.takeMatch, State.take, State.take, OpenMode.rule_add, OpenMode.rule_add] at code
    exact .inl (worded.modes rule known mode code)
  | @unwind rule hit unclosed admitted found mode full =>
    refine kept.stay rfl (State.lastKind?_of_pieces_eq (State.pieces_unwind state _)) ?_
    cases code : state.active.rule.holdsCode with
    | true => exact .inl rfl
    | false =>
      -- The ground mode goes on from inside a mode that holds no code.  The opening
      -- that was one too many stands there still.
      obtain ⟨id, listed, rule?, matched⟩ := Grammar.firstMatch?_eq_some found
      have isMode : state.active.rule.isMode = true := by
        rw [Rule.holdsCode, Bool.or_eq_false_iff, Bool.not_eq_false'] at code
        exact code.1
      have known := grown.mem_rules lawful isMode
      exact .inr (sound.not_splitsWord
        (worded.elsewhere _ known code id listed rule rule? mode) matched)
  | @content kind length unclosed admitted unmatched taken =>
    have moved := offset_take state kind fits.cut.le_length
    constructor
    · -- Only code takes its content word by word.
      intro code within
      simp only [Action.perform] at code within ⊢
      rw [State.take, OpenMode.rule_add] at code
      rw [Action.unclaimed, worded.stops _ table code] at taken
      rw [moved, splitsWord_add fits.pos, ← sound.rest_eq] at within
      exact absurd within (not_splitsWord_eachContent sound.whole_rest left taken)
    · simp only [Action.perform]
      rw [State.lastKind?_take state kind fits.pos]
      intro isNumber
      exact absurd (Option.some.inj isNumber ▸ Rule.content_mem taken) own

theorem Reachable.worded (reachable : Reachable grammar options text state)
    (lawful : grammar.Lawful) (worded : grammar.Worded) (room : 0 < options.maxDepth) :
    state.Worded text := by
  induction reachable with
  | start => exact .start grammar text
  | @step before reached left ih =>
    have stacked := reached.growing lawful room
    exact ih.perform (reached.sound lawful room) stacked lawful worded left
      (chosen_next grammar options before)

/-! ## Where rules start -/

/-- A scan that takes a rule found it among those that the active mode may nest. -/
theorem firstMatch?_of_next {rule : Rule} {hit : Hit}
    (taken : Action.next grammar options state = .leaf rule hit ∨
      Action.next grammar options state = .enter rule hit) :
    grammar.firstMatch? state.active.rule.contains state.place = some (rule, hit) := by
  have chosen := chosen_next grammar options state
  rcases taken with next | next <;> rw [next] at chosen <;> cases chosen <;> assumption

/-- In code, what starts inside a word starts there with a letter. -/
theorem State.Sound.lettered (sound : state.Sound grammar options text)
    (worded : grammar.Worded)
    (table : state.active.rule ∈ grammar.rootRule :: grammar.rules.toList)
    (code : state.active.rule.holdsCode = true) {rule : Rule} {hit : Hit}
    (found : grammar.firstMatch? state.active.rule.contains state.place = some (rule, hit))
    (within : SplitsWord (Text.bytes text) state.offset) :
    rule.opening.lettered = true ∧
      ∃ b ∈ (Text.bytes text)[state.offset]?, b ∈ [Byte.letterB, Byte.letterR] := by
  obtain ⟨id, listed, rule?, matched⟩ := Grammar.firstMatch?_eq_some found
  obtain ⟨last, b, stands, isIn⟩ := within
  have first : b ∈ state.place.rest.head? := by rwa [sound.rest_eq, List.head?_drop]
  have inside : state.place.atWordStart = false := by
    rw [sound.place]
    exact Lexeme.atWordStart_eq_false.2 last
  rw [Matcher.matchAt?, inside] at matched
  rcases worded.starts _ table code id listed rule rule? with asks | letter
  · rw [Matcher.isIdentifier_head_of_asksWordStart asks matched b first] at isIn
    cases isIn
  · exact ⟨letter, b, stands, Matcher.mem_letters_of_lettered letter matched b first isIn⟩

end ModalHighlight.Scan

namespace ModalHighlight

open Lexeme (SplitsWord)

/-- With any options, a rule that is taken in the ground mode or in a substitution
starts inside a word if and only if it is a string, raw string or character literal
that begins with a letter right behind a number. -/
theorem rules_start_within_words_iff (options : Scan.Options) (text : String)
    (state : Scan.State) (rule : Rule) (hit : Hit)
    (reachable : Scan.Reachable Flint.grammar (Highlighter.default.withOptions options).options
      text state)
    (code : state.outer = [] ∨ state.active.rule.kind = .subst)
    (taken : Scan.Action.next Flint.grammar (Highlighter.default.withOptions options).options
        state = .leaf rule hit ∨
      Scan.Action.next Flint.grammar (Highlighter.default.withOptions options).options
        state = .enter rule hit) :
    SplitsWord (Text.bytes text) state.offset ↔
      state.lastKind? = some .number ∧ rule.opening.lettered = true ∧
        ∃ b ∈ (Text.bytes text)[state.offset]?, b ∈ [Byte.letterB, Byte.letterR] := by
  have room : 0 < (Highlighter.default.withOptions options).options.maxDepth :=
    Nat.lt_of_lt_of_le (by decide) (Highlighter.default.withOptions options).leastMaxDepth_le
  have sound := reachable.sound Flint.grammar_lawful room
  have kept := reachable.worded Flint.grammar_lawful Flint.grammar_worded room
  have stacked : Scan.Stacked Flint.grammar _ text (fun _ _ => True) .growing state.active
      state.outer state.offset :=
    reachable.stacked Flint.grammar_lawful room fun _ _ _ _ => trivial
  have table := stacked.grown.mem_table
  have holdsCode : state.active.rule.holdsCode = true := by
    rcases code with ground | substitution
    · rw [sound.rule_eq_root ground]
      rfl
    · simp [Rule.holdsCode, substitution]
  constructor
  · intro within
    exact ⟨kept.code holdsCode within, sound.lettered Flint.grammar_worded table holdsCode
      (Scan.firstMatch?_of_next taken) within⟩
  · rintro ⟨isNumber, _, b, stands, letter⟩
    refine ⟨kept.number isNumber, b, stands, ?_⟩
    have letters : ∀ c ∈ [Byte.letterB, Byte.letterR], Byte.isIdentifier c = true := by
      decide +kernel
    exact letters b letter

/-- The character literal right behind a number is read as one, `b` and all. -/
theorem rules_start_within_words_character :
    let options := (Highlighter.default.withOptions ⟨64, true⟩).options
    let state := Scan.step Flint.grammar options (.start Flint.grammar (Text.bytes "1b'a'"))
    (Scan.Reachable Flint.grammar options "1b'a'" state ∧ state.outer = [] ∧
      Scan.Action.next Flint.grammar options state = .leaf Flint.charLiteral (.whole 4)) ∧
      (SplitsWord (Text.bytes "1b'a'") 1 ↔
        state.lastKind? = some .number ∧ Flint.charLiteral.opening.lettered = true ∧
          ∃ b ∈ (Text.bytes "1b'a'")[1]?, b ∈ [Byte.letterB, Byte.letterR]) :=
  have reachable := Scan.Reachable.step .start (by decide)
  have next := by decide
  ⟨⟨reachable, rfl, next⟩,
    rules_start_within_words_iff ⟨64, true⟩ "1b'a'" _ _ _ reachable (.inl rfl) (.inl next)⟩

/-- So rules of code do start inside words. -/
theorem not_forall_rules_start_outside_words :
    ¬∀ (options : Scan.Options) (text : String) (state : Scan.State) (rule : Rule) (hit : Hit),
      Scan.Reachable Flint.grammar (Highlighter.default.withOptions options).options text state →
      (state.outer = [] ∨ state.active.rule.kind = .subst) →
      (Scan.Action.next Flint.grammar (Highlighter.default.withOptions options).options
          state = .leaf rule hit ∨
        Scan.Action.next Flint.grammar (Highlighter.default.withOptions options).options
          state = .enter rule hit) →
      ¬SplitsWord (Text.bytes text) state.offset := by
  intro outside
  have reachable : Scan.Reachable Flint.grammar
      (Highlighter.default.withOptions ⟨64, true⟩).options "1b'a'" _ :=
    .step .start (by decide)
  have next : Scan.Action.next Flint.grammar (Highlighter.default.withOptions ⟨64, true⟩).options
      (Scan.step Flint.grammar (Highlighter.default.withOptions ⟨64, true⟩).options
        (.start Flint.grammar (Text.bytes "1b'a'"))) =
      .leaf Flint.charLiteral (.whole 4) := by
    decide
  refine outside ⟨64, true⟩ "1b'a'" _ _ _ reachable (.inl rfl) (.inl next) ?_
  refine ⟨⟨by decide, 0x31, ?_, ?_⟩, Byte.letterB, ?_, ?_⟩ <;> decide

end ModalHighlight
