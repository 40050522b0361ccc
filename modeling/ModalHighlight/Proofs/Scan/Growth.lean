import ModalHighlight.Proofs.Scan.Progress

/-! # How modes grow

The states of a scan tell at which step something was found, but not how one
mode came to hold what it holds, because the steps of the modes inside it lie
in between.  Growth is the same scan seen mode by mode: a mode opens, takes
leaves and content, and receives a mode that was inside it at once, as a scope
or as a piece in error.  Every mode that a scan has open has grown so, and what
is proved of modes by induction on their growth holds of the outline of a text.
-/

namespace ModalHighlight

open Text (Border)

/-- What a mode takes as its own content in front of a text. -/
def Rule.contentAt (rule : Rule) (rest : List UInt8) : Scan.Action :=
  if rule.stops.isEmpty then Scan.Action.eachContent rule rest
  else Scan.Action.stoppedContent rule rest

namespace Scan

variable {grammar : Grammar} {options : Options} {text : String}
variable {mode around : OpenMode} {offset : Nat}

theorem Action.unclaimed_eq (state : State) :
    unclaimed state = state.active.rule.contentAt state.place.rest := rfl

theorem fits_of_contentAt {rule : Rule} {rest : List UInt8} {kind : Kind} {length : Nat}
    (stops : ∀ b ∈ rule.stops, b < 0x80) (left : rest ≠ [])
    (taken : rule.contentAt rest = .content kind length) : Lexeme.Fits rest length :=
  @fits_of_unclaimed ⟨⟨0, none, rest⟩, ⟨rule, 0, 0, .nil⟩, [], []⟩ kind length stops left taken

/-! ## Modes at an offset -/

namespace OpenMode

/-- A mode neither closes at an offset nor rejects what stands there.  Only the
ground mode lets through what it rejects. -/
structure GoesOn (options : Options) (text : String) (mode : OpenMode) (offset : Nat) : Prop where
  left : (Text.bytes text).drop offset ≠ []
  unclosed : ∀ matcher ∈ mode.rule.closing,
    matcher.matchAt? mode.hashes (Cursor.ofOffset (Text.bytes text) offset) = none
  admits : ∀ matcher ∈ mode.rule.illegal,
    matcher.matchAt? mode.hashes (Cursor.ofOffset (Text.bytes text) offset) = none ∨
      mode.rule.isMode = false ∧ options.flagMarkup = false

/-- Adds the match of a rule that stands at an offset. -/
def addMatch (mode : OpenMode) (rule : Rule) (hit : Hit) (text : String) (offset : Nat) :
    OpenMode :=
  let head := Action.headKind rule (((Text.bytes text).drop offset).take hit.headStop)
  (mode.add head ⟨offset, offset + hit.headStop⟩).add rule.kind
    ⟨offset + hit.headStop, offset + hit.stop⟩

/-- Where a mode stops that closes at an offset. -/
def closingStop (mode : OpenMode) (hit : Hit) (offset : Nat) : Nat :=
  if mode.rule.excludesClosing then offset else offset + hit.stop

/-- Adds the text that closes a mode, if it belongs to the mode. -/
def addClosing (mode : OpenMode) (hit : Hit) (offset : Nat) : OpenMode :=
  mode.add mode.rule.kind ⟨offset, mode.closingStop hit offset⟩

theorem le_closingStop (mode : OpenMode) (hit : Hit) (offset : Nat) :
    offset ≤ mode.closingStop hit offset := by
  unfold closingStop
  split
  · exact Nat.le_refl _
  · exact Nat.le_add_right _ _

@[simp] theorem start_add (mode : OpenMode) (kind : Kind) (span : Span) :
    (mode.add kind span).start = mode.start := by
  unfold add
  split <;> rfl

@[simp] theorem hashes_add (mode : OpenMode) (kind : Kind) (span : Span) :
    (mode.add kind span).hashes = mode.hashes := by
  unfold add
  split <;> rfl

@[simp] theorem rule_addMatch (mode : OpenMode) (rule : Rule) (hit : Hit) (text : String)
    (offset : Nat) : (mode.addMatch rule hit text offset).rule = mode.rule := by
  simp [addMatch]

@[simp] theorem start_addMatch (mode : OpenMode) (rule : Rule) (hit : Hit) (text : String)
    (offset : Nat) : (mode.addMatch rule hit text offset).start = mode.start := by
  simp [addMatch]

@[simp] theorem hashes_addMatch (mode : OpenMode) (rule : Rule) (hit : Hit) (text : String)
    (offset : Nat) : (mode.addMatch rule hit text offset).hashes = mode.hashes := by
  simp [addMatch]

@[simp] theorem rule_addClosing (mode : OpenMode) (hit : Hit) (offset : Nat) :
    (mode.addClosing hit offset).rule = mode.rule := by
  simp [addClosing]

@[simp] theorem start_addClosing (mode : OpenMode) (hit : Hit) (offset : Nat) :
    (mode.addClosing hit offset).start = mode.start := by
  simp [addClosing]

end OpenMode

/-- A mode is opened by the match of its rule inside another mode that goes on
where it starts. -/
structure Opens (grammar : Grammar) (options : Options) (text : String) (around mode : OpenMode)
    (hit : Hit) : Prop where
  goesOn : around.GoesOn options text mode.start
  found : grammar.firstMatch? around.rule.contains
    (Cursor.ofOffset (Text.bytes text) mode.start) = some (mode.rule, hit)
  isMode : mode.rule.isMode = true
  hashes : hit.hashes = mode.hashes

theorem Opens.congr {later : OpenMode} {hit : Hit}
    (opens : Opens grammar options text around mode hit) (rule : later.rule = mode.rule)
    (start : later.start = mode.start) (hashes : later.hashes = mode.hashes) :
    Opens grammar options text around later hit where
  goesOn := start ▸ opens.goesOn
  found := by
    rw [start, rule]
    exact opens.found
  isMode := rule ▸ opens.isMode
  hashes := hashes ▸ opens.hashes

theorem Opens.matched {hit : Hit} (opens : Opens grammar options text around mode hit) :
    mode.rule.opening.matchAt? 0 (Cursor.ofOffset (Text.bytes text) mode.start) = some hit := by
  obtain ⟨_, _, _, matched⟩ := Grammar.firstMatch?_eq_some opens.found
  exact matched

/-- The match that opened a mode stands between its start and an offset. -/
structure OpenMode.OpenedBy (text : String) (mode : OpenMode) (hit : Hit) (offset : Nat) :
    Prop where
  matched : mode.rule.opening.matchAt? 0 (Cursor.ofOffset (Text.bytes text) mode.start) = some hit
  fits : hit.Fits ((Text.bytes text).drop mode.start)
  within : mode.start + hit.stop ≤ offset

/-- Where a mode only grows on, what opened it stays where it is. -/
theorem OpenMode.OpenedBy.onward {later : OpenMode} {hit : Hit} {stop : Nat}
    (opened : mode.OpenedBy text hit offset) (behind : offset ≤ stop)
    (rule : later.rule = mode.rule) (start : later.start = mode.start) :
    later.OpenedBy text hit stop where
  matched := by
    rw [rule, start]
    exact opened.matched
  fits := start ▸ opened.fits
  within := start ▸ Nat.le_trans opened.within behind

/-! ## Growth -/

/-- What closes all modes above the ground at once. -/
inductive Force where
  /-- No text is left. -/
  | textEnd
  /-- One more mode would have been opened than may be open. -/
  | limit
  deriving DecidableEq, Repr

/-- Whether a mode still takes text. -/
inductive Phase where
  | growing
  /-- All modes above the ground are being closed where the scan stands. -/
  | closing (force : Force)
  deriving DecidableEq, Repr

/-- A mode has come to hold what it holds when the scan stands at an offset and
all modes above it are closed again.  `forced` says which modes were closed by
force. -/
inductive Grown (grammar : Grammar) (options : Options) (text : String)
    (forced : Force → Span → Prop) : Phase → OpenMode → Nat → Prop
  | ground : Grown grammar options text forced .growing ⟨grammar.rootRule, 0, 0, .nil⟩ 0
  | opened {around : OpenMode} {rule : Rule} {offset : Nat} {hit : Hit}
      (below : Grown grammar options text forced .growing around offset)
      (opens : Opens grammar options text around ⟨rule, offset, hit.hashes, .nil⟩ hit) :
      Grown grammar options text forced .growing
        (OpenMode.addMatch ⟨rule, offset, hit.hashes, .nil⟩ rule hit text offset)
        (offset + hit.stop)
  | leaf {mode : OpenMode} {rule : Rule} {offset : Nat} {hit : Hit}
      (before : Grown grammar options text forced .growing mode offset)
      (goesOn : mode.GoesOn options text offset)
      (found : grammar.firstMatch? mode.rule.contains
        (Cursor.ofOffset (Text.bytes text) offset) = some (rule, hit))
      (leaf : rule.isMode = false) :
      Grown grammar options text forced .growing (mode.addMatch rule hit text offset)
        (offset + hit.stop)
  | content {mode : OpenMode} {offset length : Nat} {kind : Kind}
      (before : Grown grammar options text forced .growing mode offset)
      (goesOn : mode.GoesOn options text offset)
      (unmatched : grammar.firstMatch? mode.rule.contains
        (Cursor.ofOffset (Text.bytes text) offset) = none)
      (taken : mode.rule.contentAt ((Text.bytes text).drop offset) = .content kind length) :
      Grown grammar options text forced .growing (mode.add kind ⟨offset, offset + length⟩)
        (offset + length)
  | flag {mode : OpenMode} {offset : Nat} {matcher : Matcher} {hit : Hit}
      (before : Grown grammar options text forced .growing mode offset)
      (left : (Text.bytes text).drop offset ≠ []) (ground : mode.rule.isMode = false)
      (rejects : mode.rule.illegal = some matcher)
      (found : matcher.matchAt? mode.hashes (Cursor.ofOffset (Text.bytes text) offset) = some hit)
      (flagging : options.flagMarkup = true) :
      Grown grammar options text forced .growing
        (mode.add .illegal ⟨offset, offset + hit.stop⟩) (offset + hit.stop)
  | closed {mode around : OpenMode} {offset : Nat} {matcher : Matcher} {opening hit : Hit}
      (below : Grown grammar options text forced .growing around mode.start)
      (opens : Opens grammar options text around mode opening)
      (before : Grown grammar options text forced .growing mode offset)
      (left : (Text.bytes text).drop offset ≠ []) (ends : mode.rule.closing = some matcher)
      (found : matcher.matchAt? mode.hashes
        (Cursor.ofOffset (Text.bytes text) offset) = some hit) :
      Grown grammar options text forced .growing
        (around.enclose (mode.addClosing hit offset) (mode.closingStop hit offset))
        (mode.closingStop hit offset)
  | abandoned {mode around : OpenMode} {offset : Nat} {matcher : Matcher} {opening hit : Hit}
      (below : Grown grammar options text forced .growing around mode.start)
      (opens : Opens grammar options text around mode opening)
      (before : Grown grammar options text forced .growing mode offset)
      (left : (Text.bytes text).drop offset ≠ [])
      (goesOn : ∀ closing ∈ mode.rule.closing,
        closing.matchAt? mode.hashes (Cursor.ofOffset (Text.bytes text) offset) = none)
      (rejects : mode.rule.illegal = some matcher)
      (found : matcher.matchAt? mode.hashes
        (Cursor.ofOffset (Text.bytes text) offset) = some hit) :
      Grown grammar options text forced .growing (around.add .error ⟨mode.start, offset⟩) offset
  | atEnd {mode : OpenMode} {offset : Nat}
      (before : Grown grammar options text forced .growing mode offset)
      (done : (Text.bytes text).drop offset = []) :
      Grown grammar options text forced (.closing .textEnd) mode offset
  | atLimit {mode : OpenMode} {rule : Rule} {offset : Nat} {hit : Hit}
      (before : Grown grammar options text forced .growing mode offset)
      (goesOn : mode.GoesOn options text offset)
      (found : grammar.firstMatch? mode.rule.contains
        (Cursor.ofOffset (Text.bytes text) offset) = some (rule, hit))
      (opening : rule.isMode = true) :
      Grown grammar options text forced (.closing .limit) mode offset
  | cut {mode around : OpenMode} {offset : Nat} {force : Force} {opening : Hit}
      (below : Grown grammar options text forced .growing around mode.start)
      (opens : Opens grammar options text around mode opening)
      (before : Grown grammar options text forced (.closing force) mode offset)
      (isForced : forced force ⟨mode.start, offset⟩) :
      Grown grammar options text forced (.closing force) (around.enclose mode offset) offset
  | settled {mode : OpenMode} {offset : Nat} {force : Force}
      (before : Grown grammar options text forced (.closing force) mode offset)
      (ground : mode.rule.isMode = false) :
      Grown grammar options text forced .growing mode offset

variable {forced : Force → Span → Prop} {phase : Phase}

namespace Grown

theorem known (grown : Grown grammar options text forced phase mode offset) :
    grammar.Has mode.rule := by
  induction grown with
  | ground => exact .inl rfl
  | opened _ opens => simpa using has_of_firstMatch? opens.found
  | leaf _ _ _ _ ih => simpa using ih
  | content _ _ _ _ ih => simpa using ih
  | flag _ _ _ _ _ _ ih => simpa using ih
  | closed _ _ _ _ _ _ ihBelow => exact ihBelow
  | abandoned _ _ _ _ _ _ _ ihBelow => simpa using ihBelow
  | atEnd _ _ ih => exact ih
  | atLimit _ _ _ _ ih => exact ih
  | cut _ _ _ _ ihBelow => exact ihBelow
  | settled _ _ ih => exact ih

theorem mem_table (grown : Grown grammar options text forced phase mode offset) :
    mode.rule ∈ grammar.rootRule :: grammar.rules.toList :=
  grown.known.mem_table

theorem start_le (grown : Grown grammar options text forced phase mode offset) :
    mode.start ≤ offset := by
  induction grown with
  | ground => exact Nat.le_refl 0
  | opened => simp
  | leaf _ _ _ _ ih => simpa using Nat.le_trans ih (Nat.le_add_right _ _)
  | content _ _ _ _ ih => simpa using Nat.le_trans ih (Nat.le_add_right _ _)
  | flag _ _ _ _ _ _ ih => simpa using Nat.le_trans ih (Nat.le_add_right _ _)
  | @closed mode _ offset _ _ hit _ _ _ _ _ _ ihBelow ih =>
    exact Nat.le_trans ihBelow (Nat.le_trans ih (mode.le_closingStop hit offset))
  | abandoned _ _ _ _ _ _ _ ihBelow ih => simpa using Nat.le_trans ihBelow ih
  | atEnd _ _ ih => exact ih
  | atLimit _ _ _ _ ih => exact ih
  | cut _ _ _ _ ihBelow ih => exact Nat.le_trans ihBelow ih
  | settled _ _ ih => exact ih

/-- Only the ground mode is not opened by a rule. -/
theorem rule_eq_root (grown : Grown grammar options text forced phase mode offset)
    (ground : mode.rule.isMode = false) : mode.rule = grammar.rootRule := by
  induction grown with
  | ground => rfl
  | opened _ opens =>
    have isMode := opens.isMode
    rw [OpenMode.rule_addMatch, isMode] at ground
    cases ground
  | leaf _ _ _ _ ih => simpa using ih (by simpa using ground)
  | content _ _ _ _ ih => simpa using ih (by simpa using ground)
  | flag _ _ _ _ _ _ ih => simpa using ih (by simpa using ground)
  | closed _ _ _ _ _ _ ihBelow => exact ihBelow ground
  | abandoned _ _ _ _ _ _ _ ihBelow => simpa using ihBelow (by simpa using ground)
  | atEnd _ _ ih => exact ih ground
  | atLimit _ _ _ _ ih => exact ih ground
  | cut _ _ _ _ ihBelow => exact ihBelow ground
  | settled _ _ ih => exact ih ground

theorem mem_rules (grown : Grown grammar options text forced phase mode offset)
    (lawful : grammar.Lawful) (isMode : mode.rule.isMode = true) : mode.rule ∈ grammar.rules := by
  refine grown.known.resolve_left fun root => ?_
  rw [root, Rule.isMode, lawful.root] at isMode
  cases isMode

/-- A mode grows from one border of the text to another. -/
theorem border (grown : Grown grammar options text forced phase mode offset)
    (lawful : grammar.Lawful) : Border text offset := by
  induction grown with
  | ground => exact Text.border_zero text
  | opened below opens ih =>
    exact ih.add (fits_of_firstMatch? lawful below.known opens.found).whole
  | leaf before _ found _ ih =>
    exact ih.add (fits_of_firstMatch? lawful before.known found).whole
  | content before goesOn _ taken ih =>
    exact ih.add
      (fits_of_contentAt (lawful.rule before.known).stops goesOn.left taken).cut
  | flag before _ _ rejects found _ ih =>
    have fits := Matcher.fits_of_match? ((lawful.rule before.known).illegal _ rejects) found
    exact ih.add fits.whole
  | closed _ _ before _ ends found _ ih =>
    have fits := Matcher.fits_of_match? ((lawful.rule before.known).closing _ ends) found
    unfold OpenMode.closingStop
    split
    next => exact ih
    next => exact ih.add fits.whole
  | abandoned _ _ _ _ _ _ _ _ ih => exact ih
  | atEnd _ _ ih => exact ih
  | atLimit _ _ _ _ ih => exact ih
  | cut _ _ _ _ _ ih => exact ih
  | settled _ _ ih => exact ih

/-- What opened a mode stands between its start and where it has grown to. -/
theorem exists_opening (grown : Grown grammar options text forced phase mode offset)
    (lawful : grammar.Lawful) (isMode : mode.rule.isMode = true) :
    ∃ hit, mode.OpenedBy text hit offset := by
  induction grown with
  | ground =>
    rw [Rule.isMode, lawful.root] at isMode
    cases isMode
  | @opened around rule offset hit below opens =>
    have fits := fits_of_firstMatch? lawful below.known opens.found
    have opened : OpenMode.OpenedBy text ⟨rule, offset, hit.hashes, .nil⟩ hit (offset + hit.stop) :=
      ⟨opens.matched, fits, Nat.le_refl _⟩
    exact ⟨hit, opened.onward (Nat.le_refl _) (by simp) (by simp)⟩
  | leaf _ _ _ _ ih =>
    obtain ⟨hit, opened⟩ := ih (by simpa using isMode)
    exact ⟨hit, opened.onward (Nat.le_add_right _ _) (by simp) (by simp)⟩
  | content _ _ _ _ ih =>
    obtain ⟨hit, opened⟩ := ih (by simpa using isMode)
    exact ⟨hit, opened.onward (Nat.le_add_right _ _) (by simp) (by simp)⟩
  | flag _ _ ground =>
    rw [OpenMode.rule_add, ground] at isMode
    cases isMode
  | @closed mode _ offset _ _ hit _ _ before _ _ _ ihBelow =>
    obtain ⟨opening, opened⟩ := ihBelow isMode
    have behind := Nat.le_trans before.start_le (mode.le_closingStop hit offset)
    exact ⟨opening, opened.onward behind rfl rfl⟩
  | abandoned _ _ before _ _ _ _ ihBelow =>
    obtain ⟨hit, opened⟩ := ihBelow (by simpa using isMode)
    exact ⟨hit, opened.onward before.start_le (by simp) (by simp)⟩
  | atEnd _ _ ih => exact ih isMode
  | atLimit _ _ _ _ ih => exact ih isMode
  | cut _ _ before _ ihBelow =>
    obtain ⟨hit, opened⟩ := ihBelow isMode
    exact ⟨hit, opened.onward before.start_le rfl rfl⟩
  | settled _ ground =>
    rw [ground] at isMode
    cases isMode

theorem opening_le (grown : Grown grammar options text forced phase mode offset)
    (lawful : grammar.Lawful) {hit : Hit} (opens : Opens grammar options text around mode hit) :
    mode.start + hit.stop ≤ offset := by
  obtain ⟨same, found, _, within⟩ := grown.exists_opening lawful opens.isMode
  rw [opens.matched] at found
  exact Option.some.inj found ▸ within

/-- A mode has text of its own. -/
theorem start_lt (grown : Grown grammar options text forced phase mode offset)
    (lawful : grammar.Lawful) (isMode : mode.rule.isMode = true) : mode.start < offset := by
  obtain ⟨hit, opened⟩ := grown.exists_opening lawful isMode
  exact Nat.lt_of_lt_of_le (Nat.lt_add_of_pos_right opened.fits.stop_pos) opened.within

end Grown

/-! ## Stacks of grown modes -/

/-- All open modes of a scan have grown. -/
inductive Stacked (grammar : Grammar) (options : Options) (text : String)
    (forced : Force → Span → Prop) : Phase → OpenMode → List OpenMode → Nat → Prop
  | ground {mode : OpenMode} {phase : Phase} {offset : Nat}
      (grown : Grown grammar options text forced phase mode offset)
      (root : mode.rule = grammar.rootRule) :
      Stacked grammar options text forced phase mode [] offset
  | nested {mode around : OpenMode} {outer : List OpenMode} {phase : Phase} {offset : Nat}
      {hit : Hit} (grown : Grown grammar options text forced phase mode offset)
      (opens : Opens grammar options text around mode hit)
      (below : Stacked grammar options text forced .growing around outer mode.start) :
      Stacked grammar options text forced phase mode (around :: outer) offset

namespace Stacked

variable {outer : List OpenMode} {stop : Nat} {force : Force}

theorem grown (stacked : Stacked grammar options text forced phase mode outer offset) :
    Grown grammar options text forced phase mode offset := by
  cases stacked with
  | ground grown => exact grown
  | nested grown => exact grown

theorem isMode_eq_false (stacked : Stacked grammar options text forced phase mode [] offset)
    (lawful : grammar.Lawful) : mode.rule.isMode = false := by
  cases stacked with
  | ground _ root => rw [root, Rule.isMode, lawful.root]; rfl

/-- The modes below do not mind how the one on top has grown further. -/
theorem replace {later : OpenMode} {next : Phase}
    (stacked : Stacked grammar options text forced phase mode outer offset)
    (grown : Grown grammar options text forced next later stop) (rule : later.rule = mode.rule)
    (start : later.start = mode.start) (hashes : later.hashes = mode.hashes) :
    Stacked grammar options text forced next later outer stop := by
  cases stacked with
  | ground _ root => exact .ground grown (rule.trans root)
  | nested _ opens below =>
    exact .nested grown (opens.congr rule start hashes) (start ▸ below)

/-- A mode above the ground was opened by the one below it. -/
theorem exists_around (stacked : Stacked grammar options text forced phase mode outer offset)
    (nested : outer ≠ []) :
    ∃ around below hit, outer = around :: below ∧ Opens grammar options text around mode hit ∧
      Stacked grammar options text forced .growing around below mode.start := by
  cases stacked with
  | ground => exact absurd rfl nested
  | nested _ opens below => exact ⟨_, _, _, rfl, opens, below⟩

/-- All modes above the ground are closed by force. -/
theorem fold (stacked : Stacked grammar options text forced (.closing force) mode outer offset)
    (isForced : ∀ problem ∈ State.unterminated offset mode outer,
      forced force problem.diagnostic.span) :
    Stacked grammar options text forced (.closing force) (State.ground offset mode outer) []
      offset := by
  induction outer generalizing mode with
  | nil => exact stacked
  | cons around outer ih =>
    cases stacked with
    | nested grown opens below =>
      have here := isForced _ List.mem_cons_self
      refine ih (below.replace (.cut below.grown opens grown here) rfl rfl rfl) ?_
      intro problem member
      rw [unterminated_enclose] at member
      exact isForced problem (List.mem_cons_of_mem _ member)

/-- After that, the ground mode grows on. -/
theorem settle (stacked : Stacked grammar options text forced (.closing force) mode outer offset)
    (lawful : grammar.Lawful)
    (isForced : ∀ problem ∈ State.unterminated offset mode outer,
      forced force problem.diagnostic.span) :
    Stacked grammar options text forced .growing (State.ground offset mode outer) [] offset := by
  have folded := stacked.fold isForced
  exact folded.replace (.settled folded.grown (folded.isMode_eq_false lawful)) rfl rfl rfl

end Stacked

/-! ## The modes of a scan -/

section States

variable {state : State} {action : Action}

theorem State.Sound.unclosed (sound : state.Sound grammar options text)
    (unclosed : Action.closing? state = none) :
    ∀ matcher ∈ state.active.rule.closing, matcher.matchAt? state.active.hashes
      (Cursor.ofOffset (Text.bytes text) state.offset) = none := by
  intro matcher ends
  rw [Action.closing?, Option.mem_def.1 ends] at unclosed
  rw [← sound.place]
  exact Option.map_eq_none_iff.1 unclosed

theorem State.Sound.goesOn (sound : state.Sound grammar options text) (lawful : grammar.Lawful)
    (left : state.place.rest ≠ []) (unclosed : Action.closing? state = none)
    (admitted : Action.rejection? options state = none) :
    state.active.GoesOn options text state.offset where
  left := sound.rest_eq ▸ left
  unclosed := sound.unclosed unclosed
  admits matcher rejects := by
    rw [← sound.place]
    cases found : matcher.matchAt? state.active.hashes state.place with
    | none => exact .inl rfl
    | some hit =>
      rw [Action.rejection?, Option.mem_def.1 rejects] at admitted
      simp only [found] at admitted
      cases modes : state.outer with
      | cons around outer => simp [modes] at admitted
      | nil =>
        refine .inr ⟨?_, by simpa [modes] using admitted⟩
        rw [sound.rule_eq_root modes, Rule.isMode, lawful.root]
        rfl

theorem State.Sound.active_takeMatch (sound : state.Sound grammar options text) (mode : OpenMode)
    (outer : List OpenMode) (rule : Rule) {hit : Hit} (fits : hit.Fits state.place.rest) :
    (Action.takeMatch rule hit { state with active := mode, outer := outer }).active =
      mode.addMatch rule hit text state.offset := by
  have moved : (state.place.skip hit.headStop).offset = state.offset + hit.headStop :=
    Cursor.offset_skip _ _ (Nat.le_trans fits.le fits.whole.le_length)
  have stop : state.offset + hit.headStop + (hit.stop - hit.headStop) =
      state.offset + hit.stop := by
    rw [Nat.add_assoc, Nat.add_sub_cancel' fits.le]
  simp only [Action.takeMatch, State.take, State.offset, OpenMode.addMatch] at moved stop ⊢
  rw [moved, stop, ← State.offset, ← sound.rest_eq]

theorem Stacked.leave {outer : List OpenMode} (modes : state.outer = around :: outer)
    (closed : Stacked grammar options text forced phase
      (around.enclose state.active state.offset) outer state.offset) :
    Stacked grammar options text forced phase state.leave.active state.leave.outer
      state.leave.offset := by
  rw [State.leave, modes]
  exact closed

theorem Stacked.abandon {outer : List OpenMode} (modes : state.outer = around :: outer)
    (given : Stacked grammar options text forced phase
      (around.add .error ⟨state.active.start, state.offset⟩) outer state.offset) :
    Stacked grammar options text forced phase state.abandon.active state.abandon.outer
      state.abandon.offset := by
  rw [State.abandon, modes]
  exact given

/-- Whatever a scan decides to do, its modes have grown. -/
theorem Stacked.perform
    (stacked : Stacked grammar options text forced .growing state.active state.outer state.offset)
    (sound : state.Sound grammar options text) (lawful : grammar.Lawful)
    (left : state.place.rest ≠ []) (chosen : Chosen grammar options state action)
    (limited : ∀ problem ∈ (action.perform options state).problems,
      problem.diagnostic.kind = .nestingLimit →
        ∀ start, forced .limit ⟨start, problem.diagnostic.span.stop⟩) :
    Stacked grammar options text forced .growing (action.perform options state).active
      (action.perform options state).outer (action.perform options state).offset := by
  have fits := chosen.fits lawful sound.layered.known left
  have rest : (Text.bytes text).drop state.offset ≠ [] := sound.rest_eq ▸ left
  have place := sound.place
  have grown := stacked.grown
  cases chosen with
  | @close matcher hit ends found =>
    rw [place] at found
    obtain ⟨around, outer, _, modes, opens, below⟩ :=
      stacked.exists_around (sound.layered.outer_ne_nil lawful ends)
    have closed := below.replace (.closed below.grown opens grown rest ends found) rfl rfl rfl
    simp only [Action.perform]
    split
    next excluded =>
      rw [OpenMode.addClosing, OpenMode.closingStop, if_pos excluded, OpenMode.add_empty] at closed
      exact .leave modes closed
    next included =>
      rw [OpenMode.addClosing, OpenMode.closingStop, if_neg included] at closed
      refine .leave modes ?_
      rw [offset_take state _ fits.whole.le_length]
      exact closed
  | @abandon matcher hit unclosed rejects found nested =>
    have unclosedAt := sound.unclosed unclosed
    rw [place] at found
    obtain ⟨around, outer, _, modes, opens, below⟩ := stacked.exists_around nested
    refine .abandon modes (below.replace ?_ (by simp) (by simp) (by simp))
    exact .abandoned below.grown opens grown rest unclosedAt rejects found
  | @flag matcher hit unclosed rejects found ground flagging =>
    rw [place] at found
    rw [ground] at stacked
    have isMode := stacked.isMode_eq_false lawful
    have moved : (state.flag hit.stop).offset = state.offset + hit.stop :=
      offset_take state .illegal fits.whole.le_length
    have flagged := stacked.replace (.flag grown rest isMode rejects found flagging) (by simp)
      (by simp) (by simp)
    simp only [Action.perform]
    rw [moved, State.flag, State.take, ground]
    exact flagged
  | @leaf rule hit unclosed admitted found leaf =>
    have goesOn := sound.goesOn lawful left unclosed admitted
    rw [place] at found
    simp only [Action.perform]
    rw [offset_takeMatch rule state fits, sound.active_takeMatch state.active state.outer rule fits]
    exact stacked.replace (Grown.leaf grown goesOn found leaf) (OpenMode.rule_addMatch ..)
      (OpenMode.start_addMatch ..) (OpenMode.hashes_addMatch ..)
  | @enter rule hit unclosed admitted found mode room =>
    have goesOn := sound.goesOn lawful left unclosed admitted
    rw [place] at found
    have opens : Opens grammar options text state.active ⟨rule, state.offset, hit.hashes, .nil⟩
        hit := ⟨goesOn, found, mode, rfl⟩
    simp only [Action.perform]
    rw [offset_takeMatch rule (state.enter rule hit.hashes) fits, State.enter,
      sound.active_takeMatch _ _ rule fits]
    refine .nested (.opened grown opens) (opens.congr (OpenMode.rule_addMatch ..)
      (OpenMode.start_addMatch ..) (OpenMode.hashes_addMatch ..)) ?_
    rw [OpenMode.start_addMatch]
    exact stacked
  | @unwind rule hit unclosed admitted found mode full =>
    have goesOn := sound.goesOn lawful left unclosed admitted
    rw [place] at found
    have closing := stacked.replace (.atLimit grown goesOn found mode) rfl rfl rfl
    refine closing.settle lawful fun problem member => ?_
    have isForced := limited _ List.mem_cons_self rfl problem.diagnostic.span.start
    have here : problem.diagnostic.span = ⟨problem.diagnostic.span.start, state.offset⟩ := by
      rw [← (of_mem_unterminated member).2]
    rw [here]
    exact isForced
  | @content kind length unclosed admitted unmatched taken =>
    have goesOn := sound.goesOn lawful left unclosed admitted
    rw [place] at unmatched
    rw [Action.unclaimed_eq, sound.rest_eq] at taken
    simp only [Action.perform]
    rw [offset_take state kind fits.cut.le_length]
    exact stacked.replace (Grown.content grown goesOn unmatched taken) (OpenMode.rule_add ..)
      (OpenMode.start_add ..) (OpenMode.hashes_add ..)

theorem Reachable.stacked (reachable : Reachable grammar options text state)
    (lawful : grammar.Lawful) (room : 0 < options.maxDepth)
    (limited : ∀ problem ∈ state.problems, problem.diagnostic.kind = .nestingLimit →
      ∀ start, forced .limit ⟨start, problem.diagnostic.span.stop⟩) :
    Stacked grammar options text forced .growing state.active state.outer state.offset := by
  induction reachable with
  | start => exact .ground .ground rfl
  | @step before reached left ih =>
    -- Problems are never taken back, so those met before are among those met since.
    have kept : before.problems <:+ (Scan.step grammar options before).problems :=
      problems_perform (Action.next grammar options before) before
    refine (ih fun problem met => limited problem (kept.subset met)).perform
      (reached.sound lawful room) lawful left (chosen_next grammar options before) limited

/-- How the open modes have grown, with no account of what was closed by force. -/
theorem Reachable.growing (reachable : Reachable grammar options text state)
    (lawful : grammar.Lawful) (room : 0 < options.maxDepth) :
    Stacked grammar options text (fun _ _ => True) .growing state.active state.outer
      state.offset :=
  reachable.stacked lawful room fun _ _ _ _ => trivial

end States

end Scan

/-! ## Highlighting -/

/-- The modes that a result reports as closed by force. -/
def Highlighted.Forced (result : Highlighted) : Scan.Force → Span → Prop
  | .textEnd, span => ∃ diagnostic ∈ result.diagnostics,
      diagnostic.kind = .unterminated ∧ diagnostic.span = span
  | .limit, span => ∃ diagnostic ∈ result.diagnostics,
      diagnostic.kind = .nestingLimit ∧ diagnostic.span.stop = span.stop

/-- The outline of a text is that of a ground mode that has grown to its end, and
all modes that were closed by force on the way are reported. -/
theorem Highlighter.grown_highlight (highlighter : Highlighter)
    (lawful : highlighter.language.grammar.Lawful) (text : String) :
    ∃ mode, mode.rule = highlighter.language.grammar.rootRule ∧
      (highlighter.highlight text).outline = mode.inside ∧
      Scan.Grown highlighter.language.grammar highlighter.options text
        (highlighter.highlight text).Forced .growing mode text.utf8ByteSize := by
  have room := highlighter.leastMaxDepth_le
  have positive : 0 < highlighter.options.maxDepth := Nat.lt_of_lt_of_le (by decide) room
  obtain ⟨last, reached, done, found⟩ := Scan.reachable_run lawful room text
  have sound := reached.sound lawful positive
  have problems : (highlighter.highlight text).problems = last.finish.problems :=
    congrArg Scan.Findings.problems found
  have reported : ∀ problem ∈ last.finish.problems,
      problem.diagnostic ∈ (highlighter.highlight text).diagnostics := by
    intro problem met
    rw [Highlighted.diagnostics, problems]
    exact List.mem_map_of_mem met
  have stacked : Scan.Stacked _ _ text (highlighter.highlight text).Forced .growing last.active
      last.outer last.offset :=
    reached.stacked lawful positive fun problem met limit start =>
      ⟨_, reported problem (by simp [Scan.State.finish, met]), limit, rfl⟩
  have closing := stacked.replace (.atEnd stacked.grown (sound.rest_eq ▸ done)) rfl rfl rfl
  have settled := closing.settle lawful fun problem isOpen =>
    ⟨_, reported problem (by simp [Scan.State.finish, isOpen]),
      (Scan.of_mem_unterminated isOpen).1, rfl⟩
  refine ⟨_, ?_, congrArg Scan.Findings.outline found, ?_⟩
  · cases settled with
    | ground _ root => exact root
  · rw [← sound.offset_of_done done]
    exact settled.grown

end ModalHighlight
