import ModalHighlight.Proofs.Scan.Headers
import ModalHighlight.Proofs.Scan.Ledger

/-! # Taking back a mode

Nothing is saved when a mode opens.  Giving the mode up cuts the tokens off at its
start and the scopes at its slot.  That this leads back to where the mode opened is
not seen from the step alone.  No text since then may have joined an older token or
changed an older scope, and the modes below must have kept their numbers.
-/

namespace ModalHighlight.Scan

namespace Numbering

variable {numbering : Numbering}

@[simp] theorem outer_add (numbering : Numbering) (owner : UInt32) (kind : Kind) (span : Span) :
    (numbering.add owner kind span).outer = numbering.outer := by
  unfold add
  split <;> rfl

@[simp] theorem outer_addFresh (numbering : Numbering) (kind : Kind) (span : Span) :
    (numbering.addFresh kind span).outer = numbering.outer := by
  simp [addFresh, draw]

@[simp] theorem active_addFresh (numbering : Numbering) (kind : Kind) (span : Span) :
    (numbering.addFresh kind span).active = numbering.active := by
  simp [addFresh, draw]

@[simp] theorem outer_emit (numbering : Numbering) (own kind : Kind) (span : Span) :
    (numbering.emit own kind span).outer = numbering.outer := by
  unfold emit
  split <;> simp

@[simp] theorem active_emit (numbering : Numbering) (own kind : Kind) (span : Span) :
    (numbering.emit own kind span).active = numbering.active := by
  unfold emit
  split <;> simp

@[simp] theorem outer_emitMatch (numbering : Numbering) (own : Kind) (rule : Rule) (hit : Hit)
    (place : Cursor) : (numbering.emitMatch own rule hit place).outer = numbering.outer := by
  simp [emitMatch]

@[simp] theorem active_emitMatch (numbering : Numbering) (own : Kind) (rule : Rule) (hit : Hit)
    (place : Cursor) : (numbering.emitMatch own rule hit place).active = numbering.active := by
  simp [emitMatch]

end Numbering

namespace Ledger

variable {grammar : Grammar} {options : Options} {text : String} {ledger before : Ledger}
variable {rule : Rule} {top : StackFrame} {steps : Nat}

/-! ## Since a mode was opened -/

/-- A mode that was opened lies on top of what there was before. -/
structure Above (before : Ledger) (top : StackFrame) (ledger : Ledger) : Prop where
  start : top.start = before.state.offset
  frames : ledger.frames = top :: before.frames
  outer : ledger.state.outer = before.state.active :: before.state.outer
  owners : ledger.numbering.outer = before.numbering.active :: before.numbering.outer
  problems : ledger.state.problems = before.state.problems

theorem above_enter {hit : Hit} (left : before.state.place.rest ≠ [])
    (enters : Action.next grammar options before.state = .enter rule hit) :
    ∃ top, Above before top (step grammar options before) := by
  rw [step_of_left left, Scan.step, enters]
  let numbering := before.numbering.enter before.state.active.rule.kind rule.kind
  refine ⟨⟨rule, before.state.offset, hit.hashes, numbering.active, some before.scopes.length⟩, ?_⟩
  constructor <;> simp [numbering, frames, scopes, Action.perform, Action.takeMatch, State.take,
    State.enter, Numbering.follow, Numbering.enter, Slots.follow, Slots.enter]

/-- A step has left all modes alone. -/
structure Stays (ledger later : Ledger) : Prop where
  frames : later.frames = ledger.frames
  outer : later.state.outer = ledger.state.outer
  owners : later.numbering.outer = ledger.numbering.outer
  problems : later.state.problems = ledger.state.problems

theorem Stays.refl (ledger : Ledger) : Stays ledger ledger := ⟨rfl, rfl, rfl, rfl⟩

theorem Above.stay {later : Ledger} (above : Above before top ledger) (stays : Stays ledger later) :
    Above before top later where
  start := above.start
  frames := stays.frames.trans above.frames
  outer := stays.outer.trans above.outer
  owners := stays.owners.trans above.owners
  problems := stays.problems.trans above.problems

theorem stays_leaf {hit : Hit} (left : ledger.state.place.rest ≠ [])
    (takes : Action.next grammar options ledger.state = .leaf rule hit) :
    Stays ledger (step grammar options ledger) := by
  rw [step_of_left left, Scan.step, takes]
  constructor <;> simp [frames, Action.perform, Action.takeMatch, State.take, Numbering.follow,
    Slots.follow]

theorem stays_content {kind : Kind} {length : Nat} (left : ledger.state.place.rest ≠ [])
    (takes : Action.next grammar options ledger.state = .content kind length) :
    Stays ledger (step grammar options ledger) := by
  rw [step_of_left left, Scan.step, takes]
  constructor <;> simp [frames, Action.perform, State.take, Numbering.follow, Slots.follow]

/-- A step after which a mode of a flat rule is on top has opened it, or was one of its
own. -/
theorem enters_or_stays (kept : Kept grammar options text ledger)
    (fair : Fair grammar options text) (isMode : rule.isMode = true) (flat : rule.Flat grammar)
    (active : (step grammar options ledger).state.active.rule = rule) :
    (ledger.state.place.rest ≠ [] ∧
        ∃ hit, Action.next grammar options ledger.state = .enter rule hit) ∨
      ledger.state.active.rule = rule ∧ Stays ledger (step grammar options ledger) := by
  by_cases done : ledger.state.place.rest = []
  · rw [step_of_done done] at active ⊢
    exact .inr ⟨active, .refl ledger⟩
  have sound := kept.reachable.sound fair.lawful fair.positive
  have stacked := kept.reachable.growing fair.lawful fair.positive
  have next : (step grammar options ledger).state.Sound grammar options text :=
    (kept.step fair).reachable.sound fair.lawful fair.positive
  -- Rules of modes close, so the ground mode is not on top.
  have nested : (step grammar options ledger).state.outer ≠ [] := by
    intro ground
    rw [← active, next.rule_eq_root ground, Rule.isMode, fair.lawful.root] at isMode
    cases isMode
  have chosen := chosen_next grammar options ledger.state
  generalize decided : Action.next grammar options ledger.state = action at chosen
  rw [step_of_left done, Scan.step, decided] at active nested
  -- Closing a mode or giving it up uncovers one that had opened it, which no flat rule does.
  cases chosen with
  | @close _ hit ends =>
    obtain ⟨around, outer, _, modes, opens, _⟩ :=
      stacked.exists_around (sound.layered.outer_ne_nil fair.lawful ends)
    have same : around.rule = rule := by
      rw [← active]
      simp only [Action.perform]
      split <;> simp [State.leave, State.take, modes, OpenMode.enclose]
    exact absurd (same ▸ flat) opens.not_flat
  | abandon _ _ _ above =>
    obtain ⟨around, outer, _, modes, opens, _⟩ := stacked.exists_around above
    have same : around.rule = rule := by
      rw [← active]
      simp [Action.perform, State.abandon, modes]
    exact absurd (same ▸ flat) opens.not_flat
  | flag _ _ _ ground => exact absurd ground nested
  | leaf =>
    refine .inr ⟨?_, stays_leaf done decided⟩
    simpa [Action.perform, Action.takeMatch, State.take] using active
  | @enter inner hit =>
    refine .inl ⟨done, hit, congrArg (Action.enter · hit) ?_⟩
    simpa [Action.perform, Action.takeMatch, State.take, State.enter, OpenMode.rule_add]
      using active
  | unwind => exact absurd rfl nested
  | content =>
    refine .inr ⟨?_, stays_content done decided⟩
    simpa [Action.perform, State.take] using active

/-- A mode of a rule was opened at a step, and has been on top since then. -/
structure OpenedAt (grammar : Grammar) (options : Options) (text : String) (rule : Rule)
    (top : StackFrame) (steps earlier : Nat) : Prop where
  before : earlier < steps
  enters : ∃ hit,
    Action.next grammar options (after grammar options (Text.bytes text) earlier).state =
      .enter rule hit
  above : ∀ later, earlier < later → later ≤ steps →
    Above (after grammar options (Text.bytes text) earlier) top
      (after grammar options (Text.bytes text) later)

/-- A mode of a flat rule that is on top has been there since it was opened. -/
theorem exists_openedAt (fair : Fair grammar options text) (isMode : rule.isMode = true)
    (flat : rule.Flat grammar)
    (active : (after grammar options (Text.bytes text) steps).state.active.rule = rule) :
    ∃ top earlier, OpenedAt grammar options text rule top steps earlier := by
  induction steps with
  | zero =>
    have root : grammar.rootRule = rule := active
    rw [← root, Rule.isMode, fair.lawful.root] at isMode
    cases isMode
  | succ steps ih =>
    rw [after_succ] at active
    rcases enters_or_stays (kept_after fair steps) fair isMode flat active with
      ⟨left, hit, enters⟩ | ⟨same, stays⟩
    · -- The mode is new, and this step is the one that opened it.
      obtain ⟨top, above⟩ := above_enter left enters
      refine ⟨top, steps, Nat.lt_succ_self steps, ⟨hit, enters⟩, fun later behind within => ?_⟩
      obtain rfl : later = steps + 1 := by omega
      rw [after_succ]
      exact above
    · obtain ⟨top, earlier, before, enters, above⟩ := ih same
      refine ⟨top, earlier, Nat.lt_succ_of_lt before, enters, fun later behind within => ?_⟩
      rcases Nat.lt_or_eq_of_le within with inside | rfl
      · exact above later behind (Nat.le_of_lt_succ inside)
      · rw [after_succ]
        exact (above steps before (Nat.le_refl _)).stay stays

/-! ## Giving a mode up -/

theorem Above.start_active (above : Above before top ledger) :
    ledger.state.active.start = before.state.offset := by
  have frames := above.frames
  simp only [Ledger.frames, List.zip_cons_cons, List.map_cons, List.cons.injEq] at frames
  rw [← above.start, ← frames.1]

theorem Above.state_abandon (above : Above before top ledger) (left : ledger.state.place.rest ≠ [])
    (abandons : Action.next grammar options ledger.state = .abandon) :
    let span : Span := ⟨ledger.state.active.start, ledger.state.offset⟩
    (step grammar options ledger).state =
      ⟨ledger.state.place, before.state.active.add .error span, before.state.outer,
        .malformed ledger.state.active.rule.name span :: before.state.problems⟩ := by
  rw [step_of_left left, Scan.step, abandons]
  simp [Action.perform, State.abandon, above.outer, above.problems]

theorem Above.owners_abandon (above : Above before top ledger) (left : ledger.state.place.rest ≠ [])
    (abandons : Action.next grammar options ledger.state = .abandon) :
    (step grammar options ledger).numbering.active = before.numbering.active ∧
      (step grammar options ledger).numbering.outer = before.numbering.outer := by
  rw [step_of_left left, abandons]
  simp [Numbering.follow, Numbering.abandon, above.owners]

theorem Above.lt (above : Above before top ledger) (sound : ledger.state.Sound grammar options text) :
    ledger.state.active.start < ledger.state.offset := by
  have layered := sound.layered
  rw [above.outer] at layered
  cases layered with
  | nested _ tiles leads => exact tiles.lt_of_leads leads

/-- Giving up a mode leads back to where it was opened, but for the error. -/
theorem Kept.rolls_back (kept : Kept grammar options text ledger)
    (earlier : Kept grammar options text before) (fair : Fair grammar options text)
    (above : Above before top ledger) (left : ledger.state.place.rest ≠ [])
    (abandons : Action.next grammar options ledger.state = .abandon) :
    let later := Ledger.step grammar options ledger
    let span : Span := ⟨ledger.state.active.start, ledger.state.offset⟩
    later.frames = before.frames ∧ later.scopes = before.scopes ∧
      later.tokens = before.tokens ++ [⟨.error, span⟩] ∧
        later.problems = before.problems ++ [.malformed ledger.state.active.rule.name span] ∧
          later.state.offset = ledger.state.offset := by
  intro later span
  have again : Kept grammar options text later := kept.step fair
  have state := above.state_abandon left abandons
  have owners := above.owners_abandon left abandons
  have proper := above.lt (kept.reachable.sound fair.lawful fair.positive)
  -- The open modes are those of before, and they say what the slots are.
  have slots : later.slots = before.slots := by
    rw [again.slots, earlier.slots, state, Slots.ofModes_add]
  have tokens : later.tokens = before.tokens ++ [⟨.error, span⟩] := by
    have sound := earlier.reachable.sound fair.lawful fair.positive
    have other : Kind.error ≠ before.state.active.rule.kind :=
      fair.accountable.ne_rule sound.layered.known rfl
    have covers := (again.along fair).covers
    rw [state, segments_add _ _ _ proper, if_neg other] at covers
    -- An error is no content, so it does not join what is in front of it.
    have apart : ∀ last : Segment, last.joins ⟨⟨.error, span⟩, none⟩ = false := by
      refine fun last => Bool.eq_false_iff.2 fun joined => ?_
      obtain ⟨content, none, _⟩ := Segment.joins_iff.1 joined
      rw [none] at content
      cases content
    have appended : Segment.Runs (Numbering.Short text)
        (segments before.state.active before.state.outer ++ [⟨⟨.error, span⟩, none⟩])
        (before.tokens ++ [⟨.error, span⟩]) :=
      (earlier.along fair).covers.runs.concat fun last _ => apart last
    exact (covers.condensed fair.short).trans (appended.eq_condense fair.short).symm
  refine ⟨?_, congrArg Slots.scopes slots, tokens, ?_, ?_⟩
  · simp [later, frames, state, owners, slots]
  · simp [later, problems, state, span]
  · simp [later, state, State.offset]

end Ledger

end ModalHighlight.Scan

namespace ModalHighlight

namespace Scan

variable {grammar : Grammar} {options : Options} {text : String} {state : State}

/-- A mode above the ground is given up where it does not close and what it rejects
stands. -/
theorem next_eq_abandon {matcher : Matcher} {hit : Hit} (goesOn : Action.closing? state = none)
    (rejects : state.active.rule.illegal = some matcher)
    (found : matcher.matchAt? state.active.hashes state.place = some hit)
    (nested : state.outer ≠ []) : Action.next grammar options state = .abandon := by
  have rejected : Action.rejection? options state = some .abandon := by
    obtain ⟨around, outer, modes⟩ := List.exists_cons_of_ne_nil nested
    simp [Action.rejection?, rejects, found, modes]
  simp [Action.next, goesOn, rejected]

/-- What the header of a type rejects is no colon, so nothing closes the header there. -/
theorem closing?_of_rejected (sound : state.Sound grammar options text)
    (same : state.active.rule = Flint.namedType) {matcher : Matcher} {hit : Hit}
    (rejects : state.active.rule.illegal = some matcher)
    (found : matcher.matchAt? state.active.hashes state.place = some hit) :
    state.place.rest ≠ [] ∧ Action.closing? state = none := by
  obtain rfl : Matcher.stray (Text.bytes " \t\r\n\x0c:") = matcher := by
    rw [same] at rejects
    exact Option.some.inj rejects
  rw [sound.place, Matcher.matchAt?_stray] at found
  obtain ⟨b, here, ⟨_, unlisted⟩, _⟩ := found
  constructor
  · obtain ⟨inside, _⟩ := List.getElem?_eq_some_iff.1 here
    rw [sound.rest_eq, ne_eq, List.drop_eq_nil_iff]
    exact Nat.not_le.2 inside
  · have isClosing : state.active.rule.closing = some (.literal ":") := by rw [same]; rfl
    rw [Action.closing?, isClosing]
    simp only [Option.map_eq_none_iff]
    rw [sound.place, Matcher.matchAt?_literal_eq_none, Flint.prefix_colon_iff]
    intro isColon
    obtain rfl := Option.some.inj (isColon.symm.trans here)
    exact unlisted (by decide)

end Scan

/-! ## Highlighting -/

/-- With any options, whatever the header of a type rejects gives it up.  From when the
header was opened until then it is on top of an unchanged stack.  Stack and scopes
are left as they were before, an error over the header is behind the tokens, a report
of it behind the problems, and the scan goes on where it stands. -/
theorem abandon_rolls_back (options : Scan.Options) (text : String)
    (small : text.utf8ByteSize ≤ 2 ^ 30) (steps : Nat) :
    let highlighter := Highlighter.default.withOptions options
    let ledger := highlighter.ledger text
    let next steps :=
      Scan.Action.next highlighter.language.grammar highlighter.options (ledger steps).state
    let header := (ledger steps).state.active
    let span : Span := ⟨header.start, (ledger steps).state.offset⟩
    header.rule.kind = .classHeader →
      (∃ matcher ∈ header.rule.illegal,
        (matcher.matchAt? header.hashes (ledger steps).state.place).isSome) →
      ∃ earlier < steps, ∃ top : Scan.StackFrame,
        ((∃ hit, next earlier = .enter header.rule hit) ∧
          (ledger earlier).state.offset = header.start ∧
          ∀ later, earlier < later → later ≤ steps →
            (ledger later).frames = top :: (ledger earlier).frames) ∧
        next steps = .abandon ∧
        (ledger (steps + 1)).frames = (ledger earlier).frames ∧
        (ledger (steps + 1)).scopes = (ledger earlier).scopes ∧
        (ledger (steps + 1)).tokens = (ledger earlier).tokens ++ [⟨.error, span⟩] ∧
        (ledger (steps + 1)).problems =
          (ledger earlier).problems ++ [.malformed header.rule.name span] ∧
        (ledger (steps + 1)).state.offset = (ledger steps).state.offset := by
  intro highlighter ledger next header span isType rejected
  obtain ⟨matcher, rejects, matched⟩ := rejected
  obtain ⟨hit, found⟩ := Option.isSome_iff_exists.1 matched
  have fair := Highlighter.fair_withOptions options small
  have kept := Scan.Ledger.kept_after fair steps
  have sound := kept.reachable.sound fair.lawful fair.positive
  have stacked := kept.reachable.growing fair.lawful fair.positive
  have nested : (ledger steps).state.outer ≠ [] := by
    intro ground
    rw [show header.rule = Flint.grammar.rootRule from sound.rule_eq_root ground] at isType
    rw [Flint.grammar_grounded.root] at isType
    cases isType
  obtain ⟨_, _, _, _, opens, _⟩ := stacked.exists_around nested
  have known := stacked.grown.mem_rules fair.lawful opens.isMode
  have same : header.rule = Flint.namedType :=
    (Flint.rule_eq_of_header _ known opens.isMode).2.1 isType
  obtain ⟨left, goesOn⟩ := Scan.closing?_of_rejected sound same rejects found
  have abandons : next steps = .abandon := Scan.next_eq_abandon goesOn rejects found nested
  have flat := Flint.namedType_declares.flat
  obtain ⟨top, earlier, before, enters, above⟩ := Scan.Ledger.exists_openedAt fair rfl flat same
  have onTop := above steps before (Nat.le_refl _)
  obtain ⟨frames, scopes, tokens, problems, offset⟩ :=
    kept.rolls_back (Scan.Ledger.kept_after fair earlier) fair onTop left abandons
  rw [← Scan.Ledger.after_succ] at frames scopes tokens problems offset
  refine ⟨earlier, before, top, ⟨same ▸ enters, onTop.start_active.symm, ?_⟩, abandons, frames,
    scopes, tokens, problems, offset⟩
  exact fun later behind within => (above later behind within).frames

/-- The header of a type that is given up behind other text. -/
theorem abandon_rolls_back_behind :
    let highlighter := Highlighter.default.withOptions ⟨64, true⟩
    let ledger := highlighter.ledger "x error e\x7b"
    let header := (ledger 5).state.active
    let span : Span := ⟨header.start, (ledger 5).state.offset⟩
    ("x error e\x7b".utf8ByteSize ≤ 2 ^ 30 ∧ header.rule.kind = .classHeader ∧
      (∃ matcher ∈ header.rule.illegal,
        (matcher.matchAt? header.hashes (ledger 5).state.place).isSome) ∧ span = ⟨2, 9⟩) ∧
      ∃ earlier < 5, (ledger 6).frames = (ledger earlier).frames ∧
        (ledger 6).scopes = (ledger earlier).scopes ∧
        (ledger 6).tokens = (ledger earlier).tokens ++ [⟨.error, span⟩] ∧
        (ledger 6).problems = (ledger earlier).problems ++ [.malformed header.rule.name span] ∧
        (ledger 6).state.offset = (ledger 5).state.offset :=
  have small : "x error e\x7b".utf8ByteSize ≤ 2 ^ 30 := by decide
  have isType : ((Highlighter.default.withOptions ⟨64, true⟩).ledger
      "x error e\x7b" 5).state.active.rule.kind = .classHeader := by decide
  have rejected :
      let state := ((Highlighter.default.withOptions ⟨64, true⟩).ledger "x error e\x7b" 5).state
      ∃ matcher ∈ state.active.rule.illegal,
        (matcher.matchAt? state.active.hashes state.place).isSome := by
    decide
  have ⟨earlier, before, _, _, _, rolledBack⟩ :=
    abandon_rolls_back ⟨64, true⟩ "x error e\x7b" small 5 isType rejected
  ⟨⟨small, isType, rejected, by decide⟩, earlier, before, rolledBack⟩

end ModalHighlight
