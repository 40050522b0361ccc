import ModalHighlight.Proofs.Outline.Finer
import ModalHighlight.Proofs.Scan.Likeness
import ModalHighlight.Proofs.Scan.Numbering

/-! # Stops change nothing

The stops of a rule let a scan pass over content without looking at it.  They
suffice if all that could match in the mode begins at one of them.  Then a scan
that looks again at every character finds nothing between two stops either: it
takes the content in smaller pieces, but comes to the same places with the same
modes open.  The smaller pieces carry one number, so they are put together again,
and the tokens, scopes and problems are the same in the end.
-/

namespace ModalHighlight

open Text (Cut Whole)

/-- The same rule, looking again at every character. -/
def Rule.withoutStops (rule : Rule) : Rule := { rule with stops := [] }

def Grammar.withoutStops (grammar : Grammar) : Grammar :=
  { grammar with rules := grammar.rules.map Rule.withoutStops }

namespace Grammar

theorem rule?_withoutStops (grammar : Grammar) (id : RuleId) :
    grammar.withoutStops.rule? id = (grammar.rule? id).map Rule.withoutStops := by
  simp [rule?, withoutStops]

theorem rootRule_withoutStops (grammar : Grammar) :
    grammar.withoutStops.rootRule = grammar.rootRule.withoutStops := by
  have root := grammar.rule?_withoutStops grammar.root
  simp only [rootRule, withoutStops] at root ⊢
  rw [root]
  cases grammar.rule? grammar.root <;> rfl

end Grammar

theorem Cursor.skip_add (first second : Nat) (place : Cursor) :
    place.skip (first + second) = (place.skip first).skip second := by
  induction first generalizing place with
  | zero =>
    rw [Nat.zero_add]
    rfl
  | succ first ih =>
    obtain ⟨offset, before, rest⟩ := place
    rw [Nat.succ_add]
    cases rest with
    | nil => simp [Cursor.skip]
    | cons b more => exact ih ⟨offset + 1, some b, more⟩

/-! ## What matches begin with -/

namespace Matcher

/-- The bytes that the matches of a matcher begin with, if these are few. -/
def leads? : Matcher → Option (List UInt8)
  | literal text => (Text.bytes text).head?.map fun lead => [lead]
  | anyOf set => some set
  | rawClose => some [Byte.quote]
  | escape => some [Byte.backslash]
  | _ => none

/-- All matches begin with one of some bytes. -/
def BeginsIn (set : List UInt8) (matcher : Matcher) : Prop :=
  ∃ leads ∈ matcher.leads?, ∀ b ∈ leads, b ∈ set

instance (set : List UInt8) (matcher : Matcher) : Decidable (matcher.BeginsIn set) :=
  inferInstanceAs (Decidable (∃ leads ∈ matcher.leads?, ∀ b ∈ leads, b ∈ set))

theorem match?_eq_none {matcher : Matcher} {set : List UInt8} (begins : matcher.BeginsIn set)
    {lead : UInt8} (apart : lead ∉ set) (wordStart : Bool) (hashes : Nat) (more : List UInt8) :
    matcher.match? wordStart hashes (lead :: more) = none := by
  obtain ⟨leads, few, within⟩ := begins
  have other : ∀ b ∈ leads, lead ≠ b := by
    rintro b member rfl
    exact apart (within lead member)
  cases matcher with
  | literal text =>
    obtain ⟨first, isFirst, rfl⟩ := Option.map_eq_some_iff.1 few
    cases expected : Text.bytes text with
    | nil => simp [expected] at isFirst
    | cons first' rest =>
      obtain rfl : first' = first := by simpa [expected] using isFirst
      have differs : first' ≠ lead := (other first' List.mem_cons_self).symm
      simp [match?, Lexeme.literal, expected, differs]
  | anyOf set' =>
    obtain rfl : set' = leads := Option.some.inj few
    have absent : lead ∉ set' := fun member => other lead member rfl
    simp [match?, Lexeme.oneOf, absent]
  | rawClose =>
    obtain rfl : [Byte.quote] = leads := Option.some.inj few
    simp [match?, Lexeme.rawClose, other Byte.quote List.mem_cons_self]
  | escape =>
    obtain rfl : [Byte.backslash] = leads := Option.some.inj few
    cases more <;> simp [match?, Lexeme.escape, other Byte.backslash List.mem_cons_self]
  | _ => cases few

end Matcher

/-! ## Rules whose stops suffice -/

/-- All that could match in the mode of a rule begins at its stops, which are
no identifier bytes, and its content has no other kind than its own. -/
structure Rule.StopsSuffice (grammar : Grammar) (rule : Rule) : Prop where
  keywords : rule.keywords = none
  illegal : rule.illegal = none
  words : ∀ b ∈ rule.stops, Byte.isIdentifier b = false
  closing : ∀ matcher ∈ rule.closing, matcher.BeginsIn rule.stops
  nested : ∀ id ∈ rule.contains, ∀ inner ∈ grammar.rule? id, inner.opening.BeginsIn rule.stops

instance (grammar : Grammar) (rule : Rule) : Decidable (rule.StopsSuffice grammar) :=
  decidable_of_iff
    (rule.keywords = none ∧ rule.illegal = none ∧
      rule.stops.any Byte.isIdentifier = false ∧
      (∀ matcher ∈ rule.closing, matcher.BeginsIn rule.stops) ∧
      ∀ id ∈ rule.contains, ∀ inner ∈ grammar.rule? id, inner.opening.BeginsIn rule.stops)
    ⟨fun ⟨keywords, illegal, words, closing, nested⟩ =>
      ⟨keywords, illegal, fun b stop => Bool.eq_false_iff.2 (List.any_eq_false.1 words b stop),
        closing, nested⟩,
      fun ⟨keywords, illegal, words, closing, nested⟩ =>
      ⟨keywords, illegal, List.any_eq_false.2 fun b stop => Bool.eq_false_iff.1 (words b stop),
        closing, nested⟩⟩

/-- The stops of all rules suffice, and the ground mode is plain. -/
structure Grammar.StopsSuffice (grammar : Grammar) : Prop where
  root : grammar.rootRule.kind = .plain
  rules : ∀ rule ∈ grammar.rootRule :: grammar.rules.toList,
    rule.stops ≠ [] → rule.StopsSuffice grammar

theorem Flint.grammar_stopsSuffice : Flint.grammar.StopsSuffice := by
  constructor <;> decide +kernel

theorem Flint.grammar_withoutStops_lawful : Flint.grammar.withoutStops.Lawful := by
  decide +kernel

namespace Scan

variable {grammar : Grammar} {options : Options} {text : String} {before slow : State}
variable {rule : Rule} {bytes : List UInt8} {length taken : Nat} {numbering : Numbering}
variable {action : Action}

/-! ## Content between stops -/

/-- A scan that looks at each character takes a part of what lies up to a stop. -/
theorem exists_eachContent_eq (keywords : rule.keywords = none) (whole : Whole bytes)
    (cut : Cut bytes length) (pos : 0 < length)
    (next : ∀ b ∈ bytes[length]?, Byte.isIdentifier b = false) :
    ∃ part, Lexeme.Fits bytes part ∧ part ≤ length ∧
      Action.eachContent rule bytes = .content rule.kind part := by
  unfold Action.eachContent
  have word := Lexeme.wordLength_cut bytes
  have within := Text.runLength_le_of_getElem? cut.le_length next
  cases count : Lexeme.wordLength bytes with
  | zero =>
    refine ⟨_, ⟨?_, Text.cut_charLength bytes⟩, cut.charLength_le whole pos, rfl⟩
    cases bytes with
    | nil => exact absurd cut.le_length (Nat.not_le.2 pos)
    | cons lead more => exact Byte.charLength_pos lead more
  | succ part =>
    refine ⟨part + 1, ⟨Nat.succ_pos _, count ▸ word⟩, ?_, by simp [keywords]⟩
    rw [Lexeme.wordLength] at count
    omega

/-- The next stop comes after some bytes, or the text ends there. -/
structure UpToStop (stops bytes : List UInt8) (length : Nat) : Prop where
  whole : Whole bytes
  cut : Cut bytes length
  between : ∀ b ∈ bytes.take length, b ∉ stops
  next : ∀ b ∈ bytes[length]?, b ∈ stops

theorem UpToStop.drop {stops : List UInt8} (upTo : UpToStop stops bytes length) {part : Nat}
    (cut : Cut bytes part) (within : part ≤ length) :
    UpToStop stops (bytes.drop part) (length - part) where
  whole := cut.whole upTo.whole
  cut := upTo.cut.sub upTo.whole within
  between b member := by
    rw [← List.drop_take] at member
    exact upTo.between b (List.mem_of_mem_drop member)
  next b found := by
    rw [List.getElem?_drop, Nat.add_sub_cancel' within] at found
    exact upTo.next b found

/-- In front of a byte that is no stop, nothing in the mode matches. -/
theorem UpToStop.claimed?_eq_none {state : State}
    (upTo : UpToStop state.active.rule.stops state.place.rest length) (pos : 0 < length)
    (suffice : state.active.rule.StopsSuffice grammar) : claimed? grammar options state = none := by
  obtain ⟨lead, more, rest⟩ :=
    List.exists_cons_of_length_pos (Nat.lt_of_lt_of_le pos upTo.cut.le_length)
  have apart : lead ∉ state.active.rule.stops := by
    refine upTo.between lead ?_
    rw [rest, List.take_cons pos]
    exact List.mem_cons_self
  have unmatched : ∀ {matcher : Matcher} (hashes : Nat),
      matcher.BeginsIn state.active.rule.stops → matcher.matchAt? hashes state.place = none := by
    intro matcher hashes begins
    rw [Matcher.matchAt?, rest]
    exact Matcher.match?_eq_none begins apart _ _ _
  have goesOn : Action.closing? state = none := by
    unfold Action.closing?
    cases ends : state.active.rule.closing with
    | none => rfl
    | some matcher => simp [unmatched _ (suffice.closing matcher ends)]
  have admitted : Action.rejection? options state = none := by
    simp [Action.rejection?, suffice.illegal]
  have none : grammar.firstMatch? state.active.rule.contains state.place = none := by
    refine List.findSome?_eq_none_iff.2 fun id member => ?_
    cases known : grammar.rule? id with
    | none => rfl
    | some inner => simp [unmatched _ (suffice.nested id member inner known)]
  simp [claimed?, goesOn, admitted, Action.nested?, none]

/-! ## Two scans side by side -/

/-- A scan that looks again at every character, compared to one that does not. -/
def withoutStops : Likeness where
  later := []
  distance := 0
  stops _ := []
  earlier := []
  inside place := Outline.Finer (place.getD .plain)
  nil := .nil
  piece := .piece
  scope := .scope

theorem withoutStops_kind (alike : withoutStops.States before slow) :
    slow.active.rule.kind = before.active.rule.kind := by
  rw [alike.modes.rule_eq]
  rfl

theorem offset_taken (within : taken ≤ before.place.rest.length)
    (alike : withoutStops.States (before.take before.active.rule.kind taken) slow) :
    slow.offset = before.offset + taken := by
  have here : slow.offset = (before.take before.active.rule.kind taken).offset :=
    alike.place.offset
  rw [here]
  exact Cursor.offset_skip taken before.place within

/-- What one scan takes as one piece, the other may take in two. -/
theorem withoutStops_split (pos : 0 < taken)
    (alike : withoutStops.States (before.take before.active.rule.kind taken) slow)
    (plain : before.outer = [] → before.active.rule.kind = .plain)
    (fits : Lexeme.Fits (before.place.rest.drop taken) length) :
    withoutStops.States (before.take before.active.rule.kind (taken + length))
      (slow.take before.active.rule.kind length) := by
  have within := fits.cut.le_length
  have restEq : (before.take before.active.rule.kind taken).place.rest =
      before.place.rest.drop taken := Cursor.rest_skip _ _
  have moved := alike.place.skip (restEq ▸ within)
  have offset : slow.offset = before.offset + taken := by
    rw [List.length_drop] at within
    refine offset_taken ?_ alike
    have := fits.pos
    omega
  have first : before.offset < before.offset + taken := by omega
  have second : before.offset + taken < before.offset + taken + length := by
    have := fits.pos
    omega
  have both : before.offset < before.offset + (taken + length) := by omega
  refine ⟨?_, ?_, alike.problems⟩
  · simp only [State.take, Cursor.skip_add] at moved ⊢
    exact moved
  · have modes := alike.modes
    simp only [State.take, offset, OpenMode.add_of_lt _ _ first, OpenMode.add_of_lt _ _ second,
      OpenMode.add_of_lt _ _ both] at modes ⊢
    generalize before.outer = outer at modes plain
    generalize slow.outer = outer' at modes
    rw [← Nat.add_assoc]
    cases modes with
    | ground rule hashes inside =>
      refine .ground rule hashes ?_
      simp only [withoutStops, Option.getD_none, plain rfl] at inside ⊢
      exact .split inside
    | nested rule hashes start inside below => exact .nested rule hashes start (.split inside) below

/-- Two scans that do the same make the same tokens. -/
theorem withoutStops_follow (alike : withoutStops.States before slow)
    (chosen : Chosen grammar options before action) (numbering : Numbering) :
    numbering.follow (withoutStops.action action) slow = numbering.follow action before := by
  have offset : slow.offset = before.offset := alike.place.offset
  have kind := withoutStops_kind alike
  have matched : ∀ (numbering : Numbering) (own : Kind) (rule : Rule) (hit : Hit),
      numbering.emitMatch own (withoutStops.rule rule) hit slow.place =
        numbering.emitMatch own rule hit before.place := by
    intro numbering own rule hit
    have place : slow.place.offset = before.place.offset := offset
    simp only [Numbering.emitMatch, place, alike.place.rest_eq rfl]
    rfl
  cases chosen with
  | close _ _ =>
    have excludes : slow.active.rule.excludesClosing = before.active.rule.excludesClosing := by
      rw [alike.modes.rule_eq]
      rfl
    simp only [Likeness.action, Numbering.follow, excludes, kind, offset]
  | abandon _ _ _ nested =>
    have start : slow.active.start = before.active.start := by
      have modes := alike.modes
      generalize slow.outer = outer at modes
      cases around : before.outer with
      | nil => exact absurd around nested
      | cons =>
        rw [around] at modes
        cases modes with
        | nested _ _ start => exact start
    simp only [Likeness.action, Numbering.follow, start, offset]
  | flag => simp only [Likeness.action, Numbering.follow, offset]
  | leaf => simp only [Likeness.action, Numbering.follow, kind, matched]
  | enter =>
    simp only [Likeness.action, Numbering.follow, kind, matched]
    rfl
  | unwind => rfl
  | content => simp only [Likeness.action, Numbering.follow, kind, offset]

/-- Where nothing matches, a scan that looks at each character takes a part of
what lies up to the next stop. -/
theorem exists_next_withoutStops (alike : withoutStops.States before slow)
    (suffice : before.active.rule.StopsSuffice grammar)
    (idle : claimed? grammar options before = none) (whole : Whole before.place.rest)
    (cut : Cut before.place.rest length) (pos : 0 < length)
    (next : ∀ b ∈ before.place.rest[length]?, b ∈ before.active.rule.stops) :
    ∃ part, Lexeme.Fits before.place.rest part ∧ part ≤ length ∧
      Action.next grammar.withoutStops options slow = .content before.active.rule.kind part := by
  obtain ⟨part, fits, within, taken⟩ := exists_eachContent_eq suffice.keywords whole cut pos
    fun b found => suffice.words b (next b found)
  refine ⟨part, fits, within, ?_⟩
  rw [next_eq_getD, alike.claimed?_eq (alike.agree rfl grammar) grammar.rule?_withoutStops, idle,
    Action.unclaimed, alike.modes.rule_eq, alike.place.rest_eq rfl]
  exact taken

/-- Up to the next stop, a scan that looks at each character finds nothing, and adds to
the token that the other scan makes at once. -/
theorem exists_made_between (suffice : before.active.rule.StopsSuffice grammar)
    (plain : before.outer = [] → before.active.rule.kind = .plain) (pos : 0 < taken)
    (upTo : UpToStop before.active.rule.stops (before.place.rest.drop taken) length)
    (alike : withoutStops.States (before.take before.active.rule.kind taken) slow)
    (made : Numbering.Made grammar.withoutStops options text slow
      (numbering.add numbering.active before.active.rule.kind
        ⟨before.offset, before.offset + taken⟩)) :
    ∃ after, withoutStops.States (before.take before.active.rule.kind (taken + length)) after ∧
      Numbering.Made grammar.withoutStops options text after
        (numbering.add numbering.active before.active.rule.kind
          ⟨before.offset, before.offset + (taken + length)⟩) := by
  -- Each step of the scan takes a part of what is left up to the stop.
  induction length using Nat.strongRecOn generalizing taken slow with
  | ind length ih =>
    rcases Nat.eq_zero_or_pos length with rfl | more
    · exact ⟨slow, alike, made⟩
    · have rest : (before.take before.active.rule.kind taken).place.rest =
          before.place.rest.drop taken := Cursor.rest_skip _ _
      have rule : (before.take before.active.rule.kind taken).active.rule = before.active.rule :=
        OpenMode.rule_add _ _ _
      have upToHere : UpToStop (before.take before.active.rule.kind taken).active.rule.stops
          (before.take before.active.rule.kind taken).place.rest length := by
        rw [rule, rest]
        exact upTo
      have sufficeHere := suffice
      rw [← rule] at sufficeHere
      obtain ⟨part, fits, within, decides⟩ := exists_next_withoutStops alike sufficeHere
        (upToHere.claimed?_eq_none more sufficeHere) upToHere.whole upToHere.cut more upToHere.next
      have stepped := made.step (alike.place.rest_ne_nil fits.ne_nil)
      rw [rest] at fits
      have offset : slow.offset = before.offset + taken := by
        have upTo := fits.cut.le_length
        rw [List.length_drop] at upTo
        exact offset_taken (by have := fits.pos; omega) alike
      have kind : slow.active.rule.kind = before.active.rule.kind :=
        (withoutStops_kind alike).trans (congrArg Rule.kind rule)
      rw [step, decides, rule, Numbering.follow_content kind.symm, offset, Numbering.active_add,
        Numbering.add_add (by omega) (by have := fits.pos; omega)] at stepped
      have upToRest := upTo.drop fits.cut within
      rw [List.drop_drop] at upToRest
      have after := ih (length - part) (Nat.sub_lt more fits.pos) (Nat.add_pos_left pos part)
        upToRest (withoutStops_split pos alike plain fits) (Nat.add_assoc _ _ _ ▸ stepped)
      rwa [Nat.add_assoc, Nat.add_sub_cancel' within] at after

theorem upToStop_stoppedContent (whole : Whole bytes) {part run : Nat}
    (count : run = Byte.runLength (fun b => !rule.stops.contains b)
      (bytes.drop (Byte.charLength bytes)))
    (cut : Cut bytes (Byte.charLength bytes + run)) (fits : Lexeme.Fits bytes part)
    (within : part ≤ Byte.charLength bytes + run) :
    UpToStop rule.stops (bytes.drop part) (Byte.charLength bytes + run - part) := by
  -- Whatever is taken first is a character at least, and behind the first
  -- character stands no stop.
  have first := fits.cut.charLength_le whole fits.pos
  have upTo : UpToStop rule.stops (bytes.drop (Byte.charLength bytes)) run := by
    have behind := cut.sub whole (Nat.le_add_right _ _)
    rw [Nat.add_sub_cancel_left] at behind
    refine ⟨(Text.cut_charLength bytes).whole whole, behind, ?_, ?_⟩
    · intro b member
      rw [count] at member
      simpa using Text.mem_class_of_mem_take member
    · intro b found
      rw [count] at found
      simpa using Text.not_mem_of_getElem?_runLength found
  have rest := fits.cut.sub whole first
  have shorter : part - Byte.charLength bytes ≤ run := by omega
  have dropped := upTo.drop rest shorter
  rw [List.drop_drop, Nat.add_sub_cancel' first] at dropped
  rwa [show Byte.charLength bytes + run - part = run - (part - Byte.charLength bytes) by omega]

/-- Content up to a stop is one step of one scan and several of the other. -/
theorem exists_made_content (lawful : grammar.Lawful)
    (sound : before.Sound grammar options text) (left : before.place.rest ≠ [])
    (suffice : before.active.rule.StopsSuffice grammar)
    (plain : before.outer = [] → before.active.rule.kind = .plain)
    (idle : claimed? grammar options before = none) (stops : before.active.rule.stops ≠ [])
    (alike : withoutStops.States before slow)
    (made : Numbering.Made grammar.withoutStops options text slow numbering) :
    ∃ after, withoutStops.States (step grammar options before) after ∧
      Numbering.Made grammar.withoutStops options text after
        (numbering.follow (Action.next grammar options before) before) := by
  have whole := sound.whole_rest
  have decides : Action.next grammar options before =
      Action.stoppedContent before.active.rule before.place.rest := by
    rw [next_eq_getD, idle, Option.getD_none, Action.unclaimed,
      if_neg (by simpa [List.isEmpty_iff] using stops)]
  have fits := (chosen_next grammar options before).fits lawful sound.layered.known left
  rw [decides] at fits
  have next : ∀ b ∈ before.place.rest[Byte.charLength before.place.rest + Byte.runLength
      (fun b => !before.active.rule.stops.contains b)
        (before.place.rest.drop (Byte.charLength before.place.rest))]?,
      b ∈ before.active.rule.stops := by
    intro b found
    rw [← List.getElem?_drop] at found
    simpa using Text.not_mem_of_getElem?_runLength found
  obtain ⟨part, partFits, within, takes⟩ :=
    exists_next_withoutStops alike suffice idle whole fits.cut fits.pos next
  have stepped := made.step (alike.place.rest_ne_nil partFits.ne_nil)
  have offset : slow.offset = before.offset := alike.place.offset
  rw [step, takes, Numbering.follow_content (withoutStops_kind alike).symm, offset] at stepped
  have upTo := upToStop_stoppedContent whole rfl fits.cut partFits within
  have after := exists_made_between suffice plain partFits.pos upTo
    (alike.take _ partFits.cut.le_length) stepped
  rw [Nat.add_sub_cancel' within] at after
  rw [step, decides, Action.stoppedContent, Numbering.follow_content rfl]
  exact after

/-- A step of one scan is a step or several of the other, which make the same tokens. -/
theorem exists_made_step (suffice : grammar.StopsSuffice) (lawful : grammar.Lawful)
    (sound : before.Sound grammar options text) (left : before.place.rest ≠ [])
    (alike : withoutStops.States before slow)
    (made : Numbering.Made grammar.withoutStops options text slow numbering) :
    ∃ after, withoutStops.States (step grammar options before) after ∧
      Numbering.Made grammar.withoutStops options text after
        (numbering.follow (Action.next grammar options before) before) := by
  have known := sound.layered.known
  by_cases pass : claimed? grammar options before = none ∧ before.active.rule.stops ≠ []
  · obtain ⟨idle, stops⟩ := pass
    have plain : before.outer = [] → before.active.rule.kind = .plain := by
      intro ground
      rw [sound.rule_eq_root ground, suffice.root]
    have own := suffice.rules before.active.rule known.mem_table stops
    exact exists_made_content lawful sound left own plain idle stops alike made
  · -- Either something matches, or both scans look at each character.
    have chosen := chosen_next grammar options before
    have decides : Action.next grammar.withoutStops options slow =
        withoutStops.action (Action.next grammar options before) := by
      refine alike.next_eq (alike.agree rfl grammar) grammar.rule?_withoutStops fun idle => ?_
      have each : before.active.rule.stops = [] := not_not.1 fun stops => pass ⟨idle, stops⟩
      rw [Action.unclaimed, Action.unclaimed, alike.modes.rule_eq, alike.place.rest_eq rfl, each]
      rfl
    have stepped := made.step (alike.place.rest_ne_nil left)
    rw [decides, withoutStops_follow alike chosen] at stepped
    exact ⟨_, alike.step (chosen.fits lawful known left) decides, stepped⟩

theorem Numbering.Made.exists_withoutStops
    (made : Numbering.Made grammar options text before numbering)
    (suffice : grammar.StopsSuffice) (lawful : grammar.Lawful) (room : 0 < options.maxDepth) :
    ∃ slow, withoutStops.States before slow ∧
      Numbering.Made grammar.withoutStops options text slow numbering := by
  induction made with
  | start =>
    have root := grammar.rootRule_withoutStops
    exact ⟨.start grammar.withoutStops (Text.bytes text),
      ⟨⟨rfl, rfl, (List.append_nil _).symm⟩, .ground root rfl (.nil _), rfl⟩, .start⟩
  | step made left ih =>
    obtain ⟨slow, alike, madeSlow⟩ := ih
    exact exists_made_step suffice lawful (made.reachable.sound lawful room) left alike madeSlow

/-- With stops that suffice, a run makes the same findings without them, but for
content in smaller pieces, and the same tokens. -/
theorem run_withoutStops (suffice : grammar.StopsSuffice) (lawful : grammar.Lawful)
    (lawful' : grammar.withoutStops.Lawful) (room : leastMaxDepth ≤ options.maxDepth)
    (text : String) :
    Outline.Finer .plain (run grammar options (Text.bytes text)).outline
        (run grammar.withoutStops options (Text.bytes text)).outline ∧
      (run grammar.withoutStops options (Text.bytes text)).problems =
        (run grammar options (Text.bytes text)).problems ∧
      Numbering.run grammar.withoutStops options (Text.bytes text) =
        Numbering.run grammar options (Text.bytes text) := by
  have positive : 0 < options.maxDepth := Nat.lt_of_lt_of_le (by decide) room
  obtain ⟨last, numbering, made, done, found, tokens⟩ := Numbering.exists_made_run lawful room text
  obtain ⟨slow, alike, madeSlow⟩ := made.exists_withoutStops suffice lawful positive
  have doneSlow : slow.place.rest = [] := (alike.place.rest_eq rfl).trans done
  obtain ⟨foundSlow, tokensSlow⟩ := madeSlow.run_eq lawful' room doneSlow
  rw [found, foundSlow, tokens, tokensSlow]
  obtain ⟨finer, problems⟩ := alike.finish
  refine ⟨finer, problems.trans ?_, rfl⟩
  simp [withoutStops]

end Scan

/-- Whatever the options, the stops of the rules make no difference to the
tokens, scopes and diagnostics of a text. -/
theorem highlight_withoutStops (options : Scan.Options) (text : String) :
    let withStops := (Highlighter.default.withOptions options).highlight text
    let language := { Language.flint with grammar := Flint.grammar.withoutStops }
    let withoutStops := ((Highlighter.ofLanguage language).withOptions options).highlight text
    withoutStops.tokens = withStops.tokens ∧ withoutStops.scopes = withStops.scopes ∧
      withoutStops.diagnostics = withStops.diagnostics := by
  intro withStops language withoutStops
  have room := (Highlighter.default.withOptions options).leastMaxDepth_le
  obtain ⟨finer, problems, tokens⟩ := Scan.run_withoutStops Flint.grammar_stopsSuffice
    Flint.grammar_lawful Flint.grammar_withoutStops_lawful room text
  have made : withoutStops.tokens = withStops.tokens :=
    congrArg (fun pieces => (pieces.map (Token.ofPiece text)).toArray) tokens
  refine ⟨made, finer.scopes_eq, ?_⟩
  exact congrArg (List.map Problem.diagnostic) problems

end ModalHighlight
