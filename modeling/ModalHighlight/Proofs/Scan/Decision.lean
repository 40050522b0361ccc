import ModalHighlight.Proofs.Grammar.Lawful
import ModalHighlight.Scan.Run

/-! # Why a scan decides as it does

The decision of a scan is inverted once, here.  Each action comes with all that
was found true and found false on the way to it, so that an invariant of scans
is proved by cases on the actions and never by opening the decision itself.
Under a lawful grammar every action takes lexemes that fit the text that is
left.
-/

namespace ModalHighlight.Scan

variable {grammar : Grammar} {options : Options} {state : State} {action : Action}

/-! ## Reasons -/

/-- What holds of a state in which a scan decides on an action. -/
inductive Chosen (grammar : Grammar) (options : Options) (state : State) : Action → Prop
  | close {matcher : Matcher} {hit : Hit} (ends : state.active.rule.closing = some matcher)
      (found : matcher.matchAt? state.active.hashes state.place = some hit) :
      Chosen grammar options state (.close hit)
  | abandon {matcher : Matcher} {hit : Hit} (goesOn : Action.closing? state = none)
      (rejects : state.active.rule.illegal = some matcher)
      (found : matcher.matchAt? state.active.hashes state.place = some hit)
      (nested : state.outer ≠ []) : Chosen grammar options state .abandon
  | flag {matcher : Matcher} {hit : Hit} (goesOn : Action.closing? state = none)
      (rejects : state.active.rule.illegal = some matcher)
      (found : matcher.matchAt? state.active.hashes state.place = some hit)
      (ground : state.outer = []) (flagging : options.flagMarkup = true) :
      Chosen grammar options state (.flag hit)
  | leaf {rule : Rule} {hit : Hit} (goesOn : Action.closing? state = none)
      (admitted : Action.rejection? options state = none)
      (found : grammar.firstMatch? state.active.rule.contains state.place = some (rule, hit))
      (leaf : rule.isMode = false) : Chosen grammar options state (.leaf rule hit)
  | enter {rule : Rule} {hit : Hit} (goesOn : Action.closing? state = none)
      (admitted : Action.rejection? options state = none)
      (found : grammar.firstMatch? state.active.rule.contains state.place = some (rule, hit))
      (mode : rule.isMode = true) (room : state.depth < options.maxDepth) :
      Chosen grammar options state (.enter rule hit)
  | unwind {rule : Rule} {hit : Hit} (goesOn : Action.closing? state = none)
      (admitted : Action.rejection? options state = none)
      (found : grammar.firstMatch? state.active.rule.contains state.place = some (rule, hit))
      (mode : rule.isMode = true) (full : options.maxDepth ≤ state.depth) :
      Chosen grammar options state .unwind
  | content {kind : Kind} {length : Nat} (goesOn : Action.closing? state = none)
      (admitted : Action.rejection? options state = none)
      (unmatched : grammar.firstMatch? state.active.rule.contains state.place = none)
      (taken : Action.unclaimed state = .content kind length) :
      Chosen grammar options state (.content kind length)

theorem exists_unclaimed_eq (state : State) :
    ∃ kind length, Action.unclaimed state = .content kind length := by
  unfold Action.unclaimed
  split
  · unfold Action.eachContent
    split <;> exact ⟨_, _, rfl⟩
  · exact ⟨_, _, rfl⟩

theorem chosen_of_closing? (closes : Action.closing? state = some action) :
    Chosen grammar options state action := by
  unfold Action.closing? at closes
  cases ends : state.active.rule.closing with
  | none => simp [ends] at closes
  | some matcher =>
    simp only [ends, Option.map_eq_some_iff] at closes
    obtain ⟨hit, found, rfl⟩ := closes
    exact .close ends found

theorem chosen_of_rejection? (goesOn : Action.closing? state = none)
    (rejected : Action.rejection? options state = some action) :
    Chosen grammar options state action := by
  unfold Action.rejection? at rejected
  cases rejects : state.active.rule.illegal with
  | none => simp [rejects] at rejected
  | some matcher =>
    cases found : matcher.matchAt? state.active.hashes state.place with
    | none => simp [rejects, found] at rejected
    | some hit =>
      cases modes : state.outer with
      | nil =>
        simp only [rejects, found, modes, Option.ite_none_right_eq_some,
          Option.some.injEq] at rejected
        exact rejected.2 ▸ .flag goesOn rejects found modes rejected.1
      | cons around outer =>
        simp only [rejects, found, modes, Option.some.injEq] at rejected
        exact rejected ▸ .abandon goesOn rejects found (by simp [modes])

theorem chosen_of_nested? (goesOn : Action.closing? state = none)
    (admitted : Action.rejection? options state = none)
    (applies : Action.nested? grammar options state = some action) :
    Chosen grammar options state action := by
  unfold Action.nested? at applies
  cases found : grammar.firstMatch? state.active.rule.contains state.place with
  | none => simp [found] at applies
  | some ruleHit =>
    obtain ⟨rule, hit⟩ := ruleHit
    simp only [found] at applies
    split at applies
    next mode =>
      split at applies
      next full => exact Option.some.inj applies ▸ .unwind goesOn admitted found mode full
      next room =>
        exact Option.some.inj applies ▸ .enter goesOn admitted found mode (Nat.not_le.1 room)
    next leaf =>
      exact Option.some.inj applies ▸ .leaf goesOn admitted found (by simpa using leaf)

/-- A scan has its reasons for what it does next. -/
theorem chosen_next (grammar : Grammar) (options : Options) (state : State) :
    Chosen grammar options state (Action.next grammar options state) := by
  -- The cases come in the order in which the scan looks for something to do.
  unfold Action.next
  cases goesOn : Action.closing? state with
  | some action => exact chosen_of_closing? goesOn
  | none =>
    cases admitted : Action.rejection? options state with
    | some action => exact chosen_of_rejection? goesOn admitted
    | none =>
      cases unmatched : Action.nested? grammar options state with
      | some action => exact chosen_of_nested? goesOn admitted unmatched
      | none =>
        obtain ⟨kind, length, taken⟩ := exists_unclaimed_eq state
        simp only [taken]
        refine .content goesOn admitted ?_ taken
        unfold Action.nested? at unmatched
        split at unmatched
        next none => exact none
        next => split at unmatched <;> (try split at unmatched) <;> cases unmatched

/-! ## Actions that fit the text -/

/-- What an action takes of a text are lexemes that stand in front of it. -/
def Action.Fits (text : List UInt8) : Action → Prop
  | close hit | flag hit | leaf _ hit | enter _ hit => hit.Fits text
  | content _ length => Lexeme.Fits text length
  | abandon | unwind => True

theorem fits_of_unclaimed {kind : Kind} {length : Nat}
    (stops : ∀ b ∈ state.active.rule.stops, b < 0x80) (left : state.place.rest ≠ [])
    (taken : Action.unclaimed state = .content kind length) :
    Lexeme.Fits state.place.rest length := by
  unfold Action.unclaimed at taken
  cases text : state.place.rest with
  | nil => exact absurd text left
  | cons lead more =>
    rw [text] at taken
    split at taken
    next =>
      unfold Action.eachContent at taken
      have word := Lexeme.wordLength_cut (lead :: more)
      split at taken
      next => exact (Action.content.inj taken).2 ▸ Lexeme.charLength_fits lead more
      next others count =>
        rw [count] at word
        exact (Action.content.inj taken).2 ▸ ⟨Nat.succ_pos others, word⟩
    next =>
      -- One character is taken even if it is a stop, and then all up to the next stop.
      have onlyStops : ∀ b, (!state.active.rule.stops.contains b) = false → b < 0x80 := by
        intro b stop
        exact stops b (List.contains_iff_mem.1 (by simpa using stop))
      exact (Action.content.inj taken).2 ▸
        (Lexeme.charLength_fits lead more).add (Text.cut_run_until onlyStops _)

theorem fits_of_firstMatch? (lawful : grammar.Lawful) {around rule : Rule} {place : Cursor}
    {hit : Hit} (known : grammar.Has around)
    (found : grammar.firstMatch? around.contains place = some (rule, hit)) :
    hit.Fits place.rest := by
  obtain ⟨id, member, rule?, matched⟩ := Grammar.firstMatch?_eq_some found
  exact Matcher.fits_of_match? ((lawful.rule known).nested id member rule rule?) matched

/-- A decision fits the text that is left. -/
theorem Chosen.fits (lawful : grammar.Lawful) (known : grammar.Has state.active.rule)
    (left : state.place.rest ≠ []) (chosen : Chosen grammar options state action) :
    action.Fits state.place.rest := by
  have rule := lawful.rule known
  cases chosen with
  | close ends found => exact Matcher.fits_of_match? (rule.closing _ ends) found
  | flag _ rejects found => exact Matcher.fits_of_match? (rule.illegal _ rejects) found
  | leaf _ _ found => exact fits_of_firstMatch? lawful known found
  | enter _ _ found => exact fits_of_firstMatch? lawful known found
  | content _ _ _ taken => exact fits_of_unclaimed rule.stops left taken
  | abandon => exact trivial
  | unwind => exact trivial

theorem has_of_firstMatch? {ids : List RuleId} {place : Cursor} {rule : Rule} {hit : Hit}
    (found : grammar.firstMatch? ids place = some (rule, hit)) : grammar.Has rule := by
  obtain ⟨id, _, rule?, _⟩ := Grammar.firstMatch?_eq_some found
  exact Grammar.has_of_rule? rule?

end ModalHighlight.Scan
