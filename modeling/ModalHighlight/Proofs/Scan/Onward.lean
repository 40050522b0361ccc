import Mathlib.Data.List.TakeWhile
import ModalHighlight.Proofs.Grammar.Lines
import ModalHighlight.Proofs.Scan.Likeness

/-! # Texts that go on

A scan of a text that ends with `;` and a line feed goes as it does when more
text follows, since no matcher looks that far.  Only content that is taken up to
a stop may go on behind the seam, and then a mode is open there.  If none is,
the last thing in front of the seam is plain text of the ground mode.
-/

namespace ModalHighlight.Scan

open Text (EndsStatement Sealed)

variable {grammar : Grammar} {options : Options} {text front back : String}
variable {left right : State} {later : List UInt8}

/-! ## More text behind -/

/-- A scan of a text with more behind it, compared to one of the text alone. -/
def followedBy (later : List UInt8) : Likeness where
  later := later
  distance := 0
  stops := Rule.stops
  earlier := []
  inside _ := Eq
  nil _ := rfl
  piece p same := congrArg (·.piece p) same
  scope s same within := by
    rw [same, within]
    rfl

theorem rule?_eq_map (like : Likeness) (same : like.stops = Rule.stops) (id : RuleId) :
    grammar.rule? id = (grammar.rule? id).map like.rule := by
  cases grammar.rule? id with
  | none => rfl
  | some rule => simp [Likeness.rule, same]

theorem agree_followedBy (alike : (followedBy later).States left right)
    (linewise : grammar.Linewise) (known : grammar.Has left.active.rule)
    (closed : Sealed left.place.rest) : Likeness.Agree grammar left right := by
  have rule := linewise.rule known
  have same : ∀ {matcher : Matcher} (hashes : Nat), matcher.WithinLine →
      matcher.matchAt? hashes right.place = matcher.matchAt? hashes left.place := by
    intro matcher hashes within
    rw [Matcher.matchAt?, alike.place.wordStart, alike.place.rest]
    exact Matcher.match?_append within closed _ _ _
  exact
    { closing := fun matcher ends => same _ (rule.closing matcher ends).1
      illegal := fun matcher rejects => same _ (rule.illegal matcher rejects)
      nested := fun id member inner inner? => same _ (rule.nested id member inner inner?) }

theorem eachContent_append {rest : List UInt8} (closed : Sealed rest) (rule : Rule)
    (later : List UInt8) :
    Action.eachContent rule (rest ++ later) = Action.eachContent rule rest := by
  have within : Lexeme.wordLength rest ≤ rest.length := Byte.runLength_le _ _
  rw [Action.eachContent, Action.eachContent, Lexeme.wordLength_append closed.line,
    Byte.charLength_append closed.whole closed.ne_nil]
  cases count : Lexeme.wordLength rest with
  | zero => rfl
  | succ length =>
    rw [count] at within
    simp only [List.take_append_of_le_length within]

/-- Without a stop in it, a text is taken up to its end. -/
theorem stoppedContent_append {rest : List UInt8} (closed : Sealed rest) (rule : Rule)
    (later : List UInt8) :
    Action.stoppedContent rule (rest ++ later) = Action.stoppedContent rule rest ∨
      Action.stoppedContent rule rest = .content rule.kind rest.length := by
  have first := Byte.charLength_le rest
  by_cases stop : ∃ b ∈ rest.drop (Byte.charLength rest), b ∈ rule.stops
  · obtain ⟨b, ahead, isStop⟩ := stop
    have run := Byte.runLength_append (fun b => !rule.stops.contains b)
      (by simpa using isStop) ahead later
    rw [← List.drop_append_of_le_length first] at run
    refine .inl ?_
    rw [Action.stoppedContent, Action.stoppedContent,
      Byte.charLength_append closed.whole closed.ne_nil, run]
  · have all : Byte.runLength (fun b => !rule.stops.contains b)
        (rest.drop (Byte.charLength rest)) = rest.length - Byte.charLength rest := by
      rw [Byte.runLength, List.takeWhile_eq_self_iff.2 fun b ahead => ?_, List.length_drop]
      simpa using fun isStop => stop ⟨b, ahead, isStop⟩
    refine .inr ?_
    rw [Action.stoppedContent, all, Nat.add_sub_cancel' first]

/-- What is content stays so with more text behind, or else reaches up to it. -/
theorem unclaimed_followedBy (alike : (followedBy later).States left right)
    (closed : Sealed left.place.rest) :
    Action.unclaimed right = Action.unclaimed left ∨
      left.active.rule.stops ≠ [] ∧
        Action.unclaimed left = .content left.active.rule.kind left.place.rest.length := by
  have rest : right.place.rest = left.place.rest ++ later := alike.place.rest
  have rule : right.active.rule = left.active.rule := alike.modes.rule_eq
  rw [Action.unclaimed, Action.unclaimed, rule, rest]
  by_cases each : left.active.rule.stops.isEmpty = true
  · rw [if_pos each, if_pos each]
    exact .inl (eachContent_append closed _ later)
  · rw [if_neg each, if_neg each]
    refine (stoppedContent_append closed _ later).imp_right fun all => ⟨?_, all⟩
    simpa using each

theorem State.Sound.sealed_rest (sound : left.Sound grammar options front)
    (ends : EndsStatement front) (goesOn : left.place.rest ≠ []) : Sealed left.place.rest := by
  have whole := sound.whole_rest
  rw [sound.rest_eq] at whole goesOn ⊢
  exact ends.sealed_drop whole goesOn

/-- With more text behind, a scan takes the same step, unless the step takes all
that was left and leaves a mode open. -/
theorem step_followedBy (alike : (followedBy later).States left right) (lawful : grammar.Lawful)
    (linewise : grammar.Linewise) (sound : left.Sound grammar options front)
    (closed : Sealed left.place.rest) :
    (followedBy later).States (step grammar options left) (step grammar options right) ∨
      (step grammar options left).place.rest = [] ∧ (step grammar options left).outer ≠ [] := by
  have known := sound.layered.known
  have fits := (chosen_next grammar options left).fits lawful known closed.ne_nil
  have agree := agree_followedBy alike linewise known closed
  have rules := @rule?_eq_map grammar (followedBy later) rfl
  cases claims : claimed? grammar options left with
  | some action =>
    refine .inl (alike.step fits (alike.next_eq agree rules fun idle => ?_))
    rw [claims] at idle
    cases idle
  | none =>
    rcases unclaimed_followedBy alike closed with same | ⟨stops, all⟩
    · exact .inl (alike.step fits (alike.next_eq agree rules fun _ => same))
    · -- Such content is not that of the ground mode.
      refine .inr ?_
      rw [step, next_eq_getD, claims, Option.getD_none, all]
      simp only [Action.perform, State.take, Cursor.rest_skip, List.drop_length, true_and]
      intro ground
      exact stops (sound.rule_eq_root ground ▸ linewise.root.2)

/-- A scan of a text is one of the text with more behind it, unless it comes to
the end of the text with a mode open. -/
theorem Reachable.exists_followedBy (reachable : Reachable grammar options front left)
    (lawful : grammar.Lawful) (linewise : grammar.Linewise) (room : 0 < options.maxDepth)
    (ends : EndsStatement front) (back : String) :
    (∃ right, Reachable grammar options (front ++ back) right ∧
      (followedBy (Text.bytes back)).States left right) ∨
      left.place.rest = [] ∧ left.outer ≠ [] := by
  induction reachable with
  | start =>
    refine .inl ⟨_, .start, ⟨rfl, rfl, ?_⟩, .ground rfl rfl rfl, rfl⟩
    exact Text.bytes_append front back
  | @step left reached goesOn ih =>
    rcases ih with ⟨right, reachedRight, alike⟩ | ⟨done, _⟩
    · have sound := reached.sound lawful room
      have closed := sound.sealed_rest ends goesOn
      refine (step_followedBy alike lawful linewise sound closed).imp_left fun stepped => ?_
      exact ⟨_, reachedRight.step (alike.place.rest_ne_nil goesOn), stepped⟩
    · exact absurd done goesOn

/-! ## The end of a line in the ground mode -/

theorem place_leave (state : State) : state.leave.place = state.place := by
  unfold State.leave
  split <;> rfl

theorem place_abandon (state : State) : state.abandon.place = state.place := by
  unfold State.abandon
  split <;> rfl

/-- A match that ends in its line leaves the line feed. -/
theorem drop_ne_nil {rest : List UInt8} (closed : Sealed rest) {matcher : Matcher} {hashes : Nat}
    {wordStart : Bool} {hit : Hit} (inLine : matcher.EndsInLine) (fits : hit.Fits rest)
    (found : matcher.match? wordStart hashes rest = some hit) : rest.drop hit.stop ≠ [] := by
  have absent := Matcher.not_mem_take_of_match? inLine closed.whole found
  rw [ne_eq, List.drop_eq_nil_iff, Nat.not_le]
  exact closed.length_lt fits.whole.le_length absent

theorem rest_takeMatch (rule : Rule) (state : State) {hit : Hit}
    (ordered : hit.headStop ≤ hit.stop) :
    (Action.takeMatch rule hit state).place.rest = state.place.rest.drop hit.stop := by
  simp only [Action.takeMatch, State.take, Cursor.rest_skip, List.drop_drop,
    Nat.add_sub_cancel' ordered]

/-- The line feed at the end is plain text if it is taken in the ground mode. -/
theorem eachContent_of_sealed {rule : Rule} {rest : List UInt8} (closed : Sealed rest)
    {kind : Kind} {length : Nat} (taken : Action.eachContent rule rest = .content kind length)
    (all : rest.drop length = []) : kind = rule.kind := by
  unfold Action.eachContent at taken
  split at taken
  next => exact (Action.content.inj taken).1.symm
  next others count =>
    -- A word does not reach over the line feed.
    have absent := Byte.not_mem_take_runLength Byte.isIdentifier (by decide :
      Byte.isIdentifier Byte.newline = false) rest
    have short := closed.length_lt (Byte.runLength_le _ _) absent
    rw [← (Action.content.inj taken).2, List.drop_eq_nil_iff] at all
    rw [Lexeme.wordLength] at count
    omega

/-- Whatever is done but taking content leaves text, or leaves a mode open. -/
theorem Chosen.exists_last {action : Action} (chosen : Chosen grammar options left action)
    (lawful : grammar.Lawful) (linewise : grammar.Linewise)
    (sound : left.Sound grammar options front) (closed : Sealed left.place.rest)
    (done : (action.perform options left).place.rest = [])
    (ground : (action.perform options left).outer = []) :
    ∃ earlier span,
      (action.perform options left).active.inside = .piece earlier ⟨.plain, span⟩ := by
  have known := sound.layered.known
  have fits := chosen.fits lawful known closed.ne_nil
  cases chosen with
  | @close matcher hit closing found =>
    have leaves := drop_ne_nil closed ((linewise.rule known).closing matcher closing).2 fits found
    simp only [Action.perform] at done
    split at done
    next => exact absurd (place_leave left ▸ done) closed.ne_nil
    next =>
      rw [place_leave] at done
      simp only [State.take, Cursor.rest_skip] at done
      exact absurd done leaves
  | abandon => exact absurd (place_abandon left ▸ done) closed.ne_nil
  | unwind => exact absurd done closed.ne_nil
  | @flag matcher hit _ rejects found outer =>
    have inLine := linewise.illegal matcher (sound.rule_eq_root outer ▸ rejects)
    have leaves := drop_ne_nil closed inLine fits found
    simp only [Action.perform, State.flag, State.take, Cursor.rest_skip] at done
    exact absurd done leaves
  | @leaf rule hit _ _ found leaf =>
    obtain ⟨id, member, rule?, matched⟩ := Grammar.firstMatch?_eq_some found
    have inLine := linewise.leaves id (sound.rule_eq_root ground ▸ member) rule rule? leaf
    rw [Action.perform, rest_takeMatch _ _ fits.le] at done
    exact absurd done (drop_ne_nil closed inLine fits matched)
  | enter => exact absurd ground (List.cons_ne_nil _ _)
  | @content kind length _ _ _ taken =>
    have root : left.active.rule = grammar.rootRule := sound.rule_eq_root ground
    have each : left.active.rule.stops.isEmpty = true := by
      rw [root, linewise.root.2]
      rfl
    rw [Action.unclaimed, if_pos each] at taken
    simp only [Action.perform, State.take, Cursor.rest_skip] at done ⊢
    have plain := eachContent_of_sealed closed taken done
    rw [root, linewise.root.1] at plain
    have proper : left.offset < left.offset + length := Nat.lt_add_of_pos_right fits.pos
    rw [OpenMode.add_of_lt _ kind proper, plain]
    exact ⟨_, _, rfl⟩

/-- What comes last in the ground mode, at the end of a line, is plain text. -/
theorem Reachable.exists_last (reachable : Reachable grammar options front left)
    (lawful : grammar.Lawful) (linewise : grammar.Linewise) (room : 0 < options.maxDepth)
    (ends : EndsStatement front) (done : left.place.rest = [])
    (ground : left.outer = []) :
    ∃ earlier span, left.active.inside = .piece earlier ⟨.plain, span⟩ := by
  cases reachable with
  | start =>
    obtain ⟨before, bytes⟩ := ends.exists_bytes
    have none : Text.bytes front = [] := done
    simp [bytes] at none
  | @step before reached goesOn =>
    have sound := reached.sound lawful room
    have closed := sound.sealed_rest ends goesOn
    exact (chosen_next grammar options before).exists_last lawful linewise sound closed done ground

end ModalHighlight.Scan
