import ModalHighlight.Proofs.Outline.Shift
import ModalHighlight.Proofs.Scan.Completion

/-! # Scans that go alike

Two scans may be compared although their texts, offsets, rules or outlines are
not the same: the text of one may go on further, stand behind other text, or be
scanned with rules that look again at other bytes.  A likeness says in which of
these respects two scans may differ.  All that a scan does to its state keeps up
every likeness, so a comparison only has to show that the scans decide alike.
-/

namespace ModalHighlight

namespace Scan

variable {grammar other : Grammar} {options : Options} {left right : State}
variable {stop : Nat} {mode mode' around around' : OpenMode} {outer outer' : List OpenMode}

/-! ## What matchers claim -/

/-- What a matcher makes a scan do. -/
def claimed? (grammar : Grammar) (options : Options) (state : State) : Option Action :=
  ((Action.closing? state).or (Action.rejection? options state)).or
    (Action.nested? grammar options state)

theorem next_eq_getD (grammar : Grammar) (options : Options) (state : State) :
    Action.next grammar options state =
      (claimed? grammar options state).getD (Action.unclaimed state) := by
  unfold Action.next claimed?
  cases Action.closing? state with
  | some action => rfl
  | none =>
    cases Action.rejection? options state with
    | some action => rfl
    | none => cases Action.nested? grammar options state <;> rfl

/-! ## Likenesses -/

/-- In which respects a scan may differ from another one. -/
structure Likeness where
  /-- Its text goes on with these bytes where that of the other ends. -/
  later : List UInt8
  /-- It stands this much further to the right. -/
  distance : Nat
  /-- Its rules look again at these bytes. -/
  stops : Rule → List UInt8
  /-- It met these problems before the other began, the latest of them first. -/
  earlier : List Problem
  /-- How what it has found compares to what the other has found, in the ground
  mode or in a mode of a kind. -/
  inside : Option Kind → Outline → Outline → Prop
  nil : ∀ kind, inside (some kind) .nil .nil
  piece : ∀ {place : Option Kind} {found found' : Outline} (p : Piece), inside place found found' →
    inside place (found.piece p) (found'.piece (p.shift distance))
  scope : ∀ {place : Option Kind} {found found' within within' : Outline} (s : Scope),
    inside place found found' → inside (some s.kind) within within' →
      inside place (found.scope s within) (found'.scope (s.shift distance) within')

namespace Likeness

variable {like : Likeness}

def rule (like : Likeness) (rule : Rule) : Rule := { rule with stops := like.stops rule }

def action (like : Likeness) : Action → Action
  | .leaf rule hit => .leaf (like.rule rule) hit
  | .enter rule hit => .enter (like.rule rule) hit
  | action => action

/-- Two places that a scan cannot tell apart, up to the end of the first text. -/
structure Places (like : Likeness) (place place' : Cursor) : Prop where
  offset : place'.offset = place.offset + like.distance
  wordStart : place'.atWordStart = place.atWordStart
  rest : place'.rest = place.rest ++ like.later

/-- Two stacks of open modes, one like the other. -/
inductive Modes (like : Likeness) : OpenMode → OpenMode → List OpenMode → List OpenMode → Prop
  | ground {mode mode' : OpenMode} (rule : mode'.rule = like.rule mode.rule)
      (hashes : mode'.hashes = mode.hashes) (inside : like.inside none mode.inside mode'.inside) :
      Modes like mode mode' [] []
  | nested {mode mode' around around' : OpenMode} {outer outer' : List OpenMode}
      (rule : mode'.rule = like.rule mode.rule) (hashes : mode'.hashes = mode.hashes)
      (start : mode'.start = mode.start + like.distance)
      (inside : like.inside (some mode.rule.kind) mode.inside mode'.inside)
      (below : Modes like around around' outer outer') :
      Modes like mode mode' (around :: outer) (around' :: outer')

/-- Two states, one like the other. -/
structure States (like : Likeness) (left right : State) : Prop where
  place : like.Places left.place right.place
  modes : like.Modes left.active right.active left.outer right.outer
  problems : right.problems = left.problems.map (Problem.shift like.distance) ++ like.earlier

/-! ## Places -/

theorem Places.skip {place place' : Cursor} (alike : like.Places place place') {length : Nat}
    (within : length ≤ place.rest.length) :
    like.Places (place.skip length) (place'.skip length) := by
  induction length generalizing place place' with
  | zero => exact alike
  | succ length ih =>
    obtain ⟨offset, before, rest⟩ := place
    obtain ⟨offset', before', rest'⟩ := place'
    cases rest with
    | nil => exact absurd within (by simp)
    | cons b more =>
      obtain rfl : rest' = b :: (more ++ like.later) := alike.rest
      have moved : offset' = offset + like.distance := alike.offset
      exact ih ⟨by simp only; omega, rfl, rfl⟩ (Nat.le_of_succ_le_succ within)

theorem Places.rest_eq {place place' : Cursor} (alike : like.Places place place')
    (whole : like.later = []) : place'.rest = place.rest := by
  rw [alike.rest, whole, List.append_nil]

theorem Places.rest_ne_nil {place place' : Cursor} (alike : like.Places place place')
    (left : place.rest ≠ []) : place'.rest ≠ [] := by
  rw [alike.rest]
  exact List.append_ne_nil_of_left_ne_nil left _

theorem Places.matchAt?_eq {place place' : Cursor} (alike : like.Places place place')
    (whole : like.later = []) (matcher : Matcher) (hashes : Nat) :
    matcher.matchAt? hashes place' = matcher.matchAt? hashes place := by
  simp only [Matcher.matchAt?, alike.wordStart, alike.rest_eq whole]

/-! ## Modes -/

namespace Modes

theorem rule_eq (alike : like.Modes mode mode' outer outer') :
    mode'.rule = like.rule mode.rule := by
  cases alike with
  | ground rule => exact rule
  | nested rule => exact rule

theorem hashes_eq (alike : like.Modes mode mode' outer outer') : mode'.hashes = mode.hashes := by
  cases alike with
  | ground _ hashes => exact hashes
  | nested _ hashes => exact hashes

theorem length_eq (alike : like.Modes mode mode' outer outer') : outer'.length = outer.length := by
  induction alike with
  | ground => rfl
  | nested _ _ _ _ _ ih => simp [ih]

theorem add (alike : like.Modes mode mode' outer outer') (kind : Kind) (span : Span) :
    like.Modes (mode.add kind span) (mode'.add kind (span.shift like.distance)) outer outer' := by
  unfold OpenMode.add
  rw [Span.isEmpty_shift]
  split
  next => exact alike
  next =>
    cases alike with
    | ground rule hashes inside => exact .ground rule hashes (like.piece _ inside)
    | nested rule hashes start inside below =>
      exact .nested rule hashes start (like.piece _ inside) below

theorem leave (alike : like.Modes mode mode' (around :: outer) (around' :: outer')) (stop : Nat) :
    like.Modes (around.enclose mode stop) (around'.enclose mode' (stop + like.distance)) outer
      outer' := by
  cases alike with
  | nested rule _ start inside below =>
    have kind : mode'.rule.kind = mode.rule.kind := by
      rw [rule]
      rfl
    have enclosed : ∀ {place : Option Kind}, like.inside place around.inside around'.inside →
        like.inside place (around.enclose mode stop).inside
          (around'.enclose mode' (stop + like.distance)).inside := by
      intro place found
      simp only [OpenMode.enclose, kind, start]
      exact like.scope ⟨mode.rule.kind, ⟨mode.start, stop⟩⟩ found inside
    cases below with
    | ground ruleAround hashes found => exact .ground ruleAround hashes (enclosed found)
    | nested ruleAround hashes startAround found below =>
      exact .nested ruleAround hashes startAround (enclosed found) below

theorem unwind (alike : like.Modes mode mode' outer outer') (stop : Nat) :
    like.Modes (State.ground stop mode outer)
      (State.ground (stop + like.distance) mode' outer') [] [] := by
  induction outer generalizing mode mode' outer' with
  | nil =>
    cases alike with
    | ground rule hashes inside => exact .ground rule hashes inside
  | cons around outer ih =>
    cases alike with
    | nested rule hashes start inside below =>
      have all := ih (Modes.leave (.nested rule hashes start inside below) stop)
      exact all

theorem outermostStart_eq (alike : like.Modes mode mode' outer outer') (here : Nat) :
    State.outermostStart (here + like.distance) mode' outer' =
      State.outermostStart here mode outer + like.distance := by
  induction alike generalizing here with
  | ground => rfl
  | nested _ _ start _ _ ih =>
    simp only [State.outermostStart, start]
    exact ih _

theorem unterminated_eq (alike : like.Modes mode mode' outer outer') (stop : Nat) :
    State.unterminated (stop + like.distance) mode' outer' =
      (State.unterminated stop mode outer).map (Problem.shift like.distance) := by
  induction alike with
  | ground => rfl
  | nested rule _ start _ _ ih =>
    simp only [State.unterminated, List.map_cons, ih, start, rule]
    rfl

end Modes

/-! ## States -/

namespace States

theorem take (alike : like.States left right) (kind : Kind) {length : Nat}
    (within : length ≤ left.place.rest.length) :
    like.States (left.take kind length) (right.take kind length) where
  place := alike.place.skip within
  modes := by
    have added := alike.modes.add kind ⟨left.offset, left.offset + length⟩
    have here : right.offset = left.offset + like.distance := alike.place.offset
    simp only [State.take, here, Nat.add_right_comm _ like.distance length]
    exact added
  problems := alike.problems

theorem enter (alike : like.States left right) (rule : Rule) (hashes : Nat) :
    like.States (left.enter rule hashes) (right.enter (like.rule rule) hashes) :=
  ⟨alike.place, .nested rfl rfl alike.place.offset (like.nil rule.kind) alike.modes,
    alike.problems⟩

theorem leave (alike : like.States left right) : like.States left.leave right.leave := by
  have modes := alike.modes
  have here : right.offset = left.offset + like.distance := alike.place.offset
  unfold State.leave
  cases ground : left.outer <;> cases ground' : right.outer <;> rw [ground, ground'] at modes
  · exact alike
  · cases modes
  · cases modes
  · rw [here]
    exact ⟨alike.place, modes.leave left.offset, alike.problems⟩

theorem abandon (alike : like.States left right) : like.States left.abandon right.abandon := by
  have modes := alike.modes
  have here : right.offset = left.offset + like.distance := alike.place.offset
  have name : right.active.rule.name = left.active.rule.name := by
    rw [modes.rule_eq]
    rfl
  unfold State.abandon
  cases ground : left.outer <;> cases ground' : right.outer <;> rw [ground, ground'] at modes
  · exact alike
  · cases modes
  · cases modes
  · cases modes with
    | nested _ _ start _ below =>
      rw [here, start, name]
      refine ⟨alike.place, below.add .error ⟨left.active.start, left.offset⟩, ?_⟩
      simp only [alike.problems, List.map_cons, List.cons_append]
      rfl

theorem unwind (alike : like.States left right) (maxDepth : Nat) :
    like.States (left.unwind maxDepth) (right.unwind maxDepth) := by
  have here : right.offset = left.offset + like.distance := alike.place.offset
  simp only [State.unwind, here, alike.modes.outermostStart_eq]
  refine ⟨alike.place, alike.modes.unwind left.offset, ?_⟩
  simp only [alike.problems, List.map_cons, List.cons_append]
  rfl

theorem flag (alike : like.States left right) {length : Nat}
    (within : length ≤ left.place.rest.length) :
    like.States (left.flag length) (right.flag length) := by
  have taken := alike.take .illegal within
  have here : right.offset = left.offset + like.distance := alike.place.offset
  refine ⟨taken.place, taken.modes, ?_⟩
  simp only [State.flag, here, alike.problems, List.map_cons, List.cons_append,
    Nat.add_right_comm _ like.distance length]
  rfl

theorem takeMatch (alike : like.States left right) (rule : Rule) {hit : Hit}
    (fits : hit.Fits left.place.rest) :
    like.States (Action.takeMatch rule hit left) (Action.takeMatch (like.rule rule) hit right) := by
  have within := fits.whole.le_length
  have headWithin : hit.headStop ≤ left.place.rest.length := Nat.le_trans fits.le within
  have text : right.place.rest.take hit.headStop = left.place.rest.take hit.headStop := by
    rw [alike.place.rest, List.take_append_of_le_length headWithin]
  simp only [Action.takeMatch, text]
  refine (alike.take _ headWithin).take _ ?_
  simp only [State.take, Cursor.rest_skip, List.length_drop]
  omega

/-- Whatever a scan does, one that is like it may do too. -/
theorem perform (alike : like.States left right) {action : Action}
    (fits : action.Fits left.place.rest) :
    like.States (action.perform options left) ((like.action action).perform options right) := by
  cases action with
  | close hit =>
    simp only [Action.perform, action, alike.modes.rule_eq, rule]
    by_cases excludes : left.active.rule.excludesClosing = true
    · rw [if_pos excludes, if_pos excludes]
      exact alike.leave
    · rw [if_neg excludes, if_neg excludes]
      exact (alike.take _ fits.whole.le_length).leave
  | abandon => exact alike.abandon
  | flag hit => exact alike.flag fits.whole.le_length
  | leaf rule hit => exact alike.takeMatch rule fits
  | enter rule hit => exact (alike.enter rule hit.hashes).takeMatch rule fits
  | unwind => exact alike.unwind options.maxDepth
  | content kind length => exact alike.take kind fits.cut.le_length

/-! ## Decisions -/

end States

/-- All matchers that a scan may try answer in both states alike. -/
structure Agree (grammar : Grammar) (left right : State) : Prop where
  closing : ∀ matcher ∈ left.active.rule.closing,
    matcher.matchAt? left.active.hashes right.place =
      matcher.matchAt? left.active.hashes left.place
  illegal : ∀ matcher ∈ left.active.rule.illegal,
    matcher.matchAt? left.active.hashes right.place =
      matcher.matchAt? left.active.hashes left.place
  nested : ∀ id ∈ left.active.rule.contains, ∀ inner ∈ grammar.rule? id,
    inner.opening.matchAt? 0 right.place = inner.opening.matchAt? 0 left.place

namespace States

/-- Scans that have the same text in front of them agree. -/
theorem agree (alike : like.States left right) (whole : like.later = []) (grammar : Grammar) :
    Agree grammar left right where
  closing matcher _ := alike.place.matchAt?_eq whole matcher _
  illegal matcher _ := alike.place.matchAt?_eq whole matcher _
  nested _ _ inner _ := alike.place.matchAt?_eq whole inner.opening 0

theorem closing?_eq (alike : like.States left right) (agree : Agree grammar left right) :
    Action.closing? right = (Action.closing? left).map like.action := by
  simp only [Action.closing?, alike.modes.rule_eq, alike.modes.hashes_eq, rule]
  cases ends : left.active.rule.closing with
  | none => rfl
  | some matcher =>
    simp only [agree.closing matcher ends, Option.map_map]
    rfl

theorem rejection?_eq (alike : like.States left right) (agree : Agree grammar left right) :
    Action.rejection? options right = (Action.rejection? options left).map like.action := by
  have modes := alike.modes
  simp only [Action.rejection?, modes.rule_eq, modes.hashes_eq, rule]
  cases rejects : left.active.rule.illegal with
  | none => rfl
  | some matcher =>
    simp only [agree.illegal matcher rejects]
    cases matcher.matchAt? left.active.hashes left.place with
    | none => rfl
    | some hit =>
      -- Only the ground mode flags what it rejects, and both are in it or neither.
      generalize left.outer = outer at modes
      generalize right.outer = outer' at modes
      cases modes with
      | ground =>
        dsimp only
        split <;> rfl
      | nested => rfl

theorem firstMatch?_eq (rules : ∀ id, other.rule? id = (grammar.rule? id).map like.rule)
    {ids : List RuleId} {place place' : Cursor}
    (same : ∀ id ∈ ids, ∀ inner ∈ grammar.rule? id,
      inner.opening.matchAt? 0 place' = inner.opening.matchAt? 0 place) :
    other.firstMatch? ids place' =
      (grammar.firstMatch? ids place).map fun found => (like.rule found.1, found.2) := by
  induction ids with
  | nil => rfl
  | cons id ids ih =>
    have rest := ih fun id member => same id (List.mem_cons_of_mem _ member)
    simp only [Grammar.firstMatch?, List.findSome?_cons] at rest ⊢
    rw [rules]
    cases known : grammar.rule? id with
    | none => simpa [known] using rest
    | some inner =>
      have here := same id List.mem_cons_self inner known
      have opening : (like.rule inner).opening = inner.opening := rfl
      simp only [Option.map_some, opening, here]
      cases inner.opening.matchAt? 0 place with
      | none => exact rest
      | some hit => rfl

theorem nested?_eq (alike : like.States left right) (agree : Agree grammar left right)
    (rules : ∀ id, other.rule? id = (grammar.rule? id).map like.rule) :
    Action.nested? other options right = (Action.nested? grammar options left).map like.action := by
  have depth : right.depth = left.depth := congrArg (· + 1) alike.modes.length_eq
  have contains : right.active.rule.contains = left.active.rule.contains := by
    rw [alike.modes.rule_eq]
    rfl
  simp only [Action.nested?, contains, depth, firstMatch?_eq rules agree.nested]
  cases grammar.firstMatch? left.active.rule.contains left.place with
  | none => rfl
  | some found =>
    have mode : (like.rule found.1).isMode = found.1.isMode := rfl
    simp only [Option.map_some, mode]
    split
    · split <;> rfl
    · rfl

/-- Scans that agree do alike what a matcher makes them do. -/
theorem claimed?_eq (alike : like.States left right) (agree : Agree grammar left right)
    (rules : ∀ id, other.rule? id = (grammar.rule? id).map like.rule) :
    claimed? other options right = (claimed? grammar options left).map like.action := by
  simp only [claimed?, alike.closing?_eq agree, alike.rejection?_eq agree,
    alike.nested?_eq agree rules, Option.map_or]

/-- Scans that agree also on what nothing claims decide alike. -/
theorem next_eq (alike : like.States left right) (agree : Agree grammar left right)
    (rules : ∀ id, other.rule? id = (grammar.rule? id).map like.rule)
    (content : claimed? grammar options left = none →
      Action.unclaimed right = Action.unclaimed left) :
    Action.next other options right = like.action (Action.next grammar options left) := by
  rw [next_eq_getD, next_eq_getD, alike.claimed?_eq agree rules]
  cases idle : claimed? grammar options left with
  | some action => rfl
  | none =>
    obtain ⟨kind, length, taken⟩ := exists_unclaimed_eq left
    rw [Option.map_none, Option.getD_none, Option.getD_none, content idle, taken]
    rfl

/-- Scans that decide alike stay alike. -/
theorem step (alike : like.States left right)
    (fits : (Action.next grammar options left).Fits left.place.rest)
    (decides : Action.next other options right = like.action (Action.next grammar options left)) :
    like.States (Scan.step grammar options left) (Scan.step other options right) := by
  rw [Scan.step, Scan.step, decides]
  exact alike.perform fits

/-! ## Findings -/

theorem finish (alike : like.States left right) :
    like.inside none left.finish.outline right.finish.outline ∧
      right.finish.problems =
        like.earlier.reverse ++ left.finish.problems.map (Problem.shift like.distance) := by
  have here : right.offset = left.offset + like.distance := alike.place.offset
  simp only [State.finish, here]
  constructor
  · have closed := alike.modes.unwind left.offset
    cases closed with
    | ground _ _ inside => exact inside
  · simp only [alike.modes.unterminated_eq, alike.problems, List.reverse_append, List.map_append,
      List.map_reverse, List.append_assoc]

end States

end Likeness

end Scan

end ModalHighlight
