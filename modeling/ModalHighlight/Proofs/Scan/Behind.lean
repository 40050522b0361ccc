import ModalHighlight.Proofs.Scan.Beginnings
import ModalHighlight.Proofs.Scan.Onward

/-! # Texts one behind the other

Behind `;` and a line feed, with no mode open, a scan goes on as a scan of the
text that follows goes from its start.  What it finds there is what that scan
finds, moved to the right and put behind what was found before.
-/

namespace ModalHighlight.Scan

open Text (EndsStatement)

variable {grammar : Grammar} {options : Options} {text front back : String}
variable {left right : State} {base : Outline} {distance : Nat} {earlier : List Problem}

/-! ## Other text in front -/

/-- A scan that came to a text from the text in front of it, compared to one of
the text alone. -/
def behind (base : Outline) (distance : Nat) (earlier : List Problem) : Likeness where
  later := []
  distance := distance
  stops := Rule.stops
  earlier := earlier
  inside
    | none, found, found' => found' = base.append (found.shift distance)
    | some _, found, found' => found' = found.shift distance
  nil _ := rfl
  piece {place _ _} p same := by
    cases place with
    | none => exact congrArg (·.piece (p.shift distance)) same
    | some => exact congrArg (·.piece (p.shift distance)) same
  scope {place _ _ _ _} s same within := by
    cases place with
    | none => exact congrArg₂ (Outline.scope · (s.shift distance) ·) same within
    | some => exact congrArg₂ (Outline.scope · (s.shift distance) ·) same within

theorem step_behind (alike : (behind base distance earlier).States left right)
    (fits : (Action.next grammar options left).Fits left.place.rest) :
    (behind base distance earlier).States (step grammar options left)
      (step grammar options right) := by
  refine alike.step fits (alike.next_eq (alike.agree rfl grammar) (rule?_eq_map _ rfl) fun _ => ?_)
  rw [Action.unclaimed, Action.unclaimed, alike.modes.rule_eq, alike.place.rest_eq rfl]
  rfl

theorem Reachable.exists_behind (reachable : Reachable grammar options back left)
    (lawful : grammar.Lawful) (room : 0 < options.maxDepth) {middle : State}
    (reached : Reachable grammar options text middle)
    (seam : (behind base distance earlier).States (.start grammar (Text.bytes back)) middle) :
    ∃ right, Reachable grammar options text right ∧
      (behind base distance earlier).States left right := by
  induction reachable with
  | start => exact ⟨middle, reached, seam⟩
  | @step left before goesOn ih =>
    obtain ⟨right, reachedRight, alike⟩ := ih
    have known := (before.sound lawful room).layered.known
    have fits := (chosen_next grammar options left).fits lawful known goesOn
    exact ⟨_, reachedRight.step (alike.place.rest_ne_nil goesOn), step_behind alike fits⟩

/-! ## The seam -/

theorem State.Sound.atWordStart (sound : left.Sound grammar options front)
    (ends : EndsStatement front) (done : left.place.rest = []) :
    left.place.atWordStart = true := by
  obtain ⟨start, bytes⟩ := ends.exists_bytes
  have here : left.offset = start.length + 2 := by
    rw [sound.offset_of_done done, ← Text.length_bytes, bytes]
    simp
  have before : left.place.before = some Byte.newline := by
    rw [sound.place, here, bytes]
    simp [Cursor.ofOffset]
  rw [Cursor.atWordStart, before]
  rfl

/-- Where the text in front ends with no mode open, a scan of both texts is
where one of the second starts. -/
theorem behind_start (reachable : Reachable grammar options front left)
    (lawful : grammar.Lawful) (linewise : grammar.Linewise) (room : 0 < options.maxDepth)
    (ends : EndsStatement front) (done : left.place.rest = [])
    (ground : left.outer = []) (alike : (followedBy (Text.bytes back)).States left right) :
    (behind left.active.inside front.utf8ByteSize left.problems).States
      (.start grammar (Text.bytes back)) right := by
  have sound := reachable.sound lawful room
  have begun := reachable.begun lawful linewise room
  have root := sound.rule_eq_root ground
  have modes := alike.modes
  have problems := alike.problems
  constructor
  · refine ⟨?_, ?_, ?_⟩
    · rw [alike.place.offset]
      exact (sound.offset_of_done done).trans (Nat.zero_add _).symm
    · rw [alike.place.wordStart, sound.atWordStart ends done]
      rfl
    · rw [alike.place.rest, done]
      exact (List.append_nil _).symm
  · rw [State.Begun, ground] at begun
    rw [ground] at modes
    generalize right.outer = outer at modes
    cases begun with
    | ground hashes =>
      cases modes with
      | ground rule sameHashes inside =>
        exact .ground (rule.trans root) (sameHashes.trans hashes) inside.symm
  · rw [problems]
    simp [followedBy, behind, State.start]

/-! ## Findings -/

theorem State.outer_eq_nil (closed : ∀ problem ∈ left.finish.problems,
    problem.diagnostic.kind ≠ .unterminated) : left.outer = [] := by
  cases outer : left.outer with
  | nil => rfl
  | cons around more =>
    refine absurd rfl (closed (.unterminated left.active.rule.name ⟨left.active.start, left.offset⟩)
      (List.mem_append_right _ ?_))
    rw [outer]
    exact List.mem_cons_self

/-- A run over two texts finds what runs over each of them find, if the first
text ends with `;` and a line feed and leaves no mode open. -/
theorem run_append (lawful : grammar.Lawful) (linewise : grammar.Linewise)
    (room : leastMaxDepth ≤ options.maxDepth) (ends : EndsStatement front)
    (closed : ∀ problem ∈ (run grammar options (Text.bytes front)).problems,
      problem.diagnostic.kind ≠ .unterminated) (back : String) :
    let first := run grammar options (Text.bytes front)
    let second := run grammar options (Text.bytes back)
    (∃ earlier span, first.outline = .piece earlier ⟨.plain, span⟩) ∧ second.outline.Grounded ∧
      run grammar options (Text.bytes (front ++ back)) =
        ⟨first.outline.append (second.outline.shift front.utf8ByteSize),
          first.problems ++ second.problems.map (Problem.shift front.utf8ByteSize)⟩ := by
  intro first second
  have positive : 0 < options.maxDepth := Nat.lt_of_lt_of_le (by decide) room
  obtain ⟨last, reached, done, found⟩ := reachable_run lawful room front
  obtain ⟨final, reachedFinal, doneFinal, foundFinal⟩ := reachable_run lawful room back
  rw [found] at closed
  have ground := State.outer_eq_nil closed
  have firstOutline : first.outline = last.active.inside := by
    simp only [first, found, State.finish, ground]
    rfl
  have firstProblems : first.problems = last.problems.reverse := by
    simp [first, found, State.finish, ground, State.unterminated]
  have secondOutline : second.outline.Grounded := by
    have begun := Begins.unwind (reachedFinal.begun lawful linewise positive) final.offset
    simp only [second, foundFinal]
    cases begun with
    | ground _ inside => exact inside
  refine ⟨firstOutline ▸ reached.exists_last lawful linewise positive ends done ground,
    secondOutline, ?_⟩
  -- The scan of both texts passes the seam, and goes on to the end of the second.
  rcases reached.exists_followedBy lawful linewise positive ends back with
    ⟨middle, reachedMiddle, alike⟩ | ⟨_, nested⟩
  · have seam := behind_start reached lawful linewise positive ends done ground alike
    obtain ⟨whole, reachedWhole, alikeWhole⟩ :=
      reachedFinal.exists_behind lawful positive reachedMiddle seam
    have doneWhole : whole.place.rest = [] := (alikeWhole.place.rest_eq rfl).trans doneFinal
    obtain ⟨outline, problems⟩ := alikeWhole.finish
    rw [reachedWhole.run_eq lawful room doneWhole, firstOutline, firstProblems]
    simp only [second, foundFinal]
    exact congrArg₂ Findings.mk outline problems
  · exact absurd ground nested

end ModalHighlight.Scan
