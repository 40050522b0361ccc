import Mathlib.Logic.Function.Iterate
import ModalHighlight.Proofs.Scan.Closing

/-! # Scans get on

A step that takes no text closes modes, and every mode above the ground was
opened further left than the scan now stands, because what opened it is text of
its own.  So a scan cannot turn in a circle at one place: all modes that a step
closes there were opened before, and none is opened without taking text.  That
bounds the steps of a scan by twice the bytes of its text.
-/

namespace ModalHighlight.Scan

variable {grammar : Grammar} {options : Options} {text : String} {state : State}
variable {action : Action}

/-! ## Frames -/

/-- An open mode without what was found in it. -/
structure Frame where
  rule : Rule
  /-- Where the mode was opened. -/
  start : Nat
  hashes : Nat
  deriving DecidableEq, Repr

def OpenMode.frame (mode : OpenMode) : Frame := ⟨mode.rule, mode.start, mode.hashes⟩

/-- The stack of open modes, the innermost first. -/
def State.frames (state : State) : List Frame :=
  (state.active :: state.outer).map OpenMode.frame

@[simp] theorem OpenMode.frame_add (mode : OpenMode) (kind : Kind) (span : Span) :
    (mode.add kind span).frame = mode.frame := by
  unfold add
  split <;> rfl

@[simp] theorem OpenMode.frame_enclose (around mode : OpenMode) (stop : Nat) :
    (around.enclose mode stop).frame = around.frame := rfl

namespace State

theorem frames_leave (nested : state.outer ≠ []) :
    state.frames = state.active.frame :: state.leave.frames := by
  unfold leave
  split
  next ground => exact absurd ground nested
  next modes => simp [frames, modes]

theorem frames_abandon (nested : state.outer ≠ []) :
    state.frames = state.active.frame :: state.abandon.frames := by
  unfold abandon
  split
  next ground => exact absurd ground nested
  next modes => simp [frames, modes]

/-- Only the ground mode is left of a stack that was closed. -/
theorem frame_ground (stop : Nat) (mode : OpenMode) (outer : List OpenMode) :
    (ground stop mode outer).frame = (OpenMode.bottom mode outer).frame := by
  induction outer generalizing mode with
  | nil => rfl
  | cons around outer ih =>
    have below : (OpenMode.bottom (around.enclose mode stop) outer).frame =
        (OpenMode.bottom around outer).frame := by
      cases outer <;> rfl
    exact (ih _).trans below

end State

/-- The modes above the ground were opened in front of where they reach to. -/
theorem Layered.exists_above {border : Nat → Prop} {limit stop : Nat} {mode : OpenMode}
    {outer : List OpenMode} (layered : Layered grammar border limit mode outer stop) :
    ∃ above : List Frame,
      (mode :: outer).map OpenMode.frame = above ++ [(OpenMode.bottom mode outer).frame] ∧
        above.length = outer.length ∧ ∀ frame ∈ above, frame.start < stop := by
  induction layered with
  | ground => exact ⟨[], rfl, rfl, by simp⟩
  | @nested mode around outer stop _ tiles leads _ _ ih =>
    obtain ⟨above, modes, length, before⟩ := ih
    have proper : mode.start < stop := tiles.lt_of_leads leads
    refine ⟨mode.frame :: above, ?_, by simp [length], ?_⟩
    · rw [List.map_cons, modes]
      rfl
    · intro frame member
      rcases List.mem_cons.1 member with rfl | below
      · exact proper
      · exact Nat.lt_trans (before frame below) proper

/-! ## One step -/

/-- From one state to the next, either text is taken, or the scan stays where it
is and modes are closed that were all opened further left. -/
def Progress (before after : State) : Prop :=
  before.offset < after.offset ∨
    after.offset = before.offset ∧
      ∃ closed : List Frame, closed ≠ [] ∧ before.frames = closed ++ after.frames ∧
        ∀ frame ∈ closed, frame.start < before.offset

theorem offset_take (state : State) (kind : Kind) {length : Nat}
    (within : length ≤ state.place.rest.length) :
    (state.take kind length).offset = state.offset + length :=
  Cursor.offset_skip length state.place within

theorem offset_takeMatch (rule : Rule) (state : State) {hit : Hit}
    (fits : hit.Fits state.place.rest) :
    (Action.takeMatch rule hit state).offset = state.offset + hit.stop := by
  have inside := fits.whole.le_length
  rw [Action.takeMatch, offset_take, offset_take _ _ (Nat.le_trans fits.le inside), Nat.add_assoc,
    Nat.add_sub_cancel' fits.le]
  rw [length_rest_take]
  exact Nat.sub_le_sub_right inside _

@[simp] theorem offset_leave (state : State) : state.leave.offset = state.offset := by
  unfold State.leave
  split <;> rfl

@[simp] theorem offset_abandon (state : State) : state.abandon.offset = state.offset := by
  unfold State.abandon
  split <;> rfl

namespace State.Sound

theorem start_lt (sound : state.Sound grammar options text) (nested : state.outer ≠ []) :
    state.active.start < state.offset := by
  have layered := sound.layered
  cases outer : state.outer with
  | nil => exact absurd outer nested
  | cons around others =>
    rw [outer] at layered
    cases layered with
    | nested _ tiles leads => exact tiles.lt_of_leads leads

theorem progress_leave (sound : state.Sound grammar options text) (nested : state.outer ≠ []) :
    Progress state state.leave := by
  refine .inr ⟨offset_leave state, [state.active.frame], by simp, frames_leave nested, ?_⟩
  intro frame member
  rw [List.mem_singleton.1 member]
  exact sound.start_lt nested

theorem progress_abandon (sound : state.Sound grammar options text) (nested : state.outer ≠ []) :
    Progress state state.abandon := by
  refine .inr ⟨offset_abandon state, [state.active.frame], by simp, frames_abandon nested, ?_⟩
  intro frame member
  rw [List.mem_singleton.1 member]
  exact sound.start_lt nested

theorem progress_unwind (sound : state.Sound grammar options text) (nested : state.outer ≠ [])
    (maxDepth : Nat) : Progress state (state.unwind maxDepth) := by
  obtain ⟨above, modes, length, before⟩ := sound.layered.exists_above
  refine .inr ⟨rfl, above, ?_, ?_, before⟩
  · rintro rfl
    exact nested (List.length_eq_zero_iff.1 length.symm)
  · have left : (state.unwind maxDepth).frames =
        [(OpenMode.bottom state.active state.outer).frame] :=
      congrArg (fun frame => [frame]) (frame_ground state.offset state.active state.outer)
    rw [left]
    exact modes

end State.Sound

/-- Whatever a scan decides to do, it gets on. -/
theorem Chosen.progress (chosen : Chosen grammar options state action) (lawful : grammar.Lawful)
    (sound : state.Sound grammar options text) (left : state.place.rest ≠ [])
    (room : leastMaxDepth ≤ options.maxDepth) :
    Progress state (action.perform options state) := by
  have fits := chosen.fits lawful sound.layered.known left
  cases chosen with
  | @close matcher hit ends =>
    have nested := sound.layered.outer_ne_nil lawful ends
    simp only [Action.perform]
    split
    next => exact sound.progress_leave nested
    next =>
      refine .inl ?_
      rw [offset_leave, offset_take _ _ fits.whole.le_length]
      exact Nat.lt_add_of_pos_right fits.stop_pos
  | abandon _ _ _ nested => exact sound.progress_abandon nested
  | @flag _ hit =>
    have taken : (state.flag hit.stop).offset = state.offset + hit.stop :=
      offset_take state .illegal fits.whole.le_length
    exact .inl (taken ▸ Nat.lt_add_of_pos_right fits.stop_pos)
  | @leaf rule hit =>
    have taken := offset_takeMatch rule state fits
    exact .inl (taken ▸ Nat.lt_add_of_pos_right fits.stop_pos)
  | @enter rule hit =>
    have taken := offset_takeMatch rule (state.enter rule hit.hashes) fits
    exact .inl (taken ▸ Nat.lt_add_of_pos_right fits.stop_pos)
  | unwind _ _ _ _ full =>
    -- The limit leaves room for one mode, so it is not reached in the ground mode.
    refine sound.progress_unwind ?_ options.maxDepth
    rintro ground
    simp only [State.depth, ground, List.length_nil, leastMaxDepth] at full room
    omega
  | @content kind length =>
    have taken := offset_take state kind fits.cut.le_length
    exact .inl (taken ▸ Nat.lt_add_of_pos_right fits.pos)

/-! ## All steps -/

/-- A scan comes to the end of its text, and not in more steps than it has left
to do. -/
theorem exists_iterate_done (lawful : grammar.Lawful) (room : leastMaxDepth ≤ options.maxDepth)
    (sound : state.Sound grammar options text) {bound : Nat} (enough : state.toDo ≤ bound) :
    ∃ count ≤ bound, ((step grammar options)^[count] state).place.rest = [] ∧
      ∀ earlier < count, ((step grammar options)^[earlier] state).place.rest ≠ [] := by
  induction bound generalizing state with
  | zero =>
    unfold State.toDo at enough
    refine ⟨0, Nat.le_refl 0, List.eq_nil_of_length_eq_zero ?_, by simp⟩
    rw [Function.iterate_zero_apply]
    omega
  | succ bound ih =>
    by_cases done : state.place.rest = []
    · exact ⟨0, Nat.zero_le _, done, by simp⟩
    · have chosen := chosen_next grammar options state
      have less := chosen.toDo_perform_lt lawful sound done room
      obtain ⟨count, within, ends, goesOn⟩ :=
        ih (sound.perform lawful done chosen) (Nat.le_of_lt_succ (Nat.lt_of_lt_of_le less enough))
      refine ⟨count + 1, Nat.succ_le_succ within, ends, fun earlier before => ?_⟩
      cases earlier with
      | zero => exact done
      | succ earlier => exact goesOn earlier (Nat.lt_of_succ_lt_succ before)

theorem reachable_iterate {count : Nat}
    (left : ∀ earlier < count,
      ((step grammar options)^[earlier] (.start grammar (Text.bytes text))).place.rest ≠ []) :
    Reachable grammar options text
      ((step grammar options)^[count] (.start grammar (Text.bytes text))) := by
  induction count with
  | zero => exact .start
  | succ count ih =>
    rw [Function.iterate_succ_apply']
    exact (ih fun earlier before => left earlier (Nat.lt_succ_of_lt before)).step
      (left count (Nat.lt_succ_self count))

/-- With any options, the steps of a scan take it to the end of its text, at most
two of them for each byte.  Every step on the way takes text or closes modes that
were opened further left, and one that gives up a mode closes that mode alone. -/
theorem steps_linear (options : Options) (text : String) :
    let highlighter := Highlighter.default.withOptions options
    let grammar := highlighter.language.grammar
    let state := fun count : Nat =>
      (step grammar highlighter.options)^[count] (.start grammar (Text.bytes text))
    ∃ count ≤ 2 * text.utf8ByteSize,
      (state count).offset = text.utf8ByteSize ∧
        run grammar highlighter.options (Text.bytes text) = (state count).finish ∧
        ∀ earlier < count,
          (state earlier).offset < text.utf8ByteSize ∧
            Progress (state earlier) (state (earlier + 1)) ∧
            (Action.next grammar highlighter.options (state earlier) = .abandon →
              ∃ closed, (state earlier).frames = closed :: (state (earlier + 1)).frames) := by
  intro highlighter grammar state
  have lawful : grammar.Lawful := Flint.grammar_lawful
  have room : leastMaxDepth ≤ highlighter.options.maxDepth := highlighter.leastMaxDepth_le
  have positive : 0 < highlighter.options.maxDepth := Nat.lt_of_lt_of_le (by decide) room
  obtain ⟨count, within, done, left⟩ := exists_iterate_done lawful room
    (State.Sound.start grammar text positive) (Nat.le_refl _)
  have reached : ∀ steps ≤ count, Reachable grammar highlighter.options text (state steps) :=
    fun steps before =>
      reachable_iterate fun earlier first => left earlier (Nat.lt_of_lt_of_le first before)
  refine ⟨count, ?_, ?_, ?_, fun earlier before => ?_⟩
  · simpa [State.toDo, State.start, Cursor.start, Text.length_bytes] using within
  · exact ((reached count (Nat.le_refl _)).sound lawful positive).offset_of_done done
  · exact (reached count (Nat.le_refl _)).run_eq lawful room done
  · have sound := (reached earlier (Nat.le_of_lt before)).sound lawful positive
    have goesOn := left earlier before
    have chosen := chosen_next grammar highlighter.options (state earlier)
    have next : state (earlier + 1) = step grammar highlighter.options (state earlier) :=
      Function.iterate_succ_apply' _ _ _
    refine ⟨?_, ?_, fun abandons => ?_⟩
    · have inside := sound.rest_eq ▸ goesOn
      rw [ne_eq, List.drop_eq_nil_iff, Nat.not_le, Text.length_bytes] at inside
      exact inside
    · rw [next]
      exact chosen.progress lawful sound goesOn room
    · rw [next, step, abandons]
      rw [abandons] at chosen
      cases chosen with
      | abandon _ _ _ nested => exact ⟨_, State.frames_abandon nested⟩

end ModalHighlight.Scan
