import ModalHighlight.Proofs.Outline.Segments
import ModalHighlight.Proofs.Scan.Plain

/-! # Segments of open modes

What a scan has found so far lies in its open modes, one behind the other from
the outside in.  Read off there, its segments are those of the outline that the
scan would end with, and the chains of the open modes are known while they are
open.
-/

namespace ModalHighlight.Scan

variable {grammar : Grammar} {options : Options} {text : String}
variable {mode around : OpenMode} {outer : List OpenMode} {offset : Nat}

/-- The chain of the innermost of open modes. -/
def chainOf : OpenMode → List OpenMode → Chain
  | _, [] => .ground
  | mode, around :: outer =>
    if mode.rule.kind = around.rule.kind then chainOf around outer else .openedAt mode.start

/-- The chains of open modes, from the inside out. -/
def chains : OpenMode → List OpenMode → List Chain
  | mode, [] => [chainOf mode []]
  | mode, around :: outer => chainOf mode (around :: outer) :: chains around outer

/-- The segments in a mode. -/
def ownSegments (mode : OpenMode) (outer : List OpenMode) : List Segment :=
  mode.inside.segmentsOnto mode.rule.kind (chainOf mode outer) []

/-- The segments in open modes. -/
def segments : OpenMode → List OpenMode → List Segment
  | mode, [] => ownSegments mode []
  | mode, around :: outer => segments around outer ++ ownSegments mode (around :: outer)

theorem chainOf_congr {later : OpenMode} (rule : later.rule = mode.rule)
    (start : later.start = mode.start) (outer : List OpenMode) :
    chainOf later outer = chainOf mode outer := by
  cases outer with
  | nil => rfl
  | cons => rw [chainOf, chainOf, rule, start]

theorem chains_congr {later : OpenMode} (rule : later.rule = mode.rule)
    (start : later.start = mode.start) (outer : List OpenMode) :
    chains later outer = chains mode outer := by
  cases outer with
  | nil => rfl
  | cons => rw [chains, chains, chainOf_congr rule start]

/-- A piece that is added to a mode is the last segment. -/
theorem segments_add (mode : OpenMode) (outer : List OpenMode) (kind : Kind) {start stop : Nat}
    (proper : start < stop) :
    segments (mode.add kind ⟨start, stop⟩) outer =
      segments mode outer ++ [⟨⟨kind, ⟨start, stop⟩⟩,
        if kind = mode.rule.kind then some (chainOf mode outer) else none⟩] := by
  have own : ownSegments (mode.add kind ⟨start, stop⟩) outer = ownSegments mode outer ++
      [⟨⟨kind, ⟨start, stop⟩⟩,
        if kind = mode.rule.kind then some (chainOf mode outer) else none⟩] := by
    rw [ownSegments, chainOf_congr (OpenMode.rule_add ..) (OpenMode.start_add ..),
      OpenMode.add_of_lt mode kind proper]
    exact Outline.segmentsOnto_piece _ _ _ _
  cases outer with
  | nil => exact own
  | cons => rw [segments, own, segments, List.append_assoc]

/-- A mode that closes takes its segments along. -/
theorem segments_enclose (mode around : OpenMode) (outer : List OpenMode) (stop : Nat) :
    segments (around.enclose mode stop) outer = segments mode (around :: outer) := by
  have own : ownSegments (around.enclose mode stop) outer =
      ownSegments around outer ++ ownSegments mode (around :: outer) := by
    have same := @chainOf_congr around (around.enclose mode stop) rfl rfl outer
    rw [ownSegments, same]
    exact Outline.segmentsOnto_scope _ _ _ _ _
  cases outer with
  | nil => rw [segments, own]; rfl
  | cons => rw [segments, own, segments, segments, List.append_assoc]

theorem segments_ground (stop : Nat) (mode : OpenMode) (outer : List OpenMode) :
    segments (State.ground stop mode outer) [] = segments mode outer := by
  induction outer generalizing mode with
  | nil => rfl
  | cons around outer ih => rw [State.ground, ih, segments_enclose]

/-- The segments of open modes tile the text that is covered by them. -/
theorem Layered.tiles_segments {border : Nat → Prop} {limit stop : Nat}
    (layered : Layered grammar border limit mode outer stop) :
    Span.Tiles border 0 stop ((segments mode outer).map (·.piece.span)) := by
  induction layered with
  | ground _ _ tiles => exact tiles.segments _ _
  | nested _ tiles _ _ _ ih =>
    rw [segments, List.map_append]
    exact ih.append (tiles.segments _ _)

/-! ## Grounded grammars -/

/-- What a scan would end with has the segments of its open modes. -/
theorem State.Sound.segments_outline {state : State} (sound : state.Sound grammar options text)
    (grounded : grammar.Grounded) :
    state.finish.outline.segments = segments state.active state.outer := by
  rw [← segments_ground state.offset]
  have layered := sound.layered.unwind
  cases layered with
  | ground root =>
    rw [segments, ownSegments, root, grounded.root]
    rfl

/-- Only the ground mode is of the ground chain. -/
theorem Stacked.chainOf_ne_ground {forced : Force → Span → Prop} {phase : Phase}
    (stacked : Stacked grammar options text forced phase mode outer offset)
    (grounded : grammar.Grounded) (nested : outer ≠ []) : chainOf mode outer ≠ .ground := by
  induction stacked with
  | ground => exact absurd rfl nested
  | @nested mode around outer _ _ _ _ opens below ih =>
    rw [chainOf]
    split
    next same =>
      refine ih ?_
      rintro rfl
      obtain ⟨_, _, rule?, _⟩ := Grammar.firstMatch?_eq_some opens.found
      refine grounded.mode_kind (Array.mem_of_getElem? rule?) opens.isMode ?_
      cases below with
      | ground _ root => rw [same, root, grounded.root]
    next => exact Chain.noConfusion

theorem chain_ne_ground {outline : Outline} {kind : Kind} {chain : Chain}
    (other : chain ≠ .ground) :
    ∀ segment ∈ outline.segmentsOnto kind chain [], segment.chain ≠ some .ground := by
  induction outline generalizing kind chain with
  | nil =>
    intro segment member
    cases member
  | piece earlier p ih =>
    intro segment member
    rw [Outline.segmentsOnto_piece, List.mem_append, List.mem_singleton] at member
    rcases member with inEarlier | rfl
    · exact ih other segment inEarlier
    · by_cases same : p.kind = kind <;> simp [same, other]
  | scope earlier s inside ih ihInside =>
    intro segment member
    rw [Outline.segmentsOnto_scope, List.mem_append] at member
    rcases member with inEarlier | inInside
    · exact ih other segment inEarlier
    · refine ihInside ?_ segment inInside
      rw [Outline.innerChain]
      split
      next => exact other
      next => exact Chain.noConfusion

/-- The chain that the last segment is content of. -/
def lastChain? (mode : OpenMode) (outer : List OpenMode) : Option Chain :=
  (segments mode outer).getLast?.bind Segment.chain

theorem lastChain?_add (mode : OpenMode) (outer : List OpenMode) (kind : Kind) {start stop : Nat}
    (proper : start < stop) :
    lastChain? (mode.add kind ⟨start, stop⟩) outer =
      if kind = mode.rule.kind then some (chainOf mode outer) else none := by
  rw [lastChain?, segments_add mode outer kind proper, List.getLast?_concat]
  rfl

/-- As long as a mode is open, what was scanned last is no content of the ground mode. -/
theorem Layered.lastChain?_ne_ground {border : Nat → Prop} {limit stop : Nat}
    (layered : Layered grammar border limit mode outer stop) (nested : outer ≠ [])
    (other : chainOf mode outer ≠ .ground) : lastChain? mode outer ≠ some .ground := by
  cases layered with
  | ground => exact absurd rfl nested
  | @nested mode around outer stop _ tiles leads =>
    have filled : ownSegments mode (around :: outer) ≠ [] := by
      intro empty
      have spans := tiles.segments mode.rule.kind (chainOf mode (around :: outer))
      rw [ownSegments] at empty
      rw [empty] at spans
      exact absurd spans.2 (Nat.ne_of_lt (tiles.lt_of_leads leads))
    rw [lastChain?, segments, List.getLast?_append_of_ne_nil _ filled,
      List.getLast?_eq_some_getLast filled]
    exact chain_ne_ground other _ (List.getLast_mem filled)

end ModalHighlight.Scan
