import ModalHighlight.Proofs.Grammar.Kinds
import ModalHighlight.Proofs.Outline.Conforms
import ModalHighlight.Proofs.Scan.Growth

/-! # What a scan writes

A scan writes pieces on six occasions: it opens a mode, takes a leaf, takes
content, flags markup, closes a mode or gives one up.  A rule about what modes
may hold is kept by the outline of every text if it is kept on these occasions,
and if every mode fits into the one in which it opens.
-/

namespace ModalHighlight.Scan

variable {grammar : Grammar} {options : Options} {text : String}
variable {forced : Force → Span → Prop} {phase : Phase} {mode around : OpenMode} {offset : Nat}

/-- The pieces of the match of a rule at an offset: its head, and what is left of
it if anything is. -/
def matchPieces (rule : Rule) (hit : Hit) (text : String) (offset : Nat) : List Piece :=
  [⟨Action.headKind rule (((Text.bytes text).drop offset).take hit.headStop),
      ⟨offset, offset + hit.headStop⟩⟩,
    ⟨rule.kind, ⟨offset + hit.headStop, offset + hit.stop⟩⟩].filter fun p => !p.span.isEmpty

theorem of_mem_matchPieces {rule : Rule} {hit : Hit} {p : Piece} (ordered : hit.headStop ≤ hit.stop)
    (member : p ∈ matchPieces rule hit text offset) :
    offset ≤ p.span.start ∧ p.span.start < p.span.stop ∧ p.span.stop ≤ offset + hit.stop := by
  obtain ⟨member, proper⟩ := List.mem_filter.1 member
  simp only [Span.isEmpty, Bool.not_eq_true', decide_eq_false_iff_not, Nat.not_le] at proper
  simp only [List.mem_cons, List.not_mem_nil, or_false] at member
  rcases member with rfl | rfl
  · exact ⟨Nat.le_refl _, proper, by simp only; omega⟩
  · exact ⟨Nat.le_add_right _ _, proper, Nat.le_refl _⟩

theorem kind_of_mem_matchPieces {rule : Rule} {hit : Hit} {p : Piece}
    (member : p ∈ matchPieces rule hit text offset) :
    p.kind = Action.headKind rule (((Text.bytes text).drop offset).take hit.headStop) ∨
      p.kind = rule.kind := by
  have member := (List.mem_filter.1 member).1
  simp only [List.mem_cons, List.not_mem_nil, or_false] at member
  rcases member with rfl | rfl
  · exact .inl rfl
  · exact .inr rfl

theorem contentAt_mem {rule : Rule} {rest : List UInt8} {kind : Kind} {length : Nat}
    (taken : rule.contentAt rest = .content kind length) : kind ∈ rule.contentKinds :=
  @Rule.content_mem ⟨⟨0, none, rest⟩, ⟨rule, 0, 0, .nil⟩, [], []⟩ kind length taken

/-- A scan that gets to an offset writes a piece into a mode. -/
inductive Written (grammar : Grammar) (options : Options) (text : String)
    (forced : Force → Span → Prop) (mode : OpenMode) : Nat → Piece → Prop
  | opening {around : OpenMode} {hit : Hit} {p : Piece}
      (below : Grown grammar options text forced .growing around mode.start)
      (opens : Opens grammar options text around mode hit)
      (member : p ∈ matchPieces mode.rule hit text mode.start) :
      Written grammar options text forced mode (mode.start + hit.stop) p
  | leaf {rule : Rule} {offset : Nat} {hit : Hit} {p : Piece}
      (before : Grown grammar options text forced .growing mode offset)
      (goesOn : mode.GoesOn options text offset)
      (found : grammar.firstMatch? mode.rule.contains
        (Cursor.ofOffset (Text.bytes text) offset) = some (rule, hit))
      (leaf : rule.isMode = false) (member : p ∈ matchPieces rule hit text offset) :
      Written grammar options text forced mode (offset + hit.stop) p
  | content {offset length : Nat} {kind : Kind}
      (before : Grown grammar options text forced .growing mode offset)
      (goesOn : mode.GoesOn options text offset)
      (unmatched : grammar.firstMatch? mode.rule.contains
        (Cursor.ofOffset (Text.bytes text) offset) = none)
      (taken : mode.rule.contentAt ((Text.bytes text).drop offset) = .content kind length) :
      Written grammar options text forced mode (offset + length)
        ⟨kind, ⟨offset, offset + length⟩⟩
  | flag {offset : Nat} {matcher : Matcher} {hit : Hit}
      (before : Grown grammar options text forced .growing mode offset)
      (ground : mode.rule.isMode = false) (rejects : mode.rule.illegal = some matcher)
      (found : matcher.matchAt? mode.hashes (Cursor.ofOffset (Text.bytes text) offset) = some hit)
      (flagging : options.flagMarkup = true) :
      Written grammar options text forced mode (offset + hit.stop)
        ⟨.illegal, ⟨offset, offset + hit.stop⟩⟩
  | closing {around : OpenMode} {offset : Nat} {matcher : Matcher} {opening hit : Hit}
      (opens : Opens grammar options text around mode opening)
      (before : Grown grammar options text forced .growing mode offset)
      (ends : mode.rule.closing = some matcher)
      (found : matcher.matchAt? mode.hashes
        (Cursor.ofOffset (Text.bytes text) offset) = some hit)
      (included : mode.rule.excludesClosing = false) :
      Written grammar options text forced mode (offset + hit.stop)
        ⟨mode.rule.kind, ⟨offset, offset + hit.stop⟩⟩
  | error {inner : OpenMode} {offset : Nat} {matcher : Matcher} {opening hit : Hit}
      (below : Grown grammar options text forced .growing mode inner.start)
      (opens : Opens grammar options text mode inner opening)
      (before : Grown grammar options text forced .growing inner offset)
      (rejects : inner.rule.illegal = some matcher)
      (found : matcher.matchAt? inner.hashes
        (Cursor.ofOffset (Text.bytes text) offset) = some hit) :
      Written grammar options text forced mode offset ⟨.error, ⟨inner.start, offset⟩⟩

/-- What is written into a mode that no rule opened is written into the ground mode. -/
theorem Written.rule_eq_root {reach : Nat} {p : Piece}
    (written : Written grammar options text forced mode reach p) (ground : mode.rule.isMode = false) :
    mode.rule = grammar.rootRule := by
  cases written with
  | opening _ opens =>
    rw [opens.isMode] at ground
    cases ground
  | closing opens =>
    rw [opens.isMode] at ground
    cases ground
  | leaf before => exact before.rule_eq_root ground
  | content before => exact before.rule_eq_root ground
  | flag before => exact before.rule_eq_root ground
  | error below => exact below.rule_eq_root ground

/-! ## Outlines of grown modes -/

/-- The scope that a mode becomes if it stops at an offset.  The ground mode
becomes none. -/
def OpenMode.extent? (mode : OpenMode) (stop : Nat) : Option Scope :=
  if mode.rule.isMode then some ⟨mode.rule.kind, ⟨mode.start, stop⟩⟩ else none

theorem OpenMode.extent?_congr {later : OpenMode} (rule : later.rule = mode.rule)
    (start : later.start = mode.start) (stop : Nat) : later.extent? stop = mode.extent? stop := by
  rw [extent?, extent?, rule, start]

theorem Opens.extent? {hit : Hit} (opens : Opens grammar options text around mode hit)
    (stop : Nat) : mode.extent? stop = some ⟨mode.rule.kind, ⟨mode.start, stop⟩⟩ :=
  if_pos opens.isMode

/-- A rule about what modes may hold that every scan keeps. -/
structure Keeps (grammar : Grammar) (options : Options) (text : String)
    (forced : Force → Span → Prop) (fits : Option Scope → Scope → Prop)
    (allows : Option Scope → Piece → Prop) : Prop where
  fitting : ∀ {around mode : OpenMode} {hit : Hit} {stop limit : Nat},
    Grown grammar options text forced .growing around mode.start →
    Opens grammar options text around mode hit → mode.start + hit.stop ≤ stop → stop ≤ limit →
    fits (around.extent? limit) ⟨mode.rule.kind, ⟨mode.start, stop⟩⟩
  allowed : ∀ {mode : OpenMode} {p : Piece} {reach limit : Nat},
    Written grammar options text forced mode reach p → p.span.start < p.span.stop →
    p.span.stop ≤ reach → reach ≤ limit → allows (mode.extent? limit) p

section Keeping

variable {fits : Option Scope → Scope → Prop} {allows : Option Scope → Piece → Prop}
variable {scope : Option Scope}

theorem not_isEmpty {span : Span} (proper : span.start < span.stop) : (!span.isEmpty) = true := by
  rw [Span.isEmpty, decide_eq_false (Nat.not_le.2 proper)]
  rfl

theorem conforms_add {kind : Kind} {span : Span}
    (conforms : mode.inside.Conforms fits allows scope)
    (allowed : span.start < span.stop → allows scope ⟨kind, span⟩) :
    (mode.add kind span).inside.Conforms fits allows scope := by
  unfold OpenMode.add
  split
  next => exact conforms
  next proper =>
    rw [Span.isEmpty, decide_eq_true_eq, Nat.not_le] at proper
    exact .piece conforms (allowed proper)

theorem conforms_addMatch {rule : Rule} {hit : Hit}
    (conforms : mode.inside.Conforms fits allows scope)
    (allowed : ∀ p ∈ matchPieces rule hit text offset, allows scope p) :
    (mode.addMatch rule hit text offset).inside.Conforms fits allows scope := by
  refine conforms_add (conforms_add conforms fun proper => ?_) fun proper => ?_
  · exact allowed _ (List.mem_filter.2 ⟨List.mem_cons_self, not_isEmpty proper⟩)
  · exact allowed _ (List.mem_filter.2
      ⟨List.mem_cons_of_mem _ List.mem_cons_self, not_isEmpty proper⟩)

/-- Every mode that has grown keeps to the rule, wherever it will stop. -/
theorem Keeps.conforms (keeps : Keeps grammar options text forced fits allows)
    (lawful : grammar.Lawful) (grown : Grown grammar options text forced phase mode offset)
    {limit : Nat} (within : offset ≤ limit) :
    mode.inside.Conforms fits allows (mode.extent? limit) := by
  induction grown generalizing limit with
  | ground => exact .nil
  | @opened around rule offset hit below opens ih =>
    have fits := fits_of_firstMatch? lawful below.known opens.found
    rw [OpenMode.extent?_congr (OpenMode.rule_addMatch ..) (OpenMode.start_addMatch ..)]
    refine conforms_addMatch .nil fun p member => ?_
    obtain ⟨_, proper, upper⟩ := of_mem_matchPieces fits.le member
    exact keeps.allowed (.opening below opens member) proper upper within
  | @leaf mode rule offset hit before goesOn found leaf ih =>
    have fits := fits_of_firstMatch? lawful before.known found
    rw [OpenMode.extent?_congr (OpenMode.rule_addMatch ..) (OpenMode.start_addMatch ..)]
    refine conforms_addMatch (ih (by omega)) fun p member => ?_
    obtain ⟨_, proper, upper⟩ := of_mem_matchPieces fits.le member
    exact keeps.allowed (.leaf before goesOn found leaf member) proper upper within
  | content before goesOn unmatched taken ih =>
    rw [OpenMode.extent?_congr (OpenMode.rule_add ..) (OpenMode.start_add ..)]
    exact conforms_add (ih (by omega)) fun proper =>
      keeps.allowed (.content before goesOn unmatched taken) proper (Nat.le_refl _) within
  | flag before _ ground rejects found flagging ih =>
    rw [OpenMode.extent?_congr (OpenMode.rule_add ..) (OpenMode.start_add ..)]
    exact conforms_add (ih (by omega)) fun proper =>
      keeps.allowed (.flag before ground rejects found flagging) proper (Nat.le_refl _) within
  | @closed mode around offset matcher opening hit below opens before _ ends found ihBelow ih =>
    have behind := mode.le_closingStop hit offset
    have opened := before.opening_le lawful opens
    have same := @OpenMode.extent?_congr around
      (around.enclose (mode.addClosing hit offset) (mode.closingStop hit offset)) rfl rfl limit
    rw [same, OpenMode.enclose, OpenMode.rule_addClosing, OpenMode.start_addClosing]
    refine .scope (ihBelow (Nat.le_trans (Nat.le_trans before.start_le behind) within))
      (keeps.fitting below opens (Nat.le_trans opened behind) within) ?_
    rw [← opens.extent?]
    refine conforms_add (ih behind) fun proper => ?_
    -- The closing text is written only if the mode stops behind it.
    unfold OpenMode.closingStop at proper ⊢
    by_cases excluded : mode.rule.excludesClosing = true
    · rw [if_pos excluded] at proper
      exact absurd proper (Nat.lt_irrefl _)
    · rw [if_neg excluded] at proper ⊢
      exact keeps.allowed (.closing opens before ends found (by simpa using excluded)) proper
        (Nat.le_refl _) (Nat.le_refl _)
  | abandoned below opens before _ _ rejects found ihBelow =>
    rw [OpenMode.extent?_congr (OpenMode.rule_add ..) (OpenMode.start_add ..)]
    exact conforms_add (ihBelow (Nat.le_trans before.start_le within)) fun proper =>
      keeps.allowed (.error below opens before rejects found) proper (Nat.le_refl _) within
  | atEnd _ _ ih => exact ih within
  | atLimit _ _ _ _ ih => exact ih within
  | @cut mode around offset force opening below opens before _ ihBelow ih =>
    have opened := before.opening_le lawful opens
    have same := @OpenMode.extent?_congr around (around.enclose mode offset) rfl rfl limit
    rw [same, OpenMode.enclose]
    refine .scope (ihBelow (Nat.le_trans before.start_le within))
      (keeps.fitting below opens opened within) ?_
    rw [← opens.extent?]
    exact ih (Nat.le_refl _)
  | settled _ _ ih => exact ih within

end Keeping

end ModalHighlight.Scan

namespace ModalHighlight

/-- The outline of a text conforms to every rule that its scan keeps. -/
theorem Highlighter.conforms_highlight (highlighter : Highlighter)
    (lawful : highlighter.language.grammar.Lawful) (text : String)
    {fits : Option Scope → Scope → Prop} {allows : Option Scope → Piece → Prop}
    (keeps : Scan.Keeps highlighter.language.grammar highlighter.options text
      (highlighter.highlight text).Forced fits allows) :
    (highlighter.highlight text).outline.Conforms fits allows none := by
  obtain ⟨mode, root, outline, grown⟩ := highlighter.grown_highlight lawful text
  have conforms := keeps.conforms lawful grown (Nat.le_refl _)
  have ground : mode.rule.isMode = false := by
    rw [root, Rule.isMode, lawful.root]
    rfl
  rw [Scan.OpenMode.extent?, ground] at conforms
  rw [outline]
  exact conforms

end ModalHighlight
