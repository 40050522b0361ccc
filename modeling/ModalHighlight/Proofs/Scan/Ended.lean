import ModalHighlight.Proofs.Outline.Occurs
import ModalHighlight.Proofs.Scan.Growth

/-! # How modes end

A mode that is not given up ends in one of two ways: its closing text stands where
it has grown to, or it is closed by force.  Either way it becomes a scope, and
every scope of a text has come about so.  So a property of the scopes of one rule
is proved of the modes of that rule, step by step as they grow, and then for each
way to end.
-/

namespace ModalHighlight

/-- No mode that opens inside a mode of this rule is ever given up. -/
def Rule.Steady (grammar : Grammar) (rule : Rule) : Prop :=
  ∀ id ∈ rule.contains, ∀ inner ∈ grammar.rule? id, inner.isMode = true → inner.illegal = none

/-- No mode opens inside a mode of this rule. -/
def Rule.Flat (grammar : Grammar) (rule : Rule) : Prop :=
  ∀ id ∈ rule.contains, ∀ inner ∈ grammar.rule? id, inner.isMode = false

instance (grammar : Grammar) (rule : Rule) : Decidable (rule.Steady grammar) :=
  inferInstanceAs (Decidable (∀ id ∈ rule.contains, ∀ inner ∈ grammar.rule? id, _))

instance (grammar : Grammar) (rule : Rule) : Decidable (rule.Flat grammar) :=
  inferInstanceAs (Decidable (∀ id ∈ rule.contains, ∀ inner ∈ grammar.rule? id, _))

theorem Rule.Flat.steady {grammar : Grammar} {rule : Rule} (flat : rule.Flat grammar) :
    rule.Steady grammar := by
  intro id listed inner known isMode
  rw [flat id listed inner known] at isMode
  cases isMode

theorem Rule.Flat.isMode_eq_false {grammar : Grammar} {rule inner : Rule} {place : Cursor}
    {hit : Hit} (flat : rule.Flat grammar)
    (found : grammar.firstMatch? rule.contains place = some (inner, hit)) :
    inner.isMode = false := by
  obtain ⟨id, listed, known, _⟩ := Grammar.firstMatch?_eq_some found
  exact flat id listed inner known

namespace Scan

variable {grammar : Grammar} {options : Options} {text : String}
variable {forced : Force → Span → Prop} {phase : Phase} {force : Force}
variable {mode around : OpenMode} {offset stop : Nat}

/-! ## Modes and scopes -/

/-- A mode has ended at an offset, and is a scope from then on. -/
inductive Ended (grammar : Grammar) (options : Options) (text : String)
    (forced : Force → Span → Prop) : OpenMode → Nat → Prop
  | closed {mode around : OpenMode} {offset : Nat} {matcher : Matcher} {opening hit : Hit}
      (opens : Opens grammar options text around mode opening)
      (before : Grown grammar options text forced .growing mode offset)
      (left : (Text.bytes text).drop offset ≠ []) (ends : mode.rule.closing = some matcher)
      (found : matcher.matchAt? mode.hashes
        (Cursor.ofOffset (Text.bytes text) offset) = some hit) :
      Ended grammar options text forced (mode.addClosing hit offset)
        (mode.closingStop hit offset)
  | cut {mode around : OpenMode} {offset : Nat} {force : Force} {opening : Hit}
      (opens : Opens grammar options text around mode opening)
      (before : Grown grammar options text forced (.closing force) mode offset)
      (isForced : forced force ⟨mode.start, offset⟩) : Ended grammar options text forced mode offset

theorem Ended.isMode (ended : Ended grammar options text forced mode stop) :
    mode.rule.isMode = true := by
  cases ended with
  | closed opens => simpa using opens.isMode
  | cut opens => exact opens.isMode

theorem Ended.mem_rules (ended : Ended grammar options text forced mode stop)
    (lawful : grammar.Lawful) : mode.rule ∈ grammar.rules := by
  cases ended with
  | closed opens before => simpa using before.mem_rules lawful opens.isMode
  | cut opens before => exact before.mem_rules lawful opens.isMode

/-- What opened a mode stands between its start and where it has ended. -/
theorem Ended.exists_opening (ended : Ended grammar options text forced mode stop)
    (lawful : grammar.Lawful) : ∃ hit, mode.OpenedBy text hit stop := by
  cases ended with
  | @closed mode around offset matcher opening hit opens before =>
    obtain ⟨opening, opened⟩ := before.exists_opening lawful opens.isMode
    exact ⟨opening, opened.onward (mode.le_closingStop hit offset) (by simp) (by simp)⟩
  | cut opens before => exact before.exists_opening lawful opens.isMode

theorem occurs_add {s : Scope} {inside : Outline} {kind : Kind} {span : Span}
    (occurs : Outline.Occurs s inside (mode.add kind span).inside) :
    Outline.Occurs s inside mode.inside := by
  unfold OpenMode.add at occurs
  split at occurs
  · exact occurs
  · cases occurs with
    | piece before => exact before

/-- A scope in a mode that has grown is a mode that has ended. -/
theorem Grown.exists_ended (grown : Grown grammar options text forced phase mode offset)
    {s : Scope} {inside : Outline} (occurs : Outline.Occurs s inside mode.inside) :
    ∃ inner, Ended grammar options text forced inner s.span.stop ∧
      s = ⟨inner.rule.kind, ⟨inner.start, s.span.stop⟩⟩ ∧ inside = inner.inside := by
  induction grown with
  | ground => cases occurs
  | opened => cases occurs_add (occurs_add occurs)
  | leaf _ _ _ _ ih => exact ih (occurs_add (occurs_add occurs))
  | content _ _ _ _ ih => exact ih (occurs_add occurs)
  | flag _ _ _ _ _ _ ih => exact ih (occurs_add occurs)
  | closed below opens before left ends found ihBelow ih =>
    cases occurs with
    | here => exact ⟨_, .closed opens before left ends found, rfl, rfl⟩
    | earlier inEarlier => exact ihBelow inEarlier
    | within deeper => exact ih (occurs_add deeper)
  | abandoned _ _ _ _ _ _ _ ihBelow => exact ihBelow (occurs_add occurs)
  | atEnd _ _ ih => exact ih occurs
  | atLimit _ _ _ _ ih => exact ih occurs
  | cut below opens before isForced ihBelow ih =>
    cases occurs with
    | here => exact ⟨_, .cut opens before isForced, rfl, rfl⟩
    | earlier inEarlier => exact ihBelow inEarlier
    | within deeper => exact ih deeper
  | settled _ _ ih => exact ih occurs

/-! ## Growing from step to step -/

/-- A property of the modes of a rule, and of where they have grown to, that holds
when a mode opens and is kept by everything that it takes.  What a mode inside
has grown to counts as known, and so does the property where that mode is of the
same rule. -/
structure Maintains (grammar : Grammar) (options : Options) (text : String)
    (forced : Force → Span → Prop) (rule : Rule) (holds : OpenMode → Nat → Prop) : Prop where
  opened : ∀ {around : OpenMode} {offset : Nat} {hit : Hit},
    Grown grammar options text forced .growing around offset →
    Opens grammar options text around ⟨rule, offset, hit.hashes, .nil⟩ hit →
    holds (OpenMode.addMatch ⟨rule, offset, hit.hashes, .nil⟩ rule hit text offset)
      (offset + hit.stop)
  leaf : ∀ {mode : OpenMode} {offset : Nat} {inner : Rule} {hit : Hit}, mode.rule = rule →
    Grown grammar options text forced .growing mode offset → holds mode offset →
    mode.GoesOn options text offset →
    grammar.firstMatch? rule.contains (Cursor.ofOffset (Text.bytes text) offset) =
      some (inner, hit) →
    inner.isMode = false → holds (mode.addMatch inner hit text offset) (offset + hit.stop)
  content : ∀ {mode : OpenMode} {offset length : Nat} {kind : Kind}, mode.rule = rule →
    Grown grammar options text forced .growing mode offset → holds mode offset →
    mode.GoesOn options text offset →
    grammar.firstMatch? rule.contains (Cursor.ofOffset (Text.bytes text) offset) = none →
    rule.contentAt ((Text.bytes text).drop offset) = .content kind length →
    holds (mode.add kind ⟨offset, offset + length⟩) (offset + length)
  closed : ∀ {mode around : OpenMode} {offset : Nat} {matcher : Matcher} {opening hit : Hit},
    around.rule = rule → Grown grammar options text forced .growing around mode.start →
    holds around mode.start → Opens grammar options text around mode opening →
    Grown grammar options text forced .growing mode offset →
    (mode.rule = rule → holds mode offset) → (Text.bytes text).drop offset ≠ [] →
    mode.rule.closing = some matcher →
    matcher.matchAt? mode.hashes (Cursor.ofOffset (Text.bytes text) offset) = some hit →
    holds (around.enclose (mode.addClosing hit offset) (mode.closingStop hit offset))
      (mode.closingStop hit offset)

theorem Opens.illegal_eq_none {hit : Hit} (opens : Opens grammar options text around mode hit)
    (steady : around.rule.Steady grammar) : mode.rule.illegal = none := by
  obtain ⟨id, listed, known, _⟩ := Grammar.firstMatch?_eq_some opens.found
  exact steady id listed _ known opens.isMode

/-- A property that is kept step by step holds of every mode of the rule that still
grows. -/
theorem Maintains.of_grown {rule : Rule} {holds : OpenMode → Nat → Prop}
    (maintains : Maintains grammar options text forced rule holds) (lawful : grammar.Lawful)
    (isMode : rule.isMode = true) (steady : rule.Steady grammar)
    (grown : Grown grammar options text forced .growing mode offset) (same : mode.rule = rule) :
    holds mode offset := by
  generalize growing : Phase.growing = phase at grown
  induction grown with
  | ground =>
    rw [← same, Rule.isMode, lawful.root] at isMode
    cases isMode
  | opened below opens =>
    rw [OpenMode.rule_addMatch] at same
    subst same
    exact maintains.opened below opens
  | leaf before goesOn found leaf ih =>
    rw [OpenMode.rule_addMatch] at same
    subst same
    exact maintains.leaf rfl before (ih rfl growing) goesOn found leaf
  | content before goesOn unmatched taken ih =>
    rw [OpenMode.rule_add] at same
    subst same
    exact maintains.content rfl before (ih rfl growing) goesOn unmatched taken
  | flag _ _ ground =>
    rw [OpenMode.rule_add] at same
    rw [same, isMode] at ground
    cases ground
  | closed below opens before left ends found ihBelow ih =>
    have here : _ = rule := same
    exact maintains.closed here below (ihBelow here growing) opens before
      (fun inner => ih inner growing) left ends found
  | abandoned below opens _ _ _ rejects _ =>
    rw [OpenMode.rule_add] at same
    rw [opens.illegal_eq_none (same ▸ steady)] at rejects
    cases rejects
  | atEnd => cases growing
  | atLimit => cases growing
  | cut => cases growing
  | settled _ ground =>
    rw [same, isMode] at ground
    cases ground

/-! ## Closing by force -/

/-- Where the end of the text closes a mode, no text is left. -/
theorem Grown.drop_eq_nil (grown : Grown grammar options text forced (.closing .textEnd) mode offset) :
    (Text.bytes text).drop offset = [] := by
  generalize closing : Phase.closing .textEnd = phase at grown
  induction grown with
  | atEnd _ done => exact done
  | cut _ _ _ _ _ ih => exact ih closing
  | atLimit => cases closing
  | _ => cases closing

theorem Grown.eq_utf8ByteSize
    (grown : Grown grammar options text forced (.closing .textEnd) mode offset)
    (lawful : grammar.Lawful) : offset = text.utf8ByteSize := by
  have behind : text.utf8ByteSize ≤ offset := by
    rw [← Text.length_bytes]
    exact List.drop_eq_nil_iff.1 grown.drop_eq_nil
  exact Nat.le_antisymm (grown.border lawful).le_utf8ByteSize behind

/-- A mode that is being closed by force has grown to where that happens, or to
where the last mode in it starts, which is closed by force with it. -/
theorem Grown.of_closing (grown : Grown grammar options text forced (.closing force) mode offset) :
    Grown grammar options text forced .growing mode offset ∨
      ∃ around inner opening, mode = around.enclose inner offset ∧
        Grown grammar options text forced .growing around inner.start ∧
        Opens grammar options text around inner opening ∧
        Grown grammar options text forced (.closing force) inner offset := by
  cases grown with
  | atEnd before => exact .inl before
  | atLimit before => exact .inl before
  | cut below opens before => exact .inr ⟨_, _, _, rfl, below, opens, before⟩

theorem Opens.not_flat {hit : Hit} (opens : Opens grammar options text around mode hit) :
    ¬around.rule.Flat grammar := by
  intro flat
  have isMode := opens.isMode
  rw [flat.isMode_eq_false opens.found] at isMode
  cases isMode

/-- A mode in which no others open is closed by force only at the end of the text. -/
theorem Grown.of_closing_flat (flat : mode.rule.Flat grammar)
    (grown : Grown grammar options text forced (.closing force) mode offset) :
    force = .textEnd ∧ Grown grammar options text forced .growing mode offset := by
  cases grown with
  | atEnd before => exact ⟨rfl, before⟩
  | atLimit _ _ found opening =>
    rw [flat.isMode_eq_false found] at opening
    cases opening
  | cut _ opens => exact absurd flat opens.not_flat

end Scan

/-! ## Highlighting -/

/-- A scope was closed by force, and the result says so: the text ends with it, or
one more mode would have been open than may be. -/
def Highlighted.CutOff (result : Highlighted) (text : String) (s : Scope) : Prop :=
  s.span.stop = text.utf8ByteSize ∧ result.Forced .textEnd s.span ∨ result.Forced .limit s.span

theorem Scan.Grown.cutOff {grammar : Grammar} {options : Scan.Options} {text : String}
    {result : Highlighted} {force : Scan.Force} {mode : Scan.OpenMode} {offset : Nat}
    (grown : Scan.Grown grammar options text result.Forced (.closing force) mode offset)
    (lawful : grammar.Lawful) (isForced : result.Forced force ⟨mode.start, offset⟩) :
    result.CutOff text ⟨mode.rule.kind, ⟨mode.start, offset⟩⟩ := by
  cases force with
  | textEnd => exact .inl ⟨grown.eq_utf8ByteSize lawful, isForced⟩
  | limit => exact .inr isForced

/-- Every scope of a text is a mode that has ended, with what is inside it. -/
theorem Highlighter.exists_ended (highlighter : Highlighter)
    (lawful : highlighter.language.grammar.Lawful) (text : String) {s : Scope}
    (member : s ∈ (highlighter.highlight text).scopes) :
    ∃ mode, Scan.Ended highlighter.language.grammar highlighter.options text
        (highlighter.highlight text).Forced mode s.span.stop ∧
      mode.rule.kind = s.kind ∧ mode.start = s.span.start ∧
        Outline.Occurs s mode.inside (highlighter.highlight text).outline := by
  obtain ⟨ground, _, outline, grown⟩ := highlighter.grown_highlight lawful text
  obtain ⟨inside, occurs⟩ := Outline.exists_occurs member
  have within : Outline.Occurs s inside ground.inside := by
    rw [← outline]
    exact occurs
  obtain ⟨mode, ended, extent, rfl⟩ := grown.exists_ended within
  exact ⟨mode, ended, (congrArg Scope.kind extent).symm,
    (congrArg (fun t : Scope => t.span.start) extent).symm, occurs⟩

end ModalHighlight
