import ModalHighlight.Flint
import ModalHighlight.Proofs.Lexeme.Cut

/-! # Lawful grammars

A scan gets through every text if its grammar keeps three promises: what opens,
closes or is illegal takes text of its own, and none of it part of a character;
content is looked at again only at ASCII bytes; and the ground mode has no end.
Most matchers take whole lexemes by themselves.  The exceptions are the fixed
text, which may be empty, and the byte set, which may hold a part of a
character, so that a grammar is lawful is decided by looking at these two.
-/

namespace ModalHighlight

open Text

/-! ## Hits -/

/-- A hit has a head that is not empty, and neither the head nor the whole hit
ends outside the text or inside a character. -/
structure Hit.Fits (text : List UInt8) (hit : Hit) : Prop where
  head : Lexeme.Fits text hit.headStop
  le : hit.headStop ≤ hit.stop
  whole : Cut text hit.stop

namespace Hit

theorem Fits.stop_pos {text : List UInt8} {hit : Hit} (fits : hit.Fits text) : 0 < hit.stop :=
  Nat.lt_of_lt_of_le fits.head.pos fits.le

theorem fits_whole {text : List UInt8} {stop : Nat} (fits : Lexeme.Fits text stop) :
    (Hit.whole stop).Fits text :=
  ⟨fits, Nat.le_refl stop, fits.cut⟩

theorem fits_of_map_whole {text : List UInt8} {found : Option Nat} {hit : Hit}
    (fits : ∀ stop, found = some stop → Lexeme.Fits text stop)
    (eq : found.map Hit.whole = some hit) : hit.Fits text := by
  obtain ⟨stop, some, rfl⟩ := Option.map_eq_some_iff.1 eq
  exact fits_whole (fits stop some)

end Hit

namespace Matcher

/-- A matcher takes whole lexemes only: it is not the empty text, and no set
that holds parts of characters. -/
def Lawful : Matcher → Prop
  | literal text => text ≠ ""
  | anyOf set => ∀ b ∈ set, b < 0x80
  | _ => True

instance : (matcher : Matcher) → Decidable matcher.Lawful
  | literal text => inferInstanceAs (Decidable (text ≠ ""))
  | anyOf set => inferInstanceAs (Decidable (∀ b ∈ set, b < 0x80))
  | keywordThenSpace _ | stray _ | lineComment | quoteOpen | rawOpen | rawClose | charLiteral
  | symbol | screamingCase | capitalized | operator | number | identifier | qualifiedPath
  | call _ | escape => inferInstanceAs (Decidable True)

theorem bytes_ne_nil {text : String} (nonempty : text ≠ "") : bytes text ≠ [] :=
  fun empty => nonempty (bytes_injective empty)

/-- The hits of a lawful matcher fit the text in front of which it is tried. -/
theorem fits_of_match? {matcher : Matcher} (lawful : matcher.Lawful) {wordStart : Bool}
    {hashes : Nat} {text : List UInt8} {hit : Hit}
    (found : matcher.match? wordStart hashes text = some hit) : hit.Fits text := by
  cases matcher with
  -- The two matchers that a grammar can spoil.
  | literal expected =>
    refine Hit.fits_of_map_whole (fun stop => ?_) found
    exact Lexeme.literal_fits (whole_bytes expected) (bytes_ne_nil lawful)
  | anyOf set => exact Hit.fits_of_map_whole (fun _ => Lexeme.oneOf_fits lawful) found
  | stray allowed => exact Hit.fits_of_map_whole (fun _ => Lexeme.stray_fits) found
  | lineComment => exact Hit.fits_of_map_whole (fun _ => Lexeme.lineComment_fits) found
  | quoteOpen => exact Hit.fits_of_map_whole (fun _ => Lexeme.quoteOpen_fits) found
  | rawClose => exact Hit.fits_of_map_whole (fun _ => Lexeme.rawClose_fits) found
  | charLiteral => exact Hit.fits_of_map_whole (fun _ => Lexeme.charLiteral_fits) found
  | symbol => exact Hit.fits_of_map_whole (fun _ => Lexeme.symbol_fits) found
  | operator => exact Hit.fits_of_map_whole (fun _ => Lexeme.operator_fits) found
  | identifier => exact Hit.fits_of_map_whole (fun _ => Lexeme.identifier_fits) found
  | escape => exact Hit.fits_of_map_whole (fun _ => Lexeme.escape_fits) found
  -- Matchers with a condition on what stands around the lexeme.
  | keywordThenSpace words =>
    obtain ⟨_, found⟩ := Option.ite_none_right_eq_some.1 found
    exact Hit.fits_of_map_whole (fun _ => Lexeme.keywordBeforeBlank_fits) found
  | screamingCase =>
    obtain ⟨_, found⟩ := Option.ite_none_right_eq_some.1 found
    exact Hit.fits_of_map_whole (fun _ => Lexeme.screamingCase_fits) found
  | capitalized =>
    obtain ⟨_, found⟩ := Option.ite_none_right_eq_some.1 found
    exact Hit.fits_of_map_whole (fun _ => Lexeme.capitalized_fits) found
  | number =>
    obtain ⟨_, found⟩ := Option.ite_none_right_eq_some.1 found
    exact Hit.fits_of_map_whole (fun _ => Lexeme.number_fits) found
  | call reserved =>
    obtain ⟨_, found⟩ := Option.ite_none_right_eq_some.1 found
    refine Hit.fits_of_map_whole (fun stop some => ?_) found
    exact Lexeme.call_fits (Option.filter_eq_some_iff.1 some).1
  -- Matchers whose hits say more than where they stop.
  | rawOpen =>
    obtain ⟨⟨stop, hashes⟩, opened, rfl⟩ := Option.map_eq_some_iff.1 found
    have fits := Lexeme.rawOpen_fits opened
    exact ⟨fits, Nat.le_refl stop, fits.cut⟩
  | qualifiedPath =>
    obtain ⟨_, found⟩ := Option.ite_none_right_eq_some.1 found
    obtain ⟨⟨head, stop⟩, path, rfl⟩ := Option.map_eq_some_iff.1 found
    obtain ⟨name, whole, le⟩ := Lexeme.qualifiedPath_fits path
    exact ⟨name, le, whole.cut⟩

end Matcher

/-! ## Rules and grammars -/

/-- What a rule needs of its grammar for a scan to get through its mode. -/
structure Rule.Lawful (grammar : Grammar) (rule : Rule) : Prop where
  closing : ∀ matcher ∈ rule.closing, matcher.Lawful
  illegal : ∀ matcher ∈ rule.illegal, matcher.Lawful
  stops : ∀ b ∈ rule.stops, b < 0x80
  nested : ∀ id ∈ rule.contains, ∀ inner ∈ grammar.rule? id, inner.opening.Lawful

instance (grammar : Grammar) (rule : Rule) : Decidable (rule.Lawful grammar) :=
  decidable_of_iff
    ((∀ matcher ∈ rule.closing, matcher.Lawful) ∧ (∀ matcher ∈ rule.illegal, matcher.Lawful) ∧
      rule.stops.all (· < 0x80) ∧
      ∀ id ∈ rule.contains, ∀ inner ∈ grammar.rule? id, inner.opening.Lawful)
    ⟨fun ⟨closing, illegal, stops, nested⟩ => ⟨closing, illegal, by simpa using stops, nested⟩,
      fun ⟨closing, illegal, stops, nested⟩ => ⟨closing, illegal, by simpa using stops, nested⟩⟩

namespace Grammar

/-- A rule that may be that of an open mode. -/
def Has (grammar : Grammar) (rule : Rule) : Prop :=
  rule = grammar.rootRule ∨ rule ∈ grammar.rules

theorem Has.mem_table {grammar : Grammar} {rule : Rule} (known : grammar.Has rule) :
    rule ∈ grammar.rootRule :: grammar.rules.toList := by
  rcases known with rfl | member
  · exact List.mem_cons_self
  · exact List.mem_cons_of_mem _ (Array.mem_toList_iff.2 member)

/-- A grammar with which a scan gets through every text. -/
structure Lawful (grammar : Grammar) : Prop where
  root : grammar.rootRule.closing = none
  rules : ∀ rule ∈ grammar.rootRule :: grammar.rules.toList, rule.Lawful grammar

instance (grammar : Grammar) : Decidable grammar.Lawful :=
  decidable_of_iff
    (grammar.rootRule.closing = none ∧
      ∀ rule ∈ grammar.rootRule :: grammar.rules.toList, rule.Lawful grammar)
    ⟨fun ⟨root, rules⟩ => ⟨root, rules⟩, fun ⟨root, rules⟩ => ⟨root, rules⟩⟩

theorem Lawful.rule {grammar : Grammar} (lawful : grammar.Lawful) {rule : Rule}
    (known : grammar.Has rule) : rule.Lawful grammar :=
  lawful.rules rule known.mem_table

/-- The rule that a first match reports matches, and those tried before it do not. -/
theorem firstMatch?_split {grammar : Grammar} {ids : List RuleId} {place : Cursor}
    {rule : Rule} {hit : Hit} (found : grammar.firstMatch? ids place = some (rule, hit)) :
    ∃ before id after, ids = before ++ id :: after ∧ grammar.rule? id = some rule ∧
      rule.opening.matchAt? 0 place = some hit ∧
        ∀ other ∈ before, ∀ tried ∈ grammar.rule? other,
          tried.opening.matchAt? 0 place = none := by
  obtain ⟨before, id, after, split, matched, absent⟩ := List.findSome?_eq_some_iff.1 found
  cases known : grammar.rule? id with
  | none => simp [known] at matched
  | some candidate =>
    simp only [known, Option.map_eq_some_iff, Prod.mk.injEq] at matched
    obtain ⟨_, matched, rfl, rfl⟩ := matched
    refine ⟨before, id, after, split, known, matched, fun other inFront tried isTried => ?_⟩
    simpa [Option.mem_def.1 isTried] using absent other inFront

theorem firstMatch?_eq_some {grammar : Grammar} {ids : List RuleId} {place : Cursor}
    {rule : Rule} {hit : Hit} (found : grammar.firstMatch? ids place = some (rule, hit)) :
    ∃ id ∈ ids, grammar.rule? id = some rule ∧ rule.opening.matchAt? 0 place = some hit := by
  obtain ⟨before, id, after, rfl, known, matched, _⟩ := firstMatch?_split found
  exact ⟨id, by simp, known, matched⟩

theorem has_of_rule? {grammar : Grammar} {id : RuleId} {rule : Rule}
    (known : grammar.rule? id = some rule) : grammar.Has rule :=
  .inr (Array.mem_of_getElem? known)

end Grammar

theorem Flint.grammar_lawful : Flint.grammar.Lawful := by decide +kernel

end ModalHighlight
