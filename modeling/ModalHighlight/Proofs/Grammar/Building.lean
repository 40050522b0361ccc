import ModalHighlight.Flint
import Mathlib.Data.List.Nodup

/-! # Building grammars

A grammar is built by calls that add rules and calls that nest them, mixed in any
way.  A caller gets the number of each rule that it adds, and can nest rules only
under numbers that it got.  Then every number stands for the same rule to the end,
whatever calls come between: rules are added behind those that are there, and
nesting changes what one rule contains and nothing else.

The invariant that carries this through a session says what each rule is by then,
which numbers the caller has, and that it has nested under no other.  The last part
is why a rule that is added is not yet nested: its number is new.  Numbers have
sixteen bits, so they are new for 65536 rules.
-/

namespace ModalHighlight

/-! ## Numbers -/

namespace RuleId

theorem index_ofIndex {index : Nat} (fits : index < 65536) : (ofIndex index).index = index :=
  Nat.mod_eq_of_lt fits

theorem ofIndex_inj {left right : Nat} (fitsLeft : left < 65536) (fitsRight : right < 65536)
    (same : ofIndex left = ofIndex right) : left = right := by
  rw [← index_ofIndex fitsLeft, same, index_ofIndex fitsRight]

/-- One rule more, and it gets the number of the first. -/
example : ofIndex 65536 = ofIndex 0 := rfl

end RuleId

namespace Grammar

/-- A look for a name is one through the rules with their numbers. -/
theorem find?_eq_numbered (grammar : Grammar) (name : String) :
    grammar.find? name = (grammar.numbered.find? (·.2.name == name)).map Prod.fst := by
  obtain ⟨⟨rules⟩, root⟩ := grammar
  rw [find?, numbered, List.findIdx?_toArray, List.findIdx?_eq_fst_find?_zipIdx, List.find?_map,
    Option.map_map, Option.map_map]
  rfl

namespace Builder

/-! ## Calls -/

/-- A call that a grammar is built by. -/
inductive Call where
  /-- Adds a rule. -/
  | add (rule : Rule)
  /-- Sets the rules allowed inside a rule. -/
  | nest (parent : RuleId) (children : List RuleId)
  deriving DecidableEq, Repr

namespace Call

/-- The rule that a call adds. -/
def rule? : Call → Option Rule
  | add rule => some rule
  | nest _ _ => none

/-- What a call sets to be allowed inside a rule. -/
def children? (id : RuleId) : Call → Option (List RuleId)
  | add _ => none
  | nest parent children => if parent = id then some children else none

end Call

/-- The rules that calls add, in order. -/
def added (calls : List Call) : List Rule := calls.filterMap Call.rule?

/-- What the last of the calls that nest under a rule allows inside it. -/
def lastChildren? (calls : List Call) (id : RuleId) : Option (List RuleId) :=
  (calls.filterMap (Call.children? id)).getLast?

/-- A rule that was added under a number, as calls leave it. -/
def settled (calls : List Call) (id : RuleId) (rule : Rule) : Rule :=
  { rule with contains := (lastChildren? calls id).getD rule.contains }

/-- What a caller has in hand: the builder, and the numbers that it got for the rules
it added, in order. -/
structure Session where
  builder : Builder
  numbers : List RuleId
  deriving DecidableEq, Repr

namespace Session

def start : Session := ⟨.empty, []⟩

/-- Makes a call.  One that nests under a number no rule has comes to nothing. -/
def call? (session : Session) : Call → Option Session
  | .add rule =>
    let (builder, id) := session.builder.add rule
    some ⟨builder, session.numbers ++ [id]⟩
  | .nest parent children =>
    if parent.index < session.builder.rules.size then
      some { session with builder := session.builder.nest parent children }
    else none

/-- Makes calls one after the other. -/
def callAll? (session : Session) (calls : List Call) : Option Session := calls.foldlM call? session

/-- A call nests under a number that the caller got. -/
def Knows (session : Session) : Call → Prop
  | .add _ => True
  | .nest parent _ => parent ∈ session.numbers

/-- Each of some calls nests under a number that the caller has got by then. -/
def KnowsAll (session : Session) : List Call → Prop
  | [] => True
  | call :: more => session.Knows call ∧ ∀ next ∈ session.call? call, next.KnowsAll more

instance (session : Session) : DecidablePred session.Knows
  | .add _ => isTrue trivial
  | .nest parent _ => inferInstanceAs (Decidable (parent ∈ session.numbers))

instance decidableKnowsAll : (session : Session) → DecidablePred session.KnowsAll
  | _, [] => isTrue trivial
  | session, call :: more =>
    have : DecidablePred fun next : Session => next.KnowsAll more :=
      fun next => decidableKnowsAll next more
    inferInstanceAs
      (Decidable (session.Knows call ∧ ∀ next ∈ session.call? call, next.KnowsAll more))

end Session

/-! ## What a call changes -/

variable {calls : List Call} {session : Session}

theorem added_append (calls more : List Call) : added (calls ++ more) = added calls ++ added more :=
  List.filterMap_append

theorem added_add (calls : List Call) (rule : Rule) :
    added (calls ++ [.add rule]) = added calls ++ [rule] :=
  added_append calls [.add rule]

theorem added_nest (calls : List Call) (parent : RuleId) (children : List RuleId) :
    added (calls ++ [.nest parent children]) = added calls :=
  (added_append calls [.nest parent children]).trans (List.append_nil _)

theorem lastChildren?_add (calls : List Call) (rule : Rule) :
    lastChildren? (calls ++ [.add rule]) = lastChildren? calls := by
  funext id
  rw [lastChildren?, List.filterMap_append]
  exact congrArg List.getLast? (List.append_nil _)

theorem lastChildren?_nest (calls : List Call) (parent id : RuleId) (children : List RuleId) :
    lastChildren? (calls ++ [.nest parent children]) id =
      if parent = id then some children else lastChildren? calls id := by
  have sets : Call.children? id (.nest parent children) =
      if parent = id then some children else none := rfl
  rw [lastChildren?, List.filterMap_append]
  by_cases same : parent = id
  · rw [if_pos same] at sets ⊢
    rw [List.filterMap_cons_some sets]
    exact List.getLast?_concat
  · rw [if_neg same] at sets ⊢
    rw [List.filterMap_cons_none sets]
    exact congrArg List.getLast? (List.append_nil _)

theorem settled_add (calls : List Call) (rule : Rule) :
    settled (calls ++ [.add rule]) = settled calls := by
  funext id other
  rw [settled, lastChildren?_add]
  rfl

theorem settled_nest (calls : List Call) (parent id : RuleId) (children : List RuleId)
    (rule : Rule) : settled (calls ++ [.nest parent children]) id rule =
      if parent = id then { settled calls id rule with contains := children }
      else settled calls id rule := by
  rw [settled, lastChildren?_nest]
  split <;> rfl

/-! ## Sessions -/

/-- What holds of a session that some calls have led to. -/
structure Session.Follows (session : Session) (calls : List Call) : Prop where
  /-- Each rule stands where it was added, as the calls leave it. -/
  rule : ∀ index, session.builder.rules[index]? =
    (added calls)[index]?.map (settled calls (.ofIndex index))
  /-- The numbers are those of the places, in order. -/
  numbers : session.numbers = (List.range (added calls).length).map .ofIndex
  /-- No call has nested under another number. -/
  nested : ∀ id children, lastChildren? calls id = some children → id ∈ session.numbers

namespace Session.Follows

theorem start : start.Follows [] where
  rule _ := rfl
  numbers := rfl
  nested _ _ none := nomatch none

theorem size (follows : session.Follows calls) :
    session.builder.rules.size = (added calls).length := by
  have same : ∀ bound, session.builder.rules.size ≤ bound ↔ (added calls).length ≤ bound := by
    intro bound
    rw [← Array.getElem?_eq_none_iff, follows.rule, Option.map_eq_none_iff,
      List.getElem?_eq_none_iff]
  exact Nat.le_antisymm ((same _).2 (Nat.le_refl _)) ((same _).1 (Nat.le_refl _))

theorem mem_numbers_iff (follows : session.Follows calls) {id : RuleId} :
    id ∈ session.numbers ↔ ∃ index < (added calls).length, .ofIndex index = id := by
  rw [follows.numbers, List.mem_map]
  simp only [List.mem_range]

/-- No call has nested under the number that the next rule gets. -/
theorem unnested (follows : session.Follows calls) (room : (added calls).length < 65536) :
    lastChildren? calls (.ofIndex (added calls).length) = none := by
  rw [Option.eq_none_iff_forall_ne_some]
  intro children isNested
  obtain ⟨index, within, same⟩ := follows.mem_numbers_iff.1 (follows.nested _ _ isNested)
  have := RuleId.ofIndex_inj (by omega) room same
  omega

theorem add (follows : session.Follows calls) (rule : Rule)
    (room : (added calls).length < 65536) :
    ∃ next, session.call? (.add rule) = some next ∧ next.Follows (calls ++ [.add rule]) := by
  have size := follows.size
  refine ⟨_, rfl, ?rule, ?numbers, ?nested⟩
  case rule =>
    -- The rules in front stay, the new one has what it was added with, and none is behind it.
    intro index
    simp only [Array.getElem?_push, settled_add, added_add, List.getElem?_append, size,
      follows.rule]
    rcases Nat.lt_trichotomy index (added calls).length with before | rfl | behind
    · rw [if_neg (Nat.ne_of_lt before), if_pos before]
    · simp [settled, follows.unnested room]
    · have beyond : [rule].length ≤ index - (added calls).length := Nat.sub_pos_of_lt behind
      rw [if_neg (Nat.ne_of_gt behind), if_neg (Nat.lt_asymm behind),
        List.getElem?_eq_none (Nat.le_of_lt behind), List.getElem?_eq_none beyond]
  case numbers =>
    simp only [added_add, List.length_append, List.length_singleton, List.range_succ,
      List.map_append, List.map_singleton, follows.numbers, size]
  case nested =>
    intro id children isNested
    rw [lastChildren?_add] at isNested
    exact List.mem_append_left _ (follows.nested id children isNested)

theorem nest (follows : session.Follows calls) {parent : RuleId} (children : List RuleId)
    (fits : (added calls).length ≤ 65536) (known : parent ∈ session.numbers) :
    ∃ next, session.call? (.nest parent children) = some next ∧
      next.Follows (calls ++ [.nest parent children]) := by
  obtain ⟨place, within, rfl⟩ := follows.mem_numbers_iff.1 known
  have atPlace : (RuleId.ofIndex place).index = place := RuleId.index_ofIndex (by omega)
  have inside : (RuleId.ofIndex place).index < session.builder.rules.size := by
    rw [atPlace, follows.size]
    exact within
  refine ⟨_, if_pos inside, ?rule, ?numbers, ?nested⟩
  case rule =>
    intro index
    simp only [Builder.nest, atPlace, Array.getElem?_modify, added_nest, follows.rule]
    by_cases same : place = index
    · subst same
      rw [if_pos rfl, Option.map_map]
      refine congrArg (Option.map · _) (funext fun rule => ?_)
      rw [settled_nest, if_pos rfl]
      rfl
    · rw [if_neg same]
      rcases Nat.lt_or_ge index (added calls).length with there | missing
      · -- Two places have two numbers, so that the call is not about this rule.
        have other : RuleId.ofIndex place ≠ .ofIndex index := fun numbered =>
          same (RuleId.ofIndex_inj (by omega) (by omega) numbered)
        refine congrArg (Option.map · _) (funext fun rule => ?_)
        rw [settled_nest, if_neg other]
      · rw [List.getElem?_eq_none missing]
        rfl
  case numbers =>
    rw [added_nest]
    exact follows.numbers
  case nested =>
    intro id inner isNested
    rw [lastChildren?_nest] at isNested
    split at isNested
    next same => exact same ▸ known
    next => exact follows.nested id inner isNested

/-- A call of a caller who nests under its own numbers has an outcome. -/
theorem call (follows : session.Follows calls) {call : Call} (knows : session.Knows call)
    (fits : (added (calls ++ [call])).length ≤ 65536) :
    ∃ next, session.call? call = some next ∧ next.Follows (calls ++ [call]) := by
  cases call with
  | add rule =>
    rw [added_add, List.length_append] at fits
    exact follows.add rule fits
  | nest parent children =>
    rw [added_nest] at fits
    exact follows.nest children fits knows

/-- A session goes on from where calls have led it. -/
theorem callAll (follows : session.Follows calls) {more : List Call}
    (knows : session.KnowsAll more) (fits : (added (calls ++ more)).length ≤ 65536) :
    ∃ next, session.callAll? more = some next ∧ next.Follows (calls ++ more) := by
  -- What is left to call gets shorter by what has been called more.
  induction more generalizing session calls with
  | nil => exact ⟨session, rfl, by rwa [List.append_nil]⟩
  | cons call more ih =>
    rw [List.append_cons] at fits ⊢
    obtain ⟨knowsFirst, knowsRest⟩ := knows
    have fitsFirst : (added (calls ++ [call])).length ≤ 65536 := by
      refine Nat.le_trans ?_ fits
      rw [added_append _ more, List.length_append]
      exact Nat.le_add_right _ _
    obtain ⟨next, called, followsFirst⟩ := follows.call knowsFirst fitsFirst
    obtain ⟨last, calledAll, followsAll⟩ := ih followsFirst (knowsRest next called) fits
    exact ⟨last, by rw [callAll?, List.foldlM_cons, called]; exact calledAll, followsAll⟩

/-! ## Looking rules up -/

theorem nodup_numbers (follows : session.Follows calls) (fits : (added calls).length ≤ 65536) :
    session.numbers.Nodup := by
  rw [follows.numbers]
  refine List.nodup_range.map_on fun left inLeft right inRight same => ?_
  have := List.mem_range.1 inLeft
  have := List.mem_range.1 inRight
  exact RuleId.ofIndex_inj (by omega) (by omega) same

theorem length_numbers (follows : session.Follows calls) :
    session.numbers.length = (added calls).length := by
  rw [follows.numbers, List.length_map, List.length_range]

/-- The rules that were added, with the numbers that the caller got for them. -/
theorem zip_numbers (follows : session.Follows calls) :
    (added calls).zip session.numbers =
      (added calls).zipIdx.map fun (rule, index) => (rule, .ofIndex index) := by
  rw [follows.numbers, List.zip_map_right, List.range_eq_range', ← List.zipIdx_eq_zip_range']
  rfl

theorem rule?_build (follows : session.Follows calls) (root : RuleId)
    (fits : (added calls).length ≤ 65536) {rule : Rule} {id : RuleId}
    (entry : (rule, id) ∈ (added calls).zip session.numbers) :
    (session.builder.build root).rule? id = some (settled calls id rule) := by
  rw [follows.zip_numbers, List.mem_map] at entry
  obtain ⟨⟨rule, index⟩, stands, ⟨⟩⟩ := entry
  have atIndex : (added calls)[index]? = some rule := List.mem_zipIdx_iff_getElem?.1 stands
  have within := (List.getElem?_eq_some_iff.1 atIndex).1
  rw [rule?, RuleId.index_ofIndex (by omega), build, follows.rule, atIndex]
  rfl

theorem numbered_build (follows : session.Follows calls) (root : RuleId) :
    (session.builder.build root).numbered =
      ((added calls).zip session.numbers).map fun (rule, id) => (id, settled calls id rule) := by
  rw [follows.zip_numbers, numbered, build, List.map_map]
  refine List.ext_getElem? fun index => ?_
  rw [List.getElem?_map, List.getElem?_map, List.getElem?_zipIdx, List.getElem?_zipIdx,
    Array.getElem?_toList, follows.rule]
  cases (added calls)[index]? with
  | none => rfl
  | some rule => simp

theorem find?_build (follows : session.Follows calls) (root : RuleId) (name : String) :
    (session.builder.build root).find? name =
      (((added calls).zip session.numbers).find? (·.1.name == name)).map Prod.snd := by
  rw [find?_eq_numbered, follows.numbered_build, List.find?_map, Option.map_map]
  rfl

end Session.Follows

/-- A caller that nests under its own numbers never misses a rule.  Every rule that it
adds gets a number of its own, under which it stands to the end, with what was last
allowed inside it; and a name leads to the number of the first rule that has it. -/
theorem numbers_stay_valid (knows : Session.start.KnowsAll calls)
    (fits : (added calls).length ≤ 65536) :
    ∃ session, Session.start.callAll? calls = some session ∧
      session.numbers.Nodup ∧ session.numbers.length = (added calls).length ∧
      ∀ root,
        (∀ entry ∈ (added calls).zip session.numbers,
          (session.builder.build root).rule? entry.2 = some { entry.1 with
            contains := (lastChildren? calls entry.2).getD entry.1.contains }) ∧
        ∀ name, (session.builder.build root).find? name =
          (((added calls).zip session.numbers).find? (·.1.name == name)).map Prod.snd := by
  obtain ⟨session, called, follows⟩ := Session.Follows.start.callAll knows fits
  refine ⟨session, called, follows.nodup_numbers fits, follows.length_numbers, fun root => ?_⟩
  exact ⟨fun _ entry => follows.rule?_build root fits entry, follows.find?_build root⟩

/-- Two comments of one name, of which the first is nested again when the second is there. -/
def twoComments : List Call :=
  [.add Flint.source, .add Flint.blockComment, .nest (.ofIndex 1) [.ofIndex 1],
    .nest (.ofIndex 0) [.ofIndex 1], .add Flint.blockComment,
    .nest (.ofIndex 1) [.ofIndex 2, .ofIndex 1]]

theorem numbers_stay_valid_twoComments :
    Session.start.KnowsAll twoComments ∧ (added twoComments).length ≤ 65536 ∧
      ∃ session, Session.start.callAll? twoComments = some session ∧
        (session.builder.build (.ofIndex 0)).rule? (.ofIndex 1) =
          some { Flint.blockComment with contains := [.ofIndex 2, .ofIndex 1] } ∧
        (session.builder.build (.ofIndex 0)).rule? (.ofIndex 2) = some Flint.blockComment ∧
        (session.builder.build (.ofIndex 0)).find? "block comment" = some (.ofIndex 1) := by
  have knows : Session.start.KnowsAll twoComments := by decide +kernel
  have fits : (added twoComments).length ≤ 65536 := by decide
  obtain ⟨session, called, _, _, lookups⟩ := numbers_stay_valid knows fits
  have numbers : session.numbers = [.ofIndex 0, .ofIndex 1, .ofIndex 2] := by
    have all : (Session.start.callAll? twoComments).map (·.numbers) =
      some [.ofIndex 0, .ofIndex 1, .ofIndex 2] := by decide +kernel
    rw [called] at all
    exact Option.some.inj all
  obtain ⟨rules, names⟩ := lookups (.ofIndex 0)
  rw [numbers] at rules names
  refine ⟨knows, fits, session, called, ?first, ?second, ?name⟩
  case first => exact rules (Flint.blockComment, .ofIndex 1) (by decide +kernel)
  case second => exact rules (Flint.blockComment, .ofIndex 2) (by decide +kernel)
  case name => exact (names "block comment").trans (by decide +kernel)

/-- The grammar of Flint is built in such a session. -/
example :
    (Session.start.callAll?
      (Flint.rules.map .add ++ Flint.nesting.map fun (parent, children) =>
        .nest parent children)).map (·.builder.build Flint.Id.source) = some Flint.grammar := by
  decide +kernel

end Builder

end Grammar

end ModalHighlight
