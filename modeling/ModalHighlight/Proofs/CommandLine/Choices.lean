import Mathlib.Data.List.Induction
import ModalHighlight.CommandLine.Run
import ModalHighlight.Proofs.CommandLine.Groups
import ModalHighlight.Proofs.Text.Numeral

/-! # What arguments choose

A group either ends the reading or makes at most one choice, and which of the two it does hangs
on nothing but the group itself; only a source asks whether one has been named before.  So the
first group that ends the reading decides how it ends.  If there is none, each choice is the one
made last, and groups that make different choices may trade places.
-/

namespace ModalHighlight.CommandLine

/-- What a group may choose. -/
inductive Choice where
  | command
  | source
  | language
  | maxDepth
  | json
  | verbose
  deriving DecidableEq, Repr

namespace Group

/-- What a group chooses. -/
def choice? : Group → Option Choice
  | help | version | unknown _ => none
  | verbose => some .verbose
  | json => some .json
  | language _ => some .language
  | maxDepth _ => some .maxDepth
  | command _ => some .command
  | source _ => some .source

def command? : Group → Option Command
  | command chosen => some chosen
  | _ => none

def source? : Group → Option Source
  | source named => some named
  | _ => none

def language? : Group → Option String
  | language name => name
  | _ => none

/-- The text of a limit on open modes. -/
def maxDepth? : Group → Option String
  | maxDepth value => value
  | _ => none

/-- How a group ends the reading, by whether a source has been named before. -/
def halt? (named : Bool) : Group → Option Halt
  | help => some .help
  | version => some .version
  | unknown option => some (.error (.unknownOption option))
  | language none => some (.error .missingLanguage)
  | maxDepth none => some (.error .missingMaxDepth)
  | maxDepth (some value) =>
    match Text.readNumeral greatestMaxDepth value with
    | .ok _ => none
    | .error cause => some (.error (.invalidMaxDepth value cause))
  | source _ => if named then some (.error .severalFiles) else none
  | verbose | json | language (some _) | command _ => none

/-- No group ends the reading, wherever it stands. -/
structure Faultless (groups : List Group) : Prop where
  noHelp : help ∉ groups
  noVersion : version ∉ groups
  noUnknown : ∀ option, unknown option ∉ groups
  languages : language none ∉ groups
  maxDepths : maxDepth none ∉ groups
  numerals : ∀ value, maxDepth (some value) ∈ groups →
    ∃ number ≤ greatestMaxDepth, Text.IsNumeral value number

/-- Groups end the reading: the first of them that does decides how, and if none does, there
still has to be a source. -/
inductive Ends (groups : List Group) (halt : Halt) : Prop
  | first {before after : List Group} {group : Group} (split : groups = before ++ group :: after)
      (faultless : Faultless before) (sources : (before.filterMap source?).length ≤ 1)
      (halts : group.halt? (before.any (·.source?.isSome)) = some halt)
  | noSource (faultless : Faultless groups) (none : groups.filterMap source? = [])
      (noFile : halt = .error .noFile)

end Group

open CommandLine.Group

/-- A configuration has the only source named, and of every other choice the last, or the usual
one if there is none. -/
structure Config.Chosen (groups : List Group) (config : Config) : Prop where
  source : groups.filterMap source? = [config.source]
  command : config.command = (groups.filterMap command?).getLast?.getD .tokens
  language : config.language = (groups.filterMap language?).getLast?
  maxDepth : (groups.filterMap maxDepth?).getLast?.elim (config.maxDepth = 64)
    (Text.IsNumeral · config.maxDepth)
  json : config.json = true ↔ Group.json ∈ groups
  verbose : config.verbose = true ↔ Group.verbose ∈ groups

variable {draft final : Draft} {group first second : Group} {groups before after : List Group}
variable {config : Config} {halt : Halt} {named : Bool}

/-! ## One group -/

/-- The draft with the choice of a group in it. -/
def Draft.choose (draft : Draft) : Group → Draft
  | .help | .version | .unknown _ => draft
  | .verbose => { draft with verbose := true }
  | .json => { draft with json := true }
  | .language name => { draft with language := name.or draft.language }
  | .maxDepth value =>
    let limit := value.bind fun text => (Text.readNumeral greatestMaxDepth text).toOption
    { draft with maxDepth := limit.getD draft.maxDepth }
  | .command command => { draft with command := command }
  | .source source => { draft with source := some source }

/-- A group ends the reading or makes its choice. -/
theorem take_eq (draft : Draft) (group : Group) :
    draft.take group =
      match group.halt? draft.source.isSome with
      | some halt => .error halt
      | none => .ok (draft.choose group) := by
  cases group with
  | help | version | verbose | json | command _ | unknown _ => rfl
  | language value => cases value <;> rfl
  | maxDepth value =>
    cases value with
    | none => rfl
    | some value =>
      simp only [Draft.take, halt?, Draft.choose, Option.bind_some]
      cases Text.readNumeral greatestMaxDepth value <;> rfl
  | source named =>
    simp only [Draft.take, halt?]
    cases draft.source <;> rfl

/-- Only a source asks whether one has been named. -/
theorem halt?_eq (other : source? group = none) : group.halt? named = group.halt? false := by
  cases group with
  | source _ => cases other
  | language value | maxDepth value => cases value <;> rfl
  | help | version | verbose | json | command _ | unknown _ => rfl

theorem faultless_iff : Faultless groups ↔ ∀ group ∈ groups, group.halt? false = none := by
  constructor
  · intro faultless group member
    cases group with
    | help => exact absurd member faultless.noHelp
    | version => exact absurd member faultless.noVersion
    | unknown option => exact absurd member (faultless.noUnknown option)
    | language value =>
      cases value with
      | none => exact absurd member faultless.languages
      | some name => rfl
    | maxDepth value =>
      cases value with
      | none => exact absurd member faultless.maxDepths
      | some value =>
        obtain ⟨number, within, numeral⟩ := faultless.numerals value member
        rw [halt?, Text.readNumeral_eq_ok_iff.2 ⟨within, numeral⟩]
    | verbose | json | command _ | source _ => rfl
  · intro all
    have never : ∀ group, group.halt? false ≠ none → group ∉ groups :=
      fun group halts member => halts (all group member)
    refine ⟨never .help nofun, never .version nofun, fun option => never (unknown option) nofun,
      never (language none) nofun, never (maxDepth none) nofun, fun value member => ?_⟩
    have accepted := all _ member
    rw [halt?] at accepted
    cases read : Text.readNumeral greatestMaxDepth value with
    | error cause => simp [read] at accepted
    | ok number =>
      obtain ⟨within, numeral⟩ := Text.readNumeral_eq_ok_iff.1 read
      exact ⟨number, within, numeral⟩

/-- What a group chooses is a source only if the group names one. -/
theorem source_choose (draft : Draft) (group : Group) :
    (draft.choose group).source = group.source?.or draft.source := by
  cases group <;> rfl

theorem isSome_source_choose (draft : Draft) (group : Group) :
    (draft.choose group).source.isSome = (draft.source.isSome || group.source?.isSome) := by
  rw [source_choose, Option.isSome_or, Bool.or_comm]

/-! ## Groups in order -/

/-- None of the groups ends the reading where it stands. -/
def Accepted (named : Bool) : List Group → Prop
  | [] => True
  | group :: rest => group.halt? named = none ∧ Accepted (named || group.source?.isSome) rest

/-- Groups are accepted if each is by itself and one source at most is named. -/
theorem accepted_iff : Accepted named groups ↔
    Faultless groups ∧ named.toNat + (groups.filterMap source?).length ≤ 1 := by
  rw [faultless_iff]
  induction groups generalizing named with
  | nil => cases named <;> simp [Accepted]
  | cons group rest ih =>
    rw [Accepted, ih, List.forall_mem_cons]
    cases isSource : group.source? with
    | none =>
      rw [halt?_eq isSource, List.filterMap_cons_none isSource, Option.isSome_none, Bool.or_false,
        and_assoc]
    | some source =>
      obtain rfl : group = .source source := by
        cases group <;> simp_all [source?]
      cases named <;> simp [halt?, source?]

/-- Groups that are accepted make their choices one after another. -/
theorem takeAll_eq_ok_iff : draft.takeAll groups = .ok final ↔
    Accepted draft.source.isSome groups ∧ final = groups.foldl Draft.choose draft := by
  induction groups generalizing draft with
  | nil => simp [Draft.takeAll, Accepted, eq_comm]
  | cons group rest ih =>
    rw [Draft.takeAll, take_eq, Accepted, List.foldl_cons]
    cases halts : group.halt? draft.source.isSome with
    | some halt => simp
    | none => simp [ih, isSome_source_choose]

/-- Once groups are taken, those that follow are taken from where they led. -/
theorem takeAll_append (draft : Draft) (before after : List Group) :
    draft.takeAll (before ++ after) =
      match draft.takeAll before with
      | .error halt => .error halt
      | .ok reached => reached.takeAll after := by
  induction before generalizing draft with
  | nil => rfl
  | cons group rest ih =>
    rw [List.cons_append, Draft.takeAll, Draft.takeAll]
    cases draft.take group with
    | error halt => rfl
    | ok reached => exact ih reached

theorem isSome_source_foldl (draft : Draft) (groups : List Group) :
    (groups.foldl Draft.choose draft).source.isSome =
      (draft.source.isSome || groups.any (·.source?.isSome)) := by
  induction groups generalizing draft with
  | nil => simp
  | cons group rest ih =>
    rw [List.foldl_cons, ih, isSome_source_choose, List.any_cons, Bool.or_assoc]

/-- The first group that is not accepted decides how the reading ends. -/
theorem takeAll_eq_error_iff : draft.takeAll groups = .error halt ↔
    ∃ before group after, groups = before ++ group :: after ∧
      Accepted draft.source.isSome before ∧
        group.halt? (draft.source.isSome || before.any (·.source?.isSome)) = some halt := by
  constructor
  · intro ended
    induction groups generalizing draft with
    | nil => cases ended
    | cons group rest ih =>
      rw [Draft.takeAll, take_eq] at ended
      cases halts : group.halt? draft.source.isSome with
      | some cause =>
        simp only [halts] at ended
        obtain rfl : cause = halt := Except.error.inj ended
        exact ⟨[], group, rest, rfl, trivial, by simpa using halts⟩
      | none =>
        simp only [halts] at ended
        obtain ⟨before, last, after, rfl, accepted, ends⟩ := ih ended
        rw [isSome_source_choose] at accepted ends
        refine ⟨group :: before, last, after, rfl, ⟨halts, accepted⟩, ?_⟩
        rw [List.any_cons, ← Bool.or_assoc]
        exact ends
  · rintro ⟨before, group, after, rfl, accepted, halts⟩
    have reached := takeAll_eq_ok_iff.2 ⟨accepted, rfl⟩
    rw [takeAll_append, reached]
    simp only [Draft.takeAll, take_eq, isSome_source_foldl, halts]

/-! ## The last choice -/

/-- Of choices that replace one another, the last is left. -/
theorem foldl_choose {α : Type} {chosen : Draft → Option α} {pick : Group → Option α}
    (replaces : ∀ draft group, chosen (draft.choose group) = (pick group).or (chosen draft))
    (draft : Draft) (groups : List Group) :
    chosen (groups.foldl Draft.choose draft) =
      (groups.filterMap pick).getLast?.or (chosen draft) := by
  induction groups generalizing draft with
  | nil => rfl
  | cons group rest ih =>
    rw [List.foldl_cons, ih, replaces, ← Option.or_assoc]
    cases picked : pick group with
    | none => rw [List.filterMap_cons_none picked, Option.or_none]
    | some choice =>
      rw [List.filterMap_cons_some picked, List.getLast?_cons]
      cases (rest.filterMap pick).getLast? <;> rfl

/-- A flag is set once it is among the groups. -/
theorem foldl_choose_flag {chosen : Draft → Bool} {flag : Group}
    (sets : ∀ draft group, chosen (draft.choose group) = true ↔
      chosen draft = true ∨ flag = group) (draft : Draft) (groups : List Group) :
    chosen (groups.foldl Draft.choose draft) = true ↔ chosen draft = true ∨ flag ∈ groups := by
  induction groups generalizing draft with
  | nil => simp
  | cons group rest ih =>
    rw [List.foldl_cons, ih, sets, List.mem_cons, or_assoc]

/-- Where all limits can be read, the last one counts. -/
theorem maxDepth_foldl_choose (draft : Draft) (faultless : Faultless groups) :
    (groups.filterMap maxDepth?).getLast?.elim
      ((groups.foldl Draft.choose draft).maxDepth = draft.maxDepth)
      (Text.IsNumeral · (groups.foldl Draft.choose draft).maxDepth) := by
  -- From the right, since the last limit is looked for.
  induction groups using List.reverseRecOn with
  | nil => rfl
  | append_singleton groups group ih =>
    have before : Faultless groups := faultless_iff.2 fun other member =>
      faultless_iff.1 faultless other (List.mem_append_left _ member)
    rw [List.foldl_append, List.foldl_cons, List.foldl_nil, List.filterMap_append]
    cases isLimit : group.maxDepth? with
    | none =>
      have same : ∀ reached : Draft, (reached.choose group).maxDepth = reached.maxDepth := by
        intro reached
        cases group with
        | maxDepth value =>
          obtain rfl : value = none := isLimit
          rfl
        | help | version | verbose | json | command _ | unknown _ | source _ | language _ => rfl
      rw [List.filterMap_cons_none isLimit, List.filterMap_nil, List.append_nil, same]
      exact ih before
    | some value =>
      obtain rfl : group = .maxDepth (some value) := by
        cases group <;> simp_all [maxDepth?]
      obtain ⟨number, within, numeral⟩ := faultless.numerals value (by simp)
      have read := Text.readNumeral_eq_ok_iff.2 ⟨within, numeral⟩
      rw [List.filterMap_cons_some isLimit, List.filterMap_nil, List.getLast?_concat]
      simp only [Option.elim_some, Draft.choose, Option.bind_some, read]
      exact numeral

/-- What is chosen is told by the groups. -/
theorem Config.Chosen.unique {other : Config} (chosen : config.Chosen groups)
    (too : other.Chosen groups) : config = other := by
  have source := List.singleton_inj.1 (chosen.source.symm.trans too.source)
  have command := chosen.command.trans too.command.symm
  have language := chosen.language.trans too.language.symm
  have json := Bool.eq_iff_iff.2 (chosen.json.trans too.json.symm)
  have verbose := Bool.eq_iff_iff.2 (chosen.verbose.trans too.verbose.symm)
  have maxDepth : config.maxDepth = other.maxDepth := by
    have first := chosen.maxDepth
    have second := too.maxDepth
    cases last : (groups.filterMap maxDepth?).getLast? with
    | none =>
      rw [last] at first second
      exact first.trans second.symm
    | some value =>
      rw [last] at first second
      exact first.unique second
  obtain ⟨_, _, _, _, _, _⟩ := config
  obtain ⟨_, _, _, _, _, _⟩ := other
  simp_all

/-! ## Configurations -/

/-- The draft that all groups lead to holds what they choose. -/
theorem exists_config_foldl_choose {source : Source} (faultless : Faultless groups)
    (only : groups.filterMap source? = [source]) :
    ∃ made : Config, (groups.foldl Draft.choose .initial).config = .ok made ∧
      made.Chosen groups := by
  have sources := foldl_choose source_choose .initial groups
  have commands := @foldl_choose _ (some ·.command) command?
    (fun _ group => by cases group <;> rfl) .initial groups
  have languages := @foldl_choose _ Draft.language language?
    (fun _ group => by cases group <;> rfl) .initial groups
  have json := @foldl_choose_flag Draft.json .json
    (fun _ group => by cases group <;> simp [Draft.choose]) .initial groups
  have verbose := @foldl_choose_flag Draft.verbose .verbose
    (fun _ group => by cases group <;> simp [Draft.choose]) .initial groups
  have maxDepth := maxDepth_foldl_choose .initial faultless
  generalize groups.foldl Draft.choose .initial = reached at *
  rw [only, List.getLast?_singleton, Option.some_or] at sources
  rw [Option.or_some, Option.some.injEq] at commands
  rw [Draft.config, sources]
  refine ⟨_, rfl, only, commands, ?_, maxDepth, by simpa [Draft.initial] using json,
    by simpa [Draft.initial] using verbose⟩
  exact languages.trans Option.or_none

theorem config_foldl_choose_of_nil (none : groups.filterMap source? = []) :
    (groups.foldl Draft.choose .initial).config = .error (.error .noFile) := by
  have sources := foldl_choose source_choose .initial groups
  rw [none] at sources
  rw [Draft.config, sources]
  rfl

/-- Groups that are accepted are read as what they lead to. -/
theorem ofGroups_eq (faultless : Faultless groups)
    (sources : (groups.filterMap source?).length ≤ 1) :
    Config.ofGroups groups = (groups.foldl Draft.choose .initial).config := by
  have accepted : Accepted Draft.initial.source.isSome groups :=
    accepted_iff.2 ⟨faultless, by simpa [Draft.initial] using sources⟩
  rw [Config.ofGroups, takeAll_eq_ok_iff.2 ⟨accepted, rfl⟩]

/-- Groups are read as a configuration if and only if none of them ends the reading and one source
is named; the configuration is then what they choose. -/
theorem ofGroups_eq_ok_iff :
    Config.ofGroups groups = .ok config ↔ Faultless groups ∧ config.Chosen groups := by
  constructor
  · intro read
    cases taken : Draft.initial.takeAll groups with
    | error halt => simp [Config.ofGroups, taken] at read
    | ok reached =>
      obtain ⟨accepted, rfl⟩ := takeAll_eq_ok_iff.1 taken
      obtain ⟨faultless, sources⟩ := accepted_iff.1 accepted
      have one : (groups.filterMap source?).length ≤ 1 := by omega
      rw [ofGroups_eq faultless one] at read
      cases named : groups.filterMap source? with
      | nil =>
        rw [config_foldl_choose_of_nil named] at read
        cases read
      | cons source others =>
        rw [named, List.length_cons] at one
        obtain rfl : others = [] := List.length_eq_zero_iff.1 (by omega)
        obtain ⟨made, isMade, chosen⟩ := exists_config_foldl_choose faultless named
        rw [isMade] at read
        obtain rfl : made = config := Except.ok.inj read
        exact ⟨faultless, chosen⟩
  · rintro ⟨faultless, chosen⟩
    have one : (groups.filterMap source?).length ≤ 1 := by simp [chosen.source]
    obtain ⟨made, isMade, too⟩ := exists_config_foldl_choose faultless chosen.source
    rw [ofGroups_eq faultless one, isMade, too.unique chosen]

/-- What the groups must be to be read as a configuration. -/
theorem exists_ofGroups_eq_ok_iff :
    (∃ config, Config.ofGroups groups = .ok config) ↔
      Faultless groups ∧ ∃ source, groups.filterMap source? = [source] := by
  constructor
  · rintro ⟨config, read⟩
    obtain ⟨faultless, chosen⟩ := ofGroups_eq_ok_iff.1 read
    exact ⟨faultless, config.source, chosen.source⟩
  · rintro ⟨faultless, source, only⟩
    obtain ⟨config, made, _⟩ := exists_config_foldl_choose faultless only
    refine ⟨config, ?_⟩
    rw [ofGroups_eq faultless (by simp [only]), made]

/-- Groups that are read as no configuration end the reading. -/
theorem ofGroups_eq_error_iff : Config.ofGroups groups = .error halt ↔ Ends groups halt := by
  constructor
  · intro ended
    cases taken : Draft.initial.takeAll groups with
    | error cause =>
      simp only [Config.ofGroups, taken] at ended
      obtain rfl : cause = halt := Except.error.inj ended
      obtain ⟨before, group, after, split, accepted, halts⟩ := takeAll_eq_error_iff.1 taken
      obtain ⟨faultless, sources⟩ := accepted_iff.1 accepted
      refine .first split faultless (by omega) ?_
      simpa [Draft.initial] using halts
    | ok reached =>
      obtain ⟨accepted, rfl⟩ := takeAll_eq_ok_iff.1 taken
      obtain ⟨faultless, sources⟩ := accepted_iff.1 accepted
      have one : (groups.filterMap source?).length ≤ 1 := by omega
      cases named : groups.filterMap source? with
      | nil =>
        rw [ofGroups_eq faultless one, config_foldl_choose_of_nil named] at ended
        exact .noSource faultless named (Except.error.inj ended).symm
      | cons source others =>
        rw [named, List.length_cons] at one
        obtain rfl : others = [] := List.length_eq_zero_iff.1 (by omega)
        obtain ⟨made, isMade, _⟩ := exists_config_foldl_choose faultless named
        rw [ofGroups_eq faultless (by simp [named]), isMade] at ended
        cases ended
  · rintro (⟨split, faultless, sources, halts⟩ | ⟨faultless, named, rfl⟩)
    · have accepted : Accepted Draft.initial.source.isSome _ :=
        accepted_iff.2 ⟨faultless, by simpa [Draft.initial] using sources⟩
      have taken := takeAll_eq_error_iff.2 ⟨_, _, _, split, accepted, halts⟩
      rw [Config.ofGroups, taken]
    · rw [ofGroups_eq faultless (by simp [named]), config_foldl_choose_of_nil named]

end ModalHighlight.CommandLine
