import ModalHighlight.Proofs.CommandLine.Choices

/-! # How arguments are read

Arguments split into groups in one way, and the groups say all there is to say: which
configuration is asked for, or at which of them the program ends and how.  Two groups that stand
side by side may trade places unless both make the same choice; the configuration stays the same,
and so does the way in which the program ends, unless either group may be the one that ends it.
-/

namespace ModalHighlight.CommandLine

open CommandLine.Group

variable {draft : Draft} {first second : Group} {before after : List Group} {config : Config}

/-! ## Trading places -/

/-- The groups do not make the same choice. -/
def Group.Apart (first second : Group) : Prop :=
  first.choice? = none ∨ first.choice? ≠ second.choice?

theorem Group.Apart.symm (apart : first.Apart second) : second.Apart first := by
  rcases apart with none | different
  · by_cases too : second.choice? = Option.none
    · exact .inl too
    · exact .inr (none ▸ too)
  · exact .inr different.symm

/-- Choices that are not the same are made in any order. -/
theorem choose_comm (apart : first.Apart second) (draft : Draft) :
    (draft.choose first).choose second = (draft.choose second).choose first := by
  cases first <;> cases second <;>
    first
    | rfl
    | exact absurd apart (by simp [Apart, choice?])

/-- A group that never ends the reading may be taken before or after the next one. -/
theorem takeAll_swap_of_endless (apart : first.Apart second) (endless : first.halt? true = none)
    (draft : Draft) (after : List Group) :
    draft.takeAll (first :: second :: after) = draft.takeAll (second :: first :: after) := by
  have noSource : first.source? = none := by
    cases first with
    | source _ => cases endless
    | _ => rfl
  have never : ∀ named, first.halt? named = none :=
    fun named => (halt?_eq noSource).trans ((halt?_eq noSource).symm.trans endless)
  have sameSource : (draft.choose first).source = draft.source := by
    rw [source_choose, noSource, Option.none_or]
  simp only [Draft.takeAll, take_eq, never, sameSource]
  cases second.halt? draft.source.isSome with
  | some halt => rfl
  | none => simp only [choose_comm apart]

theorem ofGroups_swap (apart : first.Apart second)
    (endless : first.halt? true = none ∨ second.halt? true = none)
    (before after : List Group) :
    Config.ofGroups (before ++ first :: second :: after) =
      Config.ofGroups (before ++ second :: first :: after) := by
  have swap : ∀ draft : Draft,
      draft.takeAll (first :: second :: after) = draft.takeAll (second :: first :: after) := by
    intro draft
    rcases endless with endless | endless
    · exact takeAll_swap_of_endless apart endless draft after
    · exact (takeAll_swap_of_endless apart.symm endless draft after).symm
  simp only [Config.ofGroups, takeAll_append, swap]

/-- Where each of two groups may end the reading, one of them does. -/
theorem not_faultless_of_apart (apart : first.Apart second) (ends : first.halt? true ≠ none)
    (endsToo : second.halt? true ≠ none) (groups : List Group) (member : first ∈ groups)
    (memberToo : second ∈ groups) : ¬ Faultless groups := by
  intro faultless
  -- What ends the reading only sometimes is a source, and two sources are not apart.
  have isSource : ∀ group ∈ groups, group.halt? true ≠ none → group.choice? = some .source := by
    intro group inGroups ends
    have never := faultless_iff.1 faultless group inGroups
    cases group with
    | source _ => rfl
    | language _ | maxDepth _ | help | version | unknown _ | verbose | json | command _ =>
      rw [halt?_eq rfl] at ends
      exact absurd never ends
  rw [Apart, isSource first member ends, isSource second memberToo endsToo] at apart
  simp at apart

/-- Trading places makes no difference to the configuration. -/
theorem ofGroups_swap_eq_ok_iff (apart : first.Apart second) (before after : List Group) :
    Config.ofGroups (before ++ first :: second :: after) = .ok config ↔
      Config.ofGroups (before ++ second :: first :: after) = .ok config := by
  by_cases endless : first.halt? true = none ∨ second.halt? true = none
  · rw [ofGroups_swap apart endless]
  · have unread := not_faultless_of_apart apart (fun none => endless (.inl none))
      (fun none => endless (.inr none))
    rw [ofGroups_eq_ok_iff, ofGroups_eq_ok_iff]
    constructor
    · exact fun ⟨faultless, _⟩ => absurd faultless (unread _ (by simp) (by simp))
    · exact fun ⟨faultless, _⟩ => absurd faultless (unread _ (by simp) (by simp))

/-! ## Arguments -/

/-- The outcome of a program that ends while it reads its arguments. -/
theorem run_of_ends {arguments : List String} {halt : Halt}
    (ends : Ends (ofArguments arguments) halt) (environment : Environment)
    (logSetting : Option String) :
    run environment logSetting arguments = Outcome.ofHalt halt := by
  have read : Config.ofArguments arguments = .error halt := ofGroups_eq_error_iff.2 ends
  rw [run, read]

/-- Help and the version are no failures, and all else is one that is explained. -/
theorem ofHalt_exits (halt : Halt) :
    match halt with
    | .help | .version => (Outcome.ofHalt halt).exitCode = 0
    | .error cause =>
      (Outcome.ofHalt halt).exitCode = 1 ∧
        (Outcome.ofHalt halt).errorText = "error: " ++ cause.message ++ "\n" := by
  cases halt with
  | help | version => rfl
  | error cause =>
    refine ⟨rfl, ?_⟩
    simp [Outcome.ofHalt, Outcome.failure, Outcome.errorText, Notice.text]

/-- Arguments that make up two groups side by side trade places as the groups do. -/
theorem ofArguments_swap {blocks : List (List String)} {one two : List String}
    (written : ∀ words ∈ blocks, ∃ group, Written words group) (isFirst : Written one first)
    (isSecond : Written two second) (rest : List String) :
    ∃ before,
      ofArguments (blocks.flatten ++ (one ++ (two ++ rest))) =
        before ++ first :: second :: ofArguments rest ∧
      ofArguments (blocks.flatten ++ (two ++ (one ++ rest))) =
        before ++ second :: first :: ofArguments rest := by
  obtain ⟨before, front⟩ := exists_ofArguments_flatten_append written
  refine ⟨before, ?_, ?_⟩
  · rw [front, ofArguments_append isFirst, ofArguments_append isSecond]
  · rw [front, ofArguments_append isSecond, ofArguments_append isFirst]

/-- Arguments split into groups in one way.  They are read as a configuration if and only if none
of the groups is at fault or asks for help or the version, and exactly one is a source; each
choice is then the last that is made, or the usual one.  Otherwise the first group that ends the
reading decides how the program exits, with success only for help and the version.  Groups that
make different choices may trade places without a change to the configuration, and without a
change to anything if one of the two can never end the reading. -/
theorem arguments_read (arguments : List String) :
    (∀ groups, Splits arguments groups ↔ groups = ofArguments arguments) ∧
      ((∃ config, Config.ofArguments arguments = .ok config) ↔
        Faultless (ofArguments arguments) ∧
          ∃ source, (ofArguments arguments).filterMap source? = [source]) ∧
      (∀ config, Config.ofArguments arguments = .ok config ↔
        Faultless (ofArguments arguments) ∧ config.Chosen (ofArguments arguments)) ∧
      (∀ halt, Config.ofArguments arguments = .error halt ↔
        Ends (ofArguments arguments) halt) ∧
      (∀ environment logSetting halt, Ends (ofArguments arguments) halt →
        let outcome := run environment logSetting arguments
        match halt with
        | .help | .version => outcome.exitCode = 0
        | .error cause =>
          outcome.exitCode = 1 ∧ outcome.errorText = "error: " ++ cause.message ++ "\n") ∧
      ∀ (blocks : List (List String)) (one two rest : List String) (first second : Group),
        arguments = blocks.flatten ++ (one ++ (two ++ rest)) →
        (∀ words ∈ blocks, ∃ group, Written words group) →
        Written one first → Written two second → first.Apart second →
        let swapped := blocks.flatten ++ (two ++ (one ++ rest))
        (∀ config, Config.ofArguments arguments = .ok config ↔
          Config.ofArguments swapped = .ok config) ∧
        (first.halt? true = none ∨ second.halt? true = none →
          Config.ofArguments arguments = Config.ofArguments swapped) := by
  refine ⟨fun groups => splits_iff, exists_ofGroups_eq_ok_iff, fun config => ofGroups_eq_ok_iff,
    fun halt => ofGroups_eq_error_iff, ?exits, ?swaps⟩
  case exits =>
    intro environment logSetting halt ends outcome
    have isOutcome : outcome = Outcome.ofHalt halt := run_of_ends ends environment logSetting
    rw [isOutcome]
    exact ofHalt_exits halt
  case swaps =>
    rintro blocks one two rest first second rfl written isFirst isSecond apart swapped
    obtain ⟨before, there, here⟩ := ofArguments_swap written isFirst isSecond rest
    rw [Config.ofArguments, Config.ofArguments, there, here]
    exact ⟨fun config => ofGroups_swap_eq_ok_iff apart before _,
      fun endless => ofGroups_swap apart endless before _⟩

/-- A limit may stand in front of the file that it is for, and behind it. -/
theorem arguments_read_swapped :
    let config : Config := ⟨.tokens, .file "main.ft", none, 8, true, false⟩
    Config.ofArguments ["-j", "main.ft", "-d", "8"] = .ok config ∧
      Config.ofArguments ["-j", "-d", "8", "main.ft"] = .ok config := by
  intro config
  have flag : ∀ words ∈ [["-j"]], ∃ group, Written words group := by
    intro words member
    obtain rfl := List.mem_singleton.1 member
    exact ⟨.json, .alone (by decide)⟩
  have file : Written ["main.ft"] (.source (.file "main.ft")) :=
    .file (by simp [Unlisted, alone, valued]) (by decide)
  have limit : Written ["-d", "8"] (.maxDepth (some "8")) :=
    .withValue "8" (by simp [valued])
  have read : Config.ofArguments ["-j", "main.ft", "-d", "8"] = .ok config := by
    decide
  have swapped := (arguments_read ["-j", "main.ft", "-d", "8"]).2.2.2.2.2 [["-j"]] ["main.ft"]
    ["-d", "8"] [] _ _ rfl flag file limit (.inr (by decide))
  exact ⟨read, (swapped.1 config).1 read⟩

end ModalHighlight.CommandLine
