import ModalHighlight.CommandLine.Arguments

/-! # How arguments split into groups

The groups that arguments are read as are told here by how a group is written, and not by the
reader: a table lists the arguments that are a group by themselves, another the options that
have the next argument as their value, and what is in neither table is the name of a file or,
behind a hyphen, an unknown option.  A value may be any argument at all, one that looks like an
option included, so that only what stands in front of an argument decides what it is.  Every list
of arguments splits in exactly one way.
-/

namespace ModalHighlight.CommandLine

namespace Group

/-- The arguments that are a group by themselves. -/
def alone : List (String × Group) :=
  [("-h", help), ("--help", help), ("-V", version), ("--version", version), ("-v", verbose),
    ("--verbose", verbose), ("-j", json), ("--json", json), ("tokens", command .tokens),
    ("check", command .check), ("stats", command .stats), ("html", command .html),
    ("-", source .standardInput)]

/-- The options that have a value, by the group that they make up with it. -/
def valued : List (String × (Option String → Group)) :=
  [("-l", language), ("--lang", language), ("-d", maxDepth), ("--max-depth", maxDepth)]

/-- The argument is in none of the tables. -/
def Unlisted (argument : String) : Prop :=
  argument ∉ alone.map Prod.fst ∧ argument ∉ valued.map Prod.fst

/-- Some arguments are all of the arguments of one group. -/
inductive Written : List String → Group → Prop
  | alone {argument : String} {group : Group} (listed : (argument, group) ∈ alone) :
      Written [argument] group
  | withValue {option : String} {group : Option String → Group} (value : String)
      (listed : (option, group) ∈ valued) : Written [option, value] (group (some value))
  | file {name : String} (unlisted : Unlisted name) (bare : name.toList.head? ≠ some '-') :
      Written [name] (source (.file name))
  | unknown {option : String} (unlisted : Unlisted option)
      (hyphen : option.toList.head? = some '-') : Written [option] (unknown option)

/-- Arguments are those of some groups in order.  Only at the end of them, an option may lack
its value. -/
inductive Splits : List String → List Group → Prop
  | nil : Splits [] []
  | cons {words rest : List String} {group : Group} {groups : List Group}
      (written : Written words group) (later : Splits rest groups) :
      Splits (words ++ rest) (group :: groups)
  | withoutValue {option : String} {group : Option String → Group}
      (listed : (option, group) ∈ valued) : Splits [option] [group none]

end Group

open CommandLine.Group

variable {argument : String} {group : Group} {valuedGroup : Option String → Group}
variable {words rest arguments : List String} {groups : List Group}

/-! ## Openings -/

theorem ofArgument_of_alone (listed : (argument, group) ∈ alone) :
    Opening.ofArgument argument = .alone group := by
  have table : ∀ entry ∈ alone, Opening.ofArgument entry.1 = .alone entry.2 := by
    simp [alone, Opening.ofArgument]
  exact table _ listed

theorem ofArgument_of_valued (listed : (argument, valuedGroup) ∈ valued) :
    Opening.ofArgument argument = .withValue valuedGroup := by
  have table : ∀ entry ∈ valued, Opening.ofArgument entry.1 = .withValue entry.2 := by
    simp [valued, Opening.ofArgument]
  exact table _ listed

theorem ofArgument_of_unlisted (unlisted : Unlisted argument) :
    Opening.ofArgument argument =
      if argument.toList.head? = some '-' then .alone (unknown argument)
      else .alone (source (.file argument)) := by
  unfold Opening.ofArgument
  split
  all_goals first | rfl | exact absurd unlisted (by simp [Unlisted, alone, valued])

theorem listed_or_unlisted (argument : String) :
    (∃ group, (argument, group) ∈ alone) ∨ (∃ group, (argument, group) ∈ valued) ∨
      Unlisted argument := by
  by_cases inAlone : argument ∈ alone.map Prod.fst
  · obtain ⟨⟨_, group⟩, listed, rfl⟩ := List.mem_map.1 inAlone
    exact .inl ⟨group, listed⟩
  · by_cases inValued : argument ∈ valued.map Prod.fst
    · obtain ⟨⟨_, group⟩, listed, rfl⟩ := List.mem_map.1 inValued
      exact .inr (.inl ⟨group, listed⟩)
    · exact .inr (.inr ⟨inAlone, inValued⟩)

/-- What is a group by itself is written as one. -/
theorem written_of_ofArgument (opens : Opening.ofArgument argument = .alone group) :
    Written [argument] group := by
  rcases listed_or_unlisted argument with ⟨other, listed⟩ | ⟨other, listed⟩ | unlisted
  · rw [ofArgument_of_alone listed] at opens
    obtain rfl : other = group := Opening.alone.inj opens
    exact .alone listed
  · rw [ofArgument_of_valued listed] at opens
    cases opens
  · rw [ofArgument_of_unlisted unlisted] at opens
    by_cases hyphen : argument.toList.head? = some '-'
    · rw [if_pos hyphen] at opens
      obtain rfl := Opening.alone.inj opens
      exact .unknown unlisted hyphen
    · rw [if_neg hyphen] at opens
      obtain rfl := Opening.alone.inj opens
      exact .file unlisted hyphen

/-- Only the options of the table wait for a value. -/
theorem valued_of_ofArgument (opens : Opening.ofArgument argument = .withValue valuedGroup) :
    (argument, valuedGroup) ∈ valued := by
  rcases listed_or_unlisted argument with ⟨other, listed⟩ | ⟨other, listed⟩ | unlisted
  · rw [ofArgument_of_alone listed] at opens
    cases opens
  · rw [ofArgument_of_valued listed] at opens
    obtain rfl : other = valuedGroup := Opening.withValue.inj opens
    exact listed
  · rw [ofArgument_of_unlisted unlisted] at opens
    split at opens <;> cases opens

/-! ## Splitting -/

/-- A group that stands first is the first to be read, whatever follows. -/
theorem ofArguments_append (written : Written words group) (rest : List String) :
    ofArguments (words ++ rest) = group :: ofArguments rest := by
  cases written with
  | alone listed => rw [List.singleton_append, ofArguments, ofArgument_of_alone listed]
  | withValue value listed =>
    rw [List.cons_append, List.singleton_append, ofArguments, ofArgument_of_valued listed]
  | file unlisted bare =>
    rw [List.singleton_append, ofArguments, ofArgument_of_unlisted unlisted, if_neg bare]
  | unknown unlisted hyphen =>
    rw [List.singleton_append, ofArguments, ofArgument_of_unlisted unlisted, if_pos hyphen]

/-- Groups that stand first are read as they are. -/
theorem exists_ofArguments_flatten_append {blocks : List (List String)}
    (written : ∀ words ∈ blocks, ∃ group, Written words group) :
    ∃ groups, ∀ rest, ofArguments (blocks.flatten ++ rest) = groups ++ ofArguments rest := by
  induction blocks with
  | nil => exact ⟨[], fun _ => rfl⟩
  | cons words blocks ih =>
    obtain ⟨⟨group, first⟩, others⟩ := List.forall_mem_cons.1 written
    obtain ⟨groups, later⟩ := ih others
    refine ⟨group :: groups, fun rest => ?_⟩
    rw [List.flatten_cons, List.append_assoc, ofArguments_append first, later, List.cons_append]

theorem splits_ofArguments (arguments : List String) :
    Splits arguments (ofArguments arguments) := by
  fun_induction ofArguments arguments with
  | case1 => exact .nil
  | case2 argument rest group opens ih => exact .cons (written_of_ofArgument opens) ih
  | case3 argument group opens => exact .withoutValue (valued_of_ofArgument opens)
  | case4 argument group opens value rest ih =>
    exact .cons (.withValue value (valued_of_ofArgument opens)) ih

/-- Arguments split in one way, and that is how they are read. -/
theorem splits_iff : Splits arguments groups ↔ groups = ofArguments arguments := by
  constructor
  · intro splits
    induction splits with
    | nil => rfl
    | cons written _ ih => rw [ofArguments_append written, ih]
    | withoutValue listed => rw [ofArguments, ofArgument_of_valued listed]
  · rintro rfl
    exact splits_ofArguments arguments

end ModalHighlight.CommandLine
