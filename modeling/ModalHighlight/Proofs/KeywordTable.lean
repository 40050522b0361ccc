import ModalHighlight.Proofs.Grammar.Reserved

/-! # Keyword tables as lists of words

A table searches its lists, and a search is right only for a list that ascends.
Whether one does is seen from each entry and the next.  In a table that passes
this check a word is found exactly in the lists that it is a member of, so that
the table is three lists of words which are asked in turn.

The tables of Flint pass, and no word is in two lists of one of them.
-/

namespace ModalHighlight.KeywordTable

variable {list : Array String} {entries : List String} {table : KeywordTable} {word : String}

/-! ## The order of a list -/

/-- An entry comes before another in the order of their bytes. -/
def Before (entry other : String) : Prop := compare (Text.bytes entry) (Text.bytes other) = .lt

instance : Trans Before Before Before := ⟨Std.TransCmp.lt_trans⟩

/-- Each entry comes before the next one. -/
def inOrder : List String → Bool
  | entry :: next :: more =>
    compare (Text.bytes entry) (Text.bytes next) == .lt && inOrder (next :: more)
  | _ => true

/-- Each of the three lists is in order. -/
def isSorted (table : KeywordTable) : Bool :=
  [table.keyword, table.literal, table.builtIn].all fun list => inOrder list.toList

theorem inOrder_iff_isChain : inOrder entries = true ↔ entries.IsChain Before := by
  induction entries with
  | nil => simp [inOrder]
  | cons entry more ih =>
    cases more with
    | nil => simp [inOrder]
    | cons next more =>
      rw [inOrder, Bool.and_eq_true, ih, beq_iff_eq, List.isChain_cons_cons, Before]

theorem inOrder_iff : inOrder list.toList = true ↔ Ascending list :=
  inOrder_iff_isChain.trans List.isChain_iff_pairwise

/-- To look at neighbours is enough. -/
theorem isSorted_iff : table.isSorted = true ↔ table.Sorted := by
  simp only [isSorted, List.all_cons, List.all_nil, Bool.and_true, Bool.and_eq_true, inOrder_iff,
    Sorted]

/-! ## Members -/

theorem lists_iff_mem : Lists list (Text.bytes word) ↔ word ∈ list := by
  constructor
  · rintro ⟨entry, member, same⟩
    exact Text.bytes_injective same ▸ member
  · exact fun member => ⟨word, member, rfl⟩

theorem classify_eq_of_mem (sorted : table.Sorted) (word : String) :
    table.classify (Text.bytes word) =
      if word ∈ table.keyword then some .keyword
      else if word ∈ table.literal then some .literal
      else if word ∈ table.builtIn then some .builtIn
      else none := by
  simp only [classify_eq sorted, lists_iff_mem]

theorem reserves_iff_mem (sorted : table.Sorted) (word : String) :
    table.reserves (Text.bytes word) = true ↔
      word ∈ table.keyword ∨ word ∈ table.literal ∨ word ∈ table.builtIn := by
  simp only [reserves_iff_lists sorted, lists_iff_mem]

/-- No word is in two of the lists. -/
def Separate (table : KeywordTable) : Prop :=
  (∀ word ∈ table.keyword, word ∉ table.literal ∧ word ∉ table.builtIn) ∧
    ∀ word ∈ table.literal, word ∉ table.builtIn

instance (table : KeywordTable) : Decidable table.Separate :=
  inferInstanceAs (Decidable (_ ∧ _))

/-- A table that is in order answers as its lists do, and those of Flint are in order,
with each word in one list at most. -/
theorem classifies_members :
    (∀ table : KeywordTable, (table.isSorted = true ↔ table.Sorted) ∧
      (table.Sorted → ∀ word : String,
        table.classify (Text.bytes word) =
          (if word ∈ table.keyword then some .keyword
          else if word ∈ table.literal then some .literal
          else if word ∈ table.builtIn then some .builtIn
          else none) ∧
        (table.reserves (Text.bytes word) = true ↔
          word ∈ table.keyword ∨ word ∈ table.literal ∨ word ∈ table.builtIn))) ∧
    ∀ table ∈ [Flint.keywords, Flint.builtInsOnly], table.Sorted ∧ table.Separate := by
  constructor
  · intro table
    refine ⟨isSorted_iff, fun sorted word => ?_⟩
    exact ⟨classify_eq_of_mem sorted word, reserves_iff_mem sorted word⟩
  · rintro table member
    rcases List.mem_pair.1 member with rfl | rfl
    · exact ⟨Flint.keywords_sorted, by decide +kernel⟩
    · exact ⟨Flint.builtInsOnly_sorted, by decide +kernel⟩

/-- Of a word and what it begins with, a list may have the one and not the other. -/
theorem classifies_members_between :
    Flint.keywords.Sorted ∧
      Flint.keywords.classify (Text.bytes "i32x2") = some .builtIn ∧
      Flint.keywords.reserves (Text.bytes "i32x") = false := by
  obtain ⟨_, answers⟩ := classifies_members.1 Flint.keywords
  refine ⟨Flint.keywords_sorted, ?_, ?_⟩
  · rw [(answers Flint.keywords_sorted "i32x2").1]
    decide +kernel
  · rw [Bool.eq_false_iff, ne_eq, (answers Flint.keywords_sorted "i32x").2]
    decide +kernel

end ModalHighlight.KeywordTable
