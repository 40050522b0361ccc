import ModalHighlight.Byte
import ModalHighlight.Kind
import ModalHighlight.Search

/-! # Reserved words

A keyword table sorts the reserved words of a language into three lists.  The
lists are in ascending order of their words' bytes, so that a word is found by
search; a word that stood in two of them would count for the first.
-/

namespace ModalHighlight

/-- The reserved words of a language. -/
structure KeywordTable where
  keyword : Array String
  literal : Array String
  builtIn : Array String
  deriving DecidableEq, Repr

namespace KeywordTable

def empty : KeywordTable := ⟨#[], #[], #[]⟩

/-- A word is in a sorted list of words. -/
def listed (list : Array String) (word : List UInt8) : Bool :=
  (Search.find? (fun entry => compare (Text.bytes entry) word) list).isSome

/-- The kind of a reserved word. -/
def classify (table : KeywordTable) (word : List UInt8) : Option Kind :=
  if listed table.keyword word then some .keyword
  else if listed table.literal word then some .literal
  else if listed table.builtIn word then some .builtIn
  else none

def reserves (table : KeywordTable) (word : List UInt8) : Bool := (table.classify word).isSome

def Ascending (list : Array String) : Prop :=
  list.toList.Pairwise fun a b => compare (Text.bytes a) (Text.bytes b) = .lt

/-- Each of the three lists ascends, as the search requires. -/
def Sorted (table : KeywordTable) : Prop :=
  Ascending table.keyword ∧ Ascending table.literal ∧ Ascending table.builtIn

instance (list : Array String) : Decidable (Ascending list) :=
  inferInstanceAs (Decidable (List.Pairwise _ _))

instance (table : KeywordTable) : Decidable table.Sorted :=
  inferInstanceAs (Decidable (_ ∧ _))

end KeywordTable

end ModalHighlight
