/-! # Splitting

A text is split at every occurrence of a separator.  A text with `n` separators
has `n + 1` pieces, some of which may be empty.
-/

namespace ModalHighlight.Text

/-- The pieces between the separators of a sequence of characters. -/
def splitChars (separator : Char) : List Char → List (List Char)
  | [] => [[]]
  | c :: rest =>
    if c = separator then [] :: splitChars separator rest
    else
      match splitChars separator rest with
      | [] => [[c]]
      | first :: others => (c :: first) :: others

/-- The pieces of a text between separators. -/
def split (separator : Char) (text : String) : List String :=
  (splitChars separator text.toList).map String.ofList

end ModalHighlight.Text
