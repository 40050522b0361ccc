/-! # Columns

Texts that are shorter than their column are filled up with spaces, and longer
ones are left as they are.
-/

namespace ModalHighlight.Text

/-- The spaces that a text lacks to a width. -/
def fill (width : Nat) (text : String) : String :=
  String.ofList (List.replicate (width - text.length) ' ')

/-- A text at the right end of a column. -/
def alignRight (width : Nat) (text : String) : String := fill width text ++ text

/-- A text at the left end of a column. -/
def alignLeft (width : Nat) (text : String) : String := text ++ fill width text

end ModalHighlight.Text
