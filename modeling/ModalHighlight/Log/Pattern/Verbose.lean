import ModalHighlight.Text.Class

/-! # Verbose patterns

Where the flag for it is in force, white space and comments may stand between
the elements of a pattern.  A comment reaches from `#` to the end of its line.
Elsewhere every character counts.
-/

namespace ModalHighlight.Log.Pattern.Verbose

/-- What follows white space and comments, the first of which may have begun. -/
def skipFrom : (inComment : Bool) → List Char → List Char
  | _, [] => []
  | true, c :: rest => skipFrom (c != '\n') rest
  | false, c :: rest =>
    if Text.isBlank c then skipFrom false rest
    else if c = '#' then skipFrom true rest
    else c :: rest

/-- A text from its first element on. -/
def skip (verbose : Bool) (text : List Char) : List Char :=
  if verbose then skipFrom false text else text

/-- The first character that is neither white space nor the start of a comment.
What a comment holds does not hide here. -/
def peekFrom : (inComment : Bool) → List Char → Option Char
  | _, [] => none
  | inComment, c :: rest =>
    if Text.isBlank c then peekFrom inComment rest
    else if c = '#' ∧ !inComment then peekFrom true rest
    else some c

/-- The character by which a hyphen in a class is told from one that makes a
range. -/
def peek (verbose : Bool) (text : List Char) : Option Char :=
  if verbose then (peekFrom false text).or text.head? else text.head?

end ModalHighlight.Log.Pattern.Verbose
