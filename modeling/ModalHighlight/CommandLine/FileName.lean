import ModalHighlight.Text.Split

/-! # File names

A path is a sequence of components with slashes between them, in which empty
components and those that stand for the same directory do not count.  The last
component is the name of the file, and what follows the last dot in it is its
extension, unless that dot begins the name.
-/

namespace ModalHighlight.CommandLine

/-- The components of a path that count. -/
def components (path : String) : List String :=
  (Text.split '/' path).filter fun component => !component.isEmpty && component != "."

def fileName? (path : String) : Option String :=
  match (components path).getLast? with
  | none => none
  | some name => if name == ".." then none else some name

/-- The extension of a file name, without its dot. -/
def extensionOfName? (name : String) : Option String :=
  let fromEnd := name.toList.reverse
  let extension := fromEnd.takeWhile (· != '.')
  match fromEnd.drop extension.length with
  | [] => none
  | [_] => none
  | _ => some (String.ofList extension.reverse)

def extension? (path : String) : Option String := (fileName? path).bind extensionOfName?

example : extension? "a/b.tar.ft" = some "ft" ∧ extension? ".ft" = none ∧
    extension? "ft." = some "" ∧ extension? "noext" = none := by decide +kernel

end ModalHighlight.CommandLine
