import ModalHighlight.Flint
import ModalHighlight.Text.Quoted

/-! # Languages

The languages that texts can be highlighted as, and how a host finds one: by
id or alias, or by file extension.  Letters of the ASCII alphabet match in
either case, all other characters only themselves.
-/

namespace ModalHighlight

structure Language where
  name : String
  /-- The name that identifies the language. -/
  id : String
  /-- Names that a language may be asked for by. -/
  aliases : List String
  /-- File extensions, without the dot. -/
  extensions : List String
  grammar : Grammar

namespace Language

def flint : Language := ⟨"Flint", "flint", ["flint", "ft"], ["ft", "flint"], Flint.grammar⟩

def all : List Language := [flint]

/-- Two texts are the same but for the case of ASCII letters. -/
def sameIgnoringCase (a b : String) : Bool :=
  a.toList.map Char.toLower == b.toList.map Char.toLower

/-- A name is the id or an alias of the language. -/
def answersTo (language : Language) (name : String) : Bool :=
  sameIgnoringCase language.id name || language.aliases.any (sameIgnoringCase · name)

/-- The language that is called by a name. -/
def named? (name : String) : Option Language := all.find? (·.answersTo name)

/-- An extension without the dot that may lead it. -/
def withoutDot (extension : String) : String :=
  match extension.toList with
  | '.' :: rest => String.ofList rest
  | _ => extension

/-- The language of files with an extension, given with its dot or without. -/
def forExtension? (extension : String) : Option Language :=
  all.find? fun language => language.extensions.any (sameIgnoringCase · (withoutDot extension))

/-- The language on one line, for logs. -/
def describe (language : Language) : String :=
  "Language \x7b name: " ++ Text.quoted language.name ++ ", id: " ++ Text.quoted language.id ++
    ", aliases: " ++ Text.quotedList language.aliases ++ ", .. \x7d"

/-- Two languages are the same if their ids are. -/
instance : BEq Language where
  beq a b := a.id == b.id

end Language

end ModalHighlight
