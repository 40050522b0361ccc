import ModalHighlight.CommandLine.Arguments
import ModalHighlight.Text.Split

/-! # Inputs

Reading a text can fail, and what is read may be no text.  A directory that
holds only files is modelled here too, so that whole runs of the program are
functions of their arguments and of the files around them.  A path is followed
name by name: each leads on from the place that the one before it led to.
-/

namespace ModalHighlight.CommandLine

/-- Why a text could not be read. -/
inductive ReadFailure where
  | notFound
  | notDirectory
  | isDirectory
  | nameTooLong
  | invalidText
  /-- Any other failure, in the words of the system. -/
  | other (message : String)
  deriving DecidableEq, Repr

def ReadFailure.message : ReadFailure → String
  | notFound => "No such file or directory (os error 2)"
  | notDirectory => "Not a directory (os error 20)"
  | isDirectory => "Is a directory (os error 21)"
  | nameTooLong => "File name too long (os error 36)"
  | invalidText => "stream did not contain valid UTF-8"
  | other message => message

/-- The text that some bytes encode. -/
def textOfBytes (bytes : List UInt8) : Except ReadFailure String :=
  match String.fromUTF8? bytes.toByteArray with
  | some text => .ok text
  | none => .error .invalidText

/-- A directory that holds only files. -/
structure Directory where
  files : List (String × List UInt8)

def Directory.lookup? (directory : Directory) (name : String) : Option (List UInt8) :=
  directory.files.lookup name

/-- Everything that a run of the program can read. -/
structure Environment where
  directory : Directory
  standardInput : List UInt8

/-! ## Paths -/

/-- Where a path can lead. -/
inductive Place where
  /-- The directory that paths start from. -/
  | here
  /-- A directory above it. -/
  | above
  /-- A directory of the system, by the names from the root on. -/
  | system (names : List String)
  | file (bytes : List UInt8)
  deriving DecidableEq, Repr

/-- The greatest number of bytes in a name. -/
def longestName : Nat := 255

/-- The greatest number of bytes in a path. -/
def longestPath : Nat := 4095

/-- The directories that every system has under its root. -/
def systemDirectories : List String :=
  ["bin", "dev", "etc", "home", "lib", "opt", "proc", "sys", "tmp", "usr", "var"]

namespace Environment

/-- Where a name leads from a directory of the system.  Nothing is known of what
is there, except for the directories under the root and two devices. -/
def systemPlace? (environment : Environment) (names : List String) (name : String) :
    Option Place :=
  match names, name with
  | [], _ => if systemDirectories.contains name then some (.system [name]) else none
  | ["dev"], "null" => some (.file [])
  | ["dev"], "stdin" => some (.file environment.standardInput)
  | _, _ => none

/-- Where a name leads from a directory. -/
def place? (environment : Environment) (place : Place) (name : String) : Option Place :=
  match place with
  | .here => (environment.directory.lookup? name).map .file
  | .system names => environment.systemPlace? names name
  | _ => none

def parent : Place → Place
  | .system names => .system names.dropLast
  | _ => .above

/-- Follows a path by one component.  From a file no component leads on, not
even one that stands for the same directory, as an empty one does. -/
def follow (environment : Environment) (place : Place) (component : String) :
    Except ReadFailure Place :=
  match place with
  | .file _ => .error .notDirectory
  | _ =>
    if component.isEmpty || component == "." then .ok place
    else if component == ".." then .ok (parent place)
    else if longestName < component.utf8ByteSize then .error .nameTooLong
    else
      match environment.place? place component with
      | some found => .ok found
      | none => .error .notFound

/-- Where a path starts from. -/
def origin (path : String) : Place :=
  if path.toList.head? = some '/' then .system [] else .here

def readFile (environment : Environment) (path : String) : Except ReadFailure (List UInt8) :=
  if path.isEmpty then .error .notFound
  else if longestPath < path.utf8ByteSize then .error .nameTooLong
  else
    match (Text.split '/' path).foldlM environment.follow (origin path) with
    | .error failure => .error failure
    | .ok (.file bytes) => .ok bytes
    | .ok _ => .error .isDirectory

def read (environment : Environment) : Source → Except ReadFailure (List UInt8)
  | .standardInput => .ok environment.standardInput
  | .file name => environment.readFile name

end Environment

end ModalHighlight.CommandLine
