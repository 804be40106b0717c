import Saboteur.Text.Cutting

/-!
# Texts of files

What the service reads from files is given to it as a function from paths to texts, so nothing but
the outermost layer touches a file.
-/

namespace Saboteur

/-- Why the text of a file cannot be read. -/
inductive FileError where
  | notFound
  | denied
  | directory
  /-- The bytes are no text. -/
  | notText
  deriving DecidableEq

/-- The wording of a file error. -/
def FileError.message : FileError → String
  | .notFound => "No such file or directory (os error 2)"
  | .denied => "Permission denied (os error 13)"
  | .directory => "Is a directory (os error 21)"
  | .notText => "stream did not contain valid UTF-8"

/-- The texts of the files that can be read. -/
abbrev FileTexts := String → Except FileError String

/-- Whether a path leads nowhere but to where it begins. -/
def isBarePath (path : String) : Bool :=
  path ≠ "" && (Text.splitList '/' path.toList).all fun segment =>
    segment = [] || segment = ['.'] || segment = ['.', '.']

/-- No file at all: only the directories that paths begin at exist. -/
def FileTexts.none : FileTexts := fun path =>
  .error (if isBarePath path then .directory else .notFound)

/-- One more file. -/
def FileTexts.add (files : FileTexts) (path text : String) : FileTexts :=
  fun p => if p = path then .ok text else files p

end Saboteur
