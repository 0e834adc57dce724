import SmallLisp.Text.Bytes

/-!
# Files by path

A path is resolved in a folder of named texts without folders inside
(`Folder.read`). What can go wrong has the wording of the operating system
(`FileFault.message`).
-/

namespace SmallLisp

/-- Why a file cannot be read. -/
inductive FileFault
  | missing
  | isFolder
  | notFolder
  | tooLong
  | hasNul
  | other (description : String)
deriving DecidableEq, Repr

/-- What is wrong, in words. -/
def FileFault.message : FileFault → String
  | missing => "No such file or directory (os error 2)"
  | isFolder => "Is a directory (os error 21)"
  | notFolder => "Not a directory (os error 20)"
  | tooLong => "File name too long (os error 36)"
  | hasNul => "file name contained an unexpected NUL byte"
  | other description => description

/-- Texts by name. -/
abbrev Folder : Type := List (String × String)

namespace Folder

/-- Cuts a text at a character; there is one part more than there are cuts. -/
def splitAt (sep : Char) : List Char → List (List Char)
  | [] => [[]]
  | c :: cs =>
    if c = sep then [] :: splitAt sep cs
    else
      match splitAt sep cs with
      | [] => [[c]]
      | part :: parts => (c :: part) :: parts

/-- The longest name, in bytes. -/
def maxNameLength : Nat := 255

/-- The longest path, in bytes. -/
def maxPathLength : Nat := 4095

/-- Resolves the parts of a path. A part that is empty or a single dot stays in the folder; two dots
lead out of it, where nothing is known but folders. A named text ends the path. -/
def resolve (folder : Folder) : List (List Char) → Except FileFault String
  | [] => .error .isFolder
  | part :: parts =>
    if part = [] ∨ part = ['.'] then folder.resolve parts
    else if part = ['.', '.'] then resolve [] parts
    else if maxNameLength < Text.utf8Length part then .error .tooLong
    else
      match folder.lookup (String.ofList part) with
      | none => .error .missing
      | some text => if parts = [] then .ok text else .error .notFolder

/-- Reads the text at a path. No text has an empty path or one from the root. -/
def read (folder : Folder) (path : String) : Except FileFault String :=
  if '\x00' ∈ path.toList then .error .hasNul
  else if maxPathLength < Text.utf8Length path.toList then .error .tooLong
  else match path.toList with
  | [] => .error .missing
  | '/' :: cs => resolve [] (splitAt '/' cs)
  | cs => folder.resolve (splitAt '/' cs)

end Folder

end SmallLisp
