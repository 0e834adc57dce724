/-!
# Lines as they are typed

What reads a line from the terminal may edit it before it is taken, and is not
part of the console: it is a parameter (`LineEditor`). All that is asked of it is
that it leaves lines without backspaces alone (`LineEditor.KeepsPlain`).
-/

namespace SmallLisp.Console

/-- The character that takes back what was typed before it. -/
def backspace : Char := '\x08'

/-- What is taken for a line that was typed, if there is anything to take. -/
abbrev LineEditor : Type := List Char → Option (List Char)

/-- A line without backspaces is taken as it was typed. -/
def LineEditor.KeepsPlain (edit : LineEditor) : Prop :=
  ∀ line, backspace ∉ line → edit line = some line

end SmallLisp.Console
