import SmallLisp.Text.Blank

/-!
# Commands of the console

A line that starts with a colon is not program text but asks something of the
console (`Command.ofLine?`).
-/

namespace SmallLisp

/-- What a line asks of the console. -/
inductive Command
  | help
  | environment
  | load (path : String)
  | loadUsage
  | quit
  | unknown (line : String)
deriving DecidableEq, Repr

/-- The command of a line, if it is one. Blanks around the line and around a path do not count; only
`:load` may have anything after it. -/
def Command.ofLine? (line : List Char) : Option Command :=
  let cs := Text.trim line
  if cs.head? = some ':' then
    let rest := cs.dropWhile fun c => !Text.isBlank c
    if cs.takeWhile (fun c => !Text.isBlank c) = ":load".toList ∧ rest ≠ [] then
      some (.load (String.ofList (Text.trim rest)))
    else
      match String.ofList cs with
      | ":help" => some help
      | ":env" => some environment
      | ":load" => some loadUsage
      | ":quit" | ":exit" => some quit
      | cs => some (unknown cs)
  else none

end SmallLisp
