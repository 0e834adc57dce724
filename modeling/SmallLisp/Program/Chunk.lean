import SmallLisp.Text.Blank

/-!
# Chunks of a text

A text is cut between lines where its parentheses have closed. A chunk starts
with a line that is not blank and goes on as long as more parentheses have been
opened than closed; blank lines between chunks are dropped. Every parenthesis
counts, inside quoted strings too.
-/

namespace SmallLisp

/-- Opening less closing parentheses. -/
def parenBalance (cs : List Char) : Int := (cs.count '(' : Int) - cs.count ')'

/-- Groups the lines that follow the lines of `block`, which have left `balance` parentheses open.
An empty block has not begun. -/
def groupLines (block : List (List Char)) (balance : Int) :
    List (List Char) → List (List (List Char))
  | [] => if block = [] then [] else [block]
  | l :: ls =>
    if block = [] ∧ l.all Text.isBlank then groupLines [] 0 ls
    else if balance + parenBalance l ≤ 0 then (block ++ [l]) :: groupLines [] 0 ls
    else groupLines (block ++ [l]) (balance + parenBalance l) ls

/-- Lines with line feeds between them. -/
def joinLines (ls : List (List Char)) : List Char := List.intercalate ['\n'] ls

/-- The chunks of a text. The last one may have parentheses left open. -/
def chunks (text : String) : List String :=
  (groupLines [] 0 (Text.lines text.toList)).map fun block => String.ofList (joinLines block)

end SmallLisp
