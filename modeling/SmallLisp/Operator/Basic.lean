/-!
# Operators

The ten operators every environment starts with (`Operator`), and how many
arguments a function takes (`Arity`).
-/

namespace SmallLisp

/-- How many arguments a function takes. -/
inductive Arity
  | exactly (n : Nat)
  | atLeast (n : Nat)
deriving DecidableEq, Repr

namespace Arity

/-- Whether a number of arguments is allowed. -/
def accepts : Arity → Nat → Bool
  | exactly n, count => count == n
  | atLeast n, count => decide (n ≤ count)

/-- The allowed numbers, in words. -/
def text : Arity → String
  | exactly n => "exactly " ++ toString n
  | atLeast n => "at least " ++ toString n

end Arity

/-- The operators. -/
inductive Operator
  | add
  | sub
  | mul
  | div
  | numEq
  | numLt
  | numGt
  | equal
  | atom
  | list
deriving DecidableEq, Repr

namespace Operator

/-- All operators, arithmetic first. -/
def all : List Operator := [add, sub, mul, div, numEq, numLt, numGt, equal, atom, list]

/-- The name an operator is called by. -/
def name : Operator → String
  | add => "+"
  | sub => "-"
  | mul => "*"
  | div => "/"
  | numEq => "="
  | numLt => "<"
  | numGt => ">"
  | equal => "equal"
  | atom => "atom"
  | list => "list"

/-- Arithmetic takes one argument or more, comparisons two, and the other predicates one. -/
def arity : Operator → Arity
  | add | sub | mul | div => .atLeast 1
  | numEq | numLt | numGt | equal => .exactly 2
  | atom | list => .exactly 1

/-- The operator of a name. -/
def ofName? (name : String) : Option Operator := all.find? (·.name = name)

theorem mem_all (op : Operator) : op ∈ all := by cases op <;> decide

theorem ofName?_name (op : Operator) : ofName? op.name = some op := by cases op <;> decide

theorem name_of_ofName? {name : String} {op : Operator} (h : ofName? name = some op) :
    op.name = name := by
  simpa using List.find?_some h

end Operator

end SmallLisp
