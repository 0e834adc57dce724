import SmallLisp.Eval.Basic

/-!
# Arguments of the console

The console takes a file to run first, the flag `--no-repl` to stop after it,
and the option `--max-depth`, in any order and each at most once.
-/

namespace SmallLisp

/-- What the console is started with. -/
structure Arguments where
  file : Option String := none
  noRepl : Bool := false
  maxDepth : Option Nat := none
deriving DecidableEq, Repr

namespace Arguments

/-- A limit: digits after an optional plus sign, below `2⁶⁴`. -/
def readLimit? (t : String) : Option Nat :=
  let cs := match t.toList with
    | '+' :: cs => cs
    | cs => cs
  (Numeral.readNat? cs).filter (· < UInt64.size)

/-- Adds the file; its name is not empty. -/
def addFile (args : Arguments) (name : String) : Option Arguments :=
  if args.file.isSome ∨ name = "" then none else some { args with file := some name }

/-- Adds the limit. -/
def addLimit (args : Arguments) (t : String) : Option Arguments :=
  if args.maxDepth.isSome then none
  else (readLimit? t).map fun limit => { args with maxDepth := some limit }

/-- Adds the flag. -/
def addNoRepl (args : Arguments) : Option Arguments :=
  if args.noRepl then none else some { args with noRepl := true }

/-- The value of an option that is written together with its name. -/
def limitValue? (t : String) : Option String :=
  let name := "--max-depth=".toList
  if name.isPrefixOf t.toList then some (String.ofList (t.toList.drop name.length)) else none

/-- Adds arguments one by one. After two dashes all are files; a single dash is one. -/
def addAll (args : Arguments) : List String → Option Arguments
  | [] => some args
  | "--" :: ts => ts.foldlM addFile args
  | "--no-repl" :: ts => args.addNoRepl.bind fun args => args.addAll ts
  | ["--max-depth"] => none
  | "--max-depth" :: t :: ts => (args.addLimit t).bind fun args => args.addAll ts
  | t :: ts =>
    match limitValue? t with
    | some value => (args.addLimit value).bind fun args => args.addAll ts
    | none =>
      if t.toList.head? = some '-' ∧ t ≠ "-" then none
      else (args.addFile t).bind fun args => args.addAll ts

/-- Reads arguments. The flag to stop after the file needs the file. -/
def read? (ts : List String) : Option Arguments :=
  (addAll {} ts).filter fun args => !args.noRepl || args.file.isSome

/-- The evaluator that the arguments ask for. -/
def evaluator (args : Arguments) : Evaluator := ⟨args.maxDepth.getD defaultEvalDepth⟩

end Arguments

end SmallLisp
