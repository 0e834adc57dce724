import SmallLisp.Operator.Apply

/-!
# A host program

The four functions that the programs using this library register (`Extension`),
as one host (`Extension.host`). It is the host of the programs that run; no
general result on evaluation depends on it.
-/

namespace SmallLisp

/-- Functions registered besides the operators. -/
inductive Extension
  /-- Twice the first argument. -/
  | double
  /-- The first item of the list that is the first argument. -/
  | first
  /-- The list of all arguments. -/
  | pack
  /-- The symbol named by the text of the first argument. -/
  | symbol
deriving DecidableEq, Repr

namespace Extension

/-- All functions. A function is registered under its place in the list. -/
def all : List Extension := [double, first, pack, symbol]

/-- The number that a function is registered under. -/
def id (f : Extension) : Nat := all.idxOf f

/-- A function on any number of arguments; a missing first argument counts as `nil`. -/
def apply (f : Extension) (args : List Value) : Except EvalError Value :=
  let arg := args.headD .nil
  match f with
  | double => return .float ((← arg.toNumber) * .ofInt 2)
  | first =>
    match arg with
    | .list items => .ok (items.headD .nil)
    | v => .error (.typeMismatch .list v)
  | pack => .ok (.list args)
  | symbol => .ok (.symbol (toString arg))

/-- The host that registers these four functions, and under all other numbers one that has `nil`
for every argument. -/
instance host : Host where
  run id args :=
    match all[id]? with
    | some f => f.apply args
    | none => .ok .nil

end Extension

/-- What a builtin runs if it is one of these functions. -/
def Primitive.extension (f : Extension) : Primitive := .host f.id

end SmallLisp
