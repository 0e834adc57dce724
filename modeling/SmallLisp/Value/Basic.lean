import SmallLisp.Expr.Basic
import SmallLisp.Number.Shortest
import SmallLisp.Operator.Basic

/-!
# Values

What expressions evaluate to (`Value`): numbers, text, truth values, lists,
functions and `nil`. A function is a builtin, which names what it runs, or a
closure, which holds parameters and a body but no environment.
-/

namespace SmallLisp

/-- What a builtin runs: an operator, or one of the functions that the host program has registered
besides. Those are known by number here; what they do is up to the host (`Host`). -/
inductive Primitive
  | operator (op : Operator)
  | host (id : Nat)
deriving DecidableEq, Repr

/-- A function that is not written in the language. Its arity is checked before it runs. -/
structure Builtin where
  name : String
  arity : Arity
  primitive : Primitive
deriving DecidableEq, Repr

/-- The builtin that an operator is as a value. -/
def Operator.builtin (op : Operator) : Builtin := ⟨op.name, op.arity, .operator op⟩

/-- A function defined by a program. -/
structure Closure where
  name : String
  params : List String
  body : List Expr
deriving DecidableEq

/-- What can be called. -/
inductive Callable
  | builtin (b : Builtin)
  | closure (c : Closure)
deriving DecidableEq

/-- The name a function was given. -/
def Callable.name : Callable → String
  | builtin b => b.name
  | closure c => c.name

/-- A value. -/
inductive Value
  | integer (n : Int64)
  | float (x : Binary64)
  | str (s : String)
  | symbol (s : String)
  | bool (b : Bool)
  | list (items : List Value)
  | callable (c : Callable)
  | nil
deriving Inhabited

namespace Value

/-- What counts as true: the truth value, and numbers other than zero. -/
def isTruthy : Value → Bool
  | bool b => b
  | integer n => n != 0
  | float x => !x.isZero
  | _ => false

/-- Whether the value is a list. -/
def isList : Value → Bool
  | list _ => true
  | _ => false

/-- A number as binary64, in which all arithmetic is done. -/
def number? : Value → Option Binary64
  | integer n => some (.ofInt n.toInt)
  | float x => some x
  | _ => none

/-- The function that a value is. -/
def callable? : Value → Option Callable
  | callable c => some c
  | _ => none

/-- A number in its narrowest form: an integer if it is whole and within 64 bits. -/
def ofNumber (x : Binary64) : Value :=
  match x.toInt? with
  | some n =>
    if Int64.minValue.toInt ≤ n ∧ n ≤ Int64.maxValue.toInt then integer (Int64.ofInt n) else float x
  | none => float x

end Value

/-! ## Equality as programs see it -/

/-- Builtins are the same if their names are, closures if all their parts are. -/
def Callable.same : Callable → Callable → Bool
  | builtin a, builtin b => a.name == b.name
  | closure a, closure b => a == b
  | _, _ => false

namespace Value

mutual

/-- Whether two values are of one kind and the same; floats are compared as numbers, so NaN is not
the same as itself. -/
def same : Value → Value → Bool
  | integer m, integer n => m == n
  | float x, float y => x.numEq y
  | str s, str t => s == t
  | symbol s, symbol t => s == t
  | bool a, bool b => a == b
  | list as, list bs => sameItems as bs
  | callable c, callable d => c.same d
  | nil, nil => true
  | _, _ => false

/-- Whether two lists are of one length and hold the same values in order. -/
def sameItems : List Value → List Value → Bool
  | [], [] => true
  | a :: as, b :: bs => same a b && sameItems as bs
  | _, _ => false

end

end Value

end SmallLisp
