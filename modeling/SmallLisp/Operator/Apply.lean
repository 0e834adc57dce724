import SmallLisp.Eval.Error

/-!
# What builtins compute

The operators on evaluated arguments (`Operator.apply`, and `Operator.call`
behind the arity check), and any builtin (`Builtin.call`), be it an operator or
a function of the host program. Arithmetic is done in binary64 on all arguments,
and its result is narrowed to an integer where it can be.

The host program is a parameter of evaluation (`Host`).
-/

namespace SmallLisp

namespace Operator

/-- The quotient; a zero divisor, of either sign, is an error. -/
def divide (x y : Binary64) : Except EvalError Binary64 :=
  if y.isZero then .error .divisionByZero else .ok (x / y)

/-- A number less others; one number alone is negated. -/
def difference (x : Binary64) : List Binary64 → Binary64
  | [] => -x
  | ys => ys.foldl (· - ·) x

/-- A number divided by others, from the left; of one number alone the reciprocal. -/
def quotient (x : Binary64) : List Binary64 → Except EvalError Binary64
  | [] => divide .one x
  | ys => ys.foldlM divide x

/-- Arithmetic on one number or more: all arguments have to be numbers before any is used. -/
def arithmetic (op : Operator) (f : Binary64 → List Binary64 → Except EvalError Binary64)
    (args : List Value) : Except EvalError Value := do
  match ← args.mapM Value.toNumber with
  | [] => .error (.arity op.name (.atLeast 1) 0)
  | x :: ys => return .ofNumber (← f x ys)

/-- A comparison of two numbers. -/
def comparison (op : Operator) (holds : Binary64 → Binary64 → Bool) :
    List Value → Except EvalError Value
  | [a, b] => do
    let x ← a.toNumber
    let y ← b.toNumber
    return .bool (holds x y)
  | args => .error (.arity op.name (.exactly 2) args.length)

/-- A predicate of one value. -/
def predicate (op : Operator) (holds : Value → Bool) : List Value → Except EvalError Value
  | [v] => .ok (.bool (holds v))
  | args => .error (.arity op.name (.exactly 1) args.length)

/-- An operator on any number of arguments. -/
def apply (op : Operator) (args : List Value) : Except EvalError Value :=
  match op with
  | add => op.arithmetic (fun x ys => .ok (ys.foldl (· + ·) x)) args
  | sub => op.arithmetic (fun x ys => .ok (difference x ys)) args
  | mul => op.arithmetic (fun x ys => .ok (ys.foldl (· * ·) x)) args
  | div => op.arithmetic quotient args
  | numEq => op.comparison Binary64.numEq args
  | numLt => op.comparison Binary64.numLt args
  | numGt => op.comparison (fun x y => y.numLt x) args
  | equal =>
    match args with
    | [a, b] => .ok (.bool (a.same b))
    | _ => .error (.arity op.name (.exactly 2) args.length)
  | atom => op.predicate (fun v => !v.isList) args
  | list => op.predicate Value.isList args

/-- An operator on as many arguments as it takes. -/
def call (op : Operator) (args : List Value) : Except EvalError Value := do
  op.arity.check op.name args.length
  op.apply args

end Operator

/-- A host program, by the functions that it registers. Each may be any function of evaluated
arguments: nothing is said about it here. -/
class Host where
  run : (id : Nat) → List Value → Except EvalError Value

variable [Host]

/-- What a builtin runs, on any number of arguments. -/
def Primitive.apply : Primitive → List Value → Except EvalError Value
  | operator op, args => op.apply args
  | host id, args => Host.run id args

/-- A builtin on as many arguments as it takes. -/
def Builtin.call (b : Builtin) (args : List Value) : Except EvalError Value := do
  b.arity.check b.name args.length
  b.primitive.apply args

end SmallLisp
