import SmallLisp.Eval.Literal
import SmallLisp.Operator.Apply

/-!
# Evaluation

An expression is evaluated in an environment, to a value or an error and to the
environment it leaves, also when it fails (`Outcome`). Each form is given for
any evaluation `ev` of its parts; `eval` closes the circle level by level and
stops where the levels run out. Functions of the host program are what a host
makes them (`Host`).

A function sees the bindings of its caller: the body of a closure is evaluated
in the environment the operands have left, with the parameters bound in
addition, and what it binds is gone afterwards (`invoke`).
-/

namespace SmallLisp

/-- A result and the environment left behind. -/
abbrev Outcome (α : Type) : Type := Except EvalError α × Environment

/-- The forms whose operands are not all evaluated. -/
inductive SpecialForm
  | setq
  | defun
  | quote
  | cond
deriving DecidableEq, Repr

namespace SpecialForm

/-- The name a special form is called by. -/
def name : SpecialForm → String
  | setq => "setq"
  | defun => "defun"
  | quote => "quote"
  | cond => "cond"

/-- The special form of a name. -/
def ofName? : String → Option SpecialForm
  | "setq" => some setq
  | "defun" => some defun
  | "quote" => some quote
  | "cond" => some cond
  | _ => none

theorem ofName?_name (form : SpecialForm) : ofName? form.name = some form := by
  cases form <;> rfl

theorem name_of_ofName? {name : String} {form : SpecialForm} (h : ofName? name = some form) :
    form.name = name := by
  unfold ofName? at h
  split at h <;> cases h <;> rfl

theorem ofName?_operator (op : Operator) : ofName? op.name = none := by
  cases op <;> rfl

end SpecialForm

section Forms

variable (ev : Expr → Environment → Outcome Value)

/-- Evaluates operands from left to right, each in the environment that the one before has left,
up to the first error. -/
def evalOperands : List Expr → Environment → Outcome (List Value)
  | [], env => (.ok [], env)
  | e :: es, env =>
    match ev e env with
    | (.error x, env) => (.error x, env)
    | (.ok v, env) =>
      match evalOperands es env with
      | (.error x, env) => (.error x, env)
      | (.ok vs, env) => (.ok (v :: vs), env)

/-- Evaluates expressions in order, to the value of the last one, or to `last` if there is none. -/
def evalSequence (last : Value) : List Expr → Environment → Outcome Value
  | [], env => (.ok last, env)
  | e :: es, env =>
    match ev e env with
    | (.error x, env) => (.error x, env)
    | (.ok v, env) => evalSequence v es env

/-- Takes the first clause whose test is `t` or true, and evaluates its body. An empty clause is
passed over, and clauses after the one taken are not looked at. -/
def evalClauses : List Expr → Environment → Outcome Value
  | [], env => (.ok .nil, env)
  | .list [] :: clauses, env => evalClauses clauses env
  | .list (test :: body) :: clauses, env =>
    if test.text? = some "t" then evalSequence ev .nil body env
    else
      match ev test env with
      | (.error x, env) => (.error x, env)
      | (.ok v, env) =>
        if v.isTruthy then evalSequence ev .nil body env else evalClauses clauses env
  | clause :: _, env => (.error (.misplaced .clause clause), env)

/-- Binds a name to the value of an expression, and has that value. -/
def evalSetq : List Expr → Environment → Outcome Value
  | [target, e], env =>
    match target.symbolName? with
    | none => (.error (.misplaced .target target), env)
    | some name =>
      match ev e env with
      | (.error x, env) => (.error x, env)
      | (.ok v, env) => (.ok v, env.define name v)
  | operands, env => (.error (.arity "setq" (.exactly 2) operands.length), env)

section Calls

variable [Host]

/-- Calls a function. A closure runs in the environment of its caller, with its parameters bound. -/
def invoke (c : Callable) (args : List Value) (caller : Environment) : Except EvalError Value :=
  match c with
  | .builtin b => b.call args
  | .closure c =>
    if c.params.length = args.length then
      (evalSequence ev .nil c.body (caller.defineAll (c.params.zip args))).1
    else .error (.arity c.name (.exactly c.params.length) args.length)

/-- Calls the function bound to a name, which is looked up before the operands are evaluated. -/
def evalCall (name : String) (operands : List Expr) (env : Environment) : Outcome Value :=
  match env.get? name with
  | none => (.error (.undefinedFunction name), env)
  | some (.callable c) =>
    match evalOperands ev operands env with
    | (.error x, env) => (.error x, env)
    | (.ok args, env) => (invoke ev c args env, env)
  | some _ => (.error (.notCallable name), env)

end Calls

/-- Applies an operator, whatever its name is bound to. -/
def evalOperator (op : Operator) (operands : List Expr) (env : Environment) : Outcome Value :=
  match evalOperands ev operands env with
  | (.error x, env) => (.error x, env)
  | (.ok args, env) => (op.call args, env)

/-- The closure that a `defun` makes of a name, a list of parameters and a body. -/
def closureOf (name params : Expr) (body : List Expr) : Except EvalError Closure := do
  let some name' := name.symbolName? | .error (.misplaced .functionName name)
  let .list items := params | .error (.misplaced .parameterList params)
  let params ← items.mapM fun item =>
    match item.symbolName? with
    | some param => .ok param
    | none => .error (.misplaced .parameter item)
  return ⟨name', params, body⟩

/-- Binds a name to a closure, and has the name as its value. -/
def evalDefun : List Expr → Environment → Outcome Value
  | name :: params :: e :: es, env =>
    match closureOf name params (e :: es) with
    | .error x => (.error x, env)
    | .ok c => (.ok (.str c.name), env.define c.name (.callable (.closure c)))
  | operands, env => (.error (.arity "defun" (.atLeast 3) operands.length), env)

/-- Has its operand as data. -/
def evalQuote : List Expr → Except EvalError Value
  | [e] => .ok e.toValue
  | operands => .error (.arity "quote" (.exactly 1) operands.length)

variable [Host]

/-- A list that starts with a name: special forms come first, then operators, then what is bound. -/
def evalForm (name : String) (operands : List Expr) (env : Environment) : Outcome Value :=
  match SpecialForm.ofName? name with
  | some .setq => evalSetq ev operands env
  | some .defun => evalDefun operands env
  | some .quote => (evalQuote operands, env)
  | some .cond => evalClauses ev operands env
  | none =>
    match Operator.ofName? name with
    | some op => evalOperator ev op operands env
    | none => evalCall ev name operands env

/-- An expression whose parts are evaluated by `ev`. -/
def evalExpr : Expr → Environment → Outcome Value
  | .integer n, env => (.ok (.integer n), env)
  | .text t, env => (resolve t env, env)
  | .list [], env => (.error .emptyList, env)
  | .list (.text name :: operands), env => evalForm ev name operands env
  | .list (head :: _), env => (.error (.invalidOperator head), env)

end Forms

/-- Evaluates an expression on at most `remaining` levels, of the `limit` that the error tells. -/
def eval [Host] (limit : Nat) : (remaining : Nat) → Expr → Environment → Outcome Value
  | 0, _, env => (.error (.depthExceeded limit), env)
  | remaining + 1, e, env => evalExpr (eval limit remaining) e env

/-- The deepest evaluation unless another limit is set. -/
def defaultEvalDepth : Nat := 10000

/-- An evaluator is known by its limit: nested forms and function calls count together. -/
structure Evaluator where
  maxDepth : Nat := defaultEvalDepth
deriving DecidableEq, Repr

namespace Evaluator

variable [Host]

/-- Evaluates an expression. -/
def evaluate (evaluator : Evaluator) (e : Expr) (env : Environment) : Outcome Value :=
  eval evaluator.maxDepth evaluator.maxDepth e env

/-- Calls a function on values. The call takes a level of its own, on which nothing is tested:
only the body of a closure can find the limit exceeded. -/
def apply (evaluator : Evaluator) (c : Callable) (args : List Value) (caller : Environment) :
    Except EvalError Value :=
  invoke (eval evaluator.maxDepth (evaluator.maxDepth - 1)) c args caller

end Evaluator

end SmallLisp
