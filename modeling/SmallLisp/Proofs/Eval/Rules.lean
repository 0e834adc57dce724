import SmallLisp.Eval.Basic
import SmallLisp.Proofs.Value.Truth

/-!
# The rules of evaluation

`Evaluates e env o`: the expression `e` has in the environment `env` the outcome
`o`, by rules that know no limit. With it come operands and sequences from left
to right (`EvaluateOperands`, `EvaluateSequence`), the clauses of a `cond`
(`EvaluateClauses`) and calls (`Calls`). An error ends evaluation with the
bindings made so far, and an expression for which evaluation does not end has
no outcome. What a function of the host gives, be it a value or an error, is the
result of its call.
-/

namespace SmallLisp

/-- A name that is neither that of a special form nor that of an operator. -/
def IsOrdinary (name : String) : Prop :=
  (∀ form : SpecialForm, name ≠ form.name) ∧ ∀ op : Operator, name ≠ op.name

variable [Host]

mutual

/-- The outcome of an expression. -/
inductive Evaluates : Expr → Environment → Outcome Value → Prop
  | integer {n : Int64} {env : Environment} :
    Evaluates (.integer n) env (.ok (.integer n), env)
  /-- A text atom is a string if it is written as one. -/
  | string {t s : String} {env : Environment} :
    Literal.string? t = some s → Evaluates (.text t) env (.ok (.str s), env)
  /-- Other atoms are names first. -/
  | bound {t : String} {v : Value} {env : Environment} :
    Literal.string? t = none → env.get? t = some v → Evaluates (.text t) env (.ok v, env)
  /-- What is not bound is a number if it is written as one. -/
  | number {t : String} {v : Value} {env : Environment} :
    Literal.string? t = none → env.get? t = none → Literal.number? t = some v →
    Evaluates (.text t) env (.ok v, env)
  | unbound {t : String} {env : Environment} :
    Literal.string? t = none → env.get? t = none → Literal.number? t = none →
    Evaluates (.text t) env (.error (.undefinedSymbol t), env)
  | emptyList {env : Environment} : Evaluates (.list []) env (.error .emptyList, env)
  | invalidOperator {head : Expr} {operands : List Expr} {env : Environment} :
    head.text? = none →
    Evaluates (.list (head :: operands)) env (.error (.invalidOperator head), env)
  /-- The value is bound in the environment that its expression has left. -/
  | setq {target e : Expr} {name : String} {v : Value} {env env' : Environment} :
    target.symbolName? = some name → Evaluates e env (.ok v, env') →
    Evaluates (.list [.text "setq", target, e]) env (.ok v, env'.define name v)
  | setqFails {target e : Expr} {name : String} {x : EvalError} {env env' : Environment} :
    target.symbolName? = some name → Evaluates e env (.error x, env') →
    Evaluates (.list [.text "setq", target, e]) env (.error x, env')
  /-- The target is looked at before the value is evaluated. -/
  | setqTarget {target e : Expr} {env : Environment} :
    target.symbolName? = none →
    Evaluates (.list [.text "setq", target, e]) env (.error (.misplaced .target target), env)
  | setqArity {operands : List Expr} {env : Environment} :
    operands.length ≠ 2 →
    Evaluates (.list (.text "setq" :: operands)) env
      (.error (.arity "setq" (.exactly 2) operands.length), env)
  | defun {name e : Expr} {items es : List Expr} {f : String} {ps : List String}
      {env : Environment} :
    name.symbolName? = some f → items.map Expr.symbolName? = ps.map some →
    Evaluates (.list (.text "defun" :: name :: .list items :: e :: es)) env
      (.ok (.str f), env.define f (.callable (.closure ⟨f, ps, e :: es⟩)))
  | defunName {name params e : Expr} {es : List Expr} {env : Environment} :
    name.symbolName? = none →
    Evaluates (.list (.text "defun" :: name :: params :: e :: es)) env
      (.error (.misplaced .functionName name), env)
  | defunParameters {name params e : Expr} {es : List Expr} {f : String} {env : Environment} :
    name.symbolName? = some f → (∀ items, params ≠ .list items) →
    Evaluates (.list (.text "defun" :: name :: params :: e :: es)) env
      (.error (.misplaced .parameterList params), env)
  /-- The first parameter that is not a name is at fault. -/
  | defunParameter {name bad e : Expr} {before after es : List Expr} {f : String}
      {env : Environment} :
    name.symbolName? = some f → (∀ item ∈ before, item.symbolName? ≠ none) →
    bad.symbolName? = none →
    Evaluates (.list (.text "defun" :: name :: .list (before ++ bad :: after) :: e :: es)) env
      (.error (.misplaced .parameter bad), env)
  | defunArity {operands : List Expr} {env : Environment} :
    operands.length < 3 →
    Evaluates (.list (.text "defun" :: operands)) env
      (.error (.arity "defun" (.atLeast 3) operands.length), env)
  | quote {e : Expr} {env : Environment} :
    Evaluates (.list [.text "quote", e]) env (.ok e.toValue, env)
  | quoteArity {operands : List Expr} {env : Environment} :
    operands.length ≠ 1 →
    Evaluates (.list (.text "quote" :: operands)) env
      (.error (.arity "quote" (.exactly 1) operands.length), env)
  | cond {clauses : List Expr} {env : Environment} {o : Outcome Value} :
    EvaluateClauses clauses env o → Evaluates (.list (.text "cond" :: clauses)) env o
  /-- An operator is applied whatever its name is bound to. -/
  | operator {op : Operator} {operands : List Expr} {args : List Value} {env env' : Environment} :
    EvaluateOperands operands env (.ok args, env') →
    Evaluates (.list (.text op.name :: operands)) env (op.call args, env')
  | operatorFails {op : Operator} {operands : List Expr} {x : EvalError} {env env' : Environment} :
    EvaluateOperands operands env (.error x, env') →
    Evaluates (.list (.text op.name :: operands)) env (.error x, env')
  /-- The function is the one bound before the operands are evaluated. It is called in the
  environment that they have left, which is left as it is. -/
  | call {name : String} {c : Callable} {operands : List Expr} {args : List Value}
      {env env' : Environment} {r : Except EvalError Value} :
    IsOrdinary name → env.get? name = some (.callable c) →
    EvaluateOperands operands env (.ok args, env') → Calls c args env' r →
    Evaluates (.list (.text name :: operands)) env (r, env')
  | callFails {name : String} {c : Callable} {operands : List Expr} {x : EvalError}
      {env env' : Environment} :
    IsOrdinary name → env.get? name = some (.callable c) →
    EvaluateOperands operands env (.error x, env') →
    Evaluates (.list (.text name :: operands)) env (.error x, env')
  | notCallable {name : String} {v : Value} {operands : List Expr} {env : Environment} :
    IsOrdinary name → env.get? name = some v → v.callable? = none →
    Evaluates (.list (.text name :: operands)) env (.error (.notCallable name), env)
  | undefinedFunction {name : String} {operands : List Expr} {env : Environment} :
    IsOrdinary name → env.get? name = none →
    Evaluates (.list (.text name :: operands)) env (.error (.undefinedFunction name), env)

/-- The outcome of operands, from left to right. -/
inductive EvaluateOperands : List Expr → Environment → Outcome (List Value) → Prop
  | nil {env : Environment} : EvaluateOperands [] env (.ok [], env)
  | cons {e : Expr} {es : List Expr} {v : Value} {vs : List Value}
      {env env' env'' : Environment} :
    Evaluates e env (.ok v, env') → EvaluateOperands es env' (.ok vs, env'') →
    EvaluateOperands (e :: es) env (.ok (v :: vs), env'')
  | here {e : Expr} {es : List Expr} {x : EvalError} {env env' : Environment} :
    Evaluates e env (.error x, env') → EvaluateOperands (e :: es) env (.error x, env')
  | later {e : Expr} {es : List Expr} {v : Value} {x : EvalError} {env env' env'' : Environment} :
    Evaluates e env (.ok v, env') → EvaluateOperands es env' (.error x, env'') →
    EvaluateOperands (e :: es) env (.error x, env'')

/-- The outcome of expressions in order, the value of the last one or else the value given. -/
inductive EvaluateSequence : Value → List Expr → Environment → Outcome Value → Prop
  | nil {last : Value} {env : Environment} : EvaluateSequence last [] env (.ok last, env)
  | cons {last v : Value} {e : Expr} {es : List Expr} {env env' : Environment}
      {o : Outcome Value} :
    Evaluates e env (.ok v, env') → EvaluateSequence v es env' o →
    EvaluateSequence last (e :: es) env o
  | here {last : Value} {e : Expr} {es : List Expr} {x : EvalError} {env env' : Environment} :
    Evaluates e env (.error x, env') → EvaluateSequence last (e :: es) env (.error x, env')

/-- The outcome of the clauses of a `cond`. -/
inductive EvaluateClauses : List Expr → Environment → Outcome Value → Prop
  | nil {env : Environment} : EvaluateClauses [] env (.ok .nil, env)
  | empty {clauses : List Expr} {env : Environment} {o : Outcome Value} :
    EvaluateClauses clauses env o → EvaluateClauses (.list [] :: clauses) env o
  /-- The test `t` is not evaluated. -/
  | otherwise {body clauses : List Expr} {env : Environment} {o : Outcome Value} :
    EvaluateSequence .nil body env o →
    EvaluateClauses (.list (.text "t" :: body) :: clauses) env o
  | taken {test : Expr} {body clauses : List Expr} {v : Value} {env env' : Environment}
      {o : Outcome Value} :
    test ≠ .text "t" → Evaluates test env (.ok v, env') → v.CountsTrue →
    EvaluateSequence .nil body env' o → EvaluateClauses (.list (test :: body) :: clauses) env o
  | passed {test : Expr} {body clauses : List Expr} {v : Value} {env env' : Environment}
      {o : Outcome Value} :
    test ≠ .text "t" → Evaluates test env (.ok v, env') → ¬ v.CountsTrue →
    EvaluateClauses clauses env' o → EvaluateClauses (.list (test :: body) :: clauses) env o
  | testFails {test : Expr} {body clauses : List Expr} {x : EvalError} {env env' : Environment} :
    test ≠ .text "t" → Evaluates test env (.error x, env') →
    EvaluateClauses (.list (test :: body) :: clauses) env (.error x, env')
  | notList {clause : Expr} {clauses : List Expr} {env : Environment} :
    (∀ items, clause ≠ .list items) →
    EvaluateClauses (clause :: clauses) env (.error (.misplaced .clause clause), env)

/-- The result of a call. -/
inductive Calls : Callable → List Value → Environment → Except EvalError Value → Prop
  | builtin {b : Builtin} {args : List Value} {caller : Environment} :
    Calls (.builtin b) args caller (b.call args)
  /-- A body runs with the bindings of its caller and its parameters, and what it binds is gone
  afterwards. -/
  | closure {c : Closure} {args : List Value} {caller env : Environment}
      {r : Except EvalError Value} :
    c.params.length = args.length →
    EvaluateSequence .nil c.body (caller.defineAll (c.params.zip args)) (r, env) →
    Calls (.closure c) args caller r
  | closureArity {c : Closure} {args : List Value} {caller : Environment} :
    c.params.length ≠ args.length →
    Calls (.closure c) args caller (.error (.arity c.name (.exactly c.params.length) args.length))

end

end SmallLisp
