import SmallLisp.Operator.Extension
import SmallLisp.Proofs.Eval.Adequacy

/-!
# Ways to call an operator

An operator refuses by itself the numbers of arguments that it does not take
(`Operator.apply_of_not_accepts`), so the check before a call changes nothing
(`Operator.call_eq_apply`).

`calls_agree`: so an operator gives the same whether it is applied by itself,
behind the check, or as the builtin that an environment binds; and a form gives
the same under its name as under any other name of that builtin.
-/

namespace SmallLisp

namespace Operator

variable (op : Operator) {args : List Value}

/-! ## Numbers of arguments -/

theorem arithmetic_nil (f : Binary64 → List Binary64 → Except EvalError Binary64) :
    op.arithmetic f [] = .error (.arity op.name (.atLeast 1) 0) := rfl

theorem comparison_of_length_ne (holds : Binary64 → Binary64 → Bool) (h : args.length ≠ 2) :
    op.comparison holds args = .error (.arity op.name (.exactly 2) args.length) := by
  unfold comparison
  split
  · exact absurd rfl h
  · rfl

theorem predicate_of_length_ne (holds : Value → Bool) (h : args.length ≠ 1) :
    op.predicate holds args = .error (.arity op.name (.exactly 1) args.length) := by
  unfold predicate
  split
  · exact absurd rfl h
  · rfl

theorem apply_equal_of_length_ne (h : args.length ≠ 2) :
    equal.apply args = .error (.arity equal.name (.exactly 2) args.length) := by
  simp only [apply]
  split
  · exact absurd rfl h
  · rfl

/-- On a number of arguments that it does not take, an operator fails with the error of the
check. -/
theorem apply_of_not_accepts (h : op.arity.accepts args.length = false) :
    op.apply args = .error (.arity op.name op.arity args.length) := by
  cases op with
  | add | sub | mul | div =>
    obtain rfl : args = [] := by
      have hlt := of_decide_eq_false h
      exact List.eq_nil_of_length_eq_zero (by omega)
    exact arithmetic_nil _ _
  | numEq | numLt | numGt => exact comparison_of_length_ne _ _ (beq_eq_false_iff_ne.1 h)
  | equal => exact apply_equal_of_length_ne (beq_eq_false_iff_ne.1 h)
  | atom | list => exact predicate_of_length_ne _ _ (beq_eq_false_iff_ne.1 h)

theorem call_eq_apply (args : List Value) : op.call args = op.apply args := by
  rw [call, Arity.check]
  cases h : op.arity.accepts args.length with
  | true => rfl
  | false => exact (op.apply_of_not_accepts h).symm

/-! ## Operators as values -/

theorem builtin_call_eq_apply [Host] (args : List Value) : op.builtin.call args = op.apply args :=
  op.call_eq_apply args

theorem get?_initial :
    Environment.initial.get? op.name = some (.callable (.builtin op.builtin)) := by
  cases op <;> decide +kernel

/-- A form whose name is bound to an operator is one of that operator. The name is looked up before
the operands are evaluated, so what they bind it to does not matter. -/
theorem evalCall_of_get? [Host] (ev : Expr → Environment → Outcome Value) {name : String}
    {env : Environment} (h : env.get? name = some (.callable (.builtin op.builtin)))
    (operands : List Expr) : evalCall ev name operands env = evalOperator ev op operands env := by
  rw [evalCall_eq, evalOperator_eq, h]
  rfl

end Operator

/-- An operator gives the same value or error by itself, behind the check of its arity and as the
builtin of its name, which every program finds bound. In an environment where another name that is
neither that of a special form nor of an operator is bound to this builtin, forms of both names give
the same and leave the same environment, even if an operand binds that name anew. -/
theorem calls_agree [Host] (op : Operator) :
    Environment.initial.get? op.name = some (.callable (.builtin op.builtin)) ∧
    (∀ args, op.call args = op.apply args ∧ ∀ (evaluator : Evaluator) (caller : Environment),
      evaluator.apply (.builtin op.builtin) args caller = op.apply args) ∧
    ∀ (evaluator : Evaluator) (name : String) (env : Environment), IsOrdinary name →
      env.get? name = some (.callable (.builtin op.builtin)) → ∀ operands,
        evaluator.evaluate (.list (.text name :: operands)) env =
          evaluator.evaluate (.list (.text op.name :: operands)) env := by
  refine ⟨op.get?_initial, fun args => ⟨op.call_eq_apply args, fun _ _ => ?_⟩, ?_⟩
  · exact op.builtin_call_eq_apply args
  · intro evaluator name env hname hget operands
    unfold Evaluator.evaluate
    cases evaluator.maxDepth with
    | zero => rfl
    | succ depth =>
      rw [eval, eval, evalExpr_call _ _ _ hname, evalExpr_operator, op.evalCall_of_get? _ hget]

/-- The name of the form is bound anew by its first operand, and the form still subtracts. -/
theorem calls_agree_rebound :
    let env := Environment.initial.define "minus" (.callable (.builtin Operator.sub.builtin))
    let operands : List Expr := [.list [.text "setq", .text "minus", .integer 5], .integer 2]
    IsOrdinary "minus" ∧
      env.get? "minus" = some (.callable (.builtin Operator.sub.builtin)) ∧
      Evaluator.evaluate ⟨3⟩ (.list (.text "minus" :: operands)) env =
        (.ok (.integer 3), env.define "minus" (.integer 5)) ∧
      Evaluator.evaluate ⟨3⟩ (.list (.text "minus" :: operands)) env =
        Evaluator.evaluate ⟨3⟩ (.list (.text "-" :: operands)) env := by
  intro env operands
  have hname : IsOrdinary "minus" := (isOrdinary_iff _).2 (by decide)
  have hget : env.get? "minus" = some (.callable (.builtin Operator.sub.builtin)) := by
    decide +kernel
  exact ⟨hname, hget, by decide +kernel, (calls_agree .sub).2.2 ⟨3⟩ "minus" env hname hget operands⟩

end SmallLisp
