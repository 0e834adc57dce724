import SmallLisp.Proofs.Eval.Adequacy

/-!
# How many levels an evaluation takes

`Takes need a env run`: a run that leaves the environment as it is comes to its
value on all numbers of levels from `need` on, and fails for want of levels on
any smaller one. In a sequence of steps the step that needs the most counts
(`Takes.bind`), and a form takes a level more than its parts
(`Expr.takes_of_level`), which gives a rule for each form (`Expr.takes_integer`
to `Expr.takes_call`).
-/

namespace SmallLisp

variable {α β : Type}

/-- The run, under any limit, has the value on `need` levels or more, and fewer are not enough. It
leaves the environment as it was. -/
def Takes (need : Nat) (a : α) (env : Environment) (run : Nat → Nat → Outcome α) : Prop :=
  ∀ limit levels,
    run limit levels = (if need ≤ levels then .ok a else .error (.depthExceeded limit), env)

namespace Takes

variable {need need' : Nat} {a : α} {b : β} {env : Environment} {run : Nat → Nat → Outcome α}

theorem value (a : α) (env : Environment) : Takes 0 a env fun _ _ => (.ok a, env) :=
  fun _ _ => rfl

theorem of_eq (h : Takes need a env run) (e : need = need') : Takes need' a env run := e ▸ h

theorem bind {k : Nat → Nat → α → Environment → Outcome β} (h : Takes need a env run)
    (hk : Takes need' b env fun limit levels => k limit levels a env) :
    Takes (max need need') b env fun limit levels => (run limit levels).bind (k limit levels) := by
  intro limit levels
  simp only [h limit levels, Nat.max_le]
  by_cases hl : need ≤ levels
  · simp only [hl, if_true, true_and]
    exact hk limit levels
  · simp only [hl, if_false, false_and]
    rfl

theorem map (h : Takes need a env run) (f : α → β) :
    Takes need (f a) env fun limit levels =>
      (run limit levels).bind fun a env => (.ok (f a), env) :=
  (h.bind (value (f a) env)).of_eq (Nat.max_zero need)

end Takes

/-! ## Parts of forms -/

variable [Host]

/-- The evaluation of the expression takes that many levels to the value. -/
def Expr.Takes (e : Expr) (need : Nat) (v : Value) (env : Environment) : Prop :=
  SmallLisp.Takes need v env fun limit levels => eval limit levels e env

/-- So do the operands to their values. -/
def TakeOperands (es : List Expr) (need : Nat) (vs : List Value) (env : Environment) : Prop :=
  Takes need vs env fun limit levels => evalOperands (eval limit levels) es env

/-- So do the expressions, in order, to the value of the last one. -/
def TakeSequence (es : List Expr) (need : Nat) (v : Value) (env : Environment) : Prop :=
  Takes need v env fun limit levels => evalSequence (eval limit levels) .nil es env

/-- So do the clauses. -/
def TakeClauses (clauses : List Expr) (need : Nat) (v : Value) (env : Environment) : Prop :=
  Takes need v env fun limit levels => evalClauses (eval limit levels) clauses env

variable {need need' : Nat} {v w : Value} {vs : List Value} {env : Environment} {e : Expr}
  {es : List Expr}

theorem takeOperands_nil (env : Environment) : TakeOperands [] 0 [] env := .value [] env

theorem takeOperands_cons (h : e.Takes need v env) (hs : TakeOperands es need' vs env) :
    TakeOperands (e :: es) (max need need') (v :: vs) env := by
  unfold TakeOperands
  simp only [evalOperands_cons]
  exact h.bind (hs.map (v :: ·))

theorem takeSequence_singleton (h : e.Takes need v env) : TakeSequence [e] need v env := by
  unfold TakeSequence
  simp only [evalSequence_cons]
  exact h.map fun v => v

/-- The test `t` is not evaluated. -/
theorem takeClauses_otherwise {body clauses : List Expr} (h : TakeSequence body need v env) :
    TakeClauses (.list (.text "t" :: body) :: clauses) need v env := by
  unfold TakeClauses
  simp only [evalClauses_cons]
  exact h

section Clauses

variable {test : Expr} {body clauses : List Expr} (ht : test ≠ .text "t")
  (h : test.Takes need v env)

include ht h

theorem takeClauses_taken (hv : v.CountsTrue) (hb : TakeSequence body need' w env) :
    TakeClauses (.list (test :: body) :: clauses) (max need need') w env := by
  unfold TakeClauses
  simp only [evalClauses_cons, if_neg (text?_ne_of_ne ht)]
  refine h.bind ?_
  simp only [if_pos (Value.isTruthy_iff.2 hv)]
  exact hb

theorem takeClauses_passed (hv : ¬ v.CountsTrue) (hs : TakeClauses clauses need' w env) :
    TakeClauses (.list (test :: body) :: clauses) (max need need') w env := by
  unfold TakeClauses
  simp only [evalClauses_cons, if_neg (text?_ne_of_ne ht)]
  refine h.bind ?_
  simp only [Value.isTruthy_eq_false_iff.2 hv, Bool.false_eq_true, if_false]
  exact hs

end Clauses

/-! ## Forms -/

namespace Expr

/-- An expression takes a level more than its parts. -/
theorem takes_of_level
    (h : SmallLisp.Takes need v env fun limit levels => evalExpr (eval limit levels) e env) :
    e.Takes (need + 1) v env := by
  intro limit levels
  cases levels with
  | zero => rfl
  | succ levels =>
    simp only [Nat.add_le_add_iff_right]
    exact h limit levels

theorem takes_integer (n : Int64) (env : Environment) : (integer n).Takes 1 (.integer n) env :=
  takes_of_level (.value _ env)

theorem takes_quote (e : Expr) (env : Environment) :
    (list [text "quote", e]).Takes 1 e.toValue env :=
  takes_of_level (.value _ env)

theorem takes_bound {t : String} (hs : Literal.string? t = none) (h : env.get? t = some v) :
    (text t).Takes 1 v env := by
  have hr : resolve t env = .ok v := by
    unfold resolve
    rw [hs, h]
  refine takes_of_level ?_
  simp only [evalExpr, hr]
  exact .value v env

theorem takes_cond {clauses : List Expr} (h : TakeClauses clauses need v env) :
    (list (text "cond" :: clauses)).Takes (need + 1) v env :=
  takes_of_level h

theorem takes_operator (op : Operator) (h : TakeOperands es need vs env)
    (hv : op.call vs = .ok v) : (list (text op.name :: es)).Takes (need + 1) v env := by
  refine takes_of_level ?_
  have hcall : SmallLisp.Takes 0 v env fun _ _ => (op.call vs, env) := by
    rw [hv]
    exact .value v env
  simp only [evalExpr_operator, evalOperator_eq]
  exact (h.bind hcall).of_eq (Nat.max_zero need)

/-- The body of a closure runs on as many levels as the operands. -/
theorem takes_call {name : String} {c : Closure} (hn : IsOrdinary name)
    (hc : env.get? name = some (.callable (.closure c))) (h : TakeOperands es need vs env)
    (hl : c.params.length = vs.length)
    (hb : TakeSequence c.body need' v (env.defineAll (c.params.zip vs))) :
    (list (text name :: es)).Takes (max need need' + 1) v env := by
  refine takes_of_level ?_
  simp only [evalExpr_call _ _ _ hn, evalCall_eq, hc]
  refine h.bind fun limit levels => ?_
  simp only [invoke, if_pos hl, hb limit levels]

end Expr

/-- The limit of an evaluator is the number of its levels. -/
theorem Expr.Takes.evaluate (h : e.Takes need v env) (evaluator : Evaluator) :
    evaluator.evaluate e env =
      (if need ≤ evaluator.maxDepth then .ok v else .error (.depthExceeded evaluator.maxDepth),
        env) :=
  h _ _

end SmallLisp
