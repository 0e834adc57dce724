import SmallLisp.Operator.Extension
import SmallLisp.Proofs.Eval.Adequacy

/-!
# Evaluation below the outermost level

`evalFrom limit depth` counts levels from the outermost one on, up to the limit;
`eval` counts down those that remain. The two are the same (`evalFrom_eq`), and
of an evaluation on as many levels under another limit they differ in the limit
that the error tells (`eval_sameUpTo`). So an expression deep inside of a program
is evaluated, and a function called, as by an evaluator that has the remaining
levels for its limit (`Evaluator.evalFrom_agrees`). An error about a limit might
be one that a function of the host gives; without such functions it is not.
-/

namespace SmallLisp

variable {α β : Type}

/-! ## Counting levels from the outermost one -/

section Levels

variable [Host]

/-- Evaluates an expression `depth` levels below the outermost one, of the `limit` that there
are. -/
def evalFrom (limit depth : Nat) : Expr → Environment → Outcome Value :=
  if limit ≤ depth then fun _ env => (.error (.depthExceeded limit), env)
  else evalExpr (evalFrom limit (depth + 1))
termination_by limit - depth

/-- Calls a function from a form that stands `depth` levels below the outermost one. The body of a
closure is evaluated a level below the form. -/
def invokeFrom (limit depth : Nat) (c : Callable) (args : List Value) (caller : Environment) :
    Except EvalError Value :=
  invoke (evalFrom limit (depth + 1)) c args caller

theorem evalFrom_of_lt {limit depth : Nat} (h : depth < limit) :
    evalFrom limit depth = evalExpr (evalFrom limit (depth + 1)) := by
  rw [evalFrom, if_neg (Nat.not_le.2 h)]

theorem evalFrom_eq (limit depth : Nat) : evalFrom limit depth = eval limit (limit - depth) := by
  fun_induction evalFrom limit depth with
  | case1 depth h =>
    rw [Nat.sub_eq_zero_of_le h]
    rfl
  | case2 depth h ih =>
    have hsub : limit - depth = limit - (depth + 1) + 1 := by omega
    rw [ih, hsub]
    rfl

theorem Evaluator.evaluate_eq_evalFrom (evaluator : Evaluator) :
    evaluator.evaluate = evalFrom evaluator.maxDepth 0 :=
  (evalFrom_eq evaluator.maxDepth 0).symm

theorem Evaluator.apply_eq_invokeFrom (evaluator : Evaluator) :
    evaluator.apply = invokeFrom evaluator.maxDepth 0 := by
  funext c args caller
  rw [invokeFrom, evalFrom_eq]
  rfl

end Levels

/-! ## Results under two limits -/

/-- The results are the same, but each tells its own limit if they say that the levels ran out. -/
inductive Agree (limit limit' : Nat) : Except EvalError α → Except EvalError α → Prop
  | same {r : Except EvalError α} : ¬ Exhausted r → Agree limit limit' r r
  | exhausted :
    Agree limit limit' (.error (.depthExceeded limit)) (.error (.depthExceeded limit'))

/-- The results agree, and the environments are the same. -/
def Outcome.Agree (limit limit' : Nat) (o o' : Outcome α) : Prop :=
  SmallLisp.Agree limit limit' o.1 o'.1 ∧ o.2 = o'.2

section Limits

variable {limit limit' : Nat}

theorem Agree.eq_of_ok {r : Except EvalError α} {v : α} (h : Agree limit limit' r (.ok v)) :
    r = .ok v := by
  cases h with
  | same _ => rfl

theorem Agree.eq_of_exhausted {r r' : Except EvalError α} (h : Agree limit limit' r r')
    (hx : Exhausted r') : r = .error (.depthExceeded limit) := by
  cases h with
  | same hn => exact absurd hx hn
  | exhausted => rfl

/-! ## Two limits side by side -/

/-- The results are the same, or each tells its own limit. -/
def SameUpTo (limit limit' : Nat) (r r' : Except EvalError α) : Prop :=
  r = r' ∨ r = .error (.depthExceeded limit) ∧ r' = .error (.depthExceeded limit')

/-- The same error about a limit, if it is the own one of both, tells that the limits are the
same. -/
theorem Agree.of_sameUpTo {r r' : Except EvalError α} (h : SameUpTo limit limit' r r')
    (hr : ∀ l, r = .error (.depthExceeded l) → l = limit)
    (hr' : ∀ l, r' = .error (.depthExceeded l) → l = limit') : Agree limit limit' r r' := by
  rcases h with rfl | ⟨rfl, rfl⟩
  · by_cases hx : Exhausted r
    · obtain ⟨l, rfl⟩ := hx
      obtain rfl := hr l rfl
      obtain rfl := hr' _ rfl
      exact .exhausted
    · exact .same hx
  · exact .exhausted

/-- The results are the same up to the limits, and so are the environments. -/
def Outcome.SameUpTo (limit limit' : Nat) (o o' : Outcome α) : Prop :=
  SmallLisp.SameUpTo limit limit' o.1 o'.1 ∧ o.2 = o'.2

theorem Outcome.SameUpTo.bind {o o' : Outcome α} {k k' : α → Environment → Outcome β}
    (h : o.SameUpTo limit limit' o')
    (hk : ∀ v env, Outcome.SameUpTo limit limit' (k v env) (k' v env)) :
    Outcome.SameUpTo limit limit' (o.bind k) (o'.bind k') := by
  obtain ⟨r, env⟩ := o
  obtain ⟨r', env'⟩ := o'
  obtain ⟨hr, rfl⟩ : SmallLisp.SameUpTo limit limit' r r' ∧ env = env' := h
  rcases hr with rfl | ⟨rfl, rfl⟩
  · cases r with
    | ok v => exact hk v env
    | error x => exact ⟨.inl rfl, rfl⟩
  · exact ⟨.inr ⟨rfl, rfl⟩, rfl⟩

theorem stepwise_sameUpTo (limit limit' : Nat) :
    Stepwise fun _ => Outcome.SameUpTo limit limit' where
  refl _ := ⟨.inl rfl, rfl⟩
  bind := Outcome.SameUpTo.bind
  drop h _ := ⟨h.1, rfl⟩

/-- On the same number of levels, evaluation is the same under any two limits but for them. -/
theorem eval_sameUpTo [Host] (limit limit' n : Nat) :
    EvalRelated (fun _ => Outcome.SameUpTo limit limit') (eval limit n) (eval limit' n) := by
  induction n with
  | zero => exact fun e env => ⟨.inr ⟨rfl, rfl⟩, rfl⟩
  | succ n ih => exact evalExpr_related (stepwise_sameUpTo limit limit') ih

end Limits

/-! ## The levels that remain -/

namespace Evaluator

section Host

variable [Host]

theorem evalFrom_agree_evaluate (limit depth : Nat) (e : Expr) {env : Environment}
    (henv : env.HostFree) :
    Outcome.Agree limit (limit - depth) (evalFrom limit depth e env)
      ((⟨limit - depth⟩ : Evaluator).evaluate e env) := by
  rw [evalFrom_eq]
  obtain ⟨hr, he⟩ := eval_sameUpTo limit (limit - depth) (limit - depth) e env
  exact ⟨.of_sameUpTo hr (fun l => limit_eq_of_eval henv) fun l => limit_eq_of_eval henv, he⟩

theorem invokeFrom_agree_apply (limit depth : Nat) {c : Callable} {args : List Value}
    {caller : Environment} (hc : (Value.callable c).HostFree) (hargs : ∀ v ∈ args, v.HostFree)
    (hcaller : caller.HostFree) :
    Agree limit (limit - depth) (invokeFrom limit depth c args caller)
      ((⟨limit - depth⟩ : Evaluator).apply c args caller) := by
  have hev := eval_sameUpTo limit (limit - depth) (limit - depth - 1)
  rw [invokeFrom, evalFrom_eq, ← Nat.sub_sub]
  exact .of_sameUpTo (invoke_related (stepwise_sameUpTo _ _) hev c args caller caller).1
    (fun l => limit_eq_of_invoke hcaller hc hargs) fun l => limit_eq_of_invoke hcaller hc hargs

/-- Operands bring no function of the host along. -/
theorem hostFree_of_evalOperands {limit depth : Nat} {operands : List Expr} {args : List Value}
    {env env' : Environment} (henv : env.HostFree)
    (h : evalOperands (evalFrom limit depth) operands env = (.ok args, env')) :
    (∀ v ∈ args, v.HostFree) ∧ env'.HostFree := by
  rw [evalFrom_eq] at h
  have hk := evalOperands_keeps (eval_hostFree limit (limit - depth))
    (fun e (_ : e ∈ operands) => trivial) henv.all
  rw [h] at hk
  exact ⟨hk.value args rfl, .of_all hk.env⟩

/-- An evaluator starts at the outermost level. At any other one, what remains of the limit is all
that matters of it and of the depth: an expression is evaluated, and a function called, as by an
evaluator whose limit is what remains, but that an error about the limit tells the whole limit. So
a form that calls a function gives what the function gives when it is applied to the values of the
operands on its own. This is where no function of the host occurs in what is bound, in the function
called and in its arguments. -/
theorem evalFrom_agrees (limit depth : Nat) :
    ((⟨limit⟩ : Evaluator).evaluate = evalFrom limit 0 ∧
      (⟨limit⟩ : Evaluator).apply = invokeFrom limit 0) ∧
    (∀ e env, env.HostFree → Outcome.Agree limit (limit - depth) (evalFrom limit depth e env)
      ((⟨limit - depth⟩ : Evaluator).evaluate e env)) ∧
    (∀ c args caller, (Value.callable c).HostFree → (∀ v ∈ args, v.HostFree) → caller.HostFree →
      Agree limit (limit - depth) (invokeFrom limit depth c args caller)
        ((⟨limit - depth⟩ : Evaluator).apply c args caller)) ∧
    ∀ name c operands args env env', depth < limit → IsOrdinary name → env.HostFree →
      env.get? name = some (.callable c) →
      evalOperands (evalFrom limit (depth + 1)) operands env = (.ok args, env') →
      ∃ r, evalFrom limit depth (.list (.text name :: operands)) env = (r, env') ∧
        Agree limit (limit - depth) r ((⟨limit - depth⟩ : Evaluator).apply c args env') := by
  refine ⟨⟨evaluate_eq_evalFrom ⟨limit⟩, apply_eq_invokeFrom ⟨limit⟩⟩,
    fun e _ => evalFrom_agree_evaluate limit depth e,
    fun _ _ _ => invokeFrom_agree_apply limit depth, ?_⟩
  intro name c operands args env env' hdepth hname henv hc hargs
  obtain ⟨hfree, henv'⟩ := hostFree_of_evalOperands henv hargs
  refine ⟨invokeFrom limit depth c args env', ?_,
    invokeFrom_agree_apply limit depth (henv name _ hc) hfree henv'⟩
  rw [evalFrom_of_lt hdepth, evalExpr_call _ _ _ hname, evalCall_eq, hc, hargs]
  rfl

end Host

end Evaluator

/-- Two levels below the outermost one, ten levels are enough to count down from two and six are
not, as are eight and four levels for an evaluator. -/
theorem countDown_from_depth :
    let e : Expr := .list [.text "down", .integer 2]
    ((⟨8⟩ : Evaluator).evaluate e countDownEnv = (.ok (.integer 0), countDownEnv) ∧
      evalFrom 10 2 e countDownEnv = (.ok (.integer 0), countDownEnv)) ∧
    (((⟨4⟩ : Evaluator).apply (.closure countDown) [.integer 2] countDownEnv =
        .error (.depthExceeded 4)) ∧
      invokeFrom 6 2 (.closure countDown) [.integer 2] countDownEnv =
        .error (.depthExceeded 6)) ∧
    (2 < 6 ∧ IsOrdinary "down" ∧
      countDownEnv.get? "down" = some (.callable (.closure countDown)) ∧
      evalOperands (evalFrom 6 3) [.integer 2] countDownEnv = (.ok [.integer 2], countDownEnv) ∧
      evalFrom 6 2 e countDownEnv = (.error (.depthExceeded 6), countDownEnv)) := by
  intro e
  have he : (⟨8⟩ : Evaluator).evaluate e countDownEnv = (.ok (.integer 0), countDownEnv) := by
    decide +kernel
  have ha : (⟨4⟩ : Evaluator).apply (.closure countDown) [.integer 2] countDownEnv =
      .error (.depthExceeded 4) := by decide +kernel
  have hname : IsOrdinary "down" := (isOrdinary_iff _).2 (by decide)
  have hc : countDownEnv.get? "down" = some (.callable (.closure countDown)) := by
    rw [countDownEnv, Environment.get?_define]
    exact if_pos rfl
  have hargs : evalOperands (evalFrom 6 3) [.integer 2] countDownEnv =
      (.ok [.integer 2], countDownEnv) := by
    rw [evalFrom_eq]
    rfl
  refine ⟨⟨he, ?_⟩, ⟨ha, ?_⟩, by decide, hname, hc, hargs, ?_⟩
  · obtain ⟨hr, henv⟩ := (Evaluator.evalFrom_agrees 10 2).2.1 e countDownEnv hostFree_countDownEnv
    rw [show (⟨10 - 2⟩ : Evaluator).evaluate e countDownEnv = _ from he] at hr henv
    exact Prod.ext hr.eq_of_ok henv
  · have hnone : ∀ v ∈ [Value.integer 2], v.HostFree := by decide
    exact ((Evaluator.evalFrom_agrees 6 2).2.2.1 _ _ _ (Value.hostFree_closure countDown) hnone
      hostFree_countDownEnv).eq_of_exhausted ⟨4, ha⟩
  · obtain ⟨r, hr, hagree⟩ := (Evaluator.evalFrom_agrees 6 2).2.2.2 "down" _ _ _ _ _ (by decide)
      hname hostFree_countDownEnv hc hargs
    rw [hr, hagree.eq_of_exhausted ⟨4, ha⟩]

end SmallLisp
