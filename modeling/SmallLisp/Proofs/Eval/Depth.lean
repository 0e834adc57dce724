import Mathlib.Data.List.Basic
import SmallLisp.Operator.Extension
import SmallLisp.Proofs.Eval.HostFree

/-!
# The depth limit

Evaluation on few levels and on more levels go in step until the first one runs
out of levels (`Outcome.InStep`): a result that is not the error about the
limit does not depend on the limit. Nothing but the levels of a form's parts
tells the two apart, so a relation that steps keep (`Stepwise`) goes through a
level (`evalExpr_related`), and through all of them by induction
(`eval_inStep`). This is so whatever the host program is; that an error about a
limit tells the limit of the evaluator is so without functions of the host.
-/

namespace SmallLisp

variable {α β : Type}

/-! ## Two evaluations side by side -/

/-- A relation of outcomes that is kept from step to step, and that every outcome has to itself. -/
structure Stepwise (rel : (α : Type) → Outcome α → Outcome α → Prop) : Prop where
  refl : ∀ {α : Type} (o : Outcome α), rel α o o
  bind : ∀ {α β : Type} {o o' : Outcome α} {k k' : α → Environment → Outcome β}, rel α o o' →
    (∀ v env, rel β (k v env) (k' v env)) → rel β (o.bind k) (o'.bind k')
  /-- The environment that the body of a function leaves is dropped. -/
  drop : ∀ {α : Type} {o o' : Outcome α}, rel α o o' → ∀ env, rel α (o.1, env) (o'.1, env)

section Forms

variable {rel : (α : Type) → Outcome α → Outcome α → Prop}
  {ev ev' : Expr → Environment → Outcome Value}

/-- Two ways to evaluate the parts of a form that are related. -/
def EvalRelated (rel : (α : Type) → Outcome α → Outcome α → Prop)
    (ev ev' : Expr → Environment → Outcome Value) : Prop :=
  ∀ e env, rel Value (ev e env) (ev' e env)

variable (hrel : Stepwise rel) (h : EvalRelated rel ev ev')

include hrel h

theorem evalOperands_related (es : List Expr) (env : Environment) :
    rel _ (evalOperands ev es env) (evalOperands ev' es env) := by
  induction es generalizing env with
  | nil => exact hrel.refl _
  | cons e es ih =>
    rw [evalOperands_cons, evalOperands_cons]
    exact hrel.bind (h e env) fun v env => hrel.bind (ih env) fun vs env => hrel.refl _

theorem evalSequence_related (last : Value) (es : List Expr) (env : Environment) :
    rel _ (evalSequence ev last es env) (evalSequence ev' last es env) := by
  induction es generalizing last env with
  | nil => exact hrel.refl _
  | cons e es ih =>
    rw [evalSequence_cons, evalSequence_cons]
    exact hrel.bind (h e env) fun v env => ih v env

theorem evalClauses_related (clauses : List Expr) (env : Environment) :
    rel _ (evalClauses ev clauses env) (evalClauses ev' clauses env) := by
  induction clauses generalizing env with
  | nil => exact hrel.refl _
  | cons clause clauses ih =>
    cases clause with
    | integer n => exact hrel.refl _
    | text t => exact hrel.refl _
    | list items =>
      cases items with
      | nil => exact ih env
      | cons test body =>
        rw [evalClauses_cons, evalClauses_cons]
        split
        · exact evalSequence_related hrel h .nil body env
        · refine hrel.bind (h test env) fun v env => ?_
          split
          · exact evalSequence_related hrel h .nil body env
          · exact ih env

theorem evalSetq_related (operands : List Expr) (env : Environment) :
    rel _ (evalSetq ev operands env) (evalSetq ev' operands env) := by
  by_cases hl : operands.length = 2
  · obtain ⟨target, e, rfl⟩ := List.length_eq_two.1 hl
    rw [evalSetq_pair, evalSetq_pair]
    split
    · exact hrel.refl _
    · exact hrel.bind (h e env) fun v env => hrel.refl _
  · rw [evalSetq_of_length_ne ev hl, evalSetq_of_length_ne ev' hl]
    exact hrel.refl _

theorem evalOperator_related (op : Operator) (operands : List Expr) (env : Environment) :
    rel _ (evalOperator ev op operands env) (evalOperator ev' op operands env) := by
  rw [evalOperator_eq, evalOperator_eq]
  exact hrel.bind (evalOperands_related hrel h operands env) fun args env =>
    hrel.refl _

variable [Host]

theorem invoke_related (c : Callable) (args : List Value) (caller env : Environment) :
    rel _ (invoke ev c args caller, env) (invoke ev' c args caller, env) := by
  cases c with
  | builtin b => exact hrel.refl _
  | closure c =>
    simp only [invoke]
    split
    · exact hrel.drop (evalSequence_related hrel h .nil c.body _) env
    · exact hrel.refl _

theorem evalCall_related (name : String) (operands : List Expr) (env : Environment) :
    rel _ (evalCall ev name operands env) (evalCall ev' name operands env) := by
  rw [evalCall_eq, evalCall_eq]
  split
  · exact hrel.refl _
  · exact hrel.bind (evalOperands_related hrel h operands env) fun args env =>
      invoke_related hrel h _ args env env
  · exact hrel.refl _

theorem evalForm_related (name : String) (operands : List Expr) (env : Environment) :
    rel _ (evalForm ev name operands env) (evalForm ev' name operands env) := by
  unfold evalForm
  split
  · exact evalSetq_related hrel h operands env
  · exact hrel.refl _
  · exact hrel.refl _
  · exact evalClauses_related hrel h operands env
  · split
    · exact evalOperator_related hrel h _ operands env
    · exact evalCall_related hrel h name operands env

/-- Levels whose parts are related are related. -/
theorem evalExpr_related : EvalRelated rel (evalExpr ev) (evalExpr ev') := by
  intro e env
  unfold evalExpr
  split
  · exact hrel.refl _
  · exact hrel.refl _
  · exact hrel.refl _
  · exact evalForm_related hrel h _ _ env
  · exact hrel.refl _

end Forms

/-! ## Two evaluations in step -/

/-- The first outcome says that its levels ran out, or the second outcome is the same. -/
def Outcome.InStep (limit : Nat) (o o' : Outcome α) : Prop :=
  o.1 = .error (.depthExceeded limit) ∨ o' = o

theorem Outcome.InStep.bind {limit : Nat} {o o' : Outcome α}
    {k k' : α → Environment → Outcome β} (h : InStep limit o o')
    (hk : ∀ v env, InStep limit (k v env) (k' v env)) : InStep limit (o.bind k) (o'.bind k') := by
  obtain ⟨x | v, env⟩ := o
  · rcases h with h | rfl
    · exact .inl (congrArg _ (Except.error.inj h))
    · exact .inr rfl
  · rcases h with h | rfl
    · cases h
    · exact hk v env

theorem stepwise_inStep (limit : Nat) : Stepwise fun _ => Outcome.InStep limit where
  refl _ := .inr rfl
  bind := Outcome.InStep.bind
  drop h env := h.imp_right fun e => by rw [e]

theorem Outcome.InStep.eq_of_not_exhausted {limit : Nat} {o o' : Outcome α} (h : InStep limit o o')
    (hn : ¬ Exhausted o.1) : o' = o :=
  h.resolve_left fun hx => hn ⟨limit, hx⟩

section Host

variable [Host]

/-- Evaluation goes in step with evaluation on as many levels or more, whatever limit the error
tells there. -/
theorem eval_inStep {limit limit' n n' : Nat} (h : n ≤ n') :
    EvalRelated (fun _ => Outcome.InStep limit) (eval limit n) (eval limit' n') := by
  induction n generalizing n' with
  | zero => exact fun e env => .inl rfl
  | succ n ih =>
    obtain ⟨m, rfl⟩ := Nat.exists_eq_add_of_le' h
    exact evalExpr_related (stepwise_inStep limit) (ih (Nat.le_add_left n m))

/-! ## The limit of an evaluator -/

namespace Evaluator

variable {evaluator evaluator' : Evaluator}

theorem evaluate_inStep (h : evaluator.maxDepth ≤ evaluator'.maxDepth) (e : Expr)
    (env : Environment) :
    Outcome.InStep evaluator.maxDepth (evaluator.evaluate e env) (evaluator'.evaluate e env) :=
  eval_inStep h e env

theorem apply_inStep (h : evaluator.maxDepth ≤ evaluator'.maxDepth) (c : Callable)
    (args : List Value) (caller : Environment) :
    Outcome.InStep evaluator.maxDepth (evaluator.apply c args caller, caller)
      (evaluator'.apply c args caller, caller) :=
  invoke_related (stepwise_inStep _) (eval_inStep (Nat.sub_le_sub_right h 1)) c args caller caller

/-- Under a higher limit an expression and a call keep every result that is not an error about a
limit, and an expression leaves the same bindings. Where no function of the host occurs, such an
error tells the limit of the evaluator. -/
theorem result_stable_above_limit (h : evaluator.maxDepth ≤ evaluator'.maxDepth) :
    (∀ e env,
      (¬ Exhausted (evaluator.evaluate e env).1 →
        evaluator'.evaluate e env = evaluator.evaluate e env) ∧
      (env.HostFree → ∀ limit, (evaluator.evaluate e env).1 = .error (.depthExceeded limit) →
        limit = evaluator.maxDepth)) ∧
    ∀ c args caller,
      (¬ Exhausted (evaluator.apply c args caller) →
        evaluator'.apply c args caller = evaluator.apply c args caller) ∧
      ((Value.callable c).HostFree → (∀ v ∈ args, v.HostFree) → caller.HostFree →
        ∀ limit, evaluator.apply c args caller = .error (.depthExceeded limit) →
          limit = evaluator.maxDepth) := by
  refine ⟨fun e env => ⟨?_, fun henv limit hx => limit_eq_of_eval henv hx⟩,
    fun c args caller => ⟨fun hn => ?_, fun hc hargs henv limit hx => ?_⟩⟩
  · exact (evaluate_inStep h e env).eq_of_not_exhausted
  · exact congrArg Prod.fst ((apply_inStep h c args caller).eq_of_not_exhausted hn)
  · exact limit_eq_of_invoke henv hc hargs hx

end Evaluator

end Host

/-- A function that calls itself with one less until its argument is zero. -/
def countDown : Closure :=
  ⟨"down", ["x"], [.list [.text "cond",
    .list [.list [.text "=", .text "x", .integer 0], .text "x"],
    .list [.text "t", .list [.text "down", .list [.text "-", .text "x", .integer 1]]]]]⟩

/-- The operators and `countDown`. -/
def countDownEnv : Environment :=
  Environment.initial.define countDown.name (.callable (.closure countDown))

theorem hostFree_countDownEnv : countDownEnv.HostFree :=
  .define .initial countDown.name (Value.hostFree_closure countDown)

/-- Eight levels are enough to count down from two, so twenty give the same; on four the error
tells four. -/
theorem countDown_result_stable :
    let e : Expr := .list [.text "down", .integer 2]
    ((⟨8⟩ : Evaluator).maxDepth ≤ (⟨20⟩ : Evaluator).maxDepth ∧
      (⟨8⟩ : Evaluator).evaluate e countDownEnv = (.ok (.integer 0), countDownEnv) ∧
      (⟨20⟩ : Evaluator).evaluate e countDownEnv = (.ok (.integer 0), countDownEnv)) ∧
    (⟨20⟩ : Evaluator).apply (.closure countDown) [.integer 2] countDownEnv = .ok (.integer 0) ∧
    ∀ limit, ((⟨4⟩ : Evaluator).evaluate e countDownEnv).1 = .error (.depthExceeded limit) →
      limit = 4 := by
  intro e
  have he : (⟨8⟩ : Evaluator).evaluate e countDownEnv = (.ok (.integer 0), countDownEnv) := by
    decide +kernel
  have ha : (⟨8⟩ : Evaluator).apply (.closure countDown) [.integer 2] countDownEnv =
      .ok (.integer 0) := by decide +kernel
  have hle : (⟨8⟩ : Evaluator).maxDepth ≤ (⟨20⟩ : Evaluator).maxDepth := by decide
  have hs := Evaluator.result_stable_above_limit hle
  refine ⟨⟨hle, he, ?_⟩, ?_, ?_⟩
  · rw [(hs.1 e countDownEnv).1 (by rw [he]; exact not_exhausted_ok _), he]
  · rw [(hs.2 _ _ _).1 (by rw [ha]; exact not_exhausted_ok _), ha]
  · have hle : (⟨4⟩ : Evaluator).maxDepth ≤ (⟨8⟩ : Evaluator).maxDepth := by decide
    exact ((Evaluator.result_stable_above_limit hle).1 e countDownEnv).2 hostFree_countDownEnv

end SmallLisp
