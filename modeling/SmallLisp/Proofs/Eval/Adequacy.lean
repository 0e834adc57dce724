import SmallLisp.Proofs.Eval.Depth
import SmallLisp.Proofs.Eval.Rules

/-!
# Evaluation follows the rules

What evaluation under a limit gives is derived by the rules unless the limit is
exceeded (`eval_derived`), and what the rules derive is given from some number
of levels on, whatever the limit (`Evaluates.settles`). Both hold for any host
program.
-/

namespace SmallLisp

variable {α β : Type}

/-! ## Names -/

theorem isOrdinary_iff (name : String) :
    IsOrdinary name ↔ SpecialForm.ofName? name = none ∧ Operator.ofName? name = none := by
  refine ⟨fun h => ⟨?_, ?_⟩, fun h => ⟨fun form e => ?_, fun op e => ?_⟩⟩
  · cases hs : SpecialForm.ofName? name with
    | none => rfl
    | some form => exact absurd (SpecialForm.name_of_ofName? hs).symm (h.1 form)
  · cases ho : Operator.ofName? name with
    | none => rfl
    | some op => exact absurd (Operator.name_of_ofName? ho).symm (h.2 op)
  · rw [e, SpecialForm.ofName?_name] at h
    cases h.1
  · rw [e, Operator.ofName?_name] at h
    cases h.2

section Dispatch

variable [Host] (ev : Expr → Environment → Outcome Value) (operands : List Expr)
  (env : Environment)

theorem evalExpr_setq :
    evalExpr ev (.list (.text "setq" :: operands)) env = evalSetq ev operands env := rfl

theorem evalExpr_defun :
    evalExpr ev (.list (.text "defun" :: operands)) env = evalDefun operands env := rfl

theorem evalExpr_quote :
    evalExpr ev (.list (.text "quote" :: operands)) env = (evalQuote operands, env) := rfl

theorem evalExpr_cond :
    evalExpr ev (.list (.text "cond" :: operands)) env = evalClauses ev operands env := rfl

theorem evalExpr_operator (op : Operator) :
    evalExpr ev (.list (.text op.name :: operands)) env = evalOperator ev op operands env := by
  rw [evalExpr, evalForm, SpecialForm.ofName?_operator, Operator.ofName?_name]

theorem evalExpr_call {name : String} (h : IsOrdinary name) :
    evalExpr ev (.list (.text name :: operands)) env = evalCall ev name operands env := by
  obtain ⟨hs, ho⟩ := (isOrdinary_iff name).1 h
  rw [evalExpr, evalForm, hs, ho]

end Dispatch

/-! ## From evaluation to the rules -/

theorem text?_ne_of_ne {e : Expr} {t : String} (h : e ≠ .text t) : e.text? ≠ some t := by
  cases e with
  | text t' => exact fun e => h (congrArg _ (Option.some.inj e))
  | _ => exact nofun

/-- The outcome says that the limit is exceeded or is one that the rules derive. -/
def Derived (limit : Nat) (rules : Outcome α → Prop) (o : Outcome α) : Prop :=
  o.1 = .error (.depthExceeded limit) ∨ rules o

theorem Derived.bind {limit : Nat} {rules : Outcome α → Prop} {rules' : Outcome β → Prop}
    {o : Outcome α} {k : α → Environment → Outcome β} (h : Derived limit rules o)
    (hx : ∀ x env, rules (.error x, env) → rules' (.error x, env))
    (hk : ∀ v env, rules (.ok v, env) → Derived limit rules' (k v env)) :
    Derived limit rules' (o.bind k) := by
  obtain ⟨x | v, env⟩ := o
  · rcases h with h | h
    · exact .inl (congrArg _ (Except.error.inj h))
    · exact .inr (hx x env h)
  · rcases h with h | h
    · cases h
    · exact hk v env h

section Forms

variable [Host] {limit : Nat} {ev : Expr → Environment → Outcome Value}

/-- A way to evaluate the parts of a form that follows the rules. -/
def EvalDerived (limit : Nat) (ev : Expr → Environment → Outcome Value) : Prop :=
  ∀ e env, Derived limit (Evaluates e env) (ev e env)

variable (h : EvalDerived limit ev)

include h

theorem evalOperands_derived (es : List Expr) (env : Environment) :
    Derived limit (EvaluateOperands es env) (evalOperands ev es env) := by
  induction es generalizing env with
  | nil => exact .inr .nil
  | cons e es ih =>
    rw [evalOperands_cons]
    refine (h e env).bind (fun x env' hx => .here hx) fun v env' hv => ?_
    exact (ih env').bind (fun x env'' hx => .later hv hx) fun vs env'' hvs => .inr (.cons hv hvs)

theorem evalSequence_derived (last : Value) (es : List Expr) (env : Environment) :
    Derived limit (EvaluateSequence last es env) (evalSequence ev last es env) := by
  induction es generalizing last env with
  | nil => exact .inr .nil
  | cons e es ih =>
    rw [evalSequence_cons]
    refine (h e env).bind (fun x env' hx => .here hx) fun v env' hv => ?_
    exact (ih v env').imp_right fun hs => .cons hv hs

theorem evalClauses_derived (clauses : List Expr) (env : Environment) :
    Derived limit (EvaluateClauses clauses env) (evalClauses ev clauses env) := by
  induction clauses generalizing env with
  | nil => exact .inr .nil
  | cons clause clauses ih =>
    cases clause with
    | integer n => exact .inr (.notList nofun)
    | text t => exact .inr (.notList nofun)
    | list items =>
      cases items with
      | nil => exact (ih env).imp_right .empty
      | cons test body =>
        rw [evalClauses_cons]
        by_cases ht : test = .text "t"
        · subst ht
          exact (evalSequence_derived h .nil body env).imp_right .otherwise
        · rw [if_neg (text?_ne_of_ne ht)]
          refine (h test env).bind (fun x env' hx => .testFails ht hx) fun v env' hv => ?_
          split
          · rename_i hb
            exact (evalSequence_derived h .nil body env').imp_right
              (.taken ht hv (Value.isTruthy_iff.1 hb))
          · rename_i hb
            exact (ih env').imp_right (.passed ht hv (mt Value.isTruthy_iff.2 hb))

theorem evalSetq_derived (operands : List Expr) (env : Environment) :
    Derived limit (Evaluates (.list (.text "setq" :: operands)) env)
      (evalSetq ev operands env) := by
  by_cases hl : operands.length = 2
  · obtain ⟨target, e, rfl⟩ := List.length_eq_two.1 hl
    rw [evalSetq_pair]
    cases ht : target.symbolName? with
    | none => exact .inr (.setqTarget ht)
    | some name =>
      exact (h e env).bind (fun x env' hx => .setqFails ht hx) fun v env' hv => .inr (.setq ht hv)
  · rw [evalSetq_of_length_ne ev hl]
    exact .inr (.setqArity hl)

theorem invoke_derived (c : Callable) (args : List Value) (caller : Environment) :
    invoke ev c args caller = .error (.depthExceeded limit) ∨
      Calls c args caller (invoke ev c args caller) := by
  cases c with
  | builtin b => exact .inr .builtin
  | closure c =>
    rw [invoke]
    split
    · rename_i hl
      exact (evalSequence_derived h .nil c.body _).imp_right fun hs => .closure hl hs
    · rename_i hl
      exact .inr (.closureArity hl)

theorem evalCall_derived {name : String} (hn : IsOrdinary name) (operands : List Expr)
    (env : Environment) :
    Derived limit (Evaluates (.list (.text name :: operands)) env)
      (evalCall ev name operands env) := by
  rw [evalCall_eq]
  split
  · rename_i hg
    exact .inr (.undefinedFunction hn hg)
  · rename_i c hg
    refine (evalOperands_derived h operands env).bind (fun x env' hx => .callFails hn hg hx)
      fun args env' hargs => ?_
    exact (invoke_derived h c args env').imp_right (.call hn hg hargs)
  · rename_i v hc hg
    refine .inr (.notCallable hn hg ?_)
    cases v with
    | callable c => exact absurd rfl (hc c)
    | _ => rfl

theorem evalOperator_derived (op : Operator) (operands : List Expr) (env : Environment) :
    Derived limit (Evaluates (.list (.text op.name :: operands)) env)
      (evalOperator ev op operands env) := by
  rw [evalOperator_eq]
  exact (evalOperands_derived h operands env).bind (fun x env' hx => .operatorFails hx)
    fun args env' hargs => .inr (.operator hargs)

omit h in
theorem evalDefun_evaluates (operands : List Expr) (env : Environment) :
    Evaluates (.list (.text "defun" :: operands)) env (evalDefun operands env) := by
  by_cases hl : operands.length < 3
  · rw [evalDefun_of_length_lt hl]
    exact .defunArity hl
  · obtain ⟨name, params, e, es, rfl⟩ := eq_cons_cons_cons_of_length (Nat.not_lt.1 hl)
    rw [evalDefun]
    have hc := closureOf_spec name params (e :: es)
    generalize closureOf name params (e :: es) = r at hc ⊢
    cases hc with
    | notName hf => exact .defunName hf
    | notList hf hp => exact .defunParameters hf hp
    | notNames hf hn hb => exact .defunParameter hf hn hb
    | names hf hps => exact .defun hf hps

omit h in
theorem evalQuote_evaluates (operands : List Expr) (env : Environment) :
    Evaluates (.list (.text "quote" :: operands)) env (evalQuote operands, env) := by
  by_cases hl : operands.length = 1
  · obtain ⟨e, rfl⟩ := List.length_eq_one_iff.1 hl
    exact .quote
  · rw [evalQuote_of_length_ne hl]
    exact .quoteArity hl

theorem evalForm_derived (name : String) (operands : List Expr) (env : Environment) :
    Derived limit (Evaluates (.list (.text name :: operands)) env)
      (evalForm ev name operands env) := by
  unfold evalForm
  split
  · rename_i hs
    rw [← SpecialForm.name_of_ofName? hs]
    exact evalSetq_derived h operands env
  · rename_i hs
    rw [← SpecialForm.name_of_ofName? hs]
    exact .inr (evalDefun_evaluates operands env)
  · rename_i hs
    rw [← SpecialForm.name_of_ofName? hs]
    exact .inr (evalQuote_evaluates operands env)
  · rename_i hs
    rw [← SpecialForm.name_of_ofName? hs]
    exact (evalClauses_derived h operands env).imp_right .cond
  · rename_i hs
    split
    · rename_i op ho
      rw [← Operator.name_of_ofName? ho]
      exact evalOperator_derived h op operands env
    · rename_i ho
      exact evalCall_derived h ((isOrdinary_iff name).2 ⟨hs, ho⟩) operands env

omit h in
theorem resolve_evaluates (t : String) (env : Environment) :
    Evaluates (.text t) env (resolve t env, env) := by
  unfold resolve
  split
  · rename_i s hs
    exact .string hs
  · rename_i hs
    split
    · rename_i v hv
      exact .bound hs hv
    · rename_i hv
      split
      · rename_i v hn
        exact .number hs hv hn
      · rename_i hn
        exact .unbound hs hv hn

theorem evalExpr_derived (e : Expr) (env : Environment) :
    Derived limit (Evaluates e env) (evalExpr ev e env) := by
  unfold evalExpr
  split
  · exact .inr .integer
  · exact .inr (resolve_evaluates _ env)
  · exact .inr .emptyList
  · exact evalForm_derived h _ _ env
  · rename_i head operands hh
    refine .inr (.invalidOperator ?_)
    cases head with
    | text t => exact absurd rfl (hh t)
    | _ => rfl

end Forms

/-- Evaluation on any number of levels gives what the rules derive unless the limit is exceeded. -/
theorem eval_derived [Host] (limit n : Nat) : EvalDerived limit (eval limit n) := by
  induction n with
  | zero => exact fun e env => .inl rfl
  | succ n ih => exact evalExpr_derived ih

/-! ## From the rules to evaluation -/

section Host

variable [Host]

/-- What is computed from evaluation comes out as `a` from some number of levels on, whatever the
limit is. -/
def Settles (f : (Expr → Environment → Outcome Value) → α) (a : α) : Prop :=
  ∃ n, ∀ limit m, n ≤ m → f (eval limit m) = a

namespace Settles

variable {γ : Type} {f : (Expr → Environment → Outcome Value) → α}
  {g : (Expr → Environment → Outcome Value) → β} {k : (Expr → Environment → Outcome Value) → γ}
  {a : α} {b : β} {c : γ}

theorem of_all (h : ∀ ev, f ev = a) : Settles f a := ⟨0, fun _ _ _ => h _⟩

theorem of_one (hf : Settles f a) (h : ∀ ev, f ev = a → g ev = b) : Settles g b := by
  obtain ⟨n, hn⟩ := hf
  exact ⟨n, fun limit m hm => h _ (hn limit m hm)⟩

theorem of_two (hf : Settles f a) (hg : Settles g b) (h : ∀ ev, f ev = a → g ev = b → k ev = c) :
    Settles k c := by
  obtain ⟨n, hn⟩ := hf
  obtain ⟨n', hn'⟩ := hg
  exact ⟨max n n', fun limit m hm => h _ (hn limit m (by omega)) (hn' limit m (by omega))⟩

/-- An expression needs one level more than its parts. -/
theorem level {e : Expr} {env : Environment} {o : Outcome Value}
    (h : Settles (fun ev => evalExpr ev e env) o) : Settles (fun ev => ev e env) o := by
  obtain ⟨n, hn⟩ := h
  refine ⟨n + 1, fun limit m hm => ?_⟩
  obtain ⟨m, rfl⟩ := Nat.exists_eq_add_of_le' hm
  exact hn limit (m + n) (Nat.le_add_left n m)

end Settles

mutual

/-- An outcome that the rules derive is that of evaluation on enough levels. -/
theorem Evaluates.settles {e : Expr} {env : Environment} {o : Outcome Value} :
    Evaluates e env o → Settles (fun ev => evalExpr ev e env) o
  | .integer => .of_all fun ev => rfl
  | .string hs => .of_all fun ev => by
    show (resolve _ env, env) = _
    rw [resolve, hs]
  | .bound hs hv => .of_all fun ev => by
    show (resolve _ env, env) = _
    rw [resolve, hs, hv]
  | .number hs hv hn => .of_all fun ev => by
    show (resolve _ env, env) = _
    rw [resolve, hs, hv, hn]
  | .unbound hs hv hn => .of_all fun ev => by
    show (resolve _ env, env) = _
    rw [resolve, hs, hv, hn]
  | .emptyList => .of_all fun ev => rfl
  | @Evaluates.invalidOperator _ head _ _ h => .of_all fun ev => by
    cases head with
    | text t => cases h
    | _ => rfl
  | .setq ht h => h.settles.level.of_one fun ev he => by
    rw [evalExpr_setq, evalSetq_pair, ht, he]
    rfl
  | .setqFails ht h => h.settles.level.of_one fun ev he => by
    rw [evalExpr_setq, evalSetq_pair, ht, he]
    rfl
  | .setqTarget ht => .of_all fun ev => by rw [evalExpr_setq, evalSetq_pair, ht]
  | .setqArity hl => .of_all fun ev => by rw [evalExpr_setq, evalSetq_of_length_ne ev hl]
  | .defun hf hps => .of_all fun ev => by
    rw [evalExpr_defun, evalDefun, closureOf_list hf, mapM_parameterOf hps]
    rfl
  | .defunName hf => .of_all fun ev => by
    rw [evalExpr_defun, evalDefun, closureOf_of_not_name hf]
  | .defunParameters hf hp => .of_all fun ev => by
    rw [evalExpr_defun, evalDefun, closureOf_of_not_list hf hp]
  | .defunParameter hf hn hb => .of_all fun ev => by
    rw [evalExpr_defun, evalDefun, closureOf_list hf, mapM_parameterOf_append hn hb]
    rfl
  | .defunArity hl => .of_all fun ev => by rw [evalExpr_defun, evalDefun_of_length_lt hl]
  | .quote => .of_all fun ev => rfl
  | .quoteArity hl => .of_all fun ev => by rw [evalExpr_quote, evalQuote_of_length_ne hl]
  | .cond h => h.settles.of_one fun ev he => by rw [evalExpr_cond, he]
  | .operator h => h.settles.of_one fun ev he => by
    rw [evalExpr_operator, evalOperator_eq, he]
    rfl
  | .operatorFails h => h.settles.of_one fun ev he => by
    rw [evalExpr_operator, evalOperator_eq, he]
    rfl
  | .call hn hg h hc => h.settles.of_two hc.settles fun ev he hr => by
    rw [evalExpr_call ev _ env hn, evalCall_eq, hg]
    simp only [he, Outcome.bind_ok, hr]
  | .callFails hn hg h => h.settles.of_one fun ev he => by
    rw [evalExpr_call ev _ env hn, evalCall_eq, hg]
    simp only [he, Outcome.bind_error]
  | @Evaluates.notCallable _ _ v _ _ hn hg hc => .of_all fun ev => by
    rw [evalExpr_call ev _ env hn, evalCall_eq, hg]
    cases v with
    | callable c => cases hc
    | _ => rfl
  | .undefinedFunction hn hg => .of_all fun ev => by
    rw [evalExpr_call ev _ env hn, evalCall_eq, hg]

theorem EvaluateOperands.settles {es : List Expr} {env : Environment}
    {o : Outcome (List Value)} :
    EvaluateOperands es env o → Settles (fun ev => evalOperands ev es env) o
  | .nil => .of_all fun ev => rfl
  | .cons h hs => h.settles.level.of_two hs.settles fun ev he hes => by
    simp only [evalOperands_cons, he, Outcome.bind_ok, hes]
  | .here h => h.settles.level.of_one fun ev he => by
    simp only [evalOperands_cons, he, Outcome.bind_error]
  | .later h hs => h.settles.level.of_two hs.settles fun ev he hes => by
    simp only [evalOperands_cons, he, Outcome.bind_ok, hes, Outcome.bind_error]

theorem EvaluateSequence.settles {last : Value} {es : List Expr} {env : Environment}
    {o : Outcome Value} :
    EvaluateSequence last es env o → Settles (fun ev => evalSequence ev last es env) o
  | .nil => .of_all fun ev => rfl
  | .cons h hs => h.settles.level.of_two hs.settles fun ev he hes => by
    simp only [evalSequence_cons, he, Outcome.bind_ok, hes]
  | .here h => h.settles.level.of_one fun ev he => by
    simp only [evalSequence_cons, he, Outcome.bind_error]

theorem EvaluateClauses.settles {clauses : List Expr} {env : Environment} {o : Outcome Value} :
    EvaluateClauses clauses env o → Settles (fun ev => evalClauses ev clauses env) o
  | .nil => .of_all fun ev => rfl
  | .empty h => h.settles.of_one fun ev he => he
  | .otherwise h => h.settles.of_one fun ev he => by
    rw [evalClauses_cons]
    exact he
  | .taken ht h hb hs => h.settles.level.of_two hs.settles fun ev he hes => by
    rw [evalClauses_cons, if_neg (text?_ne_of_ne ht), he, Outcome.bind_ok,
      if_pos (Value.isTruthy_iff.2 hb), hes]
  | .passed ht h hb hs => h.settles.level.of_two hs.settles fun ev he hes => by
    rw [evalClauses_cons, if_neg (text?_ne_of_ne ht), he, Outcome.bind_ok,
      if_neg (mt Value.isTruthy_iff.1 hb), hes]
  | .testFails ht h => h.settles.level.of_one fun ev he => by
    rw [evalClauses_cons, if_neg (text?_ne_of_ne ht), he, Outcome.bind_error]
  | @EvaluateClauses.notList _ clause _ _ hc => .of_all fun ev => by
    cases clause with
    | list items => exact absurd rfl (hc items)
    | _ => rfl

theorem Calls.settles {c : Callable} {args : List Value} {caller : Environment}
    {r : Except EvalError Value} :
    Calls c args caller r → Settles (fun ev => invoke ev c args caller) r
  | .builtin => .of_all fun ev => rfl
  | .closure hl h => h.settles.of_one fun ev he => by rw [invoke, if_pos hl, he]
  | .closureArity hl => .of_all fun ev => by rw [invoke, if_neg hl]

end

/-! ## Adequacy -/

/-- The rules say nothing of a limit, and without functions of the host nothing else does. -/
theorem Evaluates.not_exhausted {e : Expr} {env : Environment} {o : Outcome Value}
    (h : Evaluates e env o) (henv : env.HostFree) : ¬ Exhausted o.1 := by
  rintro ⟨limit, hx⟩
  -- Under another limit the same levels have the same outcome, which then tells the other limit.
  obtain ⟨n, hn⟩ := h.settles.level
  have ho : eval (limit + 1) n e env = o := hn (limit + 1) n (Nat.le_refl n)
  exact Nat.succ_ne_self limit (limit_eq_of_eval henv (ho ▸ hx)).symm

/-- The rules derive just the outcomes that evaluation has under some limit, errors about limits
apart. Where they derive none, evaluation tells every limit that it is exceeded. Without functions
of the host they derive no error about a limit. -/
theorem Evaluator.evaluates_iff (e : Expr) (env : Environment) :
    (∀ r env', ¬ Exhausted r → (Evaluates e env (r, env') ↔
      ∃ m, (⟨m⟩ : Evaluator).evaluate e env = (r, env'))) ∧
    ((¬ ∃ r env', Evaluates e env (r, env')) →
      ∀ m, ((⟨m⟩ : Evaluator).evaluate e env).1 = .error (.depthExceeded m)) ∧
    (env.HostFree → ∀ r env', Evaluates e env (r, env') → ¬ Exhausted r) := by
  refine ⟨fun r env' hr => ⟨fun h => ?_, fun ⟨m, hm⟩ => ?_⟩, fun hno m => ?_,
    fun henv r env' h => h.not_exhausted henv⟩
  · obtain ⟨n, hn⟩ := h.settles.level
    exact ⟨n, hn n n (Nat.le_refl n)⟩
  · rcases eval_derived m m e env with hx | hd
    · exact absurd ⟨m, (congrArg Prod.fst hm).symm.trans hx⟩ hr
    · rw [← hm]
      exact hd
  · rcases eval_derived m m e env with hx | hd
    · exact hx
    · exact absurd ⟨_, _, hd⟩ hno

end Host

/-- A function that does nothing but call itself. -/
def endless : Closure := ⟨"loop", [], [.list [.text "loop"]]⟩

/-- The operators and `endless`. -/
def endlessEnv : Environment :=
  Environment.initial.define endless.name (.callable (.closure endless))

theorem eval_endless [Host] (limit n : Nat) :
    (eval limit n (.list [.text "loop"]) endlessEnv).1 = .error (.depthExceeded limit) := by
  induction n with
  | zero => rfl
  | succ n ih =>
    have hn : IsOrdinary endless.name := (isOrdinary_iff _).2 (by decide)
    have hg : endlessEnv.get? endless.name = some (.callable (.closure endless)) := by
      rw [endlessEnv, Environment.get?_define, if_pos rfl]
    have hb : (eval limit n (.list [.text "loop"]) endlessEnv).bind
        (fun v env => evalSequence (eval limit n) v [] env) = (.error (.depthExceeded limit),
          (eval limit n (.list [.text "loop"]) endlessEnv).2) := by
      rcases ho : eval limit n (.list [.text "loop"]) endlessEnv with ⟨r, env⟩
      rw [ho] at ih
      subst ih
      rfl
    show (evalExpr (eval limit n) (.list [.text endless.name]) endlessEnv).1 = _
    rw [evalExpr_call _ _ _ hn, evalCall_eq, hg]
    show (evalSequence (eval limit n) .nil endless.body endlessEnv).1 = _
    rw [endless, evalSequence_cons, hb]

/-- A function that calls itself for ever has no outcome, and under each limit the limit is
exceeded. -/
theorem endless_without_outcome :
    (¬ ∃ r env', Evaluates (.list [.text "loop"]) endlessEnv (r, env')) ∧
      ∀ m, ((⟨m⟩ : Evaluator).evaluate (.list [.text "loop"]) endlessEnv).1 =
        .error (.depthExceeded m) := by
  have hno : ¬ ∃ r env', Evaluates (.list [.text "loop"]) endlessEnv (r, env') := by
    rintro ⟨r, env', h⟩
    have henv : endlessEnv.HostFree :=
      .define .initial endless.name (Value.hostFree_closure endless)
    have hr : ¬ Exhausted r := (Evaluator.evaluates_iff _ _).2.2 henv r env' h
    obtain ⟨m, hm⟩ := ((Evaluator.evaluates_iff _ _).1 r env' hr).1 h
    exact hr ⟨m, (congrArg Prod.fst hm).symm.trans (eval_endless m m)⟩
  exact ⟨hno, (Evaluator.evaluates_iff _ _).2.1 hno⟩

end SmallLisp
