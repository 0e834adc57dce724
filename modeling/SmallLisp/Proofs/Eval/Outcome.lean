import SmallLisp.Eval.Basic
import SmallLisp.Proofs.Operator.Results

/-!
# Evaluation as a sequence of steps

An outcome with a value goes on from the environment it has left, one with an
error ends evaluation there (`Outcome.bind`). Every form that evaluates parts
of it is such a sequence (`evalOperands_cons` to `evalOperator_eq`), so that
what a sequence keeps is proved once for all forms. What atoms and quoted data
come to is told by `yields_resolve` and `yields_evalQuote`, what a definition
comes to by `closureOf_spec`.
-/

namespace SmallLisp

variable {α β : Type}

namespace Outcome

/-- Goes on with the value of an outcome in the environment it has left. -/
def bind (o : Outcome α) (k : α → Environment → Outcome β) : Outcome β :=
  match o with
  | (.error x, env) => (.error x, env)
  | (.ok v, env) => k v env

theorem bind_ok (v : α) (env : Environment) (k : α → Environment → Outcome β) :
    bind (.ok v, env) k = k v env := rfl

theorem bind_error (x : EvalError) (env : Environment) (k : α → Environment → Outcome β) :
    bind (.error x, env) k = (.error x, env) := rfl

theorem bind_assoc {γ : Type} (o : Outcome α) (k : α → Environment → Outcome β)
    (k' : β → Environment → Outcome γ) :
    (o.bind k).bind k' = o.bind fun v env => (k v env).bind k' := by
  rcases o with ⟨x | v, env⟩ <;> rfl

end Outcome

section Forms

variable (ev : Expr → Environment → Outcome Value)

theorem evalOperands_cons (e : Expr) (es : List Expr) (env : Environment) :
    evalOperands ev (e :: es) env = (ev e env).bind fun v env =>
      (evalOperands ev es env).bind fun vs env => (.ok (v :: vs), env) := by
  rw [evalOperands]
  rcases ev e env with ⟨x | v, env₁⟩
  · rfl
  · rcases h : evalOperands ev es env₁ with ⟨x | vs, env₂⟩ <;> simp only [Outcome.bind, h]

theorem evalSequence_cons (last : Value) (e : Expr) (es : List Expr) (env : Environment) :
    evalSequence ev last (e :: es) env =
      (ev e env).bind fun v env => evalSequence ev v es env := by
  rw [evalSequence]
  rcases ev e env with ⟨x | v, env₁⟩ <;> rfl

theorem evalSequence_append (last : Value) (es fs : List Expr) (env : Environment) :
    evalSequence ev last (es ++ fs) env =
      (evalSequence ev last es env).bind fun v env => evalSequence ev v fs env := by
  induction es generalizing last env with
  | nil => rfl
  | cons e es ih =>
    rw [List.cons_append, evalSequence_cons, evalSequence_cons, Outcome.bind_assoc]
    congr 1
    exact funext fun v => funext fun env => ih v env

/-- The value of a sequence is that of its last expression if there is one. -/
theorem evalSequence_of_ne_nil {es : List Expr} (h : es ≠ []) (last last' : Value)
    (env : Environment) : evalSequence ev last es env = evalSequence ev last' es env := by
  obtain ⟨e, es, rfl⟩ := List.exists_cons_of_ne_nil h
  rw [evalSequence_cons, evalSequence_cons]

theorem evalClauses_cons (test : Expr) (body clauses : List Expr) (env : Environment) :
    evalClauses ev (.list (test :: body) :: clauses) env =
      if test.text? = some "t" then evalSequence ev .nil body env
      else (ev test env).bind fun v env =>
        if v.isTruthy then evalSequence ev .nil body env else evalClauses ev clauses env := by
  rw [evalClauses]
  rcases ev test env with ⟨x | v, env₁⟩ <;> rfl

theorem evalSetq_pair (target e : Expr) (env : Environment) :
    evalSetq ev [target, e] env =
      match target.symbolName? with
      | none => (.error (.misplaced .target target), env)
      | some name => (ev e env).bind fun v env => (.ok v, env.define name v) := by
  rw [evalSetq]
  cases target.symbolName? with
  | none => rfl
  | some name => rcases ev e env with ⟨x | v, env₁⟩ <;> rfl

theorem evalSetq_of_length_ne {operands : List Expr} (h : operands.length ≠ 2) (env : Environment) :
    evalSetq ev operands env = (.error (.arity "setq" (.exactly 2) operands.length), env) := by
  unfold evalSetq
  split
  · exact absurd rfl h
  · rfl

theorem evalCall_eq [Host] (name : String) (operands : List Expr) (env : Environment) :
    evalCall ev name operands env =
      match env.get? name with
      | none => (.error (.undefinedFunction name), env)
      | some (.callable c) =>
        (evalOperands ev operands env).bind fun args env => (invoke ev c args env, env)
      | some _ => (.error (.notCallable name), env) := by
  rw [evalCall]
  rcases evalOperands ev operands env with ⟨x | args, env₁⟩ <;> rfl

theorem evalOperator_eq (op : Operator) (operands : List Expr) (env : Environment) :
    evalOperator ev op operands env =
      (evalOperands ev operands env).bind fun args env => (op.call args, env) := by
  rw [evalOperator]
  rcases evalOperands ev operands env with ⟨x | args, env₁⟩ <;> rfl

end Forms

/-! ## Atoms and quoted data -/

theorem Literal.isScalar_of_number? {t : String} {v : Value} (h : number? t = some v) :
    v.IsScalar := by
  simp only [number?] at h
  split at h
  · split at h
    · obtain ⟨d, -, rfl⟩ := Option.map_eq_some_iff.1 h
      exact .float _
    · obtain ⟨n, -, rfl⟩ := Option.map_eq_some_iff.1 h
      exact .integer n
  · cases h

section Values

variable {good : Value → Prop}

/-- An atom is a string, what is bound to it, or a number. -/
theorem yields_resolve (hstr : ∀ s, good (.str s)) (hscalar : ∀ v : Value, v.IsScalar → good v)
    {t : String} {env : Environment} (hbound : ∀ v, env.get? t = some v → good v) :
    Yields good (resolve t env) := by
  unfold resolve
  split
  · exact .ok (hstr _)
  · split
    · rename_i v hv
      exact .ok (hbound v hv)
    · split
      · rename_i v hv
        exact .ok (hscalar v (Literal.isScalar_of_number? hv))
      · exact .error _

theorem yields_evalQuote (h : ∀ e : Expr, good e.toValue) (operands : List Expr) :
    Yields good (evalQuote operands) := by
  unfold evalQuote
  split
  · exact .ok (h _)
  · exact .error _

end Values

/-! ## Definitions -/

/-- The name that a parameter list has at a place. -/
def parameterOf (item : Expr) : Except EvalError String :=
  match item.symbolName? with
  | some param => .ok param
  | none => .error (.misplaced .parameter item)

theorem closureOf_of_not_name {name : Expr} (h : name.symbolName? = none) (params : Expr)
    (body : List Expr) :
    closureOf name params body = .error (.misplaced .functionName name) := by
  unfold closureOf
  rw [h]

theorem closureOf_of_not_list {name params : Expr} {f : String} (h : name.symbolName? = some f)
    (hp : ∀ items, params ≠ .list items) (body : List Expr) :
    closureOf name params body = .error (.misplaced .parameterList params) := by
  unfold closureOf
  rw [h]
  cases params with
  | list items => exact absurd rfl (hp items)
  | integer n => rfl
  | text t => rfl

theorem closureOf_list {name : Expr} {f : String} (h : name.symbolName? = some f)
    (items body : List Expr) :
    closureOf name (.list items) body = (items.mapM parameterOf).map fun ps => ⟨f, ps, body⟩ := by
  unfold closureOf
  rw [h]
  show (items.mapM parameterOf).bind _ = _
  cases items.mapM parameterOf <;> rfl

/-- Parameters that are all names. -/
theorem mapM_parameterOf {items : List Expr} {ps : List String}
    (h : items.map Expr.symbolName? = ps.map some) : items.mapM parameterOf = .ok ps := by
  induction items generalizing ps with
  | nil =>
    cases ps with
    | nil => rfl
    | cons p ps => cases h
  | cons item items ih =>
    cases ps with
    | nil => cases h
    | cons p ps =>
      rw [List.map_cons, List.map_cons, List.cons.injEq] at h
      have hi : parameterOf item = .ok p := by rw [parameterOf, h.1]
      rw [List.mapM_cons, hi, ih h.2]
      rfl

/-- The first item at which a step fails is at fault. -/
theorem mapM_append_of_error {f : α → Except EvalError β} {before after : List α} {bad : α}
    {x : EvalError} (hn : ∀ a ∈ before, ∃ b, f a = .ok b) (hb : f bad = .error x) :
    (before ++ bad :: after).mapM f = .error x := by
  induction before with
  | nil =>
    rw [List.nil_append, List.mapM_cons, hb]
    rfl
  | cons a before ih =>
    rw [List.forall_mem_cons] at hn
    obtain ⟨b, ha⟩ := hn.1
    rw [List.cons_append, List.mapM_cons, ha, ih hn.2]
    rfl

/-- The first parameter that is not a name is at fault. -/
theorem mapM_parameterOf_append {before after : List Expr} {bad : Expr}
    (hn : ∀ item ∈ before, item.symbolName? ≠ none) (hb : bad.symbolName? = none) :
    (before ++ bad :: after).mapM parameterOf = .error (.misplaced .parameter bad) := by
  refine mapM_append_of_error (fun item hm => ?_) (by rw [parameterOf, hb])
  obtain ⟨p, hp⟩ := Option.ne_none_iff_exists'.1 (hn item hm)
  exact ⟨p, by rw [parameterOf, hp]⟩

/-- A parameter list names all its parameters or has a first one that is not a name. -/
theorem names_or_not (items : List Expr) :
    (∃ ps : List String, items.map Expr.symbolName? = ps.map some) ∨
      ∃ before bad after, items = before ++ bad :: after ∧
        (∀ item ∈ before, item.symbolName? ≠ none) ∧ bad.symbolName? = none := by
  induction items with
  | nil => exact .inl ⟨[], rfl⟩
  | cons item items ih =>
    cases hi : item.symbolName? with
    | none => exact .inr ⟨[], item, items, rfl, nofun, hi⟩
    | some p =>
      rcases ih with ⟨ps, hps⟩ | ⟨before, bad, after, rfl, hn, hb⟩
      · exact .inl ⟨p :: ps, by rw [List.map_cons, List.map_cons, hi, hps]⟩
      · refine .inr ⟨item :: before, bad, after, rfl, fun x hx => ?_, hb⟩
        rcases List.mem_cons.1 hx with rfl | hx
        · rw [hi]; exact nofun
        · exact hn x hx

/-- What a definition with this name and body comes to for a list of parameters. -/
inductive ClosureOf (name : Expr) (body : List Expr) : Expr → Except EvalError Closure → Prop
  | notName {params : Expr} :
    name.symbolName? = none →
    ClosureOf name body params (.error (.misplaced .functionName name))
  | notList {params : Expr} {f : String} :
    name.symbolName? = some f → (∀ items, params ≠ .list items) →
    ClosureOf name body params (.error (.misplaced .parameterList params))
  | notNames {before after : List Expr} {bad : Expr} {f : String} :
    name.symbolName? = some f → (∀ item ∈ before, item.symbolName? ≠ none) →
    bad.symbolName? = none →
    ClosureOf name body (.list (before ++ bad :: after)) (.error (.misplaced .parameter bad))
  | names {items : List Expr} {f : String} {ps : List String} :
    name.symbolName? = some f → items.map Expr.symbolName? = ps.map some →
    ClosureOf name body (.list items) (.ok ⟨f, ps, body⟩)

theorem closureOf_spec (name params : Expr) (body : List Expr) :
    ClosureOf name body params (closureOf name params body) := by
  cases hf : name.symbolName? with
  | none =>
    rw [closureOf_of_not_name hf]
    exact .notName hf
  | some f =>
    by_cases hp : ∃ items, params = .list items
    · obtain ⟨items, rfl⟩ := hp
      rw [closureOf_list hf]
      rcases names_or_not items with ⟨ps, hps⟩ | ⟨before, bad, after, rfl, hn, hb⟩
      · rw [mapM_parameterOf hps]
        exact .names hf hps
      · rw [mapM_parameterOf_append hn hb]
        exact .notNames hf hn hb
    · rw [closureOf_of_not_list hf (not_exists.1 hp)]
      exact .notList hf (not_exists.1 hp)

theorem evalDefun_of_length_lt {operands : List Expr} (h : operands.length < 3)
    (env : Environment) :
    evalDefun operands env = (.error (.arity "defun" (.atLeast 3) operands.length), env) := by
  unfold evalDefun
  split
  · simp only [List.length_cons] at h
    omega
  · rfl

theorem evalQuote_of_length_ne {operands : List Expr} (h : operands.length ≠ 1) :
    evalQuote operands = .error (.arity "quote" (.exactly 1) operands.length) := by
  unfold evalQuote
  split
  · exact absurd rfl h
  · rfl

theorem eq_cons_cons_cons_of_length {es : List Expr} (h : 3 ≤ es.length) :
    ∃ a b c rest, es = a :: b :: c :: rest := by
  match es, h with
  | a :: b :: c :: rest, _ => exact ⟨a, b, c, rest, rfl⟩

/-! ## The outermost level -/

/-- An evaluator with a level to spend evaluates an expression by its parts. -/
theorem Evaluator.evaluate_of_pos [Host] {evaluator : Evaluator} (h : 0 < evaluator.maxDepth)
    (e : Expr) (env : Environment) :
    evaluator.evaluate e env =
      evalExpr (eval evaluator.maxDepth (evaluator.maxDepth - 1)) e env := by
  obtain ⟨_ | k⟩ := evaluator
  · cases h
  · rfl

end SmallLisp
