import Mathlib.Data.List.Basic
import SmallLisp.Proofs.Environment.Rebinding
import SmallLisp.Proofs.Eval.Exhausted

/-!
# What evaluation keeps of values

A property of values, and one of the names they are bound to, is kept by
evaluation if all that makes values gives values with it: literals, quoted data,
definitions and calls of builtins (`Invariant`). Whether it fails or not,
evaluation then leaves an environment with the property, and a value that it
comes to has it too (`Invariant.eval_keeps`).

A property of errors goes along. Evaluation itself fails for many reasons, all
of which have to be allowed; a property says something of the error about the
limit, and of builtins, which are the only ones to give errors of their own.

All this may be asked of some expressions only, other ones for each number of
levels (`Fitting`): the induction is on the levels, and the parts of an
expression have to be among those for one level less.
-/

namespace SmallLisp

variable {α β : Type}

/-- Every name that is bound and its value have the properties. -/
def Environment.All (named : String → Prop) (good : Value → Prop) (env : Environment) : Prop :=
  ∀ name v, env.get? name = some v → named name ∧ good v

/-- What fits into a number of levels. The items of a list fit into one less, but those of a clause
of a `cond` are evaluated on the level of the clause. -/
structure Fitting (good : Value → Prop) (fits : Nat → Expr → Prop) : Prop where
  item : ∀ {n : Nat} {items : List Expr} {e : Expr},
    fits (n + 1) (.list items) → e ∈ items → fits n e
  clauseItem : ∀ {n : Nat} {items : List Expr} {e : Expr},
    fits n (.list items) → e ∈ items → fits n e
  body : ∀ {c : Closure} {n : Nat}, good (.callable (.closure c)) → ∀ e ∈ c.body, fits n e

/-- All expressions may be evaluated on any number of levels. -/
theorem Fitting.all (good : Value → Prop) : Fitting good fun _ _ => True :=
  ⟨fun _ _ => trivial, fun _ _ => trivial, fun _ _ _ => trivial⟩

/-- All that makes values makes good ones, all that binds names binds fit ones, and all that fails
does so in an allowed way; only of the error about the limit this is left open. Of definitions it is
asked for those that fit into some levels. -/
structure Invariant [Host] (named : String → Prop) (good : Value → Prop)
    (fails : EvalError → Prop) (fits : Nat → Expr → Prop) : Prop where
  fitting : Fitting good fits
  nil : good .nil
  str : ∀ s, good (.str s)
  scalar : ∀ {v : Value}, v.IsScalar → good v
  toValue : ∀ e : Expr, good e.toValue
  symbolName : ∀ {e : Expr} {name : String}, e.symbolName? = some name → named name
  closureOf : ∀ {n : Nat} {name params e : Expr} {es : List Expr} {c : Closure},
    fits (n + 1) (.list (.text "defun" :: name :: params :: e :: es)) →
    closureOf name params (e :: es) = .ok c → good (.callable (.closure c))
  params : ∀ {c : Closure}, good (.callable (.closure c)) → ∀ p ∈ c.params, named p
  call : ∀ {b : Builtin} {args : List Value}, good (.callable (.builtin b)) →
    (∀ v ∈ args, good v) → Yields good (b.call args)
  error : ∀ {x : EvalError}, (∀ limit, x ≠ .depthExceeded limit) → fails x
  callError : ∀ {b : Builtin} {args : List Value} {x : EvalError},
    good (.callable (.builtin b)) → b.call args = .error x → fails x

variable {named : String → Prop} {good : Value → Prop} {fails : EvalError → Prop}
  {fits : Nat → Expr → Prop}

namespace Environment.All

variable {env : Environment}

theorem define (h : env.All named good) {name : String} {v : Value} (hn : named name)
    (hv : good v) : (env.define name v).All named good := by
  intro n w hw
  rw [get?_define] at hw
  split at hw
  · rename_i e
    obtain rfl := Option.some.inj hw
    exact ⟨e ▸ hn, hv⟩
  · exact h n w hw

theorem defineAll (h : env.All named good) {bs : List (String × Value)}
    (hbs : ∀ b ∈ bs, named b.1 ∧ good b.2) : (env.defineAll bs).All named good := by
  induction bs generalizing env with
  | nil => exact h
  | cons b bs ih =>
    rw [List.forall_mem_cons] at hbs
    exact ih (h.define hbs.1.1 hbs.1.2) hbs.2

end Environment.All

/-! ## Outcomes -/

/-- The value of the outcome, if it has one, satisfies the predicate, its error, if it has one, is
allowed, and what is bound in its environment has the properties. -/
structure Outcome.Keeps (named : String → Prop) (good : Value → Prop) (fails : EvalError → Prop)
    (p : α → Prop) (o : Outcome α) : Prop where
  value : Yields p o.1
  error : ∀ x, o.1 = .error x → fails x
  env : o.2.All named good

namespace Outcome.Keeps

variable {p : α → Prop} {q : β → Prop} {env : Environment}

theorem of_ok {a : α} (ha : p a) (henv : env.All named good) :
    Keeps named good fails p (.ok a, env) := ⟨.ok ha, nofun, henv⟩

theorem of_error {x : EvalError} (hx : fails x) (henv : env.All named good) :
    Keeps named good fails p (.error x, env) :=
  ⟨.error x, fun _ h => Except.error.inj h ▸ hx, henv⟩

theorem bind {o : Outcome α} {k : α → Environment → Outcome β} (h : o.Keeps named good fails p)
    (hk : ∀ a env, p a → env.All named good → (k a env).Keeps named good fails q) :
    (o.bind k).Keeps named good fails q := by
  obtain ⟨x | a, env⟩ := o
  · exact of_error (h.error x rfl) h.env
  · exact hk a env (h.value a rfl) h.env

end Outcome.Keeps

/-! ## Forms -/

section Forms

variable [Host] {fit : Expr → Prop} {n : Nat} {ev : Expr → Environment → Outcome Value}
  {env : Environment}

/-- A way to evaluate the parts of a form that keeps the properties on the parts that fit. -/
def EvalKeeps (named : String → Prop) (good : Value → Prop) (fails : EvalError → Prop)
    (fit : Expr → Prop) (ev : Expr → Environment → Outcome Value) : Prop :=
  ∀ e env, fit e → env.All named good → (ev e env).Keeps named good fails good

section Sequences

omit [Host]

variable (h : EvalKeeps named good fails fit ev)

include h

theorem evalOperands_keeps {es : List Expr} (hs : ∀ e ∈ es, fit e) (henv : env.All named good) :
    (evalOperands ev es env).Keeps named good fails fun vs => ∀ v ∈ vs, good v := by
  induction es generalizing env with
  | nil => exact .of_ok nofun henv
  | cons e es ih =>
    rw [List.forall_mem_cons] at hs
    rw [evalOperands_cons]
    refine (h e env hs.1 henv).bind fun v env₁ hv henv₁ => ?_
    refine (ih hs.2 henv₁).bind fun vs env₂ hvs henv₂ => ?_
    exact .of_ok (List.forall_mem_cons.2 ⟨hv, hvs⟩) henv₂

theorem evalSequence_keeps {last : Value} (hl : good last) {es : List Expr}
    (hs : ∀ e ∈ es, fit e) (henv : env.All named good) :
    (evalSequence ev last es env).Keeps named good fails good := by
  induction es generalizing last env with
  | nil => exact .of_ok hl henv
  | cons e es ih =>
    rw [List.forall_mem_cons] at hs
    rw [evalSequence_cons]
    exact (h e env hs.1 henv).bind fun v env₁ hv henv₁ => ih hv hs.2 henv₁

end Sequences

variable (h : EvalKeeps named good fails (fits n) ev) (inv : Invariant named good fails fits)

include inv

/-- What fails without a look at levels is allowed to. -/
theorem Invariant.fails_of_not_exhausted {r : Except EvalError α} (h : ¬ Exhausted r)
    (x : EvalError) (hx : r = .error x) : fails x :=
  inv.error (not_exhausted_iff.1 h x hx)

theorem Invariant.keeps_error {x : EvalError} (hx : ∀ limit, x ≠ .depthExceeded limit)
    {p : α → Prop} (henv : env.All named good) :
    Outcome.Keeps named good fails p (.error x, env) :=
  .of_error (inv.error hx) henv

theorem evalDefun_keeps {operands : List Expr}
    (hfit : fits (n + 1) (.list (.text "defun" :: operands))) (henv : env.All named good) :
    (evalDefun operands env).Keeps named good fails good := by
  unfold evalDefun
  split
  · rename_i name params e es
    have hspec := closureOf_spec name params (e :: es)
    rcases hc : closureOf name params (e :: es) with x | c
    · exact .of_error (inv.fails_of_not_exhausted (not_exhausted_closureOf _ _ _) x hc) henv
    · rw [hc] at hspec
      cases hspec with
      | names hf _ =>
        exact .of_ok (inv.str _) (henv.define (inv.symbolName hf) (inv.closureOf hfit hc))
  · exact inv.keeps_error (by nofun) henv

include h

/-- The items of a clause stand a level deeper than the clause but are evaluated on its level. -/
theorem evalClauses_keeps {clauses : List Expr} (hs : ∀ e ∈ clauses, fits n e)
    (henv : env.All named good) : (evalClauses ev clauses env).Keeps named good fails good := by
  induction clauses generalizing env with
  | nil => exact .of_ok inv.nil henv
  | cons clause clauses ih =>
    rw [List.forall_mem_cons] at hs
    cases clause with
    | integer n => exact inv.keeps_error (by nofun) henv
    | text t => exact inv.keeps_error (by nofun) henv
    | list items =>
      cases items with
      | nil => exact ih hs.2 henv
      | cons test body =>
        have htest : fits n test := inv.fitting.clauseItem hs.1 List.mem_cons_self
        have hbody : ∀ e ∈ body, fits n e := fun e he =>
          inv.fitting.clauseItem hs.1 (List.mem_cons_of_mem _ he)
        rw [evalClauses_cons]
        split
        · exact evalSequence_keeps h inv.nil hbody henv
        · refine (h test env htest henv).bind fun v env₁ _ henv₁ => ?_
          split
          · exact evalSequence_keeps h inv.nil hbody henv₁
          · exact ih hs.2 henv₁

theorem evalSetq_keeps {operands : List Expr} (hs : ∀ e ∈ operands, fits n e)
    (henv : env.All named good) : (evalSetq ev operands env).Keeps named good fails good := by
  by_cases hl : operands.length = 2
  · obtain ⟨target, e, rfl⟩ := List.length_eq_two.1 hl
    rw [evalSetq_pair]
    split
    · exact inv.keeps_error (by nofun) henv
    · rename_i name hname
      exact (h e env (hs e (by simp)) henv).bind fun v env₁ hv henv₁ =>
        .of_ok hv (henv₁.define (inv.symbolName hname) hv)
  · rw [evalSetq_of_length_ne ev hl]
    exact inv.keeps_error (by nofun) henv

/-- The parameters of a call are bound in a snapshot, which has the properties too. -/
theorem invoke_keeps {c : Callable} (hc : good (.callable c)) {args : List Value}
    (hargs : ∀ v ∈ args, good v) (henv : env.All named good) :
    Outcome.Keeps named good fails good (invoke ev c args env, env) := by
  cases c with
  | builtin b => exact ⟨inv.call hc hargs, fun x hx => inv.callError hc hx, henv⟩
  | closure c =>
    simp only [invoke]
    split
    · have hzip : ∀ b ∈ c.params.zip args, named b.1 ∧ good b.2 := fun b hb =>
        ⟨inv.params hc b.1 (List.of_mem_zip hb).1, hargs b.2 (List.of_mem_zip hb).2⟩
      have hbody := evalSequence_keeps h inv.nil (inv.fitting.body hc) (henv.defineAll hzip)
      exact ⟨hbody.value, hbody.error, henv⟩
    · exact inv.keeps_error (by nofun) henv

theorem evalCall_keeps (name : String) {operands : List Expr} (hs : ∀ e ∈ operands, fits n e)
    (henv : env.All named good) :
    (evalCall ev name operands env).Keeps named good fails good := by
  rw [evalCall_eq]
  split
  · exact inv.keeps_error (by nofun) henv
  · rename_i c hc
    exact (evalOperands_keeps h hs henv).bind fun args env₁ hargs henv₁ =>
      invoke_keeps h inv (henv name _ hc).2 hargs henv₁
  · exact inv.keeps_error (by nofun) henv

theorem evalOperator_keeps (op : Operator) {operands : List Expr} (hs : ∀ e ∈ operands, fits n e)
    (henv : env.All named good) :
    (evalOperator ev op operands env).Keeps named good fails good := by
  rw [evalOperator_eq]
  refine (evalOperands_keeps h hs henv).bind fun args env₁ _ henv₁ => ?_
  exact ⟨(op.yields_call args).mono fun v hv => inv.scalar hv,
    inv.fails_of_not_exhausted (op.not_exhausted_call args), henv₁⟩

theorem evalForm_keeps {name : String} {operands : List Expr}
    (hfit : fits (n + 1) (.list (.text name :: operands))) (henv : env.All named good) :
    (evalForm ev name operands env).Keeps named good fails good := by
  have hs : ∀ e ∈ operands, fits n e := fun e he =>
    inv.fitting.item hfit (List.mem_cons_of_mem _ he)
  unfold evalForm
  split
  · exact evalSetq_keeps h inv hs henv
  · rename_i hf
    obtain rfl : "defun" = name := SpecialForm.name_of_ofName? hf
    exact evalDefun_keeps inv hfit henv
  · exact ⟨yields_evalQuote inv.toValue operands,
      inv.fails_of_not_exhausted (not_exhausted_evalQuote operands), henv⟩
  · exact evalClauses_keeps h inv hs henv
  · split
    · exact evalOperator_keeps h inv _ hs henv
    · exact evalCall_keeps h inv name hs henv

/-- A level more keeps the properties on what fits into a level more. -/
theorem evalExpr_keeps : EvalKeeps named good fails (fits (n + 1)) (evalExpr ev) := by
  intro e env hfit henv
  unfold evalExpr
  split
  · exact .of_ok (inv.scalar (.integer _)) henv
  · exact ⟨yields_resolve inv.str (fun _ hv => inv.scalar hv) fun v hv => (henv _ v hv).2,
      inv.fails_of_not_exhausted (not_exhausted_resolve _ env), henv⟩
  · exact inv.keeps_error (by nofun) henv
  · exact evalForm_keeps h inv hfit henv
  · exact inv.keeps_error (by nofun) henv

end Forms

/-- Evaluation on a number of levels keeps an invariant on the expressions that fit, if the error
about its limit is allowed where something fits into no level. -/
theorem Invariant.eval_keeps [Host] (inv : Invariant named good fails fits) {limit : Nat}
    (hlimit : ∀ e, fits 0 e → fails (.depthExceeded limit)) (n : Nat) :
    EvalKeeps named good fails (fits n) (eval limit n) := by
  induction n with
  | zero => exact fun e env he henv => .of_error (hlimit e he) henv
  | succ n ih => exact evalExpr_keeps ih inv

end SmallLisp
