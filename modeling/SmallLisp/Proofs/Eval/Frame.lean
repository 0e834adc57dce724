import Mathlib.Data.List.Basic
import SmallLisp.Operator.Extension
import SmallLisp.Proofs.Environment.Rebinding
import SmallLisp.Proofs.Eval.Outcome
import SmallLisp.Proofs.Expr.Parts

/-!
# What evaluation binds

Whether it fails or not, evaluation leaves the environment with definitions of
names that stand in the expression itself behind a `setq` or a `defun`
(`eval_rebinds`); the bodies of the functions it calls do not count, because
they run in a snapshot (`evalCall_rebinds`).
-/

namespace SmallLisp

variable {α β : Type}

namespace Expr

/-- The names that stand second in a list that an expression holds and that begins with `setq` or
`defun`. -/
def assigned (e : Expr) : Set String :=
  {name | ∃ head rest, (head = "setq" ∨ head = "defun") ∧
    list (text head :: text name :: rest) ∈ e.parts}

theorem assigned_subset {p e : Expr} (h : p ∈ e.parts) : p.assigned ⊆ e.assigned := by
  rintro name ⟨head, rest, hh, hp⟩
  exact ⟨head, rest, hh, mem_parts_trans hp h⟩

theorem assigned_subset_of_mem {e : Expr} {items : List Expr} (h : e ∈ items) :
    e.assigned ⊆ (list items).assigned :=
  assigned_subset (mem_parts_of_mem h)

theorem mem_assigned {head name : String} (h : head = "setq" ∨ head = "defun")
    (rest : List Expr) : name ∈ (list (text head :: text name :: rest)).assigned :=
  ⟨head, rest, h, mem_parts_self _⟩

theorem eq_text_of_symbolName? {e : Expr} {name : String} (h : e.symbolName? = some name) :
    e = text name := by
  cases e with
  | text t =>
    rw [symbolName?, Option.filter_eq_some_iff] at h
    exact congrArg _ (Option.some.inj h.1)
  | integer n => cases h
  | list items => cases h

end Expr

/-- An outcome whose environment comes from `env` by definitions of `names`. -/
def Outcome.Rebinds (names : Set String) (env : Environment) (o : Outcome α) : Prop :=
  env.Rebinds names o.2

theorem Outcome.Rebinds.bind {names : Set String} {env : Environment} {o : Outcome α}
    {k : α → Environment → Outcome β} (h : o.Rebinds names env)
    (hk : ∀ v env', (k v env').Rebinds names env') : (o.bind k).Rebinds names env := by
  obtain ⟨x | v, env'⟩ := o
  · exact h
  · exact Environment.Rebinds.trans h (hk v env')

/-- The closure of a definition has the name that is bound to it. -/
theorem eq_text_of_closureOf {name params : Expr} {body : List Expr} {c : Closure}
    (h : closureOf name params body = .ok c) : name = .text c.name := by
  have hc := closureOf_spec name params body
  rw [h] at hc
  cases hc with
  | names hf _ => exact Expr.eq_text_of_symbolName? hf

section Forms

variable {ev : Expr → Environment → Outcome Value}

/-- A way to evaluate the parts of a form that binds only what is assigned in them. -/
def EvalRebinds (ev : Expr → Environment → Outcome Value) : Prop :=
  ∀ e env, (ev e env).Rebinds e.assigned env

variable {names : Set String} (h : EvalRebinds ev)

include h

theorem evalOperands_rebinds {es : List Expr} (hs : ∀ e ∈ es, e.assigned ⊆ names)
    (env : Environment) : (evalOperands ev es env).Rebinds names env := by
  induction es generalizing env with
  | nil => exact .refl names env
  | cons e es ih =>
    rw [List.forall_mem_cons] at hs
    rw [evalOperands_cons]
    refine Outcome.Rebinds.bind ((h e env).mono hs.1) fun v env' => ?_
    exact Outcome.Rebinds.bind (ih hs.2 env') fun vs env'' => .refl names env''

theorem evalSequence_rebinds {es : List Expr} (hs : ∀ e ∈ es, e.assigned ⊆ names) (last : Value)
    (env : Environment) : (evalSequence ev last es env).Rebinds names env := by
  induction es generalizing last env with
  | nil => exact .refl names env
  | cons e es ih =>
    rw [List.forall_mem_cons] at hs
    rw [evalSequence_cons]
    exact Outcome.Rebinds.bind ((h e env).mono hs.1) fun v env' => ih hs.2 v env'

theorem evalClauses_rebinds {clauses : List Expr} (hs : ∀ e ∈ clauses, e.assigned ⊆ names)
    (env : Environment) : (evalClauses ev clauses env).Rebinds names env := by
  induction clauses generalizing env with
  | nil => exact .refl names env
  | cons clause clauses ih =>
    rw [List.forall_mem_cons] at hs
    cases clause with
    | integer n => exact .refl names env
    | text t => exact .refl names env
    | list items =>
      cases items with
      | nil => exact ih hs.2 env
      | cons test body =>
        have hi : ∀ e ∈ test :: body, e.assigned ⊆ names :=
          fun e he => (Expr.assigned_subset_of_mem he).trans hs.1
        rw [List.forall_mem_cons] at hi
        rw [evalClauses_cons]
        split
        · exact evalSequence_rebinds h hi.2 .nil env
        · refine Outcome.Rebinds.bind ((h test env).mono hi.1) fun v env' => ?_
          split
          · exact evalSequence_rebinds h hi.2 .nil env'
          · exact ih hs.2 env'

theorem evalSetq_rebinds (operands : List Expr) (env : Environment) :
    (evalSetq ev operands env).Rebinds (Expr.list (.text "setq" :: operands)).assigned env := by
  by_cases hl : operands.length = 2
  · obtain ⟨target, e, rfl⟩ := List.length_eq_two.1 hl
    rw [evalSetq_pair]
    cases ht : target.symbolName? with
    | none => exact .refl _ env
    | some name =>
      rw [Expr.eq_text_of_symbolName? ht]
      have he : e.assigned ⊆ (Expr.list [.text "setq", .text name, e]).assigned :=
        Expr.assigned_subset_of_mem (by simp)
      exact Outcome.Rebinds.bind ((h e env).mono he) fun v env' =>
        .define (Expr.mem_assigned (.inl rfl) [e]) env' v
  · rw [evalSetq_of_length_ne ev hl]
    exact .refl _ env

omit h in
theorem evalDefun_rebinds (operands : List Expr) (env : Environment) :
    (evalDefun operands env).Rebinds (Expr.list (.text "defun" :: operands)).assigned env := by
  unfold evalDefun
  split
  · rename_i name params e es
    split
    · exact .refl _ env
    · rename_i c hc
      rw [eq_text_of_closureOf hc]
      exact .define (Expr.mem_assigned (.inr rfl) (params :: e :: es)) env _
  · exact .refl _ env

theorem evalOperator_rebinds {operands : List Expr} (hs : ∀ e ∈ operands, e.assigned ⊆ names)
    (op : Operator) (env : Environment) : (evalOperator ev op operands env).Rebinds names env := by
  rw [evalOperator_eq]
  exact Outcome.Rebinds.bind (evalOperands_rebinds h hs env) fun args env' => .refl names env'

variable [Host]

/-- A call binds nothing but what its operands bind. -/
theorem evalCall_rebinds {operands : List Expr} (hs : ∀ e ∈ operands, e.assigned ⊆ names)
    (name : String) (env : Environment) : (evalCall ev name operands env).Rebinds names env := by
  rw [evalCall_eq]
  split
  · exact .refl names env
  · exact Outcome.Rebinds.bind (evalOperands_rebinds h hs env) fun args env' => .refl names env'
  · exact .refl names env

theorem evalForm_rebinds (name : String) (operands : List Expr) (env : Environment) :
    (evalForm ev name operands env).Rebinds (Expr.list (.text name :: operands)).assigned env := by
  have hs : ∀ e ∈ operands, e.assigned ⊆ (Expr.list (.text name :: operands)).assigned :=
    fun e he => Expr.assigned_subset_of_mem (List.mem_cons_of_mem _ he)
  unfold evalForm
  split
  · rename_i hf
    rw [← SpecialForm.name_of_ofName? hf]
    exact evalSetq_rebinds h operands env
  · rename_i hf
    rw [← SpecialForm.name_of_ofName? hf]
    exact evalDefun_rebinds operands env
  · exact .refl _ env
  · exact evalClauses_rebinds h hs env
  · split
    · exact evalOperator_rebinds h hs _ env
    · exact evalCall_rebinds h hs name env

theorem evalExpr_rebinds (e : Expr) (env : Environment) :
    (evalExpr ev e env).Rebinds e.assigned env := by
  unfold evalExpr
  split
  · exact .refl _ env
  · exact .refl _ env
  · exact .refl _ env
  · exact evalForm_rebinds h _ _ env
  · exact .refl _ env

end Forms

/-- Evaluation on any number of levels binds only what is assigned in the expression. -/
theorem eval_rebinds [Host] (limit n : Nat) : EvalRebinds (eval limit n) := by
  induction n with
  | zero => exact fun e env => .refl _ env
  | succ n ih => exact evalExpr_rebinds ih

/-- Whether evaluation fails or not, under any limit and for any host: a name whose binding has
changed is assigned in the expression, no binding is lost, and an expression that holds no list that
begins with `setq` or `defun` leaves the environment as it was, whatever the functions do that it
calls. -/
theorem Evaluator.evaluate_frame [Host] (evaluator : Evaluator) (e : Expr) (env : Environment) :
    (∀ name, (evaluator.evaluate e env).2.get? name ≠ env.get? name → name ∈ e.assigned) ∧
    (∀ name, env.contains name = true → (evaluator.evaluate e env).2.contains name = true) ∧
    ((∀ head items, .list (.text head :: items) ∈ e.parts → head ≠ "setq" ∧ head ≠ "defun") →
      (evaluator.evaluate e env).2 = env) := by
  have hr : env.Rebinds e.assigned (evaluator.evaluate e env).2 := eval_rebinds _ _ e env
  refine ⟨fun name hne => ?_, fun name hc => hr.contains hc, fun hno => ?_⟩
  · by_contra hn
    exact hne (hr.get?_eq hn)
  · refine hr.eq_of_empty fun name hn => ?_
    obtain ⟨head, rest, hh, hp⟩ := hn
    obtain ⟨hs, hd⟩ := hno head _ hp
    exact hh.elim hs hd

/-- A function that binds a name of its caller and itself. -/
def intrusive : Closure :=
  ⟨"f", ["x"], [.list [.text "setq", .text "y", .text "x"],
    .list [.text "defun", .text "f", .list [], .integer 0], .text "y"]⟩

/-- The operators, `intrusive` and the name that it binds. -/
def intrusiveEnv : Environment :=
  (Environment.initial.define intrusive.name (.callable (.closure intrusive))).define "y"
    (.integer 1)

/-- Two calls of `intrusive`, one as the operand of the other, leave its caller as it was. -/
theorem intrusive_call_frame :
    let e : Expr := .list [.text "f", .list [.text "f", .integer 5]]
    (∀ head items, .list (.text head :: items) ∈ e.parts → head ≠ "setq" ∧ head ≠ "defun") ∧
      (⟨4⟩ : Evaluator).evaluate e intrusiveEnv = (.ok (.integer 5), intrusiveEnv) := by
  intro e
  have hno : ∀ head items, .list (.text head :: items) ∈ e.parts →
      head ≠ "setq" ∧ head ≠ "defun" := by
    intro head items hm
    have hf : head = "f" := by
      simp only [e, Expr.parts, Expr.partsOfItems] at hm
      simp at hm
      rcases hm with h | h <;> exact h.1
    rw [hf]
    decide
  have hv : ((⟨4⟩ : Evaluator).evaluate e intrusiveEnv).1 = .ok (.integer 5) := by decide +kernel
  exact ⟨hno, Prod.ext hv ((Evaluator.evaluate_frame ⟨4⟩ e intrusiveEnv).2.2 hno)⟩

end SmallLisp
