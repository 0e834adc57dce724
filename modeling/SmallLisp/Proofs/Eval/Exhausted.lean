import SmallLisp.Proofs.Eval.Outcome

/-!
# Running out of levels

A result that is the error about the limit (`Exhausted`) comes of levels that
have run out: neither operators give it, nor atoms, nor the parameter lists of
definitions, nor quoted data.
-/

namespace SmallLisp

variable {α β : Type}

/-- A result that says that the levels ran out. -/
def Exhausted (r : Except EvalError α) : Prop := ∃ limit, r = .error (.depthExceeded limit)

theorem not_exhausted_ok (a : α) : ¬ Exhausted (.ok a : Except EvalError α) := by
  rintro ⟨limit, h⟩
  cases h

theorem not_exhausted_error {x : EvalError} (h : ∀ limit, x ≠ .depthExceeded limit) :
    ¬ Exhausted (.error x : Except EvalError α) := by
  rintro ⟨limit, hx⟩
  exact h limit (Except.error.inj hx)

/-- A result that fails, if it does, for another reason. -/
theorem not_exhausted_iff {r : Except EvalError α} :
    ¬ Exhausted r ↔ ∀ x, r = .error x → ∀ limit, x ≠ .depthExceeded limit := by
  refine ⟨fun h x hx limit e => h ⟨limit, e ▸ hx⟩, fun h ⟨limit, hx⟩ => h _ hx limit rfl⟩

/-! ## Operators do not look at levels -/

theorem not_exhausted_bind {r : Except EvalError α} {k : α → Except EvalError β}
    (hr : ¬ Exhausted r) (hk : ∀ a, ¬ Exhausted (k a)) : ¬ Exhausted (r >>= k) := by
  cases r with
  | ok a => exact hk a
  | error x =>
    rintro ⟨limit, h⟩
    exact hr ⟨limit, congrArg _ (Except.error.inj h)⟩

theorem not_exhausted_mapM {f : α → Except EvalError β} (hf : ∀ a, ¬ Exhausted (f a))
    (as : List α) : ¬ Exhausted (as.mapM f) := by
  induction as with
  | nil => exact not_exhausted_ok _
  | cons a as ih =>
    rw [List.mapM_cons]
    exact not_exhausted_bind (hf a) fun b => not_exhausted_bind ih fun bs => not_exhausted_ok _

theorem not_exhausted_foldlM {f : β → α → Except EvalError β} (hf : ∀ b a, ¬ Exhausted (f b a))
    (as : List α) (b : β) : ¬ Exhausted (as.foldlM f b) := by
  induction as generalizing b with
  | nil => exact not_exhausted_ok _
  | cons a as ih =>
    rw [List.foldlM_cons]
    exact not_exhausted_bind (hf b a) ih

theorem not_exhausted_arity (name : String) (arity : Arity) (count : Nat) :
    ¬ Exhausted (.error (.arity name arity count) : Except EvalError α) :=
  not_exhausted_error nofun

theorem Arity.not_exhausted_check (arity : Arity) (name : String) (count : Nat) :
    ¬ Exhausted (arity.check name count) := by
  unfold Arity.check
  split
  · exact not_exhausted_ok _
  · exact not_exhausted_arity _ _ _

theorem Value.not_exhausted_toNumber (v : Value) : ¬ Exhausted v.toNumber := by
  unfold Value.toNumber
  split
  · exact not_exhausted_ok _
  · exact not_exhausted_error nofun

namespace Operator

theorem not_exhausted_divide (x y : Binary64) : ¬ Exhausted (divide x y) := by
  unfold divide
  split
  · exact not_exhausted_error nofun
  · exact not_exhausted_ok _

theorem not_exhausted_quotient (x : Binary64) (ys : List Binary64) :
    ¬ Exhausted (quotient x ys) := by
  unfold quotient
  split
  · exact not_exhausted_divide _ _
  · exact not_exhausted_foldlM not_exhausted_divide _ _

theorem not_exhausted_arithmetic (op : Operator)
    {f : Binary64 → List Binary64 → Except EvalError Binary64} (hf : ∀ x ys, ¬ Exhausted (f x ys))
    (args : List Value) : ¬ Exhausted (op.arithmetic f args) := by
  refine not_exhausted_bind (not_exhausted_mapM Value.not_exhausted_toNumber args) fun xs => ?_
  cases xs with
  | nil => exact not_exhausted_arity _ _ _
  | cons x ys => exact not_exhausted_bind (hf x ys) fun z => not_exhausted_ok _

theorem not_exhausted_comparison (op : Operator) (holds : Binary64 → Binary64 → Bool)
    (args : List Value) : ¬ Exhausted (op.comparison holds args) := by
  unfold comparison
  split
  · exact not_exhausted_bind (Value.not_exhausted_toNumber _) fun x =>
      not_exhausted_bind (Value.not_exhausted_toNumber _) fun y => not_exhausted_ok _
  · exact not_exhausted_arity _ _ _

theorem not_exhausted_predicate (op : Operator) (holds : Value → Bool) (args : List Value) :
    ¬ Exhausted (op.predicate holds args) := by
  unfold predicate
  split
  · exact not_exhausted_ok _
  · exact not_exhausted_arity _ _ _

theorem not_exhausted_apply (op : Operator) (args : List Value) : ¬ Exhausted (op.apply args) := by
  cases op with
  | add | sub | mul => exact not_exhausted_arithmetic _ (fun x ys => not_exhausted_ok _) args
  | div => exact not_exhausted_arithmetic _ not_exhausted_quotient args
  | numEq | numLt | numGt => exact not_exhausted_comparison _ _ args
  | atom | list => exact not_exhausted_predicate _ _ args
  | equal =>
    simp only [apply]
    split
    · exact not_exhausted_ok _
    · exact not_exhausted_arity _ _ _

theorem not_exhausted_call (op : Operator) (args : List Value) : ¬ Exhausted (op.call args) :=
  not_exhausted_bind (Arity.not_exhausted_check _ _ _) fun _ => op.not_exhausted_apply args

end Operator

/-! ## Atoms, parameter lists and quoted data do not look at levels -/

theorem not_exhausted_resolve (t : String) (env : Environment) : ¬ Exhausted (resolve t env) := by
  unfold resolve
  repeat' split
  all_goals first | exact not_exhausted_ok _ | exact not_exhausted_error nofun

theorem not_exhausted_evalQuote (operands : List Expr) : ¬ Exhausted (evalQuote operands) := by
  unfold evalQuote
  split
  · exact not_exhausted_ok _
  · exact not_exhausted_arity _ _ _

theorem not_exhausted_closureOf (name params : Expr) (body : List Expr) :
    ¬ Exhausted (closureOf name params body) := by
  have hc := closureOf_spec name params body
  generalize closureOf name params body = r at hc ⊢
  cases hc with
  | notName _ => exact not_exhausted_error nofun
  | notList _ _ => exact not_exhausted_error nofun
  | notNames _ _ _ => exact not_exhausted_error nofun
  | names _ _ => exact not_exhausted_ok _

end SmallLisp
