import SmallLisp.Proofs.Eval.HostFree
import SmallLisp.Proofs.Value.Closures

/-!
# Evaluation without functions of programs

A value is of first order if no closure and no function of the host occurs in
it. Where only such values are bound, and an expression defines no function,
nothing but operators is called, and these take no levels. So levels as many as
the expression is high are enough (`Outcome.Ends`), and what is bound stays of
first order (`eval_ends`): this is an invariant of the expressions that fit
(`invariant_firstOrder`), since a level is spent on parts of a smaller height
(`Expr.Fits.of_mem_succ`).
-/

namespace SmallLisp

variable {α β : Type}

/-! ## Expressions and values of first order -/

namespace Expr

/-- The name that a list begins with. -/
def head? : Expr → Option String
  | list (text t :: _) => some t
  | _ => none

/-- No list in the expression begins with `defun`. -/
def NoDefun (e : Expr) : Prop := ∀ p ∈ e.parts, p.head? ≠ some "defun"

instance (e : Expr) : Decidable e.NoDefun :=
  inferInstanceAs (Decidable (∀ p ∈ e.parts, p.head? ≠ some "defun"))

/-- The expression is at most so high and defines no function. -/
structure Fits (n : Nat) (e : Expr) : Prop where
  height_le : e.height ≤ n
  noDefun : e.NoDefun

theorem NoDefun.of_mem {e : Expr} {items : List Expr} (h : NoDefun (list items))
    (he : e ∈ items) : e.NoDefun :=
  fun p hp => h p (mem_parts_trans hp (mem_parts_of_mem he))

theorem NoDefun.name_ne {name : String} {operands : List Expr}
    (h : NoDefun (list (text name :: operands))) : name ≠ "defun" := by
  rintro rfl
  exact h _ (mem_parts_self _) rfl

namespace Fits

variable {n : Nat} {e : Expr} {items : List Expr}

/-- The items of a list are less high than the list. -/
theorem of_mem_succ (h : Fits (n + 1) (list items)) (he : e ∈ items) : e.Fits n := by
  have hle := h.height_le
  rw [height] at hle
  exact ⟨heightOfItems_le.1 (by omega) e he, h.noDefun.of_mem he⟩

theorem of_mem (h : Fits n (list items)) (he : e ∈ items) : e.Fits n :=
  of_mem_succ ⟨Nat.le_succ_of_le h.height_le, h.noDefun⟩ he

theorem mono {m : Nat} (h : Fits n e) (hn : n ≤ m) : e.Fits m :=
  ⟨h.height_le.trans hn, h.noDefun⟩

end Fits

end Expr

/-- No closure and no function of the host occurs in the value. -/
structure Value.IsFirstOrder (v : Value) : Prop where
  closures : v.closures = []
  hostFree : v.HostFree

/-- Only values of first order are bound. -/
def Environment.IsFirstOrder (env : Environment) : Prop :=
  env.All (fun _ => True) Value.IsFirstOrder

namespace Value

theorem isFirstOrder_nil : Value.nil.IsFirstOrder := ⟨rfl, hostFree_nil⟩

theorem isFirstOrder_str (s : String) : (str s).IsFirstOrder := ⟨rfl, hostFree_str s⟩

theorem isFirstOrder_toValue (e : Expr) : e.toValue.IsFirstOrder :=
  ⟨e.closures_toValue, hostFree_toValue e⟩

theorem IsScalar.isFirstOrder {v : Value} (h : v.IsScalar) : v.IsFirstOrder :=
  ⟨h.closures, h.hostFree⟩

theorem not_isFirstOrder_closure (c : Closure) : ¬ (callable (.closure c)).IsFirstOrder := by
  rintro ⟨h, -⟩
  cases h

end Value

/-! ## Levels are enough -/

/-- The levels have not run out, the value, if there is one, satisfies the predicate, and what is
bound is of first order. -/
abbrev Outcome.Ends (p : α → Prop) (o : Outcome α) : Prop :=
  o.Keeps (fun _ => True) Value.IsFirstOrder (fun x => ∀ limit, x ≠ .depthExceeded limit) p

theorem Outcome.Ends.not_exhausted {p : α → Prop} {o : Outcome α} (h : o.Ends p) :
    ¬ Exhausted o.1 :=
  not_exhausted_iff.2 h.error

theorem invariant_firstOrder [Host] : Invariant (fun _ => True) Value.IsFirstOrder
    (fun x => ∀ limit, x ≠ .depthExceeded limit) Expr.Fits where
  fitting := ⟨Expr.Fits.of_mem_succ, Expr.Fits.of_mem, fun hc =>
    absurd hc (Value.not_isFirstOrder_closure _)⟩
  nil := Value.isFirstOrder_nil
  str := Value.isFirstOrder_str
  scalar := Value.IsScalar.isFirstOrder
  toValue := Value.isFirstOrder_toValue
  symbolName _ := trivial
  closureOf hfit _ := absurd rfl hfit.noDefun.name_ne
  params hc := absurd hc (Value.not_isFirstOrder_closure _)
  call hb _ := (Builtin.yields_call_of_hostFree hb.hostFree _).mono fun _ hv => hv.isFirstOrder
  error hx := hx
  callError hb hx :=
    not_exhausted_iff.1 (Builtin.not_exhausted_call_of_hostFree hb.hostFree _) _ hx

/-- Levels as many as an expression is high are enough for it. -/
theorem eval_ends [Host] (limit n : Nat) {e : Expr} {env : Environment} (he : e.Fits n)
    (henv : env.IsFirstOrder) : (eval limit n e env).Ends Value.IsFirstOrder :=
  invariant_firstOrder.eval_keeps (fun e he => absurd he.height_le (Nat.not_le.2 e.height_pos)) n
    e env he henv

end SmallLisp
