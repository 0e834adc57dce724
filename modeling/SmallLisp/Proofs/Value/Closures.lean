import SmallLisp.Proofs.Expr.Parts
import SmallLisp.Proofs.Expr.Reads
import SmallLisp.Proofs.Operator.Results

/-!
# Closures in values

`Value.closures` lists the closures that occur in a value at any depth, and
`Value.ReadsIn` says of them all that their bodies look up no names but some.
Data has no closures, and neither has what an operator gives.
-/

namespace SmallLisp

namespace Value

mutual

/-- The closures that occur in a value. -/
def closures : Value → List Closure
  | callable (.closure c) => [c]
  | list items => closuresOfItems items
  | _ => []

/-- The closures that occur in some values. -/
def closuresOfItems : List Value → List Closure
  | [] => []
  | v :: vs => closures v ++ closuresOfItems vs

end

/-- The bodies of the closures in the value look up no names but these. -/
def ReadsIn (names : Set String) (v : Value) : Prop :=
  ∀ c ∈ v.closures, ∀ e ∈ c.body, e.ReadsIn names

variable {names : Set String}

theorem closures_list {vs : List Value} :
    (list vs).closures = [] ↔ ∀ v ∈ vs, v.closures = [] := by
  rw [closures]
  induction vs with
  | nil => simp [closuresOfItems]
  | cons v vs ih => rw [closuresOfItems, List.append_eq_nil_iff, ih, List.forall_mem_cons]

theorem IsScalar.closures {v : Value} (h : v.IsScalar) : v.closures = [] := by
  cases h <;> rfl

theorem readsIn_of_closures_nil {v : Value} (h : v.closures = []) : v.ReadsIn names :=
  fun _ hc => absurd (h ▸ hc) List.not_mem_nil

theorem readsIn_nil : Value.nil.ReadsIn names := readsIn_of_closures_nil rfl

theorem readsIn_closure {c : Closure} :
    (callable (.closure c)).ReadsIn names ↔ ∀ e ∈ c.body, e.ReadsIn names := by
  rw [ReadsIn, closures, List.forall_mem_singleton]

theorem IsScalar.readsIn {v : Value} (h : v.IsScalar) : v.ReadsIn names :=
  readsIn_of_closures_nil h.closures

end Value

theorem Expr.closures_toValue (e : Expr) : e.toValue.closures = [] := by
  induction e with
  | integer n => rfl
  | text t => rfl
  | list items ih =>
    rw [toValue, toValues_eq_map, Value.closures_list, List.forall_mem_map]
    exact ih

end SmallLisp
