import SmallLisp.Proofs.Expr.Parts
import SmallLisp.Proofs.Expr.Reads
import SmallLisp.Proofs.Operator.Results

/-!
# What values hold

`Value.parts` lists a value and all that it holds. A value in which no function
of the host occurs is `Value.HostFree`: every builtin in it runs an operator.
Data is such a value, and so is what an operator gives.
-/

namespace SmallLisp

namespace Value

mutual

/-- A value and all that it holds, itself first. -/
def parts : Value → List Value
  | list items => list items :: partsOfItems items
  | v => [v]

/-- All that some values are and hold. -/
def partsOfItems : List Value → List Value
  | [] => []
  | v :: vs => parts v ++ partsOfItems vs

end

theorem mem_partsOfItems {p : Value} {vs : List Value} :
    p ∈ partsOfItems vs ↔ ∃ v ∈ vs, p ∈ v.parts := by
  induction vs with
  | nil => simp [partsOfItems]
  | cons v vs ih => simp [partsOfItems, ih]

theorem mem_parts_self (v : Value) : v ∈ v.parts := by
  cases v <;> exact List.mem_cons_self

/-- Data holds data only. -/
theorem exists_toValue_of_mem_parts {e : Expr} {p : Value} (h : p ∈ e.toValue.parts) :
    ∃ e' : Expr, p = e'.toValue := by
  induction e with
  | integer n => exact ⟨.integer n, List.mem_singleton.1 h⟩
  | text t => exact ⟨.text t, List.mem_singleton.1 h⟩
  | list items ih =>
    rw [Expr.toValue, parts, List.mem_cons, mem_partsOfItems, Expr.toValues_eq_map] at h
    rcases h with rfl | ⟨v, hv, hp⟩
    · exact ⟨.list items, by rw [Expr.toValue, Expr.toValues_eq_map]⟩
    · obtain ⟨e, he, rfl⟩ := List.mem_map.1 hv
      exact ih e he hp

/-! ## Values without functions of the host -/

/-- The number of the host's function that a value is. -/
def host? : Value → Option Nat
  | callable (.builtin ⟨_, _, .host id⟩) => some id
  | _ => none

/-- No function of the host occurs in the value. -/
def HostFree (v : Value) : Prop := ∀ p ∈ v.parts, p.host? = none

instance (v : Value) : Decidable v.HostFree :=
  inferInstanceAs (Decidable (∀ p ∈ v.parts, p.host? = none))

/-- A value that holds nothing but itself. -/
theorem hostFree_iff_of_parts {v : Value} (h : v.parts = [v]) : v.HostFree ↔ v.host? = none := by
  rw [HostFree, h, List.forall_mem_singleton]

/-- The builtins that are free of the host are those that run an operator. -/
theorem hostFree_builtin {b : Builtin} :
    (callable (.builtin b)).HostFree ↔ ∃ op, b.primitive = .operator op := by
  rw [hostFree_iff_of_parts rfl]
  obtain ⟨name, arity, op | id⟩ := b
  · exact iff_of_true rfl ⟨op, rfl⟩
  · exact iff_of_false nofun nofun

theorem hostFree_operator (op : Operator) : (callable (.builtin op.builtin)).HostFree :=
  hostFree_builtin.2 ⟨op, rfl⟩

theorem hostFree_nil : Value.nil.HostFree := (hostFree_iff_of_parts rfl).2 rfl

theorem hostFree_str (s : String) : (str s).HostFree := (hostFree_iff_of_parts rfl).2 rfl

theorem hostFree_closure (c : Closure) : (callable (.closure c)).HostFree :=
  (hostFree_iff_of_parts rfl).2 rfl

theorem IsScalar.hostFree {v : Value} (h : v.IsScalar) : v.HostFree := by
  cases h <;> exact (hostFree_iff_of_parts rfl).2 rfl

theorem hostFree_toValue (e : Expr) : e.toValue.HostFree := by
  intro p hp
  obtain ⟨e', rfl⟩ := exists_toValue_of_mem_parts hp
  cases e' <;> rfl

end Value

/-- What a builtin that runs an operator gives is a number or a truth value. -/
theorem Builtin.yields_call_of_hostFree [Host] {b : Builtin}
    (h : (Value.callable (.builtin b)).HostFree) (args : List Value) :
    Yields Value.IsScalar (b.call args) := by
  obtain ⟨op, hop⟩ := Value.hostFree_builtin.1 h
  refine .of_bind fun _ => ?_
  rw [hop]
  exact op.yields_apply args

end SmallLisp
