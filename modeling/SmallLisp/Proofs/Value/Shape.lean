import Mathlib.Data.List.Basic
import SmallLisp.Proofs.Eval.Invariant
import SmallLisp.Proofs.Value.Parts

/-!
# The shape of the values of programs

The values that programs make hold no symbols, their lists are data, their
builtins are the operators, and their closures have names and a body
(`Value.WellShaped`). Evaluation keeps this shape, whatever the host program is,
and binds names only (`invariant_wellShaped`).
-/

namespace SmallLisp

/-- A text that is not written like a string. -/
def IsName (name : String) : Prop := name.toList.head? ≠ some '"'
deriving Decidable

theorem Expr.isName_of_symbolName? {e : Expr} {name : String} (h : e.symbolName? = some name) :
    IsName name := by
  simpa [IsName] using (Option.filter_eq_some_iff.1 h).2

theorem Operator.isName_name (op : Operator) : IsName op.name := by
  cases op <;> decide

namespace Value

/-- An integer, a string or a list. -/
inductive IsDatum : Value → Prop
  | integer (n : Int64) : IsDatum (.integer n)
  | str (s : String) : IsDatum (.str s)
  | list (items : List Value) : IsDatum (.list items)

/-- The shape of the values that programs make. -/
structure WellShaped (v : Value) : Prop where
  no_symbol : ∀ s, .symbol s ∉ v.parts
  items : ∀ items, .list items ∈ v.parts → ∀ item ∈ items, item.IsDatum
  builtin : ∀ b, .callable (.builtin b) ∈ v.parts →
    ∃ op ∈ Operator.all, b = ⟨op.name, op.arity, .operator op⟩
  closure : ∀ c, .callable (.closure c) ∈ v.parts →
    c.body ≠ [] ∧ IsName c.name ∧ ∀ p ∈ c.params, IsName p

theorem isDatum_toValue (e : Expr) : e.toValue.IsDatum := by
  cases e with
  | integer n => exact .integer n
  | text t => exact .str _
  | list items => exact .list _

theorem wellShaped_toValue (e : Expr) : e.toValue.WellShaped := by
  have hd : ∀ p ∈ e.toValue.parts, p.IsDatum := fun p hp => by
    obtain ⟨e', rfl⟩ := exists_toValue_of_mem_parts hp
    exact isDatum_toValue e'
  refine ⟨fun s hs => (nomatch hd _ hs), fun items hi item hm => ?_,
    fun b hb => (nomatch hd _ hb), fun c hc => (nomatch hd _ hc)⟩
  obtain ⟨e', he⟩ := exists_toValue_of_mem_parts hi
  cases e' with
  | integer n => cases he
  | text t => cases he
  | list es =>
    rw [Expr.toValue, Expr.toValues_eq_map] at he
    obtain rfl := Value.list.inj he
    obtain ⟨e, -, rfl⟩ := List.mem_map.1 hm
    exact isDatum_toValue e

theorem wellShaped_nil : Value.nil.WellShaped := by
  constructor <;> intro _ h <;> cases List.mem_singleton.1 h

theorem wellShaped_str (s : String) : (Value.str s).WellShaped := by
  constructor <;> intro _ h <;> cases List.mem_singleton.1 h

theorem IsScalar.wellShaped {v : Value} (h : v.IsScalar) : v.WellShaped := by
  cases h <;> constructor <;> intro _ h <;> cases List.mem_singleton.1 h

theorem wellShaped_operator (op : Operator) :
    (Value.callable (.builtin op.builtin)).WellShaped := by
  refine ⟨fun s h => ?_, fun items h => ?_, fun b h => ?_, fun c h => ?_⟩
  · cases List.mem_singleton.1 h
  · cases List.mem_singleton.1 h
  · cases List.mem_singleton.1 h
    exact ⟨op, op.mem_all, rfl⟩
  · cases List.mem_singleton.1 h

theorem wellShaped_closure {c : Closure} (hb : c.body ≠ []) (hn : IsName c.name)
    (hp : ∀ p ∈ c.params, IsName p) : (Value.callable (.closure c)).WellShaped := by
  refine ⟨fun s h => ?_, fun items h => ?_, fun b h => ?_, fun d h => ?_⟩
  · cases List.mem_singleton.1 h
  · cases List.mem_singleton.1 h
  · cases List.mem_singleton.1 h
  · cases List.mem_singleton.1 h
    exact ⟨hb, hn, hp⟩

end Value

/-- A definition makes a closure whose names are names, with the body it is given. -/
theorem wellShaped_of_closureOf {name params : Expr} {body : List Expr} {c : Closure}
    (hb : body ≠ []) (h : closureOf name params body = .ok c) :
    (Value.callable (.closure c)).WellShaped := by
  have hspec := closureOf_spec name params body
  rw [h] at hspec
  cases hspec with
  | @names items f ps hf hps =>
    refine Value.wellShaped_closure hb (Expr.isName_of_symbolName? hf) fun p hp => ?_
    have hm : some p ∈ items.map Expr.symbolName? := hps ▸ List.mem_map_of_mem hp
    obtain ⟨item, -, hi⟩ := List.mem_map.1 hm
    exact Expr.isName_of_symbolName? hi

variable [Host]

/-- A builtin in such a value is an operator, so that it gives a number or a truth value. -/
theorem yields_call_of_wellShaped {b : Builtin} (h : (Value.callable (.builtin b)).WellShaped)
    (args : List Value) : Yields Value.WellShaped (b.call args) := by
  obtain ⟨op, -, rfl⟩ := h.builtin b (Value.mem_parts_self _)
  exact (op.yields_call args).mono fun v hv => hv.wellShaped

theorem invariant_wellShaped :
    Invariant IsName Value.WellShaped (fun _ => True) (fun _ _ => True) where
  fitting := .all _
  nil := Value.wellShaped_nil
  str := Value.wellShaped_str
  scalar := Value.IsScalar.wellShaped
  toValue := Value.wellShaped_toValue
  symbolName := Expr.isName_of_symbolName?
  closureOf _ := wellShaped_of_closureOf (List.cons_ne_nil _ _)
  params h := (h.closure _ (Value.mem_parts_self _)).2.2
  call h _ := yields_call_of_wellShaped h _
  error _ := trivial
  callError _ _ := trivial

theorem eval_wellShaped (limit n : Nat) :
    EvalKeeps IsName Value.WellShaped (fun _ => True) (fun _ => True) (eval limit n) :=
  invariant_wellShaped.eval_keeps (fun _ _ => trivial) n

end SmallLisp
