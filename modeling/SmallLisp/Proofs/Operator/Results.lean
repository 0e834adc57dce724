import SmallLisp.Operator.Apply

/-!
# What operators give

`Yields p r`: the value of `r`, if it has one, satisfies `p`; this goes through
a sequence of steps (`Yields.bind`). The value of an operator is a number or a
truth value (`Operator.yields_call`). Arguments that are numbers are all looked
at as such (`mapM_toNumber_of_numbers`).
-/

namespace SmallLisp

variable {α β : Type}

/-- The value of the result, if it has one, satisfies the predicate. -/
def Yields (p : α → Prop) (r : Except EvalError α) : Prop := ∀ a, r = .ok a → p a

namespace Yields

variable {p q : α → Prop} {p' : β → Prop}

theorem ok {a : α} (h : p a) : Yields p (.ok a) := by
  intro b hb
  cases hb
  exact h

theorem error (x : EvalError) : Yields p (.error x) := nofun

theorem bind {r : Except EvalError α} {k : α → Except EvalError β} (h : Yields p r)
    (hk : ∀ a, p a → Yields p' (k a)) : Yields p' (r >>= k) := by
  cases r with
  | error x => exact error x
  | ok a => exact hk a (h a rfl)

/-- A step whose value does not matter. -/
theorem of_bind {r : Except EvalError α} {k : α → Except EvalError β}
    (hk : ∀ a, Yields p' (k a)) : Yields p' (r >>= k) :=
  bind (p := fun _ => True) (fun _ _ => trivial) fun a _ => hk a

theorem mono {r : Except EvalError α} (h : Yields p r) (hq : ∀ a, p a → q a) : Yields q r :=
  fun a ha => hq a (h a ha)

end Yields

/-- A number or a truth value. -/
inductive Value.IsScalar : Value → Prop
  | integer (n : Int64) : IsScalar (.integer n)
  | float (x : Binary64) : IsScalar (.float x)
  | bool (b : Bool) : IsScalar (.bool b)

theorem Value.isScalar_ofNumber (x : Binary64) : (Value.ofNumber x).IsScalar := by
  unfold ofNumber
  split
  · split
    · exact .integer _
    · exact .float x
  · exact .float x

namespace Operator

/-- Arithmetic gives a number in its narrowest form. -/
theorem yields_arithmetic (op : Operator)
    (f : Binary64 → List Binary64 → Except EvalError Binary64) (args : List Value) :
    Yields (fun v => ∃ x, v = .ofNumber x) (op.arithmetic f args) := by
  refine .of_bind fun xs => ?_
  cases xs with
  | nil => exact .error _
  | cons x ys => exact .of_bind fun z => .ok ⟨z, rfl⟩

/-- So do the operators of arithmetic. -/
theorem yields_call_of_arithmetic {op : Operator} (h : op ∈ [add, sub, mul, div])
    (args : List Value) : Yields (fun v => ∃ x, v = .ofNumber x) (op.call args) := by
  refine .of_bind fun _ => ?_
  simp only [List.mem_cons, List.not_mem_nil, or_false] at h
  rcases h with rfl | rfl | rfl | rfl <;> exact yields_arithmetic _ _ args

theorem yields_comparison (op : Operator) (holds : Binary64 → Binary64 → Bool)
    (args : List Value) : Yields Value.IsScalar (op.comparison holds args) := by
  unfold comparison
  split
  · exact .of_bind fun x => .of_bind fun y => .ok (.bool _)
  · exact .error _

theorem yields_predicate (op : Operator) (holds : Value → Bool) (args : List Value) :
    Yields Value.IsScalar (op.predicate holds args) := by
  unfold predicate
  split
  · exact .ok (.bool _)
  · exact .error _

theorem yields_apply (op : Operator) (args : List Value) :
    Yields Value.IsScalar (op.apply args) := by
  cases op with
  | add | sub | mul | div =>
    refine (yields_arithmetic _ _ args).mono ?_
    rintro v ⟨x, rfl⟩
    exact Value.isScalar_ofNumber x
  | numEq | numLt | numGt => exact yields_comparison _ _ args
  | atom | list => exact yields_predicate _ _ args
  | equal =>
    simp only [apply]
    split
    · exact .ok (.bool _)
    · exact .error _

theorem yields_call (op : Operator) (args : List Value) :
    Yields Value.IsScalar (op.call args) :=
  .of_bind fun _ => op.yields_apply args

end Operator

/-! ## Arguments as numbers -/

namespace Value

/-- An integer or a float. -/
def isNumber : Value → Bool
  | integer _ | float _ => true
  | _ => false

variable {v : Value} {x : Binary64}

theorem isNumber_iff : v.isNumber = true ↔ ∃ x, v.number? = some x := by
  cases v <;> simp [isNumber, number?]

theorem toNumber_of_number? (h : v.number? = some x) : v.toNumber = .ok x := by
  rw [toNumber, h]

end Value

theorem mapM_toNumber_of_numbers {args : List Value} (h : ∀ v ∈ args, v.isNumber = true) :
    args.mapM Value.toNumber = .ok (args.filterMap Value.number?) := by
  induction args with
  | nil => rfl
  | cons v args ih =>
    rw [List.forall_mem_cons] at h
    obtain ⟨x, hx⟩ := Value.isNumber_iff.1 h.1
    rw [List.mapM_cons, Value.toNumber_of_number? hx, ih h.2, List.filterMap_cons_some hx]
    rfl

end SmallLisp
