import SmallLisp.Proofs.Number.Order
import SmallLisp.Proofs.Operator.Exact
import SmallLisp.Proofs.Value.Truth

/-!
# Faults of arithmetic

Arithmetic fails on no arguments, on an argument that is no number, and, if it
divides, on a zero divisor; of these the earlier one counts (`Operator.fault?`).
All arguments are looked at as numbers before any is used
(`Operator.mapM_toNumber_of_find?`), so a zero divisor in front of an argument
that is no number does not show. `Operator.calls_fault`: arithmetic fails with
the fault that there is, and otherwise gives a number.
-/

namespace SmallLisp

namespace Value

variable {v : Value} {x : Binary64}

theorem toNumber_of_not_isNumber (h : v.isNumber = false) :
    v.toNumber = .error (.typeMismatch .number v) := by
  cases v <;> first | rfl | cases h

theorem isNumber_ofNumber (x : Binary64) : (ofNumber x).isNumber = true := by
  obtain ⟨y, hy, -⟩ := exists_number?_ofNumber x
  exact isNumber_iff.2 ⟨y, hy⟩

/-- A number is zero just if its number in binary64 is. -/
theorem isZero_of_number? (h : v.number? = some x) : x.isZero = true ↔ v.IsZero := by
  cases v with
  | integer n =>
    obtain rfl := Option.some.inj h
    rw [Binary64.isZero_iff (Binary64.value?_ofInt_toInt n), Binary64.rounded_eq_zero_iff]
    simp [IsZero, ← Int64.toInt_inj]
  | float y =>
    obtain rfl := Option.some.inj h
    simp [IsZero, Binary64.isZero_iff_eq_zero]
  | _ => cases h

end Value

namespace Operator

/-- The only number is divided by if there is no other one, else all but the first. -/
def divisors : List Value → List Value
  | [v] => [v]
  | args => args.tail

theorem mem_of_mem_divisors {v : Value} {args : List Value} (h : v ∈ divisors args) : v ∈ args := by
  unfold divisors at h
  split at h
  · exact h
  · exact List.mem_of_mem_tail h

/-- What is at fault with the arguments of arithmetic. -/
def fault? (op : Operator) (args : List Value) : Option EvalError :=
  if args.isEmpty then some (.arity op.name (.atLeast 1) 0)
  else match args.find? (!·.isNumber) with
    | some v => some (.typeMismatch .number v)
    | none => if op = div ∧ ∃ v ∈ divisors args, v.IsZero then some .divisionByZero else none

variable {op : Operator} {args : List Value}

theorem fault?_of_find? {v : Value} (hne : args ≠ []) (h : args.find? (!·.isNumber) = some v) :
    op.fault? args = some (.typeMismatch .number v) := by
  rw [fault?, if_neg (by simpa using hne), h]

theorem fault?_of_numbers (hne : args ≠ []) (h : args.find? (!·.isNumber) = none) :
    op.fault? args =
      if op = div ∧ ∃ v ∈ divisors args, v.IsZero then some .divisionByZero else none := by
  rw [fault?, if_neg (by simpa using hne), h]

theorem mapM_toNumber_of_find? {v : Value} (h : args.find? (!·.isNumber) = some v) :
    args.mapM Value.toNumber = .error (.typeMismatch .number v) := by
  obtain ⟨hv, before, after, rfl, hb⟩ := List.find?_eq_some_iff_append.1 h
  rw [Bool.not_eq_true'] at hv
  refine mapM_append_of_error (fun w hw => ?_) (Value.toNumber_of_not_isNumber hv)
  have hw : w.isNumber = true := by simpa using hb w hw
  obtain ⟨x, hx⟩ := Value.isNumber_iff.1 hw
  exact ⟨x, Value.toNumber_of_number? hx⟩

/-! ## Division -/

theorem foldlM_divide_of_zero {ys : List Binary64} (h : ∃ y ∈ ys, y.isZero = true)
    (x : Binary64) : ys.foldlM divide x = .error .divisionByZero := by
  induction ys generalizing x with
  | nil => simp at h
  | cons y ys ih =>
    rw [List.foldlM_cons]
    by_cases hy : y.isZero = true
    · have hxy : divide x y = .error .divisionByZero := if_pos hy
      rw [hxy]
      rfl
    · have hxy : divide x y = .ok (x / y) := if_neg hy
      rw [hxy]
      exact ih (by simpa [hy] using h) (x / y)

/-- A quotient is a run of divisions by the divisors. -/
theorem exists_quotient_eq {v : Value} {vs : List Value} {x : Binary64}
    (h : ∀ w ∈ v :: vs, w.isNumber = true) (hx : v.number? = some x) :
    ∃ z, quotient x (vs.filterMap Value.number?) =
      ((divisors (v :: vs)).filterMap Value.number?).foldlM divide z := by
  cases vs with
  | nil =>
    -- A number alone is what one is divided by.
    refine ⟨.one, ?_⟩
    rw [divisors, List.filterMap_cons_some hx, List.filterMap_nil, List.foldlM_cons]
    exact (bind_pure _).symm
  | cons w ws =>
    obtain ⟨y, hy⟩ := Value.isNumber_iff.1 (h w (List.mem_cons_of_mem _ List.mem_cons_self))
    refine ⟨x, ?_⟩
    rw [divisors, List.tail_cons, List.filterMap_cons_some hy, quotient]
    · nofun
    · nofun

theorem exists_isZero_iff (h : ∀ v ∈ args, v.isNumber = true) :
    (∃ y ∈ args.filterMap Value.number?, y.isZero = true) ↔ ∃ v ∈ args, v.IsZero := by
  constructor
  · rintro ⟨y, hy, hz⟩
    obtain ⟨v, hv, hvy⟩ := List.mem_filterMap.1 hy
    exact ⟨v, hv, (Value.isZero_of_number? hvy).1 hz⟩
  · rintro ⟨v, hv, hz⟩
    obtain ⟨y, hy⟩ := Value.isNumber_iff.1 (h v hv)
    exact ⟨y, List.mem_filterMap.2 ⟨v, hv, hy⟩, (Value.isZero_of_number? hy).2 hz⟩

section Quotient

variable {v : Value} {vs : List Value} {x : Binary64} (h : ∀ w ∈ v :: vs, w.isNumber = true)
  (hx : v.number? = some x)

include h hx

theorem quotient_of_zero (hz : ∃ w ∈ divisors (v :: vs), w.IsZero) :
    quotient x (vs.filterMap Value.number?) = .error .divisionByZero := by
  obtain ⟨z, hq⟩ := exists_quotient_eq h hx
  have hd : ∀ w ∈ divisors (v :: vs), w.isNumber = true := fun w hw => h w (mem_of_mem_divisors hw)
  rw [hq]
  exact foldlM_divide_of_zero ((exists_isZero_iff hd).2 hz) z

theorem exists_quotient_of_not_zero (hz : ¬ ∃ w ∈ divisors (v :: vs), w.IsZero) :
    ∃ q, quotient x (vs.filterMap Value.number?) = .ok q := by
  obtain ⟨z, hq⟩ := exists_quotient_eq h hx
  have hd : ∀ w ∈ divisors (v :: vs), w.isNumber = true := fun w hw => h w (mem_of_mem_divisors hw)
  have hn : ∀ y ∈ (divisors (v :: vs)).filterMap Value.number?, y.isZero = false := by
    intro y hy
    rw [← Bool.not_eq_true]
    exact fun hyz => hz ((exists_isZero_iff hd).1 ⟨y, hy, hyz⟩)
  exact ⟨_, hq.trans (foldlM_divide hn z)⟩

end Quotient

/-! ## Outcomes -/

/-- What is computed of numbers: a quotient by division, a value in any case otherwise. -/
theorem exists_apply_eq (hop : op ∈ [add, sub, mul, div]) (args : List Value) :
    ∃ f, op.apply args = op.arithmetic f args ∧ (op = div → f = quotient) ∧
      (op ≠ div → ∀ x ys, ∃ z, f x ys = .ok z) := by
  simp only [List.mem_cons, List.not_mem_nil, or_false] at hop
  rcases hop with rfl | rfl | rfl | rfl
  · exact ⟨_, rfl, nofun, fun _ x ys => ⟨_, rfl⟩⟩
  · exact ⟨_, rfl, nofun, fun _ x ys => ⟨_, rfl⟩⟩
  · exact ⟨_, rfl, nofun, fun _ x ys => ⟨_, rfl⟩⟩
  · exact ⟨_, rfl, fun _ => rfl, fun hne => absurd rfl hne⟩

theorem arithmetic_of_numbers {f : Binary64 → List Binary64 → Except EvalError Binary64}
    {v : Value} {vs : List Value} {x : Binary64} (h : ∀ w ∈ v :: vs, w.isNumber = true)
    (hx : v.number? = some x) :
    op.arithmetic f (v :: vs) = (f x (vs.filterMap Value.number?)).map .ofNumber := by
  rw [arithmetic, mapM_toNumber_of_numbers h, List.filterMap_cons_some hx]
  show (f x (vs.filterMap Value.number?) >>= fun z => pure (Value.ofNumber z)) = _
  cases f x (vs.filterMap Value.number?) <;> rfl

/-- Arithmetic fails with a fault of its arguments if they have one, and else gives a number. -/
theorem call_cases (hop : op ∈ [add, sub, mul, div]) (args : List Value) :
    (∃ x, op.fault? args = some x ∧ op.call args = .error x) ∨
      (op.fault? args = none ∧ ∃ v, op.call args = .ok v ∧ v.isNumber = true) := by
  obtain ⟨f, hf, hdiv, hother⟩ := exists_apply_eq hop args
  rw [call_eq_apply, hf]
  cases args with
  | nil => exact .inl ⟨_, rfl, op.arithmetic_nil f⟩
  | cons v vs =>
    cases hfind : (v :: vs).find? (!·.isNumber) with
    | some w =>
      refine .inl ⟨_, fault?_of_find? (List.cons_ne_nil v vs) hfind, ?_⟩
      rw [arithmetic, mapM_toNumber_of_find? hfind]
      rfl
    | none =>
      -- Only numbers are left, so that just a divisor can be at fault.
      have hn : ∀ w ∈ v :: vs, w.isNumber = true := by simpa using hfind
      obtain ⟨x, hx⟩ := Value.isNumber_iff.1 (hn v List.mem_cons_self)
      rw [arithmetic_of_numbers hn hx, fault?_of_numbers (List.cons_ne_nil v vs) hfind]
      by_cases hz : op = div ∧ ∃ w ∈ divisors (v :: vs), w.IsZero
      · refine .inl ⟨_, if_pos hz, ?_⟩
        rw [hdiv hz.1, quotient_of_zero hn hx hz.2]
        rfl
      · have hok : ∃ z, f x (vs.filterMap Value.number?) = .ok z := by
          by_cases hop : op = div
          · rw [hdiv hop]
            exact exists_quotient_of_not_zero hn hx fun h => hz ⟨hop, h⟩
          · exact hother hop x _
        obtain ⟨z, hz'⟩ := hok
        refine .inr ⟨if_neg hz, .ofNumber z, ?_, Value.isNumber_ofNumber z⟩
        rw [hz']
        rfl

/-- Arithmetic fails just with the fault that its arguments have, and gives a number just if they
have none; nothing else comes of it. The text about an argument that is no number shows it as it is
printed. -/
theorem calls_fault (hop : op ∈ [add, sub, mul, div]) (args : List Value) :
    (∀ x, op.call args = .error x ↔ op.fault? args = some x) ∧
      ((∃ v, op.call args = .ok v ∧ v.isNumber = true) ↔ op.fault? args = none) ∧
      (∀ v, op.call args = .ok v → v.isNumber = true) ∧
      ∀ v : Value, (EvalError.typeMismatch .number v).message =
        "expected a number, got " ++ toString v := by
  have hwords : "expected " ++ Expected.number.text ++ ", got " = "expected a number, got " := by
    decide
  have htext : ∀ v : Value, (EvalError.typeMismatch .number v).message =
      "expected a number, got " ++ toString v := fun v => congrArg (· ++ toString v) hwords
  rcases call_cases hop args with ⟨x, hx, hc⟩ | ⟨hx, v, hc, hn⟩
  · simp [hx, hc, htext]
  · simp [hx, hc, hn, htext]

/-- A text behind a zero divisor, a zero without anything to divide and one behind other divisors,
no argument at all, and a zero that is divided. -/
theorem calls_fault_inOrder :
    div ∈ [add, sub, mul, div] ∧
      div.call [.integer 1, .integer 0, .str "x", .nil] =
        .error (.typeMismatch .number (.str "x")) ∧
      (EvalError.typeMismatch .number (.str "x")).message = "expected a number, got x" ∧
      div.call [.float (.zero true)] = .error .divisionByZero ∧
      div.call [.integer 7, .float .one, .integer 0] = .error .divisionByZero ∧
      div.call [] = .error (.arity "/" (.atLeast 1) 0) ∧
      ∃ v, div.call [.integer 0, .float .one] = .ok v ∧ v.isNumber = true := by
  have hop : div ∈ [add, sub, mul, div] := by decide
  refine ⟨hop, ?_, ?_, ?_, ?_, ?_, ?_⟩
  · exact ((calls_fault hop _).1 _).2 (by decide +kernel)
  · exact ((calls_fault hop []).2.2.2 (.str "x")).trans (by decide +kernel)
  · exact ((calls_fault hop _).1 _).2 (by decide +kernel)
  · exact ((calls_fault hop _).1 _).2 (by decide +kernel)
  · exact ((calls_fault hop _).1 _).2 (by decide +kernel)
  · exact (calls_fault hop _).2.1.2 (by decide +kernel)

end Operator

end SmallLisp
