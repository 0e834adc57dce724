import SmallLisp.Proofs.Operator.Results

/-!
# What counts as true

The truth value counts as true, and so does every number other than zero
(`Value.CountsTrue`). This is what `Value.isTruthy` decides
(`Value.isTruthy_iff`).
-/

namespace SmallLisp

theorem Binary64.isZero_iff_eq_zero {x : Binary64} :
    x.isZero = true ↔ x = .zero false ∨ x = .zero true := by
  cases x with
  | nan => simp [Binary64.isZero, Binary64.zero]
  | infinite s => simp [Binary64.isZero, Binary64.zero]
  | finite s n hn => cases s <;> simp [Binary64.isZero, Binary64.zero]

namespace Value

/-- The integer zero or the float zero of a sign. -/
def IsZero (v : Value) : Prop := v = integer 0 ∨ v = float (.zero false) ∨ v = float (.zero true)
deriving Decidable

/-- The truth value, or a number other than zero. What is not a number although it is a float is
other than zero. -/
inductive CountsTrue : Value → Prop
  | bool : CountsTrue (.bool true)
  | number {v : Value} : v.isNumber = true → ¬ v.IsZero → CountsTrue v

theorem isTruthy_iff {v : Value} : v.isTruthy = true ↔ v.CountsTrue := by
  constructor
  · intro h
    cases v with
    | bool b =>
      obtain rfl : b = true := h
      exact .bool
    | integer n => exact .number rfl (by simpa [IsZero] using bne_iff_ne.1 h)
    | float x =>
      refine .number rfl fun hz => ?_
      have hx : x.isZero = true := Binary64.isZero_iff_eq_zero.2 (by simpa [IsZero] using hz)
      rw [isTruthy, hx] at h
      cases h
    | _ => cases h
  · intro h
    cases h with
    | bool => rfl
    | number hn hz =>
      cases v with
      | integer n => exact bne_iff_ne.2 fun e => hz (.inl (congrArg _ e))
      | float x =>
        have hx : ¬ x.isZero = true := fun hx =>
          hz (.inr ((Binary64.isZero_iff_eq_zero.1 hx).imp (congrArg _) (congrArg _)))
        rw [isTruthy, Bool.eq_false_iff.2 hx]
        rfl
      | _ => cases hn

theorem isTruthy_eq_false_iff {v : Value} : v.isTruthy = false ↔ ¬ v.CountsTrue := by
  rw [← isTruthy_iff, Bool.not_eq_true]

end Value

end SmallLisp
