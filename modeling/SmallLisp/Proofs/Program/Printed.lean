import SmallLisp.Operator.Extension
import SmallLisp.Proofs.Number.Shortest
import SmallLisp.Proofs.Program.Numbers
import SmallLisp.Value.Print

/-!
# Printed numbers

A finite number is printed as one token of the number class
(`Value.IsFiniteNumber.isNumber_toString`). The text of an integer is folded when
it is read. That of a float has a point or an exponent, so it stays a text atom,
and is read as a number when it is evaluated, unless it is bound
(`Literal.number?_toString`). Either way the number comes back
(`Evaluator.runText_toString`).
-/

namespace SmallLisp

/-- An integer, or a float that is neither NaN nor infinite. -/
inductive Value.IsFiniteNumber : Value → Prop
  | integer (n : Int64) : IsFiniteNumber (.integer n)
  | float (s : Bool) {n : Nat} (h : Binary64.Representable n) :
    IsFiniteNumber (.float (.finite s n h))

theorem Value.toList_toString (v : Value) : (toString v).toList = v.print := String.toList_ofList

theorem Value.IsFiniteNumber.isNumber_toString {v : Value} (h : v.IsFiniteNumber) :
    Token.IsNumber (toString v).toList := by
  rw [toList_toString]
  cases h with
  | integer n => exact Numeral.isNumber_ofInt n.toInt
  | float s h => exact Binary64.isNumber_text s h

/-! ## The value of the text -/

theorem Token.IsNumber.startsNumeric {t : List Char} (h : IsNumber t) :
    Literal.startsNumeric t = true := by
  by_contra hf
  have hn := scanNumber?_eq_none_iff.2 (Bool.eq_false_of_not_eq_true hf)
  rw [isNumber_iff.1 h] at hn
  cases hn

/-- A number token with a point or an exponent is a float. -/
theorem Literal.number?_of_isNumber {t : String} (h : Token.IsNumber t.toList)
    (hm : ∃ c ∈ t.toList, c = '.' ∨ c = 'e') :
    number? t = (Decimal.read? t.toList).map fun d => .float d.toBinary64 := by
  have hany : (t.toList.any fun c => c = '.' || c = 'e' || c = 'E') = true := by
    obtain ⟨c, hc, he⟩ := hm
    refine List.any_eq_true.2 ⟨c, hc, ?_⟩
    rcases he with rfl | rfl <;> rfl
  simp only [number?, h.startsNumeric, hany, if_true]

variable (s : Bool) {n : Nat} (h : Binary64.Representable n)

theorem readInt64?_toString_float :
    Numeral.readInt64? (toString (Value.float (.finite s n h))).toList = none := by
  rw [Value.toList_toString]
  obtain ⟨c, hc, rfl | rfl⟩ := Binary64.exists_mem_text s h
  · exact Numeral.readInt64?_eq_none_of_mem hc (by decide) (by decide) (by decide)
  · exact Numeral.readInt64?_eq_none_of_mem hc (by decide) (by decide) (by decide)

theorem Literal.number?_toString :
    number? (toString (Value.float (.finite s n h))) = some (.float (.finite s n h)) := by
  have htext := Value.toList_toString (.float (.finite s n h))
  have hnum := (Value.IsFiniteNumber.float s h).isNumber_toString
  have hmark : ∃ c ∈ (toString (Value.float (.finite s n h))).toList, c = '.' ∨ c = 'e' := by
    rw [htext]
    exact Binary64.exists_mem_text s h
  have hread := congrArg (Option.map Value.float) (Binary64.read?_text_finite s h)
  rw [Option.map_map] at hread
  rw [number?_of_isNumber hnum hmark, htext]
  exact hread

namespace Evaluator

section Host

variable [Host] {evaluator : Evaluator} {env : Environment}

/-- A text that is no string and not bound has the value of the number that it is. -/
theorem evaluate_text_of_number? {t : String} {v : Value} (hm : 0 < evaluator.maxDepth)
    (hs : Literal.string? t = none) (h : env.get? t = none) (hv : Literal.number? t = some v) :
    evaluator.evaluate (.text t) env = (.ok v, env) := by
  rw [evaluate_of_pos hm]
  show (resolve t env, env) = _
  unfold resolve
  rw [hs, h, hv]

/-- A finite number is printed as one token, which has it for a value again unless it is bound. -/
theorem runText_toString {v : Value} (hv : v.IsFiniteNumber) (hm : 1 ≤ evaluator.maxDepth)
    (h : env.get? (toString v) = none) :
    tokenize (toString v) = .ok [toString v] ∧
      evaluator.runText (toString v) env = (.ok v, env) := by
  have hnum := hv.isNumber_toString
  refine ⟨tokenize_singleton_iff.2 (.number hnum), ?_⟩
  have he : evaluator.evaluate (.ofToken (toString v)) env = (.ok v, env) := by
    cases hv with
    | integer n =>
      have hn : Numeral.readInt64? (toString (Value.integer n)).toList = some n := by
        rw [Value.toList_toString]
        exact Numeral.readInt64?_ofInt n
      rw [ofToken_of_readInt64? hn, evaluate_of_pos hm]
      rfl
    | float s hr =>
      rw [ofToken_of_not_integer (readInt64?_toString_float s hr)]
      exact evaluate_text_of_number? hm hnum.isName.string?_eq_none h
        (Literal.number?_toString s hr)
  rw [runText_of_isNumber evaluator hnum, he]
  rfl

end Host

/-- The least integer, a zero with a sign, the least positive number, and a whole number that is
written with an exponent. -/
def printed : List (Value × String) :=
  [(.integer Int64.minValue, "-9223372036854775808"), (.float (.zero true), "-0.0"),
    (.float (.finite false 1 (by decide +kernel)), "5e-324"),
    (.float (.finite false (10 ^ 16 * Binary64.unitsPerOne) (by decide +kernel)), "1e16")]

theorem runText_toString_printed :
    printed.Forall fun p =>
      (p.1.IsFiniteNumber ∧ 1 ≤ (Evaluator.mk 1).maxDepth ∧ Environment.initial.get? p.2 = none) ∧
        toString p.1 = p.2 ∧ tokenize p.2 = .ok [p.2] ∧
        runText ⟨1⟩ p.2 .initial = (.ok p.1, .initial) := by
  have hnumber : ∀ p ∈ printed, p.1.IsFiniteNumber := List.forall_iff_forall_mem.1
    ⟨.integer _, .float _ _, .float _ _, .float _ _⟩
  have htext : ∀ p ∈ printed, toString p.1 = p.2 := by decide +kernel
  have hfree : ∀ p ∈ printed, Environment.initial.get? p.2 = none := by decide +kernel
  refine List.forall_iff_forall_mem.2 fun p hp => ?_
  have hm : 1 ≤ (Evaluator.mk 1).maxDepth := Nat.le_refl 1
  have hget : Environment.initial.get? (toString p.1) = none := by
    rw [htext p hp]
    exact hfree p hp
  have h := runText_toString (hnumber p hp) hm hget
  rw [htext p hp] at h
  exact ⟨⟨hnumber p hp, hm, hfree p hp⟩, htext p hp, h⟩

end Evaluator

end SmallLisp
