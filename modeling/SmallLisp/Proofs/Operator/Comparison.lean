import SmallLisp.Proofs.Eval.Calls
import SmallLisp.Proofs.Number.Order

/-!
# Comparison of integers

Integers are compared as the numbers they are rounded to (`Operator.call_numLt`,
`Operator.call_numEq`, `Operator.call_numGt_swap`), and rounding keeps their
order. So the comparisons are a linear order in which integers above `2⁵³` may be
equal to others; they never say less of a greater one
(`Operator.comparisons_ordered`).
-/

namespace SmallLisp.Operator

open Binary64 (rounded rounded_mono rounded_of_small value?_ofInt_toInt)

/-- A comparison of two integers is true. -/
def Holds (op : Operator) (a b : Int64) : Prop :=
  op.call [.integer a, .integer b] = .ok (.bool true)

section Pairs

variable (op : Operator) (a b : Int64)

theorem comparison_integers (holds : Binary64 → Binary64 → Bool) :
    op.comparison holds [.integer a, .integer b] =
      .ok (.bool (holds (.ofInt a.toInt) (.ofInt b.toInt))) := rfl

theorem call_numLt :
    numLt.call [.integer a, .integer b] =
      .ok (.bool (decide (rounded a.toInt < rounded b.toInt))) := by
  have h : (Binary64.ofInt a.toInt).numLt (.ofInt b.toInt) =
      decide (rounded a.toInt < rounded b.toInt) := by
    rw [Bool.eq_iff_iff, decide_eq_true_iff]
    exact Binary64.numLt_of_value? (value?_ofInt_toInt a) (value?_ofInt_toInt b)
  rw [call_eq_apply, apply, comparison_integers, h]

theorem call_numEq :
    numEq.call [.integer a, .integer b] =
      .ok (.bool (decide (rounded a.toInt = rounded b.toInt))) := by
  have h : (Binary64.ofInt a.toInt).numEq (.ofInt b.toInt) =
      decide (rounded a.toInt = rounded b.toInt) := by
    rw [Bool.eq_iff_iff, decide_eq_true_iff]
    exact Binary64.numEq_of_value? (value?_ofInt_toInt a) (value?_ofInt_toInt b)
  rw [call_eq_apply, apply, comparison_integers, h]

/-- One integer is greater than another just if that one is less. -/
theorem call_numGt_swap :
    numGt.call [.integer a, .integer b] = numLt.call [.integer b, .integer a] := by
  rw [call_eq_apply, call_eq_apply, apply, apply, comparison_integers, comparison_integers]

theorem holds_numLt : numLt.Holds a b ↔ rounded a.toInt < rounded b.toInt := by
  rw [Holds, call_numLt]
  simp

theorem holds_numEq : numEq.Holds a b ↔ rounded a.toInt = rounded b.toInt := by
  rw [Holds, call_numEq]
  simp

/-- A form on two integers comes to what its operator does. -/
theorem evaluate_integers [Host] {evaluator : Evaluator} (h : 2 ≤ evaluator.maxDepth)
    (env : Environment) :
    evaluator.evaluate (.list [.text op.name, .integer a, .integer b]) env =
      (op.call [.integer a, .integer b], env) := by
  obtain ⟨m⟩ := evaluator
  obtain ⟨k, rfl⟩ := Nat.exists_eq_add_of_le' h
  rw [Evaluator.evaluate, eval, evalExpr_operator, evalOperator_eq]
  rfl

end Pairs

theorem equivalence_numEq : Equivalence numEq.Holds where
  refl a := (holds_numEq a a).2 rfl
  symm h := (holds_numEq _ _).2 ((holds_numEq _ _).1 h).symm
  trans h h' := (holds_numEq _ _).2 (((holds_numEq _ _).1 h).trans ((holds_numEq _ _).1 h'))

/-- Of less, equal and greater just one is true. -/
theorem count_comparisons (a b : Int64) :
    [decide (rounded a.toInt < rounded b.toInt), decide (rounded a.toInt = rounded b.toInt),
      decide (rounded b.toInt < rounded a.toInt)].count true = 1 := by
  rcases lt_trichotomy (rounded a.toInt) (rounded b.toInt) with h | h | h
  · simp [h, h.ne, h.not_gt]
  · simp [h]
  · simp [h, h.ne', h.not_gt]

/-- Of two integers just one of less, equal and greater is true, and up to `2⁵³` it is what holds of
them. Less is transitive and the converse of greater, and is said of integers only that are less;
equal is an equivalence, and is said of all integers that are equal. Forms of two integers come to
the same. -/
theorem comparisons_ordered [Host] :
    (∀ a b : Int64,
      (∃ lt eq gt, numLt.call [.integer a, .integer b] = .ok (.bool lt) ∧
        numEq.call [.integer a, .integer b] = .ok (.bool eq) ∧
        numGt.call [.integer a, .integer b] = .ok (.bool gt) ∧ [lt, eq, gt].count true = 1 ∧
        (|a.toInt| ≤ 2 ^ 53 → |b.toInt| ≤ 2 ^ 53 →
          lt = decide (a.toInt < b.toInt) ∧ eq = decide (a.toInt = b.toInt) ∧
            gt = decide (b.toInt < a.toInt))) ∧
      numLt.call [.integer a, .integer b] = numGt.call [.integer b, .integer a] ∧
      (numLt.Holds a b → a.toInt < b.toInt) ∧ (a.toInt = b.toInt → numEq.Holds a b)) ∧
    (∀ a b c, numLt.Holds a b → numLt.Holds b c → numLt.Holds a c) ∧
    Equivalence numEq.Holds ∧
    ∀ (op : Operator) (a b : Int64) (evaluator : Evaluator) (env : Environment),
      2 ≤ evaluator.maxDepth →
      evaluator.evaluate (.list [.text op.name, .integer a, .integer b]) env =
        (op.call [.integer a, .integer b], env) := by
  refine ⟨fun a b => ⟨?_, ?_, fun h => ?_, fun h => ?_⟩, fun a b c hab hbc => ?_,
    equivalence_numEq, fun op a b _ env hm => op.evaluate_integers a b hm env⟩
  · refine ⟨_, _, _, call_numLt a b, call_numEq a b, (call_numGt_swap a b).trans (call_numLt b a),
      count_comparisons a b, fun ha hb => ?_⟩
    rw [rounded_of_small ha, rounded_of_small hb]
    simp only [Int.cast_lt, Int.cast_inj, and_self]
  · exact (call_numGt_swap b a).symm
  · exact Int.not_le.1 fun hle => (rounded_mono hle).not_gt ((holds_numLt a b).1 h)
  · rw [holds_numEq, h]
  · rw [holds_numLt] at *
    exact hab.trans hbc

/-- Two neighbours that are rounded to one number, beside the ends of the range and of the exact
integers. -/
theorem comparisons_ordered_atEnds :
    (|(-9007199254740992 : Int64).toInt| ≤ 2 ^ 53 ∧ |(9007199254740992 : Int64).toInt| ≤ 2 ^ 53 ∧
      numLt.call [.integer (-9007199254740992), .integer 9007199254740992] = .ok (.bool true)) ∧
    ((9007199254740993 : Int64).toInt = 9007199254740993 ∧
      numEq.Holds 9007199254740993 9007199254740993 ∧
      numEq.Holds 9007199254740992 9007199254740993 ∧
      numEq.Holds 9007199254740993 9007199254740992) ∧
    (numLt.Holds Int64.minValue 9007199254740993 ∧
      Int64.minValue.toInt < (9007199254740993 : Int64).toInt ∧
      numLt.Holds 9007199254740993 Int64.maxValue ∧
      numLt.Holds Int64.minValue Int64.maxValue) ∧
    (2 ≤ (Evaluator.mk 2).maxDepth ∧
      Evaluator.evaluate ⟨2⟩ (.list [.text ">", .integer 1, .integer 0]) .initial =
        (.ok (.bool true), .initial)) := by
  obtain ⟨hpair, htrans, hequiv, hform⟩ := comparisons_ordered
  have hlo : |(-9007199254740992 : Int64).toInt| ≤ 2 ^ 53 := by decide +kernel
  have hhi : |(9007199254740992 : Int64).toInt| ≤ 2 ^ 53 := by decide +kernel
  have hmin : numLt.Holds Int64.minValue 9007199254740993 := by
    unfold Holds
    decide +kernel
  have hmax : numLt.Holds 9007199254740993 Int64.maxValue := by
    unfold Holds
    decide +kernel
  have hmerged : numEq.Holds 9007199254740992 9007199254740993 := by
    unfold Holds
    decide +kernel
  refine ⟨⟨hlo, hhi, ?_⟩, ⟨by decide, (hpair _ _).2.2.2 rfl, hmerged, hequiv.symm hmerged⟩,
    ⟨hmin, (hpair _ _).2.2.1 hmin, hmax, htrans _ _ _ hmin hmax⟩, Nat.le_refl 2, ?_⟩
  · obtain ⟨lt, eq, gt, hlt, -, -, -, hsmall⟩ := (hpair (-9007199254740992) 9007199254740992).1
    rw [hlt, (hsmall hlo hhi).1]
    rfl
  · refine (hform numGt 1 0 ⟨2⟩ .initial (Nat.le_refl 2)).trans ?_
    decide +kernel

end SmallLisp.Operator
