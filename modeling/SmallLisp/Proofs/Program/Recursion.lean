import Mathlib.Data.Nat.Choose.Basic
import SmallLisp.Operator.Extension
import SmallLisp.Proofs.Eval.Levels
import SmallLisp.Proofs.Operator.Comparison
import SmallLisp.Proofs.Operator.Exact
import SmallLisp.Proofs.Program.Literals

/-!
# The levels of a recursion

The numbers up to `n` are added by a function that calls itself for those up to
`n - 1`. Its body makes the next call three levels further down: in a clause of
`cond`, as an operand of `+`, and on a level of the call's own
(`SumUpTo.takesBody`). So a call takes `3n + 4` levels, and on fewer it fails
(`Evaluator.evaluate_sumUpTo`).
-/

namespace SmallLisp

namespace SumUpTo

/-! ## The function -/

/-- The text that defines the function. -/
def text : String := "(defun sum (n) (cond ((= n 0) 0) (t (+ n (sum (- n 1))))))"

/-- A call of the function. -/
def call (e : Expr) : Expr := .list [.text "sum", e]

/-- The body of the function. -/
def body : Expr :=
  .list [.text "cond",
    .list [.list [.text "=", .text "n", .integer 0], .integer 0],
    .list [.text "t",
      .list [.text "+", .text "n", call (.list [.text "-", .text "n", .integer 1])]]]

/-- What the text is of. -/
def definition : Expr := .list [.text "defun", .text "sum", .list [.text "n"], body]

/-- What the definition makes. -/
def closure : Closure := ⟨"sum", ["n"], [body]⟩

/-- The environment that programs start with, and the function in it. -/
def environment : Environment := Environment.initial.define "sum" (.callable (.closure closure))

theorem writesSome_text : WritesSome text [definition] := by
  have hp : definition.Printable := by decide +kernel
  have ht : toString definition = text := by decide +kernel
  exact ht ▸ hp.writesSome (by decide)

theorem runText_text [Host] {evaluator : Evaluator} (h : 1 ≤ evaluator.maxDepth) :
    evaluator.runText text .initial = (.ok (.str "sum"), environment) := by
  rw [Evaluator.runText_of_writesSome_singleton writesSome_text, Evaluator.evaluate_of_pos h]
  rfl

/-! ## Its arithmetic -/

theorem toInt_ofNat {k : Nat} (h : k ≤ 2 ^ 53) : (Int64.ofNat k).toInt = k :=
  Int64.toInt_ofNat_of_lt (by omega)

theorem abs_toInt_ofNat_le {k : Nat} (h : k ≤ 2 ^ 53) : |(Int64.ofNat k).toInt| ≤ 2 ^ 53 := by
  rw [toInt_ofNat h, Nat.abs_cast]
  exact_mod_cast h

theorem eq_zero {k : Nat} (h : k ≤ 2 ^ 53) :
    Operator.numEq.call [.integer (.ofNat k), .integer 0] = .ok (.bool (decide (k = 0))) := by
  have h0 : (0 : Int64).toInt = (0 : ℕ) := rfl
  rw [Operator.call_numEq, Binary64.rounded_of_small (abs_toInt_ofNat_le h), toInt_ofNat h, h0,
    Binary64.rounded_of_small (by decide)]
  simp only [Int.cast_natCast, Nat.cast_inj]

section Pairs

variable {a b c : Nat} (ha : a ≤ 2 ^ 53) (hb : b ≤ 2 ^ 53) (hc : c ≤ 2 ^ 53)

include ha hb

theorem forall_mem_pair_small : ∀ i ∈ [Int64.ofNat a, Int64.ofNat b], |i.toInt| ≤ 2 ^ 53 := by
  intro i hi
  rcases List.mem_pair.1 hi with rfl | rfl
  · exact abs_toInt_ofNat_le ha
  · exact abs_toInt_ofNat_le hb

include hc

/-- The first number and the result are all the partial results there are. -/
theorem forall_partials_pair {g : ℚ → ℚ → ℚ} (h : g a b = c) :
    ∀ q ∈ partials g (.ofNat a) [.ofNat b], |q| ≤ 2 ^ 53 := by
  intro q hq
  have hq : q = a ∨ q = c := by simpa [partials, toInt_ofNat ha, toInt_ofNat hb, h] using hq
  rcases hq with rfl | rfl
  · rw [Nat.abs_cast]
    exact_mod_cast ha
  · rw [Nat.abs_cast]
    exact_mod_cast hc

theorem add_numbers (h : a + b = c) :
    Operator.add.call [.integer (.ofNat a), .integer (.ofNat b)] =
      .ok (.integer (.ofNat c)) := by
  obtain ⟨r, hr, hsum⟩ := Operator.call_add_exact (forall_mem_pair_small ha hb)
    (forall_partials_pair ha hb hc (by exact_mod_cast h))
  have hr' : r = .ofNat c := by
    rw [← Int64.toInt_inj, hsum, toInt_ofNat hc]
    simp only [List.map_cons, List.map_nil, List.sum_cons, List.sum_nil, toInt_ofNat ha,
      toInt_ofNat hb]
    omega
  exact hr' ▸ hr

theorem sub_numbers (h : a = c + b) :
    Operator.sub.call [.integer (.ofNat a), .integer (.ofNat b)] =
      .ok (.integer (.ofNat c)) := by
  obtain ⟨r, hr, hdiff⟩ := Operator.call_sub_exact (forall_mem_pair_small ha hb)
    (forall_partials_pair ha hb hc (by rw [h, Nat.cast_add, add_sub_cancel_right]))
  have hr' : r = .ofNat c := by
    rw [← Int64.toInt_inj, hdiff, toInt_ofNat hc]
    simp only [List.cons_ne_nil, if_false, List.map_cons, List.map_nil, List.sum_singleton,
      toInt_ofNat ha, toInt_ofNat hb]
    omega
  exact hr' ▸ hr

end Pairs

/-! ## Its levels -/

/-- The sum of the numbers up to `k`. -/
def upTo (k : Nat) : Nat := k * (k + 1) / 2

theorem upTo_succ (k : Nat) : k + 1 + upTo k = upTo (k + 1) := by
  have h : (k + 1 + 1) * (k + 1) / 2 = (k + 1) * k / 2 + (k + 1) := Nat.triangle_succ (k + 1)
  rw [upTo, upTo, Nat.mul_comm (k + 1) (k + 1 + 1), h, Nat.mul_comm k, Nat.add_comm]

theorem le_upTo (k : Nat) : k ≤ upTo k := by
  cases k with
  | zero => exact Nat.zero_le _
  | succ k => exact upTo_succ k ▸ Nat.le_add_right ..

theorem isOrdinary_sum : IsOrdinary "sum" := (isOrdinary_iff "sum").2 (by decide)

variable [Host] {k need : Nat} {e : Expr} {env : Environment}

/-- The body takes so many levels to the sum wherever the name of the function is bound to it, and
the parameter to `k`. -/
def TakesBody (k : Nat) : Prop :=
  ∀ env : Environment, env.get? "sum" = some (.callable (.closure closure)) →
    env.get? "n" = some (.integer (.ofNat k)) →
    body.Takes (3 * k + 3) (.integer (.ofNat (upTo k))) env

/-- The parameter is bound over what the caller has. -/
theorem takes_call (hb : TakesBody k)
    (hsum : env.get? "sum" = some (.callable (.closure closure)))
    (h : e.Takes need (.integer (.ofNat k)) env) :
    (call e).Takes (max need (3 * k + 3) + 1) (.integer (.ofNat (upTo k))) env := by
  have hbody := hb (env.define "n" (.integer (.ofNat k)))
    (by rw [Environment.get?_define, if_neg (by decide), hsum])
    (by rw [Environment.get?_define, if_pos rfl])
  have hoperands : TakeOperands [e] need [.integer (.ofNat k)] env :=
    Takes.of_eq (takeOperands_cons h (takeOperands_nil env)) (Nat.max_zero need)
  exact Expr.takes_call isOrdinary_sum hsum hoperands rfl (takeSequence_singleton hbody)

/-- An operation on the parameter and a number. -/
theorem takes_parameter (op : Operator) {i : Int64} {v w : Value} (hn : env.get? "n" = some v)
    (h : op.call [v, .integer i] = .ok w) :
    Expr.Takes (.list [.text op.name, .text "n", .integer i]) 2 w env :=
  Expr.takes_operator op
    (takeOperands_cons (Expr.takes_bound (by decide) hn)
      (takeOperands_cons (Expr.takes_integer i env) (takeOperands_nil env))) h

theorem takesBody_zero : TakesBody 0 := by
  intro env _ hn
  have htest := takes_parameter .numEq hn (eq_zero (Nat.zero_le _))
  have hvalue := takeSequence_singleton (Expr.takes_integer 0 env)
  exact Expr.takes_cond (takeClauses_taken (by decide) htest .bool hvalue)

theorem takesBody_succ (hk : upTo (k + 1) ≤ 2 ^ 53) (h : TakesBody k) : TakesBody (k + 1) := by
  intro env hsum hn
  have hsucc := upTo_succ k
  have hle : k + 1 ≤ 2 ^ 53 := (le_upTo (k + 1)).trans hk
  have htest := takes_parameter .numEq hn (eq_zero hle)
  have hless := takes_parameter .sub hn (sub_numbers hle (by decide) (by omega) rfl)
  have hrest : Expr.Takes (call (.list [.text "-", .text "n", .integer 1])) (3 * k + 4) _ env :=
    Takes.of_eq (takes_call h hsum hless) (by omega)
  have hadd := Expr.takes_operator .add
    (takeOperands_cons (Expr.takes_bound (by decide) hn)
      (takeOperands_cons hrest (takeOperands_nil env)))
    (add_numbers hle (by omega) hk hsucc)
  have hfalse : ¬ (Value.bool (k + 1 = 0)).CountsTrue := Value.isTruthy_eq_false_iff.1 rfl
  -- The sum takes a level more than the next call, and the `cond` another.
  refine Takes.of_eq (Expr.takes_cond (takeClauses_passed (by decide) htest hfalse
    (takeClauses_otherwise (takeSequence_singleton hadd)))) ?_
  omega

theorem takesBody (hk : upTo k ≤ 2 ^ 53) : TakesBody k := by
  induction k with
  | zero => exact takesBody_zero
  | succ k ih => exact takesBody_succ hk (ih (by have := upTo_succ k; omega))

omit [Host] in
theorem get?_environment :
    environment.get? "sum" = some (.callable (.closure closure)) := by
  rw [environment, Environment.get?_define, if_pos rfl]

end SumUpTo

open SumUpTo in
/-- A program that adds the numbers up to `n` by recursion leaves a function behind that takes
`3n + 4` levels to the sum, and fails on fewer of them. -/
theorem Evaluator.evaluate_sumUpTo [Host] :
    (∀ evaluator : Evaluator, 1 ≤ evaluator.maxDepth →
      evaluator.runText "(defun sum (n) (cond ((= n 0) 0) (t (+ n (sum (- n 1))))))" .initial =
        (.ok (.str "sum"), SumUpTo.environment)) ∧
    ∀ n : Nat, n * (n + 1) / 2 ≤ 2 ^ 53 → ∀ m : Nat,
      evaluate ⟨m⟩ (.list [.text "sum", .integer (.ofNat n)]) SumUpTo.environment =
        (if 3 * n + 4 ≤ m then .ok (.integer (.ofNat (n * (n + 1) / 2)))
          else .error (.depthExceeded m), SumUpTo.environment) := by
  refine ⟨fun _ h => runText_text h, fun n hn m => ?_⟩
  have hcall : Expr.Takes (call (.integer (.ofNat n))) (3 * n + 4) _ _ :=
    Takes.of_eq (takes_call (takesBody hn) get?_environment (Expr.takes_integer _ _)) (by omega)
  exact hcall.evaluate ⟨m⟩

/-- With the limit that evaluators have by default, numbers up to 3332 are added. -/
theorem Evaluator.evaluate_sumUpTo_default :
    (1 ≤ (Evaluator.mk 1).maxDepth ∧
      runText ⟨1⟩ "(defun sum (n) (cond ((= n 0) 0) (t (+ n (sum (- n 1))))))" .initial =
        (.ok (.str "sum"), SumUpTo.environment)) ∧
    (3332 * (3332 + 1) / 2 ≤ 2 ^ 53 ∧
      evaluate ⟨defaultEvalDepth⟩ (.list [.text "sum", .integer 3332]) SumUpTo.environment =
        (.ok (.integer 5552778), SumUpTo.environment)) ∧
    (3333 * (3333 + 1) / 2 ≤ 2 ^ 53 ∧
      evaluate ⟨defaultEvalDepth⟩ (.list [.text "sum", .integer 3333]) SumUpTo.environment =
        (.error (.depthExceeded 10000), SumUpTo.environment)) := by
  obtain ⟨hdefine, hcall⟩ := evaluate_sumUpTo
  exact ⟨⟨Nat.le_refl 1, hdefine ⟨1⟩ (Nat.le_refl 1)⟩,
    ⟨by decide, hcall 3332 (by decide) defaultEvalDepth⟩,
    ⟨by decide, hcall 3333 (by decide) defaultEvalDepth⟩⟩

end SmallLisp
