import Mathlib.Algebra.BigOperators.Group.List.Basic
import SmallLisp.Proofs.Eval.Calls
import SmallLisp.Proofs.Value.Narrowing

/-!
# Arithmetic on small integers

On integers up to `2⁵³` arithmetic is exact, as long as exact arithmetic stays
with such integers on its way (`partials`): each step is exact
(`value?_foldl`), and the result is narrowed to an integer again
(`Operator.exists_arithmetic_eq`). Each operator is a case of these
(`Operator.call_add_exact` to `Operator.call_div_exact`).
-/

namespace SmallLisp

open Binary64 (IsExact)

/-- The number that exact arithmetic starts with, and those that it comes to from the left. -/
def partials (g : ℚ → ℚ → ℚ) (a : Int64) (bs : List Int64) : List ℚ :=
  (bs.map fun b => (b.toInt : ℚ)).scanl g a.toInt

/-- An integer up to `2⁵³`, of either sign. -/
def IsSmall (q : ℚ) : Prop := ∃ z : ℤ, q = z ∧ |z| ≤ 2 ^ 53

theorem IsSmall.isExact {q : ℚ} (h : IsSmall q) : IsExact q := by
  obtain ⟨z, rfl, hz⟩ := h
  exact Binary64.isExact_intCast hz

theorem isSmall_intCast {z : ℤ} : IsSmall z ↔ |z| ≤ 2 ^ 53 := by
  constructor
  · rintro ⟨w, hw, h⟩
    rwa [Int.cast_inj.1 hw]
  · exact fun h => ⟨z, rfl, h⟩

/-! ## Runs of steps -/

section Runs

variable {f : Binary64 → Binary64 → Binary64} {g : ℚ → ℚ → ℚ} {allowed : ℚ → Prop}

theorem mem_scanl_self (g : ℚ → ℚ → ℚ) (a : ℚ) (bs : List ℚ) : a ∈ bs.scanl g a := by
  cases bs <;> simp

theorem foldl_mem_scanl (g : ℚ → ℚ → ℚ) (a : ℚ) (bs : List ℚ) :
    bs.foldl g a ∈ bs.scanl g a := by
  induction bs generalizing a with
  | nil => exact mem_scanl_self g a []
  | cons b bs ih =>
    rw [List.scanl_cons]
    exact List.mem_cons_of_mem _ (ih (g a b))

/-- If a step is exact wherever its result is a number of binary64, so is a run of steps. -/
theorem value?_foldl
    (hstep : ∀ {x y : Binary64} {a b : ℚ}, x.value? = some a → y.value? = some b → allowed b →
      IsExact (g a b) → (f x y).value? = some (g a b))
    {ys : List Binary64} {bs : List ℚ}
    (hys : List.Forall₂ (fun y b => y.value? = some b ∧ allowed b) ys bs)
    {x : Binary64} {a : ℚ} (hx : x.value? = some a) (h : ∀ q ∈ bs.scanl g a, IsExact q) :
    (ys.foldl f x).value? = some (bs.foldl g a) := by
  induction hys generalizing x a with
  | nil => exact hx
  | @cons y b ys bs hy _ ih =>
    rw [List.scanl_cons, List.forall_mem_cons] at h
    have hab : IsExact (g a b) := h.2 _ (mem_scanl_self g _ bs)
    exact ih (hstep hx hy.1 hy.2 hab) h.2

variable {g' : ℤ → ℤ → ℤ} (hg : ∀ a b : ℤ, g a b = g' a b)

include hg

/-- Where integers lead to integers, so do all partial results. -/
theorem exists_int_of_mem_scanl (a : ℤ) (bs : List Int64) {q : ℚ}
    (hq : q ∈ (bs.map fun b => (b.toInt : ℚ)).scanl g a) : ∃ z : ℤ, q = z := by
  induction bs generalizing a with
  | nil =>
    rw [List.map_nil, List.scanl_nil, List.mem_singleton] at hq
    exact ⟨a, hq⟩
  | cons b bs ih =>
    rw [List.map_cons, List.scanl_cons, List.mem_cons] at hq
    rcases hq with rfl | hq
    · exact ⟨a, rfl⟩
    · rw [hg] at hq
      exact ih _ hq

theorem foldl_intCast (a : ℤ) (bs : List Int64) :
    (bs.map fun b => (b.toInt : ℚ)).foldl g a = ((bs.map Int64.toInt).foldl g' a : ℤ) := by
  induction bs generalizing a with
  | nil => rfl
  | cons b bs ih => rw [List.map_cons, List.foldl_cons, hg, ih, List.map_cons, List.foldl_cons]

end Runs

theorem foldl_sub_eq (a : ℤ) (bs : List ℤ) : bs.foldl (· - ·) a = a - bs.sum := by
  induction bs generalizing a with
  | nil => simp
  | cons b bs ih => rw [List.foldl_cons, ih, List.sum_cons, Int.sub_sub]

theorem foldl_div_eq (a : ℚ) (bs : List Int64) :
    (bs.map fun b => (b.toInt : ℚ)).foldl (· / ·) a = a / ((bs.map Int64.toInt).prod : ℤ) := by
  induction bs generalizing a with
  | nil => simp
  | cons b bs ih =>
    rw [List.map_cons, List.foldl_cons, ih, List.map_cons, List.prod_cons, Int.cast_mul, div_div]

/-! ## Integers as numbers -/

/-- The numbers that integers are. -/
def numbers (bs : List Int64) : List Binary64 := bs.map fun b => .ofInt b.toInt

theorem value?_ofInt_of_small {b : Int64} (h : |b.toInt| ≤ 2 ^ 53) :
    (Binary64.ofInt b.toInt).value? = some (b.toInt : ℚ) :=
  Binary64.value?_ofInt (Binary64.isExact_intCast h)

section Numbers

variable {f : Binary64 → Binary64 → Binary64} {g : ℚ → ℚ → ℚ} {a : Int64} {bs : List Int64}
  (hsmall : ∀ b ∈ a :: bs, |b.toInt| ≤ 2 ^ 53)

include hsmall

/-- Exact steps on small integers that stay with such integers come to one. -/
theorem value?_foldl_numbers (allowed : ℚ → Prop)
    (hstep : ∀ {x y : Binary64} {a b : ℚ}, x.value? = some a → y.value? = some b → allowed b →
      IsExact (g a b) → (f x y).value? = some (g a b))
    (hallowed : ∀ b ∈ bs, allowed b.toInt) (h : ∀ q ∈ partials g a bs, IsSmall q) :
    ((numbers bs).foldl f (.ofInt a.toInt)).value? =
        some ((bs.map fun b => (b.toInt : ℚ)).foldl g a.toInt) ∧
      IsSmall ((bs.map fun b => (b.toInt : ℚ)).foldl g a.toInt) := by
  rw [List.forall_mem_cons] at hsmall
  have hys : List.Forall₂ (fun y b => y.value? = some b ∧ allowed b) (numbers bs)
      (bs.map fun b => (b.toInt : ℚ)) := by
    rw [numbers, List.forall₂_map_left_iff, List.forall₂_map_right_iff, List.forall₂_same]
    exact fun b hb => ⟨value?_ofInt_of_small (hsmall.2 b hb), hallowed b hb⟩
  exact ⟨value?_foldl hstep hys (value?_ofInt_of_small hsmall.1) fun q hq => (h q hq).isExact,
    h _ (foldl_mem_scanl g _ _)⟩

/-- Where integers lead to integers, it is enough that the partial results are not too great. -/
theorem value?_foldl_integers {g' : ℤ → ℤ → ℤ} (hg : ∀ a b : ℤ, g a b = g' a b)
    (hstep : ∀ {x y : Binary64} {a b : ℚ}, x.value? = some a → y.value? = some b →
      IsExact (g a b) → (f x y).value? = some (g a b))
    (h : ∀ q ∈ partials g a bs, |q| ≤ 2 ^ 53) :
    ((numbers bs).foldl f (.ofInt a.toInt)).value? =
        some (((bs.map Int64.toInt).foldl g' a.toInt : ℤ) : ℚ) ∧
      |(bs.map Int64.toInt).foldl g' a.toInt| ≤ 2 ^ 53 := by
  have hint : ∀ q ∈ partials g a bs, IsSmall q := by
    intro q hq
    obtain ⟨z, rfl⟩ := exists_int_of_mem_scanl hg a.toInt bs hq
    exact ⟨z, rfl, by exact_mod_cast h z hq⟩
  have hrun := value?_foldl_numbers hsmall (fun _ => True)
    (fun hx hy _ => hstep hx hy) (fun _ _ => trivial) hint
  rwa [foldl_intCast hg, isSmall_intCast] at hrun

end Numbers

theorem mapM_toNumber_integers (bs : List Int64) :
    (bs.map Value.integer).mapM Value.toNumber = .ok (numbers bs) := by
  rw [mapM_toNumber_of_numbers (List.forall_mem_map.2 fun _ _ => rfl), List.filterMap_map]
  exact congrArg (fun f => Except.ok (f bs)) List.filterMap_eq_map'

namespace Operator

/-! ## Operators -/

variable {a : Int64} {bs : List Int64}

/-- Arithmetic that comes to the value of a small integer gives that integer. -/
theorem exists_arithmetic_eq (op : Operator)
    {f : Binary64 → List Binary64 → Except EvalError Binary64} {x : Binary64} {z : ℤ}
    (hf : f (.ofInt a.toInt) (numbers bs) = .ok x) (hx : x.value? = some (z : ℚ))
    (hz : |z| ≤ 2 ^ 53) :
    ∃ r : Int64, op.arithmetic f ((a :: bs).map .integer) = .ok (.integer r) ∧ r.toInt = z := by
  have hr : (Int64.ofInt z).toInt = z := by
    have := abs_le.1 hz
    exact Int64.toInt_ofInt_of_le (by omega) (by omega)
  have hn : Value.ofNumber x = .integer (Int64.ofInt z) := by
    rw [Value.ofNumber_eq_integer_iff, hr, hx]
  refine ⟨Int64.ofInt z, ?_, hr⟩
  rw [arithmetic, mapM_toNumber_integers]
  show (do return Value.ofNumber (← f (.ofInt a.toInt) (numbers bs))) = _
  rw [hf, ← hn]
  rfl

theorem foldlM_divide {ys : List Binary64} (h : ∀ y ∈ ys, y.isZero = false) (x : Binary64) :
    ys.foldlM divide x = .ok (ys.foldl (· / ·) x) := by
  induction ys generalizing x with
  | nil => rfl
  | cons y ys ih =>
    rw [List.forall_mem_cons] at h
    have hxy : divide x y = .ok (x / y) := by
      rw [divide, h.1]
      rfl
    rw [List.foldlM_cons, hxy, List.foldl_cons]
    exact ih h.2 (x / y)

/-- Small integers other than zero are divided by without an error. -/
theorem quotient_numbers (hsmall : ∀ b ∈ bs, |b.toInt| ≤ 2 ^ 53) (hne : bs ≠ [])
    (h0 : ∀ b ∈ bs, (b.toInt : ℚ) ≠ 0) (x : Binary64) :
    quotient x (numbers bs) = .ok ((numbers bs).foldl (· / ·) x) := by
  have hzero : ∀ y ∈ numbers bs, y.isZero = false := by
    intro y hy
    obtain ⟨b, hb, rfl⟩ := List.mem_map.1 hy
    rw [← Bool.not_eq_true, Binary64.isZero_iff (value?_ofInt_of_small (hsmall b hb))]
    exact h0 b hb
  rw [← foldlM_divide hzero]
  cases bs with
  | nil => exact absurd rfl hne
  | cons b bs => rfl

section Exact

variable (hsmall : ∀ b ∈ a :: bs, |b.toInt| ≤ 2 ^ 53)

include hsmall

theorem call_add_exact (h : ∀ q ∈ partials (· + ·) a bs, |q| ≤ 2 ^ 53) :
    ∃ r : Int64, add.call ((a :: bs).map .integer) = .ok (.integer r) ∧
      r.toInt = ((a :: bs).map Int64.toInt).sum := by
  obtain ⟨hv, hz⟩ := value?_foldl_integers hsmall (fun a b => (Int.cast_add a b).symm)
    Binary64.value?_add h
  have hsum : ((a :: bs).map Int64.toInt).sum = (bs.map Int64.toInt).foldl (· + ·) a.toInt := by
    rw [List.map_cons, List.sum_eq_foldl, List.foldl_cons, zero_add]
  rw [call_eq_apply, hsum]
  exact exists_arithmetic_eq add rfl hv hz

theorem call_sub_exact (h : ∀ q ∈ partials (· - ·) a bs, |q| ≤ 2 ^ 53) :
    ∃ r : Int64, sub.call ((a :: bs).map .integer) = .ok (.integer r) ∧
      r.toInt = if bs = [] then -a.toInt else a.toInt - (bs.map Int64.toInt).sum := by
  rw [call_eq_apply]
  cases bs with
  | nil =>
    have ha := hsmall a List.mem_cons_self
    have hneg := Binary64.value?_neg (value?_ofInt_of_small ha)
    have hd : difference (.ofInt a.toInt) (numbers []) = -Binary64.ofInt a.toInt := by
      rw [numbers, List.map_nil, difference]
    rw [← Int.cast_neg] at hneg
    rw [if_pos rfl]
    exact exists_arithmetic_eq sub (congrArg Except.ok hd) hneg (by rwa [abs_neg])
  | cons b bs =>
    obtain ⟨hv, hz⟩ := value?_foldl_integers hsmall (fun a b => (Int.cast_sub a b).symm)
      Binary64.value?_sub h
    rw [foldl_sub_eq] at hv hz
    rw [if_neg (List.cons_ne_nil b bs)]
    exact exists_arithmetic_eq sub rfl hv hz

theorem call_mul_exact (h : ∀ q ∈ partials (· * ·) a bs, |q| ≤ 2 ^ 53) :
    ∃ r : Int64, mul.call ((a :: bs).map .integer) = .ok (.integer r) ∧
      r.toInt = ((a :: bs).map Int64.toInt).prod := by
  obtain ⟨hv, hz⟩ := value?_foldl_integers hsmall (fun a b => (Int.cast_mul a b).symm)
    Binary64.value?_mul h
  have hprod : ((a :: bs).map Int64.toInt).prod = (bs.map Int64.toInt).foldl (· * ·) a.toInt := by
    rw [List.map_cons, List.prod_eq_foldl, List.foldl_cons, one_mul]
  rw [call_eq_apply, hprod]
  exact exists_arithmetic_eq mul rfl hv hz

theorem call_div_exact (hne : bs ≠ []) (h0 : 0 ∉ bs)
    (h : ∀ q ∈ partials (· / ·) a bs, |q| ≤ 2 ^ 53 ∧ ∃ z : ℤ, q = z) :
    ∃ r : Int64, div.call ((a :: bs).map .integer) = .ok (.integer r) ∧
      (r.toInt : ℚ) = a.toInt / ((bs.map Int64.toInt).prod : ℤ) := by
  have hb0 : ∀ b ∈ bs, (b.toInt : ℚ) ≠ 0 := by
    intro b hb hzero
    have : b = 0 := Int64.toInt_inj.1 (by exact_mod_cast hzero)
    exact h0 (this ▸ hb)
  have hint : ∀ q ∈ partials (· / ·) a bs, IsSmall q := by
    intro q hq
    obtain ⟨hle, z, rfl⟩ := h q hq
    exact ⟨z, rfl, by exact_mod_cast hle⟩
  obtain ⟨hv, z, hz, hle⟩ := value?_foldl_numbers hsmall (· ≠ 0) Binary64.value?_div hb0 hint
  rw [hz] at hv
  have hq := quotient_numbers (List.forall_mem_cons.1 hsmall).2 hne hb0 (.ofInt a.toInt)
  obtain ⟨r, hr, hdiv⟩ := exists_arithmetic_eq div hq hv hle
  refine ⟨r, ?_, ?_⟩
  · rwa [call_eq_apply]
  · rw [hdiv, ← hz, foldl_div_eq]

end Exact

/-- Small integers from which exact arithmetic comes to small integers only are added, subtracted,
multiplied and divided exactly. -/
theorem calls_exact (a : Int64) (bs : List Int64) (hsmall : ∀ b ∈ a :: bs, |b.toInt| ≤ 2 ^ 53) :
    ((∀ q ∈ partials (· + ·) a bs, |q| ≤ 2 ^ 53) →
      ∃ r : Int64, add.call ((a :: bs).map .integer) = .ok (.integer r) ∧
        r.toInt = ((a :: bs).map Int64.toInt).sum) ∧
    ((∀ q ∈ partials (· - ·) a bs, |q| ≤ 2 ^ 53) →
      ∃ r : Int64, sub.call ((a :: bs).map .integer) = .ok (.integer r) ∧
        r.toInt = if bs = [] then -a.toInt else a.toInt - (bs.map Int64.toInt).sum) ∧
    ((∀ q ∈ partials (· * ·) a bs, |q| ≤ 2 ^ 53) →
      ∃ r : Int64, mul.call ((a :: bs).map .integer) = .ok (.integer r) ∧
        r.toInt = ((a :: bs).map Int64.toInt).prod) ∧
    (bs ≠ [] → 0 ∉ bs → (∀ q ∈ partials (· / ·) a bs, |q| ≤ 2 ^ 53 ∧ ∃ z : ℤ, q = z) →
      ∃ r : Int64, div.call ((a :: bs).map .integer) = .ok (.integer r) ∧
        (r.toInt : ℚ) = a.toInt / ((bs.map Int64.toInt).prod : ℤ)) := by
  exact ⟨call_add_exact hsmall, call_sub_exact hsmall, call_mul_exact hsmall,
    call_div_exact hsmall⟩

/-- A sum that passes through both ends, the negative of zero, a product of factors of both signs,
and a quotient whose partial results have both signs. -/
theorem calls_exact_atEnds :
    ((∀ b ∈ [9007199254740992, -9007199254740992, -9007199254740992],
        |Int64.toInt b| ≤ 2 ^ 53) ∧
      (∀ q ∈ partials (· + ·) 9007199254740992 [-9007199254740992, -9007199254740992],
        |q| ≤ 2 ^ 53) ∧
      ∃ r : Int64,
        add.call ([9007199254740992, -9007199254740992, -9007199254740992].map .integer) =
          .ok (.integer r) ∧ r.toInt = -9007199254740992) ∧
    ((∀ b ∈ [0], |Int64.toInt b| ≤ 2 ^ 53) ∧ (∀ q ∈ partials (· - ·) 0 [], |q| ≤ 2 ^ 53) ∧
      ∃ r : Int64, sub.call ([0].map .integer) = .ok (.integer r) ∧ r.toInt = 0) ∧
    ((∀ b ∈ [-3, 3002399751580330, -1], |Int64.toInt b| ≤ 2 ^ 53) ∧
      (∀ q ∈ partials (· * ·) (-3) [3002399751580330, -1], |q| ≤ 2 ^ 53) ∧
      ∃ r : Int64, mul.call ([-3, 3002399751580330, -1].map .integer) = .ok (.integer r) ∧
        r.toInt = 9007199254740990) ∧
    (∀ b ∈ [9007199254740992, -4, -2], |Int64.toInt b| ≤ 2 ^ 53) ∧ ([-4, -2] : List Int64) ≠ [] ∧
      (0 : Int64) ∉ [-4, -2] ∧
      (∀ q ∈ partials (· / ·) 9007199254740992 [-4, -2], |q| ≤ 2 ^ 53 ∧ ∃ z : ℤ, q = z) ∧
      ∃ r : Int64, div.call ([9007199254740992, -4, -2].map .integer) = .ok (.integer r) ∧
        (r.toInt : ℚ) = 9007199254740992 / 8 := by
  -- Decided item by item, not over all integers of 64 bits.
  have hadd : ∀ b ∈ [9007199254740992, -9007199254740992, -9007199254740992],
      |Int64.toInt b| ≤ 2 ^ 53 := List.forall_iff_forall_mem.1 (by decide +kernel)
  have hneg : ∀ b ∈ [0], |Int64.toInt b| ≤ 2 ^ 53 :=
    List.forall_iff_forall_mem.1 (by decide +kernel)
  have hmul : ∀ b ∈ [-3, 3002399751580330, -1], |Int64.toInt b| ≤ 2 ^ 53 :=
    List.forall_iff_forall_mem.1 (by decide +kernel)
  have hdiv : ∀ b ∈ [9007199254740992, -4, -2], |Int64.toInt b| ≤ 2 ^ 53 :=
    List.forall_iff_forall_mem.1 (by decide +kernel)
  have hsums : ∀ q ∈ partials (· + ·) 9007199254740992 [-9007199254740992, -9007199254740992],
      |q| ≤ 2 ^ 53 := by decide +kernel
  have hzero : ∀ q ∈ partials (· - ·) 0 [], |q| ≤ 2 ^ 53 := by decide +kernel
  have hproducts : ∀ q ∈ partials (· * ·) (-3) [3002399751580330, -1], |q| ≤ 2 ^ 53 := by
    decide +kernel
  have hquotients : ∀ q ∈ partials (· / ·) 9007199254740992 [-4, -2],
      |q| ≤ 2 ^ 53 ∧ q = (q.num : ℚ) := by decide +kernel
  have hquotients' : ∀ q ∈ partials (· / ·) 9007199254740992 [-4, -2],
      |q| ≤ 2 ^ 53 ∧ ∃ z : ℤ, q = z := fun q hq =>
    ⟨(hquotients q hq).1, q.num, (hquotients q hq).2⟩
  refine ⟨⟨hadd, hsums, (calls_exact _ _ hadd).1 hsums⟩,
    ⟨hneg, hzero, (calls_exact _ _ hneg).2.1 hzero⟩,
    ⟨hmul, hproducts, (calls_exact _ _ hmul).2.2.1 hproducts⟩,
    hdiv, by decide, by decide, hquotients', ?_⟩
  obtain ⟨r, hr, hq⟩ := (calls_exact _ _ hdiv).2.2.2 (by decide) (by decide) hquotients'
  refine ⟨r, hr, hq.trans ?_⟩
  decide +kernel

end Operator

end SmallLisp
