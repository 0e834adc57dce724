import Mathlib.Data.Set.Lattice
import Mathlib.Order.CompletePartialOrder
import SmallLisp.Proofs.Eval.Frame
import SmallLisp.Proofs.Eval.Noninterference

/-!
# Expressions that do not depend on each other

Two expressions may be evaluated in either order if neither assigns a name that
the other one assigns or looks up (`Evaluator.evaluate_comm`). That what is
assigned stays apart is the frame of evaluation; that an expression comes to the
same result and makes the same definitions behind the other one is because it
cannot tell the environments apart (`Evaluator.evaluate_of_rebinds`).
-/

namespace SmallLisp

/-! ## Definitions of different names -/

namespace Environment

variable {names : Set String} {env env' : Environment} {name : String}

theorem get?_defineAll_congr (h : env.get? name = env'.get? name) (bs : List (String × Value)) :
    (env.defineAll bs).get? name = (env'.defineAll bs).get? name := by
  induction bs generalizing env env' with
  | nil => exact h
  | cons b bs ih =>
    refine ih ?_
    rw [get?_define, get?_define, h]

/-- What is bound to a name does not depend on the order of definitions if only the second ones may
be of the name. -/
theorem Rebinds.get?_defineAll_comm {bs cs : List (String × Value)} (hn : name ∉ names)
    (h : env.Rebinds names (env.defineAll bs))
    (h' : (env.defineAll cs).Rebinds names ((env.defineAll cs).defineAll bs)) :
    ((env.defineAll bs).defineAll cs).get? name = ((env.defineAll cs).defineAll bs).get? name := by
  rw [h'.get?_eq hn]
  exact get?_defineAll_congr (h.get?_eq hn) cs

end Environment

/-! ## Two orders of evaluation -/

/-- The name that stands second in a list that begins with `setq` or `defun`. -/
def Expr.target? : Expr → Option String
  | list (text "setq" :: text name :: _) => some name
  | list (text "defun" :: text name :: _) => some name
  | _ => none

theorem Expr.eq_of_target? {e : Expr} {name : String} (h : e.target? = some name) :
    ∃ head rest, (head = "setq" ∨ head = "defun") ∧ e = list (text head :: text name :: rest) := by
  unfold target? at h
  split at h
  · obtain rfl := Option.some.inj h
    exact ⟨_, _, .inl rfl, rfl⟩
  · obtain rfl := Option.some.inj h
    exact ⟨_, _, .inr rfl, rfl⟩
  · cases h

/-- The expression looks up no names but these, and neither do the bodies of the closures in their
values, in which no function of the host occurs. -/
structure Expr.DependsOn (e : Expr) (names : Set String) (env : Environment) : Prop where
  reads : ∀ n ∈ e.reads, n ∈ names
  closures : ∀ n ∈ names, ∀ v, env.get? n = some v → ∀ c ∈ v.closures, ∀ b ∈ c.body,
    ∀ n ∈ b.reads, n ∈ names
  hostFree : ∀ n ∈ names, ∀ v, env.get? n = some v → v.HostFree

/-- The names that are assigned, as a list. -/
theorem Expr.mem_assigned_iff {name : String} {e : Expr} :
    name ∈ e.assigned ↔ name ∈ e.parts.filterMap Expr.target? := by
  rw [List.mem_filterMap]
  constructor
  · rintro ⟨head, rest, hh, hp⟩
    refine ⟨_, hp, ?_⟩
    rcases hh with rfl | rfl <;> rfl
  · rintro ⟨p, hp, ht⟩
    obtain ⟨head, rest, hh, rfl⟩ := eq_of_target? ht
    exact ⟨head, rest, hh, hp⟩

namespace Evaluator

section Host

variable [Host] (evaluator : Evaluator) {names names' : Set String} {e e' : Expr}
  {env env' : Environment}

/-- Definitions of names that an expression does not depend on do not change what it comes to. -/
theorem evaluate_of_rebinds (h : e.DependsOn names env) (hr : env.Rebinds names' env')
    (hd : Disjoint names' names) :
    ∃ r bs, evaluator.evaluate e env = (r, env.defineAll bs) ∧
      evaluator.evaluate e env' = (r, env'.defineAll bs) := by
  have hget : ∀ n ∈ names, env.get? n = env'.get? n :=
    fun n hn => (hr.get?_eq (Set.disjoint_right.1 hd hn)).symm
  have ha : env.AgreeOn names env' :=
    ⟨hget, fun n hn v hv => ⟨h.closures n hn v hv, h.hostFree n hn v hv⟩⟩
  obtain ⟨r, bs, ho, ho', -, -⟩ := eval_alike names _ _ e env env' h.reads ha
  exact ⟨r, bs, ho, ho'⟩

/-- Two expressions depend on some names each, and neither assigns a name that the other one depends
on or assigns. Then each has its result, be it a value or an error, in either order of evaluation,
and both orders leave one environment. -/
theorem evaluate_comm (h : e.DependsOn names env) (h' : e'.DependsOn names' env)
    (hd : Disjoint e.assigned names') (hd' : Disjoint e'.assigned names)
    (hw : Disjoint e.assigned e'.assigned) :
    (evaluator.evaluate e' (evaluator.evaluate e env).2).1 = (evaluator.evaluate e' env).1 ∧
      (evaluator.evaluate e (evaluator.evaluate e' env).2).1 = (evaluator.evaluate e env).1 ∧
      (evaluator.evaluate e' (evaluator.evaluate e env).2).2 =
        (evaluator.evaluate e (evaluator.evaluate e' env).2).2 := by
  have hframe (e : Expr) (env : Environment) :
      env.Rebinds e.assigned (evaluator.evaluate e env).2 :=
    eval_rebinds _ _ e env
  obtain ⟨r, bs, ho, ho₁⟩ := evaluator.evaluate_of_rebinds h (hframe e' env) hd'
  obtain ⟨r', cs, ho', ho₁'⟩ := evaluator.evaluate_of_rebinds h' (hframe e env) hd
  have hb := hframe e env
  have hb₁ := hframe e (evaluator.evaluate e' env).2
  have hc := hframe e' env
  have hc₁ := hframe e' (evaluator.evaluate e env).2
  rw [ho₁, ho'] at hb₁
  rw [ho₁', ho] at hc₁
  rw [ho] at hb
  rw [ho'] at hc
  rw [ho₁, ho₁', ho, ho']
  refine ⟨rfl, rfl, Environment.ext_get? fun name => ?_⟩
  by_cases hn : name ∈ e.assigned
  · exact (Environment.Rebinds.get?_defineAll_comm (Set.disjoint_left.1 hw hn) hc hc₁).symm
  · exact Environment.Rebinds.get?_defineAll_comm hn hb hb₁

end Host

/-- Two functions that look up `k` where they are called. -/
def scaling : List (String × Value) :=
  [("f", .callable (.closure ⟨"f", ["x"], [.list [.text "+", .text "x", .text "k"]]⟩)),
    ("g", .callable (.closure ⟨"g", ["x"], [.list [.text "*", .text "x", .text "k"]]⟩)),
    ("b", .integer 1), ("d", .integer 2), ("k", .integer 10)]

/-- Binds the value of a call, and fails then. -/
def bindsAndFails : Expr :=
  .list [.text "cond",
    .list [.list [.text "setq", .text "a", .list [.text "f", .text "b"]],
      .list [.text "/", .text "a", .integer 0],
      .list [.text "setq", .text "a", .integer 0]]]

/-- Defines a function that calls another one, and binds its value. -/
def definesAndCalls : Expr :=
  .list [.text "cond",
    .list [.text "t",
      .list [.text "defun", .text "h", .list [.text "y"],
        .list [.text "g", .list [.text "+", .text "y", .text "k"]]],
      .list [.text "setq", .text "c", .list [.text "h", .text "d"]]]]

/-- The first expression fails in either order, with its first definition made; the second one has
its value in either order. -/
theorem bindsAndFails_comm :
    let env := Environment.initial.defineAll scaling
    let names := {n | n ∈ ["a", "b", "f", "k", "x"]}
    let names' := {n | n ∈ ["d", "g", "h", "k", "x", "y"]}
    let evaluate := (⟨9⟩ : Evaluator).evaluate
    (bindsAndFails.DependsOn names env ∧ definesAndCalls.DependsOn names' env ∧
      Disjoint bindsAndFails.assigned names' ∧ Disjoint definesAndCalls.assigned names ∧
      Disjoint bindsAndFails.assigned definesAndCalls.assigned) ∧
    ((evaluate definesAndCalls (evaluate bindsAndFails env).2).1 =
        (evaluate definesAndCalls env).1 ∧
      (evaluate bindsAndFails (evaluate definesAndCalls env).2).1 =
        (evaluate bindsAndFails env).1 ∧
      (evaluate definesAndCalls (evaluate bindsAndFails env).2).2 =
        (evaluate bindsAndFails (evaluate definesAndCalls env).2).2) ∧
    (evaluate bindsAndFails env) = (.error .divisionByZero, env.define "a" (.integer 11)) ∧
    (evaluate definesAndCalls env).1 = .ok (.integer 120) := by
  intro env names names' evaluate
  have h : bindsAndFails.DependsOn names env := by
    constructor
    · show ∀ n ∈ bindsAndFails.reads, n ∈ ["a", "b", "f", "k", "x"]
      decide +kernel
    · show ∀ n ∈ ["a", "b", "f", "k", "x"], ∀ v ∈ env.get? n, ∀ c ∈ v.closures, ∀ b ∈ c.body,
        ∀ n ∈ b.reads, n ∈ ["a", "b", "f", "k", "x"]
      decide +kernel
    · show ∀ n ∈ ["a", "b", "f", "k", "x"], ∀ v ∈ env.get? n, v.HostFree
      decide +kernel
  have h' : definesAndCalls.DependsOn names' env := by
    constructor
    · show ∀ n ∈ definesAndCalls.reads, n ∈ ["d", "g", "h", "k", "x", "y"]
      decide +kernel
    · show ∀ n ∈ ["d", "g", "h", "k", "x", "y"], ∀ v ∈ env.get? n, ∀ c ∈ v.closures, ∀ b ∈ c.body,
        ∀ n ∈ b.reads, n ∈ ["d", "g", "h", "k", "x", "y"]
      decide +kernel
    · show ∀ n ∈ ["d", "g", "h", "k", "x", "y"], ∀ v ∈ env.get? n, v.HostFree
      decide +kernel
  have hd : Disjoint bindsAndFails.assigned names' := by
    simp only [Set.disjoint_left, Expr.mem_assigned_iff]
    show ∀ n ∈ bindsAndFails.parts.filterMap Expr.target?, n ∉ ["d", "g", "h", "k", "x", "y"]
    decide +kernel
  have hd' : Disjoint definesAndCalls.assigned names := by
    simp only [Set.disjoint_left, Expr.mem_assigned_iff]
    show ∀ n ∈ definesAndCalls.parts.filterMap Expr.target?, n ∉ ["a", "b", "f", "k", "x"]
    decide +kernel
  have hw : Disjoint bindsAndFails.assigned definesAndCalls.assigned := by
    simp only [Set.disjoint_left, Expr.mem_assigned_iff]
    show ∀ n ∈ bindsAndFails.parts.filterMap Expr.target?,
      n ∉ definesAndCalls.parts.filterMap Expr.target?
    decide +kernel
  exact ⟨⟨h, h', hd, hd', hw⟩, evaluate_comm ⟨9⟩ h h' hd hd' hw, by decide +kernel,
    by decide +kernel⟩

end Evaluator

end SmallLisp
