import SmallLisp.Operator.Extension
import SmallLisp.Proofs.Eval.FirstOrder
import SmallLisp.Proofs.Program.Sequence

/-!
# Programs that define no function

What is read from a text is never higher than the reader allows. So a text that
defines no function, run where only values of first order are bound, does not
run out of levels if there are as many of them as the reader allows
(`Evaluator.evaluate_shallow`): it takes the call of a closure to go deeper than
what is written.
-/

namespace SmallLisp

theorem Environment.isFirstOrder_initial : initial.IsFirstOrder := by
  rw [initial_eq_defineAll]
  refine All.defineAll (fun name v h => by cases h) fun b hb => ⟨trivial, ?_⟩
  obtain ⟨op, -, rfl⟩ := List.mem_map.1 hb
  exact ⟨rfl, Value.hostFree_operator op⟩

/-- The expressions of a text fit the reader if they define no function. -/
theorem fits_of_writes {text : String} {es : List Expr} (h : Writes text.toList es)
    (hdefun : ∀ e ∈ es, e.NoDefun) : ∀ e ∈ es, e.Fits defaultParseDepth := by
  obtain ⟨ts, -, hes⟩ := writes_iff.1 h
  exact fun e he =>
    ⟨Expr.heightOfItems_le.1 (parseAll_eq_ok_iff.1 hes).2 e he, hdefun e he⟩

namespace Evaluator

section Host

variable [Host] {evaluator : Evaluator} {env : Environment}

theorem not_exhausted_of_writesSome {text : String} {es : List Expr} (h : WritesSome text es)
    (hdefun : ∀ e ∈ es, e.NoDefun) (hm : defaultParseDepth ≤ evaluator.maxDepth)
    (henv : env.IsFirstOrder) :
    ¬ Exhausted (evalSequence evaluator.evaluate .nil es env).1 := by
  have hends : (evalSequence evaluator.evaluate .nil es env).Ends Value.IsFirstOrder :=
    evalSequence_keeps (fun _ _ => eval_ends _ _) Value.isFirstOrder_nil
      (fun e he => (fits_of_writes h.2 hdefun e he).mono hm) henv
  exact hends.not_exhausted

/-- Where neither a closure nor a function of the host occurs in what is bound, an expression in
which no list begins with `defun` does not exceed a limit that is as great as the expression is high.
Nor does a text of such expressions exceed a limit that is as great as the height to which texts are
read. -/
theorem evaluate_shallow (henv : ∀ name v, env.get? name = some v → v.closures = [])
    (hfree : env.HostFree) :
    (∀ e : Expr, e.NoDefun → e.height ≤ evaluator.maxDepth →
      ¬ Exhausted (evaluator.evaluate e env).1) ∧
    (256 ≤ evaluator.maxDepth → ∀ text : String,
      (∀ ts es, tokenize text = .ok ts → parseAll ts = .ok es → ∀ e ∈ es, e.NoDefun) →
      ∀ limit, (evaluator.runText text env).1 ≠ .error (.eval (.depthExceeded limit))) := by
  have hfirst : env.IsFirstOrder := fun name v hv =>
    ⟨trivial, henv name v hv, hfree name v hv⟩
  refine ⟨fun e hdefun hheight => ?_, fun hm text hdefun limit hx => ?_⟩
  · exact (eval_ends _ _ ⟨hheight, hdefun⟩ hfirst).not_exhausted
  · have hrun : evaluator.runText text env = ((Except.error (.depthExceeded limit)).mapError .eval,
        (evaluator.runText text env).2) := Prod.ext hx rfl
    obtain ⟨es, hes, ho⟩ := runText_eq_iff.1 hrun
    obtain ⟨ts, hts, hparse⟩ := writes_iff.1 hes.2
    exact not_exhausted_of_writesSome hes (hdefun ts es hts hparse) hm hfirst
      ⟨limit, congrArg Prod.fst ho⟩

end Host

/-- A list that holds a builtin is of first order. One binding in another takes as many levels as it
is high, and quoted data none. -/
theorem evaluate_shallow_nested :
    let env := Environment.initial.define "xs"
      (.list [.callable (.builtin Operator.add.builtin), .str "a"])
    let e : Expr := .list [.text "setq", .text "x", .list [.text "setq", .text "y", .integer 1]]
    let text := "(cond () ((atom xs)) (t (quote (a (b)))))\n(xs)"
    ((∀ name v, env.get? name = some v → v.closures = []) ∧ env.HostFree ∧ e.NoDefun ∧
      e.height ≤ (Evaluator.mk 3).maxDepth ∧ ¬ Exhausted (evaluate ⟨3⟩ e env).1) ∧
    (evaluate ⟨2⟩ e env).1 = .error (.depthExceeded 2) ∧
    (256 ≤ (Evaluator.mk 256).maxDepth ∧
      (∀ ts es, tokenize text = .ok ts → parseAll ts = .ok es → ∀ e ∈ es, e.NoDefun) ∧
      ∀ limit, (runText ⟨256⟩ text env).1 ≠ .error (.eval (.depthExceeded limit))) := by
  intro env e text
  have hxs : (Value.list [.callable (.builtin Operator.add.builtin), .str "a"]).IsFirstOrder :=
    ⟨rfl, by decide⟩
  have hfirst : env.IsFirstOrder := Environment.isFirstOrder_initial.define trivial hxs
  have henv : ∀ name v, env.get? name = some v → v.closures = [] :=
    fun name v hv => (hfirst name v hv).2.closures
  have hfree : env.HostFree := fun name v hv => (hfirst name v hv).2.hostFree
  have hdefun : e.NoDefun := by decide +kernel
  have hheight : e.height ≤ (Evaluator.mk 3).maxDepth := by decide +kernel
  have htext : ∀ ts es, tokenize text = .ok ts → parseAll ts = .ok es →
      ∀ e ∈ es, e.NoDefun := by
    let ts := ["(", "cond", "(", ")", "(", "(", "atom", "xs", ")", ")", "(", "t", "(", "quote",
      "(", "a", "(", "b", ")", ")", ")", ")", ")", "(", "xs", ")"]
    let data : Expr := .list [.text "quote", .list [.text "a", .list [.text "b"]]]
    let es : List Expr := [.list [.text "cond", .list [],
      .list [.list [.text "atom", .text "xs"]], .list [.text "t", data]], .list [.text "xs"]]
    have hts : tokenize text = .ok ts := by decide +kernel
    have hes : parseAll ts = .ok es := by decide +kernel
    have hnone : ∀ e ∈ es, e.NoDefun := by decide +kernel
    intro ts' es' ht hp
    obtain rfl := Except.ok.inj (hts.symm.trans ht)
    obtain rfl := Except.ok.inj (hes.symm.trans hp)
    exact hnone
  exact ⟨⟨henv, hfree, hdefun, hheight, (evaluate_shallow henv hfree).1 e hdefun hheight⟩,
    by decide +kernel, Nat.le_refl _, htext,
    (evaluate_shallow henv hfree).2 (Nat.le_refl _) text htext⟩

end Evaluator

end SmallLisp
