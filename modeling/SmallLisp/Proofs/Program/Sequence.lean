import SmallLisp.Proofs.Eval.Outcome
import SmallLisp.Proofs.Program.Layout
import SmallLisp.Program.Run

/-!
# Texts run one after the other

A text has a value or an error of evaluation just if it writes expressions, and
then they are evaluated in sequence (`runText_eq_iff`). So texts that write
expressions come, one after the other, to what all these expressions come to in
sequence: `runAll_of_ok`, `runAll_of_error` and `evalSequence_of_runAll`.
-/

namespace SmallLisp

/-- The text writes at least one expression. -/
def WritesSome (text : String) (es : List Expr) : Prop := es ≠ [] ∧ Writes text.toList es

theorem writes_iff {text : String} {es : List Expr} :
    Writes text.toList es ↔ ∃ ts, tokenize text = .ok ts ∧ parseAll ts = .ok es := by
  simp only [Writes, Token.readsAs_iff, String.ofList_toList]

theorem mapError_eval_injective :
    Function.Injective fun o : Except EvalError Value => o.mapError RunError.eval := by
  intro o o' h
  cases o <;> cases o' <;> cases h <;> rfl

theorem flatten_eq_nil_iff_of_writesSome {texts : List String} {ess : List (List Expr)}
    (h : List.Forall₂ WritesSome texts ess) : ess.flatten = [] ↔ texts = [] := by
  cases h with
  | nil => exact iff_of_true rfl rfl
  | cons h _ =>
    exact iff_of_false (fun e => h.1 (List.append_eq_nil_iff.1 e).1) (List.cons_ne_nil _ _)

namespace Evaluator

variable [Host] {evaluator : Evaluator} {text : String} {texts : List String}
  {env env' : Environment}

/-! ## One text -/

theorem runText_of_writesSome {es : List Expr} (h : WritesSome text es) (env : Environment) :
    evaluator.runText text env =
      ((evalSequence evaluator.evaluate .nil es env).1.mapError .eval,
        (evalSequence evaluator.evaluate .nil es env).2) := by
  obtain ⟨hne, hw⟩ := h
  obtain ⟨ts, ht, hp⟩ := writes_iff.1 hw
  obtain ⟨e, es, rfl⟩ := List.exists_cons_of_ne_nil hne
  simp only [runText, ht, hp]
  rcases evalSequence evaluator.evaluate .nil (e :: es) env with ⟨x | v, env₁⟩ <;> rfl

/-- A text that writes one expression comes to what that comes to. -/
theorem runText_of_writesSome_singleton {e : Expr} (h : WritesSome text [e]) (env : Environment) :
    evaluator.runText text env =
      ((evaluator.evaluate e env).1.mapError .eval, (evaluator.evaluate e env).2) := by
  rw [runText_of_writesSome h, evalSequence_cons]
  rcases evaluator.evaluate e env with ⟨x | v, env₁⟩ <;> rfl

/-- A text is evaluated only if it writes an expression. -/
theorem exists_writesSome_of_runText {o : Except EvalError Value}
    (h : evaluator.runText text env = (o.mapError .eval, env')) : ∃ es, WritesSome text es := by
  unfold runText at h
  split at h
  · cases o <;> cases (Prod.mk.inj h).1
  · rename_i ts ht
    split at h
    · cases o <;> cases (Prod.mk.inj h).1
    · cases o <;> cases (Prod.mk.inj h).1
    · rename_i es hne hp
      exact ⟨es, hne, writes_iff.2 ⟨ts, ht, hp⟩⟩

theorem runText_eq_iff {o : Except EvalError Value} :
    evaluator.runText text env = (o.mapError .eval, env') ↔
      ∃ es, WritesSome text es ∧ evalSequence evaluator.evaluate .nil es env = (o, env') := by
  constructor
  · intro h
    obtain ⟨es, hes⟩ := exists_writesSome_of_runText h
    refine ⟨es, hes, ?_⟩
    rw [runText_of_writesSome hes] at h
    obtain ⟨ho, henv⟩ := Prod.mk.inj h
    exact Prod.ext (mapError_eval_injective ho) henv
  · rintro ⟨es, hes, h⟩
    rw [runText_of_writesSome hes, h]

/-! ## Texts in sequence -/

theorem runAll_cons (evaluator : Evaluator) (text : String) (texts : List String)
    (env : Environment) :
    evaluator.runAll (text :: texts) env =
      ((evaluator.runText text env).1 ::
          (evaluator.runAll texts (evaluator.runText text env).2).1,
        (evaluator.runAll texts (evaluator.runText text env).2).2) := rfl

theorem length_runAll (evaluator : Evaluator) (texts : List String) (env : Environment) :
    (evaluator.runAll texts env).1.length = texts.length := by
  induction texts generalizing env with
  | nil => rfl
  | cons text texts ih =>
    rw [runAll_cons, List.length_cons, List.length_cons, ih]

theorem evalSequence_flatten_cons {es : List Expr} (h : WritesSome text es)
    (ess : List (List Expr)) (last : Value) (env : Environment) :
    evalSequence evaluator.evaluate last (es :: ess).flatten env =
      (evalSequence evaluator.evaluate .nil es env).bind fun v env =>
        evalSequence evaluator.evaluate v ess.flatten env := by
  rw [List.flatten_cons, evalSequence_append, evalSequence_of_ne_nil _ h.1 last .nil]

/-- The first text has a value, from which the rest of the sequence goes on, or its error is that of
the sequence. -/
theorem evalSequence_flatten_step {es : List Expr} {ess : List (List Expr)} {last : Value}
    {o : Except EvalError Value} (hes : WritesSome text es)
    (h : evalSequence evaluator.evaluate last (es :: ess).flatten env = (o, env')) :
    (∃ v env₁, evaluator.runText text env = (.ok v, env₁) ∧
      evalSequence evaluator.evaluate v ess.flatten env₁ = (o, env')) ∨
      ∃ x, o = .error x ∧ evaluator.runText text env = (.error (.eval x), env') := by
  rw [evalSequence_flatten_cons hes] at h
  cases ho : evalSequence evaluator.evaluate .nil es env with
  | mk o₁ env₁ =>
    have ht : evaluator.runText text env = (o₁.mapError .eval, env₁) :=
      runText_eq_iff.2 ⟨es, hes, ho⟩
    rw [ho] at h
    cases o₁ with
    | ok v => exact .inl ⟨v, env₁, ht, h⟩
    | error x =>
      obtain ⟨rfl, rfl⟩ := Prod.mk.inj h
      exact .inr ⟨x, rfl, ht⟩

theorem runAll_of_ok {ess : List (List Expr)} {last v : Value}
    (h : List.Forall₂ WritesSome texts ess)
    (hr : evalSequence evaluator.evaluate last ess.flatten env = (.ok v, env')) :
    ∃ vs : List Value, evaluator.runAll texts env = (vs.map .ok, env') ∧ vs.getLastD last = v := by
  induction h generalizing env last with
  | nil =>
    obtain ⟨hv, rfl⟩ := Prod.mk.inj hr
    exact ⟨[], rfl, Except.ok.inj hv⟩
  | @cons text es texts ess hes _ ih =>
    rcases evalSequence_flatten_step hes hr with ⟨v₁, env₁, ht, hr⟩ | ⟨x, hx, -⟩
    · obtain ⟨vs, hvs, hlast⟩ := ih hr
      refine ⟨v₁ :: vs, ?_, by rw [List.getLastD_cons, hlast]⟩
      rw [runAll_cons, ht, hvs, List.map_cons]
    · cases hx

/-- The first error comes up in the text that writes the expression at fault, and leaves the
environment that it leaves in the sequence. -/
theorem runAll_of_error {ess : List (List Expr)} {last : Value} {x : EvalError}
    (h : List.Forall₂ WritesSome texts ess)
    (hr : evalSequence evaluator.evaluate last ess.flatten env = (.error x, env')) :
    ∃ (vs : List Value) (rest : List (Except RunError Value)),
      (evaluator.runAll texts env).1 = vs.map .ok ++ .error (.eval x) :: rest ∧
      (evaluator.runAll (texts.take (vs.length + 1)) env).2 = env' := by
  induction h generalizing env last with
  | nil => cases hr
  | @cons text es texts ess hes _ ih =>
    rcases evalSequence_flatten_step hes hr with ⟨v₁, env₁, ht, hr⟩ | ⟨y, hy, ht⟩
    · obtain ⟨vs, rest, hvs, henv⟩ := ih hr
      refine ⟨v₁ :: vs, rest, ?_, ?_⟩
      · rw [runAll_cons, ht, hvs, List.map_cons, List.cons_append]
      · rw [List.length_cons, List.take_succ_cons, runAll_cons, ht, henv]
    · obtain rfl := Except.error.inj hy
      refine ⟨[], (evaluator.runAll texts env').1, ?_, ?_⟩
      · rw [runAll_cons, ht, List.map_nil, List.nil_append]
      · rw [List.length_nil, List.take_succ_cons, List.take_zero, runAll_cons, ht]
        rfl

theorem evalSequence_of_runAll {vs : List Value}
    (h : evaluator.runAll texts env = (vs.map .ok, env')) :
    ∃ ess, List.Forall₂ WritesSome texts ess ∧
      ∀ last, evalSequence evaluator.evaluate last ess.flatten env =
        (.ok (vs.getLastD last), env') := by
  induction texts generalizing env vs with
  | nil =>
    obtain ⟨hv, rfl⟩ := Prod.mk.inj h
    rw [List.map_eq_nil_iff.1 hv.symm]
    exact ⟨[], .nil, fun _ => rfl⟩
  | cons text texts ih =>
    cases ht : evaluator.runText text env with
    | mk result env₁ =>
      rw [runAll_cons, ht] at h
      obtain ⟨hvs, henv⟩ := Prod.mk.inj h
      obtain ⟨v₁, vs, rfl, rfl, hrest⟩ := List.map_eq_cons_iff.1 hvs.symm
      obtain ⟨es, hes, ho⟩ := (runText_eq_iff (o := .ok v₁)).1 ht
      obtain ⟨ess, hess, hseq⟩ := ih (Prod.ext hrest.symm henv)
      refine ⟨es :: ess, .cons hes hess, fun last => ?_⟩
      rw [evalSequence_flatten_cons hes, ho, Outcome.bind_ok, hseq, List.getLastD_cons]

end Evaluator

end SmallLisp
