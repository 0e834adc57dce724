import SmallLisp.Operator.Extension
import SmallLisp.Proofs.Eval.Adequacy

/-!
# The clause that decides

The clauses of a `cond` are looked at one by one. A clause is passed over
(`Passed`), or it is the one taken (`ClauseTaken`), or it fails before that
(`ClauseFails`); `clauses_passed_or_decided` finds the first one that is not
passed over. What follows this clause is never looked at
(`evalClauses_append_of_taken`, `evalClauses_append_of_error`), and where there
is none, what follows is evaluated in the environment that the tests have left
(`evalClauses_of_passed`).
-/

namespace SmallLisp

section Clauses

variable (ev : Expr → Environment → Outcome Value)

/-- All clauses are passed over: each is empty, or its test is not `t` and comes to what does not
count as true. The tests lead from the one environment to the other. -/
inductive Passed : List Expr → Environment → Environment → Prop
  | nil {env : Environment} : Passed [] env env
  | empty {clauses : List Expr} {env env' : Environment} :
    Passed clauses env env' → Passed (.list [] :: clauses) env env'
  | falsy {test : Expr} {body clauses : List Expr} {v : Value} {env env' env'' : Environment} :
    test ≠ .text "t" → ev test env = (.ok v, env') → ¬ v.CountsTrue →
    Passed clauses env' env'' → Passed (.list (test :: body) :: clauses) env env''

/-- The clause is taken: its test is `t` or comes to what counts as true. -/
inductive ClauseTaken : Expr → Environment → Prop
  | otherwise {body : List Expr} {env : Environment} :
    ClauseTaken (.list (.text "t" :: body)) env
  | truthy {test : Expr} {body : List Expr} {v : Value} {env env' : Environment} :
    test ≠ .text "t" → ev test env = (.ok v, env') → v.CountsTrue →
    ClauseTaken (.list (test :: body)) env

/-- The clause fails before it is taken or passed over: it is not a list, or its test fails. -/
inductive ClauseFails : Expr → Environment → Prop
  | notList {clause : Expr} {env : Environment} :
    (∀ items, clause ≠ .list items) → ClauseFails clause env
  | test {test : Expr} {body : List Expr} {x : EvalError} {env env' : Environment} :
    test ≠ .text "t" → ev test env = (.error x, env') → ClauseFails (.list (test :: body)) env

/-- One of the clauses is taken, and those before it are passed over. -/
def TakesClause (clauses : List Expr) (env : Environment) : Prop :=
  ∃ before clause after env', clauses = before ++ clause :: after ∧ Passed ev before env env' ∧
    ClauseTaken ev clause env'

variable {ev} {before clauses rest : List Expr} {clause : Expr} {env env' : Environment}

/-! ## What comes behind a clause -/

theorem evalClauses_of_passed (h : Passed ev before env env') (rest : List Expr) :
    evalClauses ev (before ++ rest) env = evalClauses ev rest env' := by
  induction h with
  | nil => rfl
  | empty _ ih => exact ih
  | falsy hne hv hf _ ih =>
    rw [List.cons_append, evalClauses_cons, if_neg (text?_ne_of_ne hne), hv, Outcome.bind_ok,
      if_neg (mt Value.isTruthy_iff.1 hf)]
    exact ih

theorem evalClauses_of_taken (h : ClauseTaken ev clause env) :
    ∃ o, ∀ rest, evalClauses ev (clause :: rest) env = o := by
  cases h with
  | otherwise => exact ⟨_, fun rest => (evalClauses_cons ev _ _ rest env).trans (if_pos rfl)⟩
  | @truthy test body v _ env' hne hv ht =>
    refine ⟨evalSequence ev .nil body env', fun rest => ?_⟩
    rw [evalClauses_cons, if_neg (text?_ne_of_ne hne), hv, Outcome.bind_ok,
      if_pos (Value.isTruthy_iff.2 ht)]

theorem evalClauses_of_fails (h : ClauseFails ev clause env) :
    ∃ x env', ∀ rest, evalClauses ev (clause :: rest) env = (.error x, env') := by
  cases h with
  | notList hne =>
    refine ⟨.misplaced .clause clause, env, fun rest => ?_⟩
    cases clause with
    | list items => exact absurd rfl (hne items)
    | _ => rfl
  | @test _ _ x _ env' hne hx =>
    refine ⟨x, env', fun rest => ?_⟩
    rw [evalClauses_cons, if_neg (text?_ne_of_ne hne), hx, Outcome.bind_error]

/-! ## The first clause that is not passed over -/

theorem clause_cases (ev : Expr → Environment → Outcome Value) (clause : Expr)
    (env : Environment) :
    (∃ env', ∀ clauses env'', Passed ev clauses env' env'' →
      Passed ev (clause :: clauses) env env'') ∨
    ClauseTaken ev clause env ∨ ClauseFails ev clause env := by
  cases clause with
  | integer n => exact .inr (.inr (.notList nofun))
  | text t => exact .inr (.inr (.notList nofun))
  | list items =>
    cases items with
    | nil => exact .inl ⟨env, fun clauses env'' h => .empty h⟩
    | cons test body =>
      by_cases hne : test = .text "t"
      · rw [hne]
        exact .inr (.inl .otherwise)
      · rcases hv : ev test env with ⟨x | v, env'⟩
        · exact .inr (.inr (.test hne hv))
        · by_cases ht : v.CountsTrue
          · exact .inr (.inl (.truthy hne hv ht))
          · exact .inl ⟨env', fun clauses env'' h => .falsy hne hv ht h⟩

/-- All clauses are passed over, or a first one is taken or fails. -/
theorem clauses_passed_or_decided (ev : Expr → Environment → Outcome Value)
    (clauses : List Expr) (env : Environment) :
    (∃ env', Passed ev clauses env env') ∨
      ∃ before clause after env', clauses = before ++ clause :: after ∧
        Passed ev before env env' ∧ (ClauseTaken ev clause env' ∨ ClauseFails ev clause env') := by
  induction clauses generalizing env with
  | nil => exact .inl ⟨env, .nil⟩
  | cons clause clauses ih =>
    rcases clause_cases ev clause env with ⟨env₁, hpass⟩ | hdecided
    · rcases ih env₁ with ⟨env', h⟩ | ⟨before, next, after, env', rfl, h, hnext⟩
      · exact .inl ⟨env', hpass _ _ h⟩
      · exact .inr ⟨clause :: before, next, after, env', rfl, hpass _ _ h, hnext⟩
    · exact .inr ⟨[], clause, clauses, env, rfl, .nil, hdecided⟩

theorem evalClauses_append_of_taken (h : TakesClause ev clauses env) (rest : List Expr) :
    evalClauses ev (clauses ++ rest) env = evalClauses ev clauses env := by
  obtain ⟨before, clause, after, env', rfl, hpass, htaken⟩ := h
  obtain ⟨o, ho⟩ := evalClauses_of_taken htaken
  rw [List.append_assoc, List.cons_append, evalClauses_of_passed hpass,
    evalClauses_of_passed hpass, ho, ho]

/-- Clauses that come to no value decide, whichever of them fails. -/
theorem evalClauses_append_of_error {x : EvalError} (h : (evalClauses ev clauses env).1 = .error x)
    (rest : List Expr) : evalClauses ev (clauses ++ rest) env = evalClauses ev clauses env := by
  rcases clauses_passed_or_decided ev clauses env with
    ⟨env', hpass⟩ | ⟨before, clause, after, env', rfl, hpass, htaken | hfails⟩
  · have hnil := evalClauses_of_passed hpass []
    rw [List.append_nil] at hnil
    rw [hnil] at h
    cases h
  · exact evalClauses_append_of_taken ⟨before, clause, after, env', rfl, hpass, htaken⟩ rest
  · obtain ⟨x, env'', hx⟩ := evalClauses_of_fails hfails
    rw [List.append_assoc, List.cons_append, evalClauses_of_passed hpass,
      evalClauses_of_passed hpass, hx, hx]

/-- Clauses of which none is taken and none fails are all passed over. -/
theorem exists_passed (ht : ¬ TakesClause ev clauses env)
    (hx : ∀ x, (evalClauses ev clauses env).1 ≠ .error x) : ∃ env', Passed ev clauses env env' := by
  rcases clauses_passed_or_decided ev clauses env with
    h | ⟨before, clause, after, env', rfl, hpass, htaken | hfails⟩
  · exact h
  · exact absurd ⟨before, clause, after, env', rfl, hpass, htaken⟩ ht
  · obtain ⟨x, env'', he⟩ := evalClauses_of_fails hfails
    refine absurd ?_ (hx x)
    rw [evalClauses_of_passed hpass, he]

end Clauses

/-! ## The form -/

/-- The form with the clauses. -/
def Expr.cond (clauses : List Expr) : Expr := .list (.text "cond" :: clauses)

namespace Evaluator

section Host

variable [Host] (evaluator : Evaluator)

/-- Evaluates a part of an expression, with a level less than the evaluator has. -/
def evaluatePart : Expr → Environment → Outcome Value :=
  eval evaluator.maxDepth (evaluator.maxDepth - 1)

theorem evaluate_cond (h : 0 < evaluator.maxDepth) (clauses : List Expr) (env : Environment) :
    evaluator.evaluate (.cond clauses) env = evalClauses evaluator.evaluatePart clauses env :=
  evaluate_of_pos h _ env

/-- A `cond` that takes a clause or fails does the same with any further clauses behind its own. If
it takes none and does not fail, its tests have left an environment, and the further clauses do
there what a `cond` of them alone does. -/
theorem evaluate_cond_append (clauses rest : List Expr) (env : Environment) :
    (TakesClause evaluator.evaluatePart clauses env ∨
        (∃ x, (evaluator.evaluate (.cond clauses) env).1 = .error x) →
      evaluator.evaluate (.cond (clauses ++ rest)) env =
        evaluator.evaluate (.cond clauses) env) ∧
    (¬ TakesClause evaluator.evaluatePart clauses env →
      (∀ x, (evaluator.evaluate (.cond clauses) env).1 ≠ .error x) →
      ∃ env', Passed evaluator.evaluatePart clauses env env' ∧
        evaluator.evaluate (.cond clauses) env = (.ok .nil, env') ∧
        evaluator.evaluate (.cond (clauses ++ rest)) env =
          evaluator.evaluate (.cond rest) env') := by
  by_cases hpos : 0 < evaluator.maxDepth
  · simp only [evaluate_cond evaluator hpos]
    refine ⟨fun h => ?_, fun htaken herror => ?_⟩
    · rcases h with h | ⟨x, hx⟩
      · exact evalClauses_append_of_taken h rest
      · exact evalClauses_append_of_error hx rest
    · obtain ⟨env', hpass⟩ := exists_passed htaken herror
      have hnil := evalClauses_of_passed hpass []
      rw [List.append_nil] at hnil
      exact ⟨env', hpass, hnil, evalClauses_of_passed hpass rest⟩
  · -- Without a level every form fails in the same way.
    obtain ⟨_ | m⟩ := evaluator
    · exact ⟨fun _ => rfl, fun _ herror => absurd rfl (herror (.depthExceeded 0))⟩
    · exact absurd (Nat.succ_pos m) hpos

end Host

/-- An empty clause, and one that binds a name and is not taken. -/
def bindingClauses : List Expr :=
  [.list [], .list [.list [.text "setq", .text "x", .integer 0], .integer 1]]

/-- The clauses that bind a name are passed over, so that what follows finds it bound. A clause
without a body that finds it bound is taken, and one whose test is not bound fails; what follows
these is not looked at, also if it is no clause. -/
theorem evaluate_cond_append_binding :
    let evaluator : Evaluator := ⟨3⟩
    let env := Environment.initial.define "x" (.integer 0)
    let found : Expr := .list [.list [.text "=", .text "x", .integer 0]]
    let missing : Expr := .list [.text "y", .text "x"]
    (¬ TakesClause evaluator.evaluatePart bindingClauses .initial ∧
      (∀ x, (evaluator.evaluate (.cond bindingClauses) .initial).1 ≠ .error x) ∧
      ∃ env', Passed evaluator.evaluatePart bindingClauses .initial env' ∧
        evaluator.evaluate (.cond (bindingClauses ++ [.list [.text "t", .text "x"]])) .initial =
          evaluator.evaluate (.cond [.list [.text "t", .text "x"]]) env') ∧
    (TakesClause evaluator.evaluatePart (bindingClauses ++ [found]) .initial ∧
      evaluator.evaluate (.cond (bindingClauses ++ [found] ++ [.text "x"])) .initial =
        (.ok .nil, env)) ∧
    ((evaluator.evaluate (.cond (bindingClauses ++ [missing])) .initial).1 =
        .error (.undefinedSymbol "y") ∧
      evaluator.evaluate (.cond (bindingClauses ++ [missing] ++ [.text "x"])) .initial =
        (.error (.undefinedSymbol "y"), env)) := by
  intro evaluator env found missing
  have hclauses := evaluator.evaluate_cond_append
  have hnil : evaluator.evaluate (.cond bindingClauses) .initial = (.ok .nil, env) := by
    decide +kernel
  have hfound : evaluator.evaluate (.cond (bindingClauses ++ [found])) .initial =
      (.ok .nil, env) := by decide +kernel
  have hmissing : evaluator.evaluate (.cond (bindingClauses ++ [missing])) .initial =
      (.error (.undefinedSymbol "y"), env) := by decide +kernel
  have hpass : Passed evaluator.evaluatePart bindingClauses .initial env :=
    .empty (.falsy (v := .integer 0) (by decide) (by decide +kernel)
      (mt Value.isTruthy_iff.2 (by decide)) .nil)
  have htest : evaluator.evaluatePart (.list [.text "=", .text "x", .integer 0]) env =
      (.ok (.bool true), env) := by decide +kernel
  have htaken : TakesClause evaluator.evaluatePart (bindingClauses ++ [found]) .initial :=
    ⟨bindingClauses, found, [], env, rfl, hpass, .truthy (by decide) htest .bool⟩
  -- If a clause were taken, the malformed one behind it would not be found.
  have hnot : ¬ TakesClause evaluator.evaluatePart bindingClauses .initial := fun h => by
    have hsame := (hclauses bindingClauses [.integer 7] .initial).1 (.inl h)
    revert hsame
    decide +kernel
  have hok : ∀ x, (evaluator.evaluate (.cond bindingClauses) .initial).1 ≠ .error x := by
    rw [hnil]
    exact nofun
  obtain ⟨env', hpass', -, hrest⟩ :=
    (hclauses bindingClauses [.list [.text "t", .text "x"]] .initial).2 hnot hok
  refine ⟨⟨hnot, hok, env', hpass', hrest⟩, ⟨htaken, ?_⟩, by rw [hmissing], ?_⟩
  · rw [(hclauses _ [.text "x"] .initial).1 (.inl htaken), hfound]
  · rw [(hclauses _ [.text "x"] .initial).1 (.inr ⟨_, congrArg Prod.fst hmissing⟩), hmissing]

end Evaluator

end SmallLisp
