import Mathlib.Data.List.Basic
import SmallLisp.Operator.Extension
import SmallLisp.Proofs.Environment.Rebinding
import SmallLisp.Proofs.Eval.Outcome
import SmallLisp.Proofs.Value.Closures
import SmallLisp.Proofs.Value.Parts

/-!
# What evaluation looks up

Two environments that agree on some names (`Environment.AgreeOn`) cannot be told
apart by an expression that looks up no other names: both runs have one result
and make the same definitions (`Outcome.Alike`). Under dynamic scope the body of
a function looks names up where it is called, so the closures bound to the names
must not look up others either, and no function of the host may be bound to them
(`Value.Confined`); `Alike` keeps this for all that the runs bind.
`Alike.bind` carries it through a sequence of steps, `evalExpr_alike` through a
level and `eval_alike` through all of them.
-/

namespace SmallLisp

variable {α β : Type} {names : Set String} {env env' : Environment}

/-! ## Environments that agree -/

/-- The closures in the value look up no names but these, and no function of the host, which might
give any others, occurs in it. -/
structure Value.Confined (names : Set String) (v : Value) : Prop where
  readsIn : v.ReadsIn names
  hostFree : v.HostFree

namespace Value

theorem IsScalar.confined {v : Value} (h : v.IsScalar) : v.Confined names :=
  ⟨h.readsIn, h.hostFree⟩

theorem confined_nil : Value.nil.Confined names := ⟨readsIn_nil, hostFree_nil⟩

theorem confined_str (s : String) : (str s).Confined names :=
  ⟨readsIn_of_closures_nil rfl, hostFree_str s⟩

theorem confined_toValue (e : Expr) : e.toValue.Confined names :=
  ⟨readsIn_of_closures_nil e.closures_toValue, hostFree_toValue e⟩

theorem confined_closure {c : Closure} :
    (callable (.closure c)).Confined names ↔ ∀ e ∈ c.body, e.ReadsIn names :=
  ⟨fun h => readsIn_closure.1 h.readsIn, fun h => ⟨readsIn_closure.2 h, hostFree_closure c⟩⟩

end Value

/-- The names are bound to the same values, which are confined to the names. -/
structure Environment.AgreeOn (names : Set String) (env env' : Environment) : Prop where
  get?_eq : ∀ n ∈ names, env.get? n = env'.get? n
  confined : ∀ n ∈ names, ∀ v, env.get? n = some v → v.Confined names

namespace Environment.AgreeOn

theorem define (h : AgreeOn names env env') {v : Value} (hv : v.Confined names) (name : String) :
    AgreeOn names (env.define name v) (env'.define name v) := by
  constructor
  · intro n hn
    rw [get?_define, get?_define, h.get?_eq n hn]
  · intro n hn w hw
    rw [get?_define] at hw
    split at hw
    · obtain rfl := Option.some.inj hw
      exact hv
    · exact h.confined n hn w hw

theorem defineAll (h : AgreeOn names env env') {bs : List (String × Value)}
    (hbs : ∀ b ∈ bs, b.2.Confined names) :
    AgreeOn names (env.defineAll bs) (env'.defineAll bs) := by
  induction bs generalizing env env' with
  | nil => exact h
  | cons b bs ih =>
    rw [List.forall_mem_cons] at hbs
    exact ih (h.define hbs.1 b.1) hbs.2

end Environment.AgreeOn

/-! ## Outcomes that are alike -/

/-- The outcomes have one result, whose value is good if there is one, and their environments come
from the given ones by the same definitions. -/
def Outcome.Alike (names : Set String) (good : α → Prop) (env env' : Environment)
    (o o' : Outcome α) : Prop :=
  ∃ r bs, o = (r, env.defineAll bs) ∧ o' = (r, env'.defineAll bs) ∧ Yields good r ∧
    ∀ b ∈ bs, b.2.Confined names

namespace Outcome.Alike

variable {good : α → Prop} {good' : β → Prop}

theorem result {r : Except EvalError α} (h : Yields good r) (env env' : Environment) :
    Alike names good env env' (r, env) (r, env') := ⟨r, [], rfl, rfl, h, nofun⟩

theorem define {a : α} {v : Value} (ha : good a) (hv : v.Confined names) (name : String)
    (env env' : Environment) :
    Alike names good env env' (.ok a, env.define name v) (.ok a, env'.define name v) :=
  ⟨.ok a, [(name, v)], rfl, rfl, .ok ha, by simpa using hv⟩

theorem bind {o o' : Outcome α} {k k' : α → Environment → Outcome β}
    (h : Alike names good env env' o o') (ha : env.AgreeOn names env')
    (hk : ∀ a env₁ env₁', good a → env₁.AgreeOn names env₁' →
      Alike names good' env₁ env₁' (k a env₁) (k' a env₁')) :
    Alike names good' env env' (o.bind k) (o'.bind k') := by
  obtain ⟨x | a, bs, rfl, rfl, hr, hbs⟩ := h
  · exact ⟨.error x, bs, rfl, rfl, .error x, hbs⟩
  · obtain ⟨r, cs, hc, hc', hr', hcs⟩ := hk a _ _ (hr a rfl) (ha.defineAll hbs)
    refine ⟨r, bs ++ cs, ?_, ?_, hr', List.forall_mem_append.2 ⟨hbs, hcs⟩⟩
    · rw [bind_ok, hc, Environment.defineAll_append]
    · rw [bind_ok, hc', Environment.defineAll_append]

end Outcome.Alike

section Forms

variable {ev : Expr → Environment → Outcome Value}

/-- A way to evaluate the parts of a form that cannot tell environments apart which agree on the
names that the parts look up. -/
def EvalAlike (names : Set String) (ev : Expr → Environment → Outcome Value) : Prop :=
  ∀ e env env', e.ReadsIn names → env.AgreeOn names env' →
    Outcome.Alike names (Value.Confined names) env env' (ev e env) (ev e env')

theorem resolve_alike {t : String} (ht : t ∈ names) (ha : env.AgreeOn names env') :
    Outcome.Alike names (Value.Confined names) env env' (resolve t env, env)
      (resolve t env', env') := by
  have hr : resolve t env' = resolve t env := by rw [resolve, resolve, ha.get?_eq t ht]
  rw [hr]
  exact .result (yields_resolve Value.confined_str
    (fun v hv => hv.confined) (ha.confined t ht)) env env'

variable (h : EvalAlike names ev)

include h

theorem evalOperands_alike {es : List Expr} (hs : ∀ e ∈ es, e.ReadsIn names)
    (ha : env.AgreeOn names env') :
    Outcome.Alike names (fun vs => ∀ v ∈ vs, v.Confined names) env env' (evalOperands ev es env)
      (evalOperands ev es env') := by
  induction es generalizing env env' with
  | nil => exact .result (.ok nofun) env env'
  | cons e es ih =>
    rw [List.forall_mem_cons] at hs
    rw [evalOperands_cons, evalOperands_cons]
    refine (h e env env' hs.1 ha).bind ha fun v env₁ env₁' hv ha₁ => ?_
    refine (ih hs.2 ha₁).bind ha₁ fun vs env₂ env₂' hvs ha₂ => ?_
    exact .result (.ok (List.forall_mem_cons.2 ⟨hv, hvs⟩)) env₂ env₂'

theorem evalSequence_alike {es : List Expr} (hs : ∀ e ∈ es, e.ReadsIn names) {last : Value}
    (hl : last.Confined names) (ha : env.AgreeOn names env') :
    Outcome.Alike names (Value.Confined names) env env' (evalSequence ev last es env)
      (evalSequence ev last es env') := by
  induction es generalizing last env env' with
  | nil => exact .result (.ok hl) env env'
  | cons e es ih =>
    rw [List.forall_mem_cons] at hs
    rw [evalSequence_cons, evalSequence_cons]
    exact (h e env env' hs.1 ha).bind ha fun v env₁ env₁' hv ha₁ => ih hs.2 hv ha₁

theorem evalClauses_alike {clauses : List Expr}
    (hs : ∀ n ∈ Expr.readsOfClauses clauses, n ∈ names) (ha : env.AgreeOn names env') :
    Outcome.Alike names (Value.Confined names) env env' (evalClauses ev clauses env)
      (evalClauses ev clauses env') := by
  induction clauses generalizing env env' with
  | nil => exact .result (.ok Value.confined_nil) env env'
  | cons clause clauses ih =>
    cases clause with
    | integer n => exact .result (.error _) env env'
    | text t => exact .result (.error _) env env'
    | list items =>
      cases items with
      | nil => exact ih hs ha
      | cons test body =>
        obtain ⟨ht, hb, hc⟩ := Expr.readsIn_clause.1 hs
        rw [evalClauses_cons, evalClauses_cons]
        split
        · exact evalSequence_alike h hb Value.confined_nil ha
        · rename_i hne
          refine (h test env env' (ht hne) ha).bind ha fun v env₁ env₁' _ ha₁ => ?_
          split
          · exact evalSequence_alike h hb Value.confined_nil ha₁
          · exact ih hc ha₁

theorem evalSetq_alike {operands : List Expr}
    (hs : ∀ n ∈ Expr.readsOfSetq operands, n ∈ names) (ha : env.AgreeOn names env') :
    Outcome.Alike names (Value.Confined names) env env' (evalSetq ev operands env)
      (evalSetq ev operands env') := by
  by_cases hl : operands.length = 2
  · obtain ⟨target, e, rfl⟩ := List.length_eq_two.1 hl
    rw [evalSetq_pair, evalSetq_pair]
    split
    · exact .result (.error _) env env'
    · rename_i name _
      exact (h e env env' hs ha).bind ha fun v env₁ env₁' hv _ => .define hv hv name env₁ env₁'
  · rw [evalSetq_of_length_ne ev hl, evalSetq_of_length_ne ev hl]
    exact .result (.error _) env env'

theorem evalOperator_alike (op : Operator) {operands : List Expr}
    (hs : ∀ e ∈ operands, e.ReadsIn names) (ha : env.AgreeOn names env') :
    Outcome.Alike names (Value.Confined names) env env' (evalOperator ev op operands env)
      (evalOperator ev op operands env') := by
  rw [evalOperator_eq, evalOperator_eq]
  refine (evalOperands_alike h hs ha).bind ha fun args env₁ env₁' _ _ => ?_
  exact .result ((op.yields_call args).mono fun v hv => hv.confined) env₁ env₁'

omit h in
theorem evalDefun_alike {operands : List Expr}
    (hs : ∀ n ∈ Expr.readsOfDefun operands, n ∈ names) (env env' : Environment) :
    Outcome.Alike names (Value.Confined names) env env' (evalDefun operands env)
      (evalDefun operands env') := by
  unfold evalDefun
  split
  · rename_i name params e es
    rcases hc : closureOf name params (e :: es) with x | c
    · exact .result (.error x) env env'
    · have hspec := closureOf_spec name params (e :: es)
      rw [hc] at hspec
      cases hspec with
      | names _ _ =>
        refine .define (Value.confined_str _) ?_ _ env env'
        exact Value.confined_closure.2 (Expr.readsIn_items.1 hs)
  · exact .result (.error _) env env'

variable [Host]

/-- A call gives one result where its callers agree, whatever its body binds. -/
theorem invoke_alike {c : Callable} (hc : (Value.callable c).Confined names) {args : List Value}
    (hargs : ∀ v ∈ args, v.Confined names) (ha : env.AgreeOn names env') :
    Outcome.Alike names (Value.Confined names) env env' (invoke ev c args env, env)
      (invoke ev c args env', env') := by
  cases c with
  | builtin b =>
    have hv := b.yields_call_of_hostFree hc.hostFree args
    exact .result (hv.mono fun v hv => hv.confined) env env'
  | closure c =>
    simp only [invoke]
    split
    · have hzip : ∀ b ∈ c.params.zip args, b.2.Confined names :=
        fun b hb => hargs b.2 (List.of_mem_zip hb).2
      obtain ⟨r, bs, hr, hr', hg, -⟩ := evalSequence_alike h (Value.confined_closure.1 hc)
        Value.confined_nil (ha.defineAll hzip)
      rw [hr, hr']
      exact .result hg env env'
    · exact .result (.error _) env env'

theorem evalCall_alike {name : String} (hn : name ∈ names) {operands : List Expr}
    (hs : ∀ e ∈ operands, e.ReadsIn names) (ha : env.AgreeOn names env') :
    Outcome.Alike names (Value.Confined names) env env' (evalCall ev name operands env)
      (evalCall ev name operands env') := by
  rw [evalCall_eq, evalCall_eq, ← ha.get?_eq name hn]
  split
  · exact .result (.error _) env env'
  · rename_i c hg
    refine (evalOperands_alike h hs ha).bind ha fun args env₁ env₁' hargs ha₁ => ?_
    exact invoke_alike h (ha.confined name hn _ hg) hargs ha₁
  · exact .result (.error _) env env'

theorem evalForm_alike {name : String} {operands : List Expr}
    (hs : (Expr.list (.text name :: operands)).ReadsIn names) (ha : env.AgreeOn names env') :
    Outcome.Alike names (Value.Confined names) env env' (evalForm ev name operands env)
      (evalForm ev name operands env') := by
  rw [Expr.ReadsIn, Expr.reads] at hs
  unfold evalForm
  split
  · rename_i hf
    rw [hf] at hs
    exact evalSetq_alike h hs ha
  · rename_i hf
    rw [hf] at hs
    exact evalDefun_alike hs env env'
  · exact .result (yields_evalQuote Value.confined_toValue operands) env env'
  · rename_i hf
    rw [hf] at hs
    exact evalClauses_alike h hs ha
  · rename_i hf
    rw [hf] at hs
    split
    · rename_i op ho
      rw [ho] at hs
      exact evalOperator_alike h op (Expr.readsIn_items.1 hs) ha
    · rename_i ho
      rw [ho] at hs
      obtain ⟨hn, hs⟩ := List.forall_mem_cons.1 hs
      exact evalCall_alike h hn (Expr.readsIn_items.1 hs) ha

theorem evalExpr_alike : EvalAlike names (evalExpr ev) := by
  intro e env env' hs ha
  unfold evalExpr
  split
  · exact .result (.ok (Value.IsScalar.integer _).confined) env env'
  · exact resolve_alike (Expr.readsIn_text.1 hs) ha
  · exact .result (.error _) env env'
  · exact evalForm_alike h hs ha
  · exact .result (.error _) env env'

end Forms

/-- Evaluation on any number of levels cannot tell environments apart that agree on the names. -/
theorem eval_alike [Host] (names : Set String) (limit n : Nat) :
    EvalAlike names (eval limit n) := by
  induction n with
  | zero => exact fun e env env' _ _ => .result (.error _) env env'
  | succ n ih => exact evalExpr_alike ih

/-- Two environments bind some names to the same values, or leave them unbound alike; the expression
looks up no other names, and neither do the bodies of the closures in these values, in which no
function of the host occurs. Then evaluation has one result in both, and leaves both with the same
definitions made. -/
theorem Evaluator.evaluate_noninterference [Host] (evaluator : Evaluator) {names : Set String}
    {e : Expr} {env env' : Environment} (he : ∀ n ∈ e.reads, n ∈ names)
    (hget : ∀ n ∈ names, env.get? n = env'.get? n)
    (hreads : ∀ n ∈ names, ∀ v, env.get? n = some v → ∀ c ∈ v.closures, ∀ b ∈ c.body,
      ∀ n ∈ b.reads, n ∈ names)
    (hfree : ∀ n ∈ names, ∀ v, env.get? n = some v → v.HostFree) :
    ∃ r bs, evaluator.evaluate e env = (r, env.defineAll bs) ∧
      evaluator.evaluate e env' = (r, env'.defineAll bs) := by
  have ha : env.AgreeOn names env' :=
    ⟨hget, fun n hn v hv => ⟨hreads n hn v hv, hfree n hn v hv⟩⟩
  obtain ⟨r, bs, hr, hr', -, -⟩ := eval_alike names _ _ e env env' he ha
  exact ⟨r, bs, hr, hr'⟩

/-- A function that binds a name of its caller and calls another one, which looks up the parameter
of the first. -/
def raising : List (String × Value) :=
  [("f", .callable (.closure ⟨"f", ["x"],
      [.list [.text "setq", .text "y", .list [.text "+", .text "x", .text "y"]],
        .list [.text "g", .text "y"]]⟩)),
    ("g", .callable (.closure ⟨"g", ["f"], [.list [.text "*", .text "f", .text "x"]]⟩)),
    ("y", .integer 1)]

/-- Binds a name twice, and fails then. -/
def raisedTwice : Expr :=
  .list [.text "cond",
    .list [.list [.text "f", .list [.text "setq", .text "z", .integer 2]],
      .list [.text "setq", .text "z", .list [.text "f", .text "z"]],
      .list [.text "h", .text "z"]]]

/-- A binding of an operator's name and one of a name that is not looked up make no difference, also
not to the error and to the bindings made before it. -/
theorem raisedTwice_noninterference :
    let env := Environment.initial.defineAll raising
    let env' := (env.define "+" (.integer 5)).define "k" (.str "")
    let names := {n | n ∈ ["f", "g", "h", "x", "y", "z"]}
    (∀ n ∈ raisedTwice.reads, n ∈ names) ∧ (∀ n ∈ names, env.get? n = env'.get? n) ∧
      (∀ n ∈ names, ∀ v, env.get? n = some v → ∀ c ∈ v.closures, ∀ b ∈ c.body,
        ∀ n ∈ b.reads, n ∈ names) ∧
      (∀ n ∈ names, ∀ v, env.get? n = some v → v.HostFree) ∧
      (∃ r bs, (⟨8⟩ : Evaluator).evaluate raisedTwice env = (r, env.defineAll bs) ∧
        (⟨8⟩ : Evaluator).evaluate raisedTwice env' = (r, env'.defineAll bs)) ∧
      (⟨8⟩ : Evaluator).evaluate raisedTwice env =
        (.error (.undefinedFunction "h"), env.define "z" (.integer 6)) := by
  intro env env' names
  have he : ∀ n ∈ raisedTwice.reads, n ∈ names := by
    show ∀ n ∈ raisedTwice.reads, n ∈ ["f", "g", "h", "x", "y", "z"]
    decide +kernel
  have hget : ∀ n ∈ names, env.get? n = env'.get? n := by
    show ∀ n ∈ ["f", "g", "h", "x", "y", "z"], env.get? n = env'.get? n
    decide +kernel
  have hreads : ∀ n ∈ names, ∀ v, env.get? n = some v → ∀ c ∈ v.closures, ∀ b ∈ c.body,
      ∀ n ∈ b.reads, n ∈ names := by
    show ∀ n ∈ ["f", "g", "h", "x", "y", "z"], ∀ v ∈ env.get? n, ∀ c ∈ v.closures, ∀ b ∈ c.body,
      ∀ n ∈ b.reads, n ∈ ["f", "g", "h", "x", "y", "z"]
    decide +kernel
  have hfree : ∀ n ∈ names, ∀ v, env.get? n = some v → v.HostFree := by
    show ∀ n ∈ ["f", "g", "h", "x", "y", "z"], ∀ v ∈ env.get? n, v.HostFree
    decide +kernel
  exact ⟨he, hget, hreads, hfree,
    Evaluator.evaluate_noninterference ⟨8⟩ he hget hreads hfree, by decide +kernel⟩

end SmallLisp
