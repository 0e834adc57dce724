import SmallLisp.Operator.Extension
import SmallLisp.Program.Run
import SmallLisp.Proofs.Eval.Frame
import SmallLisp.Proofs.Value.Shape

/-!
# What requests leave behind

A host program asks evaluators for expressions, for texts and for the chunks of
texts, and keeps one environment (`serve`). Whatever it asks for, in whatever
order and with whatever limits, also when requests fail: values have the shape
of the values of programs, names only are bound, to such values, and no operator
loses its name (`serve_initial`).
-/

namespace SmallLisp

/-- What a host program asks of an evaluator. -/
inductive Request
  | expression (e : Expr)
  | text (t : String)
  | chunks (t : String)
deriving DecidableEq

section Host

variable [Host]

/-- The results of a request, and the environment it leaves. -/
def Request.run (evaluator : Evaluator) (env : Environment) :
    Request → List (Except RunError Value) × Environment
  | expression e =>
    let (result, env) := evaluator.evaluate e env
    ([result.mapError .eval], env)
  | text t =>
    let (result, env) := evaluator.runText t env
    ([result], env)
  | chunks t => evaluator.runChunks t env

/-- The results of requests one after the other, each with an evaluator of its own. -/
def serve : List (Evaluator × Request) → Environment → List (Except RunError Value) × Environment
  | [], env => ([], env)
  | (evaluator, request) :: requests, env =>
    let (results, env) := request.run evaluator env
    let (later, env) := serve requests env
    (results ++ later, env)

end Host

/-- Names only are bound, to values of the shape of those of programs, and all operators are. -/
structure Environment.IsSound (env : Environment) : Prop where
  bindings : env.All IsName Value.WellShaped
  operators : ∀ op ∈ Operator.all, env.contains op.name = true

/-- All values are of the shape of those of programs, and the environment is sound. -/
structure IsSoundRun (run : List (Except RunError Value) × Environment) : Prop where
  values : ∀ v, .ok v ∈ run.1 → v.WellShaped
  env : run.2.IsSound

/-! ## The first environment -/

theorem Environment.isSound_initial : initial.IsSound := by
  refine ⟨?_, by decide +kernel⟩
  rw [initial_eq_defineAll]
  refine All.defineAll (fun name v h => by cases h) fun b hb => ?_
  obtain ⟨op, -, rfl⟩ := List.mem_map.1 hb
  exact ⟨op.isName_name, Value.wellShaped_operator op⟩

/-! ## Runs -/

namespace IsSoundRun

variable {env : Environment}

theorem nil (h : env.IsSound) : IsSoundRun ([], env) := ⟨nofun, h⟩

theorem error (x : RunError) (h : env.IsSound) : IsSoundRun ([.error x], env) :=
  ⟨fun _ hv => (nomatch List.mem_singleton.1 hv), h⟩

theorem append {run run' : List (Except RunError Value) × Environment} (h : IsSoundRun run)
    (h' : IsSoundRun run') : IsSoundRun (run.1 ++ run'.1, run'.2) :=
  ⟨fun v hv => (List.mem_append.1 hv).elim (h.values v) (h'.values v), h'.env⟩

/-- What evaluation keeps is what a run needs. -/
theorem of_keeps {names : Set String} {o : Outcome Value} (h : env.IsSound)
    (hk : o.Keeps IsName Value.WellShaped (fun _ => True) Value.WellShaped)
    (hr : o.Rebinds names env) :
    IsSoundRun ([o.1.mapError .eval], o.2) := by
  refine ⟨fun v hv => ?_, hk.env, fun op hop => hr.contains (h.operators op hop)⟩
  rcases o with ⟨x | w, env'⟩
  · cases List.mem_singleton.1 hv
  · cases List.mem_singleton.1 hv
    exact hk.value v rfl

end IsSoundRun

namespace Evaluator

variable [Host] (evaluator : Evaluator) {env : Environment}

/-- A text is evaluated in sequence, or it is refused and nothing happens. -/
theorem runText_cases (text : String) (env : Environment) :
    (∃ x, evaluator.runText text env = (.error x, env)) ∨
      ∃ es, evaluator.runText text env =
        ((evalSequence evaluator.evaluate .nil es env).1.mapError .eval,
          (evalSequence evaluator.evaluate .nil es env).2) := by
  unfold runText
  split
  · exact .inl ⟨_, rfl⟩
  · split
    · exact .inl ⟨_, rfl⟩
    · exact .inl ⟨_, rfl⟩
    · rename_i es _ _
      refine .inr ⟨es, ?_⟩
      rcases evalSequence evaluator.evaluate .nil es env with ⟨x | v, env'⟩ <;> rfl

theorem isSoundRun_evaluate (h : env.IsSound) (e : Expr) :
    IsSoundRun ([(evaluator.evaluate e env).1.mapError .eval], (evaluator.evaluate e env).2) :=
  .of_keeps h (eval_wellShaped _ _ e env trivial h.bindings) (eval_rebinds _ _ e env)

theorem isSoundRun_runText (h : env.IsSound) (text : String) :
    IsSoundRun ([(evaluator.runText text env).1], (evaluator.runText text env).2) := by
  rcases evaluator.runText_cases text env with ⟨x, hx⟩ | ⟨es, hes⟩
  · rw [hx]
    exact .error x h
  · rw [hes]
    exact .of_keeps h
      (evalSequence_keeps (eval_wellShaped _ _) Value.wellShaped_nil (fun _ _ => trivial)
        h.bindings)
      (evalSequence_rebinds (eval_rebinds _ _) (fun e _ => Set.subset_univ e.assigned) .nil env)

theorem isSoundRun_runAll (h : env.IsSound) (texts : List String) :
    IsSoundRun (evaluator.runAll texts env) := by
  induction texts generalizing env with
  | nil => exact .nil h
  | cons text texts ih =>
    have ht := evaluator.isSoundRun_runText h text
    exact ht.append (ih ht.env)

end Evaluator

/-- One request leaves a sound environment behind in a sound one. -/
theorem Request.isSoundRun_run [Host] (evaluator : Evaluator) {env : Environment} (h : env.IsSound)
    (request : Request) : IsSoundRun (request.run evaluator env) := by
  cases request with
  | expression e => exact evaluator.isSoundRun_evaluate h e
  | text t => exact evaluator.isSoundRun_runText h t
  | chunks t => exact evaluator.isSoundRun_runAll h (SmallLisp.chunks t)

theorem isSoundRun_serve [Host] {env : Environment} (h : env.IsSound)
    (requests : List (Evaluator × Request)) : IsSoundRun (serve requests env) := by
  induction requests generalizing env with
  | nil => exact .nil h
  | cons r requests ih =>
    have hr := Request.isSoundRun_run r.1 h r.2
    exact hr.append (ih hr.env)

/-- Whatever has been asked for since the first environment, and whatever of it has failed: a value
that is returned or bound holds no symbol, its lists are made of integers, strings and lists, its
builtins are the operators with their names and arities, and its closures have a body, a name and
parameters that are names. What is bound is a name, and all operators are bound. -/
theorem serve_initial [Host] (requests : List (Evaluator × Request)) :
    (∀ v, .ok v ∈ (serve requests .initial).1 → v.WellShaped) ∧
      (∀ name v, (serve requests .initial).2.get? name = some v →
        IsName name ∧ v.WellShaped) ∧
      ∀ op ∈ Operator.all, (serve requests .initial).2.contains op.name = true := by
  obtain ⟨hv, henv⟩ := isSoundRun_serve Environment.isSound_initial requests
  exact ⟨hv, henv.bindings, henv.operators⟩

/-- Three requests: a text that fails behind a definition, chunks, and data that no text writes. -/
example :
    let data : Expr := .list [.text "", .list [.text "(", .integer 1]]
    serve [(⟨8⟩, .text "(defun f (x) (g x)) (f 1)"), (⟨2⟩, .chunks "(quote f) (f f\n\nlist"),
        (⟨1⟩, .expression (.list [.text "quote", data]))] .initial =
      ([.error (.eval (.undefinedFunction "g")), .error (.parse ⟨.unclosed, 4⟩),
        .ok data.toValue],
        Environment.initial.define "f"
          (.callable (.closure ⟨"f", ["x"], [.list [.text "g", .text "x"]]⟩))) := by
  decide +kernel

end SmallLisp
