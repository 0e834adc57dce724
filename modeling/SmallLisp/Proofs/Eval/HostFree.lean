import SmallLisp.Proofs.Eval.Invariant
import SmallLisp.Proofs.Value.Parts

/-!
# Evaluation without functions of the host

A function of the host may give any value and any error, also one about a limit
that is nobody's. Where none occurs in what is bound (`Environment.HostFree`),
none comes up (`invariant_hostFree`), and the error about the limit comes of
levels that have run out: it tells the limit of the evaluation
(`limit_eq_of_eval`).
-/

namespace SmallLisp

/-- No function of the host occurs in what is bound. -/
def Environment.HostFree (env : Environment) : Prop :=
  ∀ name v, env.get? name = some v → v.HostFree

namespace Environment.HostFree

variable {env : Environment}

theorem all (h : env.HostFree) : env.All (fun _ => True) Value.HostFree :=
  fun name v hv => ⟨trivial, h name v hv⟩

theorem of_all (h : env.All (fun _ => True) Value.HostFree) : env.HostFree :=
  fun name v hv => (h name v hv).2

theorem define (h : env.HostFree) (name : String) {v : Value} (hv : v.HostFree) :
    (env.define name v).HostFree :=
  of_all (h.all.define trivial hv)

theorem initial : Environment.initial.HostFree := by
  rw [initial_eq_defineAll]
  refine of_all (All.defineAll (fun name v hv => by cases hv) fun b hb => ⟨trivial, ?_⟩)
  obtain ⟨op, -, rfl⟩ := List.mem_map.1 hb
  exact Value.hostFree_operator op

end Environment.HostFree

variable [Host]

/-- An operator under another name and with another arity does not look at levels either. -/
theorem Builtin.not_exhausted_call_of_hostFree {b : Builtin}
    (h : (Value.callable (.builtin b)).HostFree) (args : List Value) :
    ¬ Exhausted (b.call args) := by
  obtain ⟨op, hop⟩ := Value.hostFree_builtin.1 h
  refine not_exhausted_bind (Arity.not_exhausted_check _ _ _) fun _ => ?_
  rw [hop]
  exact op.not_exhausted_apply args

/-- The error about the limit, if it comes up, tells this limit. -/
def TellsLimit (limit : Nat) (x : EvalError) : Prop := ∀ l, x = .depthExceeded l → l = limit

theorem invariant_hostFree (limit : Nat) :
    Invariant (fun _ => True) Value.HostFree (TellsLimit limit) (fun _ _ => True) where
  fitting := .all _
  nil := Value.hostFree_nil
  str := Value.hostFree_str
  scalar := Value.IsScalar.hostFree
  toValue := Value.hostFree_toValue
  symbolName _ := trivial
  closureOf _ _ := Value.hostFree_closure _
  params _ _ _ := trivial
  call h _ := (Builtin.yields_call_of_hostFree h _).mono fun _ hv => hv.hostFree
  error hx l e := absurd e (hx l)
  callError h hx l e :=
    absurd e (not_exhausted_iff.1 (Builtin.not_exhausted_call_of_hostFree h _) _ hx l)

variable {env : Environment}

theorem eval_hostFree (limit n : Nat) :
    EvalKeeps (fun _ => True) Value.HostFree (TellsLimit limit) (fun _ => True) (eval limit n) :=
  (invariant_hostFree limit).eval_keeps (fun _ _ _ e => (EvalError.depthExceeded.inj e).symm) n

/-- The error about the limit tells the limit of the evaluation. -/
theorem limit_eq_of_eval (henv : env.HostFree) {limit n l : Nat} {e : Expr}
    (h : (eval limit n e env).1 = .error (.depthExceeded l)) : l = limit :=
  (eval_hostFree limit n e env trivial henv.all).error _ h l rfl

/-- So it does in the result of a call. -/
theorem limit_eq_of_invoke (henv : env.HostFree) {c : Callable}
    (hc : (Value.callable c).HostFree) {args : List Value} (hargs : ∀ v ∈ args, v.HostFree)
    {limit n l : Nat} (h : invoke (eval limit n) c args env = .error (.depthExceeded l)) :
    l = limit := by
  have hk := invoke_keeps (n := n) (eval_hostFree limit n) (invariant_hostFree limit) hc hargs
    henv.all
  exact hk.error _ h l rfl

end SmallLisp
