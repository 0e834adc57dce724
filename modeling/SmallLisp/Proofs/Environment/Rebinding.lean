import Mathlib.Data.Set.Basic
import SmallLisp.Environment.Basic

/-!
# Environments that differ by definitions

`Environment.Rebinds names env env'`: a finite sequence of definitions, all of
names in `names`, makes `env'` of `env`. Other names then keep their values
(`Rebinds.get?_eq`), and no name is lost (`Rebinds.contains`).
-/

namespace SmallLisp.Environment

theorem defineAll_cons (env : Environment) (name : String) (v : Value)
    (bs : List (String × Value)) :
    env.defineAll ((name, v) :: bs) = (env.define name v).defineAll bs := rfl

theorem defineAll_append (env : Environment) (bs cs : List (String × Value)) :
    env.defineAll (bs ++ cs) = (env.defineAll bs).defineAll cs :=
  List.foldl_append

theorem initial_eq_defineAll :
    initial = empty.defineAll
      (Operator.all.map fun op => (op.name, .callable (.builtin op.builtin))) := by
  rw [initial, defineAll, List.foldl_map]

theorem get?_defineAll_of_ne {name : String} {bs : List (String × Value)}
    (h : ∀ b ∈ bs, name ≠ b.1) (env : Environment) :
    (env.defineAll bs).get? name = env.get? name := by
  induction bs generalizing env with
  | nil => rfl
  | cons b bs ih =>
    rw [List.forall_mem_cons] at h
    rw [defineAll_cons, ih h.2, get?_define, if_neg h.1]

theorem contains_define {env : Environment} {name : String} (h : env.contains name = true)
    (name' : String) (v : Value) : (env.define name' v).contains name = true := by
  unfold contains at h ⊢
  rw [get?_define]
  split
  · rfl
  · exact h

theorem contains_defineAll {env : Environment} {name : String} (h : env.contains name = true)
    (bs : List (String × Value)) : (env.defineAll bs).contains name = true := by
  induction bs generalizing env with
  | nil => exact h
  | cons b bs ih => exact ih (contains_define h b.1 b.2)

/-- Definitions of some of the names lead from the first environment to the second one. -/
def Rebinds (names : Set String) (env env' : Environment) : Prop :=
  ∃ bs : List (String × Value), (∀ b ∈ bs, b.1 ∈ names) ∧ env' = env.defineAll bs

namespace Rebinds

variable {names names' : Set String} {env env' env'' : Environment}

theorem refl (names : Set String) (env : Environment) : Rebinds names env env := ⟨[], nofun, rfl⟩

theorem define {name : String} (h : name ∈ names) (env : Environment) (v : Value) :
    Rebinds names env (env.define name v) :=
  ⟨[(name, v)], by simpa using h, rfl⟩

theorem trans (h : Rebinds names env env') (h' : Rebinds names env' env'') :
    Rebinds names env env'' := by
  obtain ⟨bs, hbs, rfl⟩ := h
  obtain ⟨cs, hcs, rfl⟩ := h'
  refine ⟨bs ++ cs, fun b hb => ?_, (defineAll_append env bs cs).symm⟩
  exact (List.mem_append.1 hb).elim (hbs b) (hcs b)

theorem mono (h : Rebinds names env env') (hs : names ⊆ names') : Rebinds names' env env' := by
  obtain ⟨bs, hbs, e⟩ := h
  exact ⟨bs, fun b hb => hs (hbs b hb), e⟩

theorem get?_eq (h : Rebinds names env env') {name : String} (hn : name ∉ names) :
    env'.get? name = env.get? name := by
  obtain ⟨bs, hbs, rfl⟩ := h
  refine get?_defineAll_of_ne (fun b hb e => hn ?_) env
  rw [e]
  exact hbs b hb

theorem contains (h : Rebinds names env env') {name : String} (hc : env.contains name = true) :
    env'.contains name = true := by
  obtain ⟨bs, -, rfl⟩ := h
  exact contains_defineAll hc bs

theorem eq_of_empty (h : Rebinds names env env') (hn : ∀ name, name ∉ names) : env' = env :=
  ext_get? fun name => h.get?_eq (hn name)

end Rebinds

end SmallLisp.Environment
