import SmallLisp.Value.Decide

/-!
# Environments

An environment binds names to values. It is kept in the order of the names, so
that environments with the same bindings are equal (`Environment.ext_get?`);
what a definition does is told by `get?_define`.
-/

namespace SmallLisp

/-- Bindings in the order of their names, each name bound once. -/
structure Environment where
  bindings : List (String × Value)
  sorted : bindings.Pairwise fun a b => a.1 < b.1
deriving DecidableEq

namespace Environment

/-- Puts a binding at its place, instead of any other of the name. -/
def insertBinding (name : String) (v : Value) : List (String × Value) → List (String × Value)
  | [] => [(name, v)]
  | b :: bs =>
    if name < b.1 then (name, v) :: b :: bs
    else if name = b.1 then (name, v) :: bs
    else b :: insertBinding name v bs

/-- The value that a name has among some bindings. -/
def lookup (name : String) : List (String × Value) → Option Value
  | [] => none
  | b :: bs => if name = b.1 then some b.2 else lookup name bs

theorem lt_of_not_lt {s t : String} (h : ¬ s < t) (hne : s ≠ t) : t < s :=
  Decidable.byContradiction fun hn =>
    hne (String.le_antisymm (String.not_lt.1 hn) (String.not_lt.1 h))

theorem mem_of_mem_insertBinding {name : String} {v : Value} {b : String × Value}
    {bs : List (String × Value)} (h : b ∈ insertBinding name v bs) : b = (name, v) ∨ b ∈ bs := by
  induction bs with
  | nil => simpa [insertBinding] using h
  | cons c bs ih =>
    simp only [insertBinding] at h
    split at h
    · simpa using h
    · split at h
      · exact (List.mem_cons.1 h).imp_right (List.mem_cons_of_mem _)
      · rcases List.mem_cons.1 h with h | h
        · exact .inr (h ▸ List.mem_cons_self)
        · exact (ih h).imp_right (List.mem_cons_of_mem _)

theorem sorted_insertBinding {name : String} {v : Value} {bs : List (String × Value)}
    (h : bs.Pairwise fun a b => a.1 < b.1) :
    (insertBinding name v bs).Pairwise fun a b => a.1 < b.1 := by
  induction bs with
  | nil => simp [insertBinding]
  | cons c bs ih =>
    have ⟨hc, hbs⟩ := List.pairwise_cons.1 h
    simp only [insertBinding]
    split
    · rename_i hlt
      refine List.pairwise_cons.2 ⟨fun b hb => ?_, h⟩
      rcases List.mem_cons.1 hb with rfl | hb
      · exact hlt
      · exact String.lt_trans hlt (hc b hb)
    · split
      · rename_i heq
        exact List.pairwise_cons.2 ⟨fun b hb => heq ▸ hc b hb, hbs⟩
      · rename_i hnlt hne
        refine List.pairwise_cons.2 ⟨fun b hb => ?_, ih hbs⟩
        rcases mem_of_mem_insertBinding hb with rfl | hb
        · exact lt_of_not_lt hnlt hne
        · exact hc b hb

/-- The environment without bindings. -/
def empty : Environment := ⟨[], .nil⟩

instance : Inhabited Environment := ⟨empty⟩

/-- Binds a name, instead of any earlier binding. -/
def define (env : Environment) (name : String) (v : Value) : Environment :=
  ⟨insertBinding name v env.bindings, sorted_insertBinding env.sorted⟩

/-- The value a name is bound to. -/
def get? (env : Environment) (name : String) : Option Value := lookup name env.bindings

/-- Whether a name is bound. -/
def contains (env : Environment) (name : String) : Bool := (env.get? name).isSome

/-- The number of bindings. -/
def size (env : Environment) : Nat := env.bindings.length

/-- Whether nothing is bound. -/
def isEmpty (env : Environment) : Bool := env.bindings.isEmpty

/-- Binds a function that is not written in the language. -/
def register (env : Environment) (name : String) (arity : Arity) (primitive : Primitive) :
    Environment :=
  env.define name (.callable (.builtin ⟨name, arity, primitive⟩))

/-- The environment that programs start with: every operator under its name. -/
def initial : Environment :=
  Operator.all.foldl (fun env op => env.define op.name (.callable (.builtin op.builtin))) empty

/-- Binds names to values from the left, so that of two equal names the later one counts. -/
def defineAll (env : Environment) (bindings : List (String × Value)) : Environment :=
  bindings.foldl (fun env (name, v) => env.define name v) env

/-- Whether two environments bind the same names to the same values. -/
def same (env other : Environment) : Bool :=
  env.size == other.size && env.bindings.all fun (name, v) => (other.get? name).any v.same

/-- The bindings that another environment does not have with the same value. -/
def additions (env other : Environment) : List (String × Value) :=
  env.bindings.filter fun (name, v) => !(other.get? name).any v.same

/-! ## Look-up after definition -/

theorem lookup_insertBinding (name : String) (v : Value) (bs : List (String × Value)) (n : String) :
    lookup n (insertBinding name v bs) = if n = name then some v else lookup n bs := by
  induction bs with
  | nil => rfl
  | cons c bs ih =>
    simp only [insertBinding]
    split
    · rfl
    · split
      · rename_i heq
        by_cases h : n = name <;> simp [lookup, h, ← heq]
      · rename_i hne
        by_cases h : n = c.1
        · subst h; simp [lookup, Ne.symm hne]
        · simp [lookup, h, ih]

theorem get?_define (env : Environment) (name : String) (v : Value) (n : String) :
    (env.define name v).get? n = if n = name then some v else env.get? n :=
  lookup_insertBinding ..

theorem get?_empty (n : String) : empty.get? n = none := rfl

/-! ## Equality -/

theorem lookup_eq_none_of_lt (bs : List (String × Value)) {n : String} (h : ∀ b ∈ bs, n < b.1) :
    lookup n bs = none := by
  induction bs with
  | nil => rfl
  | cons b bs ih =>
    have hne : n ≠ b.1 := fun e => String.lt_irrefl n (e ▸ h b List.mem_cons_self)
    simp [lookup, hne, ih fun c hc => h c (List.mem_cons_of_mem _ hc)]

theorem eq_of_lookup_eq {as bs : List (String × Value)} (ha : as.Pairwise fun a b => a.1 < b.1)
    (hb : bs.Pairwise fun a b => a.1 < b.1) (h : ∀ n, lookup n as = lookup n bs) : as = bs := by
  induction as generalizing bs with
  | nil =>
    cases bs with
    | nil => rfl
    | cons b bs => simpa [lookup] using h b.1
  | cons a as ih =>
    cases bs with
    | nil => simpa [lookup] using h a.1
    | cons b bs =>
      have ⟨hal, has⟩ := List.pairwise_cons.1 ha
      have ⟨hbl, hbs⟩ := List.pairwise_cons.1 hb
      have hab : ¬ a.1 < b.1 := fun hlt => by
        have e := h a.1
        rw [lookup_eq_none_of_lt (b :: bs) fun c hc => (List.mem_cons.1 hc).elim (fun e => e ▸ hlt)
          fun hc => String.lt_trans hlt (hbl c hc)] at e
        simp [lookup] at e
      have hba : ¬ b.1 < a.1 := fun hlt => by
        have e := h b.1
        rw [lookup_eq_none_of_lt (a :: as) fun c hc => (List.mem_cons.1 hc).elim (fun e => e ▸ hlt)
          fun hc => String.lt_trans hlt (hal c hc)] at e
        simp [lookup] at e
      have hname : a.1 = b.1 := Decidable.byContradiction fun hne => hba (lt_of_not_lt hab hne)
      have hval : a.2 = b.2 := by
        have e := h a.1
        simpa [lookup, hname] using e
      have hrest : as = bs := ih has hbs fun n => by
        by_cases hn : n = a.1
        · subst hn
          rw [lookup_eq_none_of_lt _ hal, hname, lookup_eq_none_of_lt _ hbl]
        · have e := h n
          have hn' : n ≠ b.1 := hname ▸ hn
          simpa [lookup, hn, hn'] using e
      rw [Prod.ext hname hval, hrest]

theorem ext_get? {env other : Environment} (h : ∀ n, env.get? n = other.get? n) : env = other := by
  cases env with
  | mk as ha =>
    cases other with
    | mk bs hb => simp only [mk.injEq]; exact eq_of_lookup_eq ha hb h

end Environment

end SmallLisp
