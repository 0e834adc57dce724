import SmallLisp.Proofs.Eval.Levels
import SmallLisp.Proofs.Expr.Parts

/-!
# Quoted data

An expression without string literals is told by the data that it is: equality
of data is equality of expressions (`Expr.same_toValue`), and data is printed as
the expression is (`Expr.print_toValue`). Both are by induction on the
expression. `Evaluator.evaluate_quoted`: so `equal` compares what is quoted, and
nothing is bound or looked up.
-/

namespace SmallLisp

/-- A text that begins and ends with a quotation mark, and is not just one. -/
def Literal.IsDelimited (t : String) : Prop := ∃ cs, t.toList = '"' :: (cs ++ ['"'])

theorem Literal.string?_eq_none_iff {t : String} : string? t = none ↔ ¬ IsDelimited t := by
  unfold string? IsDelimited
  split
  · rename_i cs h
    rw [h]
    split
    · rename_i hlast
      obtain ⟨ds, rfl⟩ := List.getLast?_eq_some_iff.1 hlast
      simp
    · rename_i hlast
      refine iff_of_true rfl ?_
      rintro ⟨ds, hds⟩
      obtain rfl := (List.cons.inj hds).2
      exact hlast List.getLast?_concat
  · rename_i hne
    exact iff_of_true rfl fun ⟨cs, h⟩ => hne _ h

instance (t : String) : Decidable (Literal.IsDelimited t) :=
  decidable_of_iff (¬ Literal.string? t = none)
    (by rw [Literal.string?_eq_none_iff, not_not])

namespace Expr

/-- No text atom in the expression is a string literal. -/
def NoLiteral (e : Expr) : Prop := ∀ t, .text t ∈ e.parts → ¬ Literal.IsDelimited t

instance (e : Expr) : Decidable e.NoLiteral := decidable_of_iff' _ forall_text_iff

theorem NoLiteral.of_mem {e : Expr} {items : List Expr} (h : NoLiteral (.list items))
    (he : e ∈ items) : e.NoLiteral :=
  fun t ht => h t (mem_parts_trans ht (mem_parts_of_mem he))

theorem NoLiteral.toValue_text {t : String} (h : NoLiteral (.text t)) :
    (Expr.text t).toValue = .str t := by
  rw [toValue, Literal.string?_eq_none_iff.2 (h t (mem_parts_self _))]
  rfl

/-! ## Equality -/

theorem sameItems_map_toValue {es fs : List Expr}
    (h : ∀ e ∈ es, ∀ f : Expr, f.NoLiteral → e.toValue.same f.toValue = decide (e = f))
    (hfs : ∀ f ∈ fs, f.NoLiteral) :
    Value.sameItems (es.map toValue) (fs.map toValue) = decide (es = fs) := by
  induction es generalizing fs with
  | nil => cases fs <;> rfl
  | cons e es ih =>
    cases fs with
    | nil => rfl
    | cons f fs =>
      rw [List.forall_mem_cons] at h hfs
      rw [List.map_cons, List.map_cons, Value.sameItems, h.1 f hfs.1, ih h.2 hfs.2]
      simp [Bool.decide_and]

/-- Data is equal just if the expressions are the same. -/
theorem same_toValue {e f : Expr} (he : e.NoLiteral) (hf : f.NoLiteral) :
    e.toValue.same f.toValue = decide (e = f) := by
  induction e generalizing f with
  | integer m =>
    cases f with
    | integer n => rw [Bool.eq_iff_iff]; simp [toValue, Value.same]
    | text t => rw [hf.toValue_text]; rfl
    | list items => rfl
  | text s =>
    rw [he.toValue_text]
    cases f with
    -- A text is not equal to an integer that is printed alike.
    | integer n => rfl
    | text t => rw [hf.toValue_text, Bool.eq_iff_iff]; simp [Value.same]
    | list items => rfl
  | list es ih =>
    cases f with
    | integer n => rfl
    | text t => rw [hf.toValue_text]; rfl
    | list fs =>
      rw [toValue, toValue, toValues_eq_map, toValues_eq_map, Value.same,
        sameItems_map_toValue (fun e hm f hf => ih e hm (he.of_mem hm) hf)
          fun f hm => hf.of_mem hm]
      simp

/-! ## Text -/

theorem printItems_map_toValue {es : List Expr} (h : ∀ e ∈ es, e.toValue.print = e.print) :
    Value.printItems (es.map toValue) = printItems es := by
  induction es with
  | nil => rfl
  | cons e es ih =>
    rw [List.forall_mem_cons] at h
    cases es with
    | nil => exact h.1
    | cons f es =>
      rw [printItems, ← ih h.2, ← h.1]
      rfl

/-- Data is printed as the expression is. -/
theorem print_toValue {e : Expr} (h : e.NoLiteral) : e.toValue.print = e.print := by
  induction e with
  | integer n => rw [toValue, Value.print_integer, print]
  | text t => rw [h.toValue_text, Value.print_str, print]
  | list items ih =>
    rw [toValue, toValues_eq_map, Value.print_list, print,
      printItems_map_toValue fun e he => ih e he (h.of_mem he)]

/-- The form that has the expression as data. -/
def quoted (e : Expr) : Expr := .list [.text "quote", e]

end Expr

namespace Evaluator

section Host

variable [Host] {evaluator : Evaluator} {e f : Expr}

theorem evaluate_quote (h : 1 ≤ evaluator.maxDepth) (e : Expr) (env : Environment) :
    evaluator.evaluate e.quoted env = (.ok e.toValue, env) := by
  have htakes : e.quoted.Takes 1 e.toValue env := Expr.takes_quote e env
  rw [htakes.evaluate, if_pos h]

theorem evaluate_equal_quote (h : 2 ≤ evaluator.maxDepth) (e f : Expr) (env : Environment) :
    evaluator.evaluate (.list [.text "equal", e.quoted, f.quoted]) env =
      (.ok (.bool (e.toValue.same f.toValue)), env) := by
  have hoperands : TakeOperands [e.quoted, f.quoted] 1 [e.toValue, f.toValue] env :=
    takeOperands_cons (Expr.takes_quote e env)
      (takeOperands_cons (Expr.takes_quote f env) (takeOperands_nil env))
  have htakes : Expr.Takes (.list [.text "equal", e.quoted, f.quoted]) 2
      (.bool (e.toValue.same f.toValue)) env :=
    Expr.takes_operator .equal hoperands rfl
  rw [htakes.evaluate, if_pos h]

/-- Data of two expressions without string literals is equal just if they are the same tree, and is
printed as the expression is. No environment makes a difference, and each is left as it was. -/
theorem evaluate_quoted (he : e.NoLiteral) (hf : f.NoLiteral) (h : 2 ≤ evaluator.maxDepth) :
    (∀ env, evaluator.evaluate (.list [.text "equal", e.quoted, f.quoted]) env =
      (.ok (.bool (decide (e = f))), env)) ∧
    ∃ v, toString v = toString e ∧ ∀ env, evaluator.evaluate e.quoted env = (.ok v, env) := by
  refine ⟨fun env => ?_, e.toValue, ?_, evaluate_quote (Nat.le_of_succ_le h) e⟩
  · rw [evaluate_equal_quote h, Expr.same_toValue he hf]
  · exact congrArg String.ofList (Expr.print_toValue he)

end Host

/-- A quotation mark alone, next to a number or to the text of a number. -/
def lookAlike (number : Expr) : Expr :=
  .list [.text "\"", number, .list [.list [], .text "a b", .text "-0"]]

theorem evaluate_quoted_lookAlike :
    let e := lookAlike (.integer 1)
    let f := lookAlike (.text "1")
    (e.NoLiteral ∧ f.NoLiteral ∧ 2 ≤ (Evaluator.mk 2).maxDepth) ∧
      evaluate ⟨2⟩ (.list [.text "equal", e.quoted, f.quoted]) .initial =
        (.ok (.bool false), .initial) ∧
      evaluate ⟨2⟩ (.list [.text "equal", f.quoted, f.quoted]) .empty = (.ok (.bool true), .empty) ∧
      ∃ v, toString v = "(\" 1 (() a b -0))" ∧
        ∀ env, evaluate ⟨2⟩ e.quoted env = (.ok v, env) := by
  intro e f
  have he : e.NoLiteral := by decide +kernel
  have hf : f.NoLiteral := by decide +kernel
  have hm : 2 ≤ (Evaluator.mk 2).maxDepth := Nat.le_refl 2
  obtain ⟨v, hv, heval⟩ := (evaluate_quoted he hf hm).2
  have hefalse := (evaluate_quoted he hf hm).1 .initial
  have hftrue := (evaluate_quoted hf hf hm).1 .empty
  exact ⟨⟨he, hf, hm⟩, hefalse, hftrue, v, hv.trans (by decide +kernel), heval⟩

end Evaluator

end SmallLisp
