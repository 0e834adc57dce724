import Mathlib.Data.Set.Basic
import SmallLisp.Eval.Basic

/-!
# The names that an expression looks up

`Expr.reads` lists the texts that are evaluated as atoms and the functions that
are called; quoted data, targets of bindings, parameters and the names of
special forms and operators are not looked up. `Expr.ReadsIn` says that they
are all among some names, which can be told part by part (`readsIn_items`,
`readsIn_clause`).
-/

namespace SmallLisp.Expr

mutual

/-- The names that the evaluation of an expression itself may look up. -/
def reads : Expr → List String
  | integer _ => []
  | text t => [t]
  | list (text name :: operands) =>
    match SpecialForm.ofName? name with
    | some .setq => readsOfSetq operands
    | some .defun => readsOfDefun operands
    | some .quote => []
    | some .cond => readsOfClauses operands
    | none =>
      match Operator.ofName? name with
      | some _ => readsOfItems operands
      | none => name :: readsOfItems operands
  | list _ => []

/-- The names that some expressions look up. -/
def readsOfItems : List Expr → List String
  | [] => []
  | e :: es => reads e ++ readsOfItems es

/-- The names that the value of a `setq` looks up. -/
def readsOfSetq : List Expr → List String
  | [_, e] => reads e
  | _ => []

/-- The names that the body of a `defun` looks up. -/
def readsOfDefun : List Expr → List String
  | _ :: _ :: body => readsOfItems body
  | _ => []

/-- The names that the clauses of a `cond` look up. The test `t` is none. -/
def readsOfClauses : List Expr → List String
  | [] => []
  | list (test :: body) :: clauses =>
    (if test.text? = some "t" then [] else reads test) ++ readsOfItems body ++
      readsOfClauses clauses
  | _ :: clauses => readsOfClauses clauses

end

/-- The expression looks up no names but these. -/
def ReadsIn (names : Set String) (e : Expr) : Prop := ∀ n ∈ e.reads, n ∈ names

variable {names : Set String}

theorem readsIn_text {t : String} : (text t).ReadsIn names ↔ t ∈ names := by
  simp [ReadsIn, reads]

theorem readsIn_items {es : List Expr} :
    (∀ n ∈ readsOfItems es, n ∈ names) ↔ ∀ e ∈ es, e.ReadsIn names := by
  induction es with
  | nil => simp [readsOfItems]
  | cons e es ih => rw [readsOfItems, List.forall_mem_append, ih, List.forall_mem_cons, ReadsIn]

theorem readsIn_clause {test : Expr} {body clauses : List Expr} :
    (∀ n ∈ readsOfClauses (list (test :: body) :: clauses), n ∈ names) ↔
      (test.text? ≠ some "t" → test.ReadsIn names) ∧ (∀ e ∈ body, e.ReadsIn names) ∧
        ∀ n ∈ readsOfClauses clauses, n ∈ names := by
  rw [readsOfClauses, List.forall_mem_append, List.forall_mem_append, readsIn_items, and_assoc]
  split
  · rename_i h
    simp [h]
  · rename_i h
    simp [h, ReadsIn]

end SmallLisp.Expr
