import SmallLisp.Expr.Basic

/-!
# Parts of an expression

An expression holds its items and all that these hold (`Expr.parts`), as deep as
its height says (`Expr.height`). `Expr.recItems` is the induction in which a
list has what all its items have.
-/

namespace SmallLisp.Expr

/-- What every atom has, and a list if all its items have it. -/
@[elab_as_elim, induction_eliminator]
theorem recItems {motive : Expr → Prop} (integer : ∀ n, motive (.integer n))
    (text : ∀ t, motive (.text t))
    (list : ∀ items, (∀ e ∈ items, motive e) → motive (.list items)) : ∀ e, motive e
  | .integer n => integer n
  | .text t => text t
  | .list items => list items fun e _ => recItems integer text list e

mutual

/-- An expression and all that it holds, itself first. -/
def parts : Expr → List Expr
  | integer n => [integer n]
  | text t => [text t]
  | list items => list items :: partsOfItems items

/-- All that some expressions are and hold. -/
def partsOfItems : List Expr → List Expr
  | [] => []
  | e :: es => parts e ++ partsOfItems es

end

theorem mem_partsOfItems {p : Expr} {es : List Expr} :
    p ∈ partsOfItems es ↔ ∃ e ∈ es, p ∈ e.parts := by
  induction es with
  | nil => simp [partsOfItems]
  | cons e es ih => simp [partsOfItems, ih]

theorem mem_parts_list {p : Expr} {items : List Expr} :
    p ∈ (list items).parts ↔ p = list items ∨ ∃ e ∈ items, p ∈ e.parts := by
  rw [parts, List.mem_cons, mem_partsOfItems]

theorem mem_parts_self (e : Expr) : e ∈ e.parts := by
  cases e <;> simp [parts]

theorem mem_parts_of_mem {e : Expr} {items : List Expr} (h : e ∈ items) :
    e ∈ (list items).parts :=
  mem_parts_list.2 (.inr ⟨e, h, e.mem_parts_self⟩)

/-- What a part holds, the expression holds. -/
theorem mem_parts_trans {p q e : Expr} (hp : p ∈ q.parts) (hq : q ∈ e.parts) : p ∈ e.parts := by
  induction e with
  | integer n => rw [parts, List.mem_singleton] at hq; exact hq ▸ hp
  | text t => rw [parts, List.mem_singleton] at hq; exact hq ▸ hp
  | list items ih =>
    rcases mem_parts_list.1 hq with rfl | ⟨e, he, hqe⟩
    · exact hp
    · exact mem_parts_list.2 (.inr ⟨e, he, ih e he hqe⟩)

/-- What holds of the texts of all text atoms in an expression. -/
theorem forall_text_iff {p : String → Prop} {e : Expr} :
    (∀ t, .text t ∈ e.parts → p t) ↔ ∀ q ∈ e.parts, ∀ t ∈ q.text?, p t := by
  constructor
  · intro h q hq t ht
    cases q with
    | text s =>
      obtain rfl : s = t := Option.some.inj ht
      exact h s hq
    | _ => cases ht
  · exact fun h t ht => h (.text t) ht t rfl

mutual

/-- How deep an expression is nested: one for an atom, for a list one more than its items. -/
def height : Expr → Nat
  | integer _ => 1
  | text _ => 1
  | list items => 1 + heightOfItems items

/-- The greatest height of some expressions, zero if there is none. -/
def heightOfItems : List Expr → Nat
  | [] => 0
  | e :: es => max (height e) (heightOfItems es)

end

theorem height_pos (e : Expr) : 0 < e.height := by
  cases e with
  | integer n => exact Nat.one_pos
  | text t => exact Nat.one_pos
  | list items => rw [height]; omega

theorem heightOfItems_le {es : List Expr} {n : Nat} :
    heightOfItems es ≤ n ↔ ∀ e ∈ es, e.height ≤ n := by
  induction es with
  | nil => simp [heightOfItems]
  | cons e es ih => rw [heightOfItems, Nat.max_le, ih, List.forall_mem_cons]

end SmallLisp.Expr
