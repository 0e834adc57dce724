import Mathlib.Data.List.Basic
import SmallLisp.Proofs.Expr.Balance

/-!
# How deep tokens stand

A token stands as deep as the lists that are open before it. In a spelling of an
expression no token but a closing parenthesis stands as deep as the expression
is nested (`Spells.isShallow`), so tokens that go deeper than a limit are not
read under it.
-/

namespace SmallLisp

/-- No token but closing parentheses stands behind `maxDepth` open lists or more. -/
def IsShallow (maxDepth : Nat) (ts : List String) : Prop :=
  ∀ us t vs, ts = us ++ t :: vs → t ≠ ")" → tokenBalance us < maxDepth

theorem isShallow_iff {maxDepth : Nat} {ts : List String} :
    IsShallow maxDepth ts ↔
      ∀ i, (h : i < ts.length) → ts[i] ≠ ")" → tokenBalance (ts.take i) < maxDepth := by
  constructor
  · intro h i hi
    have hcut : ts = ts.take i ++ ts[i] :: ts.drop (i + 1) := by simp
    exact h _ _ _ hcut
  · rintro h us t vs rfl ht
    have := h us.length (by simp) (by simpa using ht)
    rwa [List.take_left] at this

instance (maxDepth : Nat) (ts : List String) : Decidable (IsShallow maxDepth ts) :=
  decidable_of_iff' _ isShallow_iff

namespace IsShallow

variable {maxDepth : Nat} {ts us : List String}

theorem nil : IsShallow maxDepth [] := fun us t vs e => by simp at e

theorem mono {n : Nat} (h : IsShallow n ts) (hn : n ≤ maxDepth) : IsShallow maxDepth ts :=
  fun us t vs e ht => by have := h us t vs e ht; omega

end IsShallow

theorem isShallow_append_iff {maxDepth : Nat} {ts us : List String} :
    IsShallow maxDepth (ts ++ us) ↔ IsShallow maxDepth ts ∧
      ∀ as t bs, us = as ++ t :: bs → t ≠ ")" → tokenBalance (ts ++ as) < maxDepth := by
  constructor
  · intro h
    refine ⟨fun as t bs e => h as t (bs ++ us) ?_, fun as t bs e => h (ts ++ as) t bs ?_⟩
    · rw [e, List.append_assoc, List.cons_append]
    · rw [e, List.append_assoc]
  · rintro ⟨hts, hus⟩ as t bs e ht
    rcases List.append_eq_append_iff.1 e with ⟨cs, rfl, hcs⟩ | ⟨cs, rfl, hcs⟩
    · exact hus cs t bs hcs ht
    · cases cs with
      | nil => simpa using hus [] t bs hcs.symm ht
      | cons c cs =>
        obtain ⟨rfl, -⟩ := List.cons.inj hcs
        exact hts as t cs rfl ht

namespace IsShallow

variable {maxDepth : Nat} {ts us : List String}

/-- What stands behind a part that leaves nothing open stands as deep without it. -/
theorem of_append_right (h : IsShallow maxDepth (ts ++ us)) (hb : tokenBalance ts = 0) :
    IsShallow maxDepth us := fun as t bs e ht => by
  have := (isShallow_append_iff.1 h).2 as t bs e ht
  rwa [tokenBalance_append, hb, Int.zero_add] at this

theorem append (h : IsShallow maxDepth ts) (hb : tokenBalance ts = 0)
    (hu : IsShallow maxDepth us) : IsShallow maxDepth (ts ++ us) := by
  refine isShallow_append_iff.2 ⟨h, fun as t bs e ht => ?_⟩
  rw [tokenBalance_append, hb, Int.zero_add]
  exact hu as t bs e ht

/-- One more token stands behind all lists that are open so far. -/
theorem snoc {t : String} (h : IsShallow maxDepth ts)
    (ht : t ≠ ")" → tokenBalance ts < maxDepth) : IsShallow maxDepth (ts ++ [t]) := by
  refine isShallow_append_iff.2 ⟨h, fun as s bs e hs => ?_⟩
  obtain ⟨rfl, he⟩ | ⟨as', rfl, he⟩ := List.cons_eq_append_iff.1 e
  · obtain ⟨rfl, -⟩ := List.cons.inj he
    simpa using ht hs
  · simp at he

/-- Parentheses take the tokens between them one list deeper. -/
theorem parens (h : IsShallow maxDepth ts) : IsShallow (1 + maxDepth) ("(" :: (ts ++ [")"])) := by
  intro as t bs e ht
  cases as with
  | nil => show (0 : Int) < _; omega
  | cons a as =>
    rw [List.cons_append, List.cons.injEq] at e
    obtain ⟨rfl, e⟩ := e
    have hs : IsShallow maxDepth (ts ++ [")"]) := h.snoc fun hne => absurd rfl hne
    have := hs as t bs e ht
    rw [tokenBalance_opening]
    omega

end IsShallow

theorem isShallow_singleton (t : String) : IsShallow 1 [t] :=
  (IsShallow.nil : IsShallow 1 []).snoc fun _ => by decide

mutual

theorem Spells.isShallow {ts : List String} {e : Expr} : Spells ts e → IsShallow e.height ts
  | .integer _ => isShallow_singleton _
  | .text _ _ _ => isShallow_singleton _
  | .list hs => by
    rw [Expr.height]
    exact hs.isShallow.parens

theorem SpellsItems.isShallow {ts : List String} {es : List Expr} :
    SpellsItems ts es → IsShallow (Expr.heightOfItems es) ts
  | .nil => .nil
  | .cons h hs => by
    rw [Expr.heightOfItems]
    exact (h.isShallow.mono (Nat.le_max_left _ _)).append h.isNested.total
      (hs.isShallow.mono (Nat.le_max_right _ _))

end

end SmallLisp
