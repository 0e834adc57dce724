import Mathlib.Data.List.Basic
import SmallLisp.Proofs.Expr.Reader
import SmallLisp.Proofs.Token.Balance

/-!
# The parentheses of spellings

The tokens of an expression close what they open at their end and not before
(`Spells.isNested`); those of a sequence of expressions never close more than
they have opened (`SpellsItems.isBalanced`). So a sequence is cut between two
expressions wherever nothing is left open (`SpellsItems.split`), and what is
read as a whole is read in two parts there (`parseAll_split`).
-/

namespace SmallLisp

/-- Nothing is closed that has not been opened, and at the end nothing is open. -/
structure IsBalancedTokens (ts : List String) : Prop where
  total : tokenBalance ts = 0
  nonneg : ∀ us vs, ts = us ++ vs → 0 ≤ tokenBalance us

/-- What is opened first is closed last. -/
structure IsNested (ts : List String) : Prop where
  total : tokenBalance ts = 0
  pos : ∀ us vs, ts = us ++ vs → us ≠ [] → vs ≠ [] → 0 < tokenBalance us

theorem IsNested.isBalanced {ts : List String} (h : IsNested ts) : IsBalancedTokens ts := by
  refine ⟨h.total, fun us vs e => ?_⟩
  by_cases hu : us = []
  · rw [hu]
    decide
  · by_cases hv : vs = []
    · rw [hv, List.append_nil] at e
      rw [← e]
      exact Int.le_of_eq h.total.symm
    · exact Int.le_of_lt (h.pos us vs e hu hv)

theorem isNested_singleton {t : String} (ho : t ≠ "(") (hc : t ≠ ")") : IsNested [t] := by
  refine ⟨tokenBalance_of_ne ho hc, fun us vs e hu hv => ?_⟩
  rcases List.append_eq_singleton_iff.1 e.symm with ⟨h, -⟩ | ⟨-, h⟩
  · exact absurd h hu
  · exact absurd h hv

theorem isBalancedTokens_nil : IsBalancedTokens [] := by
  refine ⟨rfl, fun us vs e => ?_⟩
  rw [(List.append_eq_nil_iff.1 e.symm).1]
  decide

theorem IsBalancedTokens.append {ts us : List String} (ht : IsBalancedTokens ts)
    (hu : IsBalancedTokens us) : IsBalancedTokens (ts ++ us) := by
  constructor
  · rw [tokenBalance_append, ht.total, hu.total]
    rfl
  · intro as bs e
    rcases List.append_eq_append_iff.1 e with ⟨cs, rfl, hcs⟩ | ⟨cs, hcs, -⟩
    · rw [tokenBalance_append, ht.total, Int.zero_add]
      exact hu.nonneg cs bs hcs
    · exact ht.nonneg as cs hcs

theorem IsBalancedTokens.parens {ts : List String} (h : IsBalancedTokens ts) :
    IsNested ("(" :: (ts ++ [")"])) := by
  constructor
  · rw [tokenBalance_opening, tokenBalance_append, h.total]
    decide
  · intro us vs e hu hv
    obtain ⟨u, us, rfl⟩ := List.exists_cons_of_ne_nil hu
    obtain ⟨vs, v, rfl⟩ := List.eq_nil_or_concat' vs |>.resolve_left hv
    rw [List.cons_append, List.cons.injEq, ← List.append_assoc] at e
    obtain ⟨rfl, hts⟩ := e
    have hb := h.nonneg us vs (List.append_inj_left' hts rfl)
    rw [tokenBalance_opening]
    omega

mutual

theorem Spells.isNested {ts : List String} {e : Expr} : Spells ts e → IsNested ts
  | .integer h =>
    isNested_singleton (ne_of_readInt64? h (by decide)) (ne_of_readInt64? h (by decide))
  | .text ho hc _ => isNested_singleton ho hc
  | .list hs => hs.isBalanced.parens

theorem SpellsItems.isBalanced {ts : List String} {es : List Expr} :
    SpellsItems ts es → IsBalancedTokens ts
  | .nil => isBalancedTokens_nil
  | .cons h hs => h.isNested.isBalanced.append hs.isBalanced

end

/-- A part at whose end nothing is open spells the first expressions of the whole. -/
theorem SpellsItems.split {ts us vs : List String} {es : List Expr} (h : SpellsItems ts es)
    (ht : us ++ vs = ts) (hb : tokenBalance us ≤ 0) :
    ∃ fs gs, es = fs ++ gs ∧ SpellsItems us fs ∧ SpellsItems vs gs := by
  induction es generalizing us ts with
  | nil =>
    cases h
    obtain ⟨rfl, rfl⟩ := List.append_eq_nil_iff.1 ht
    exact ⟨[], [], rfl, .nil, .nil⟩
  | cons e es ih =>
    cases h with
    | @cons as bs _ _ he hs =>
      rcases List.append_eq_append_iff.1 ht with ⟨cs, rfl, rfl⟩ | ⟨cs, rfl, rfl⟩
      · by_cases hu : us = []
        · subst hu
          exact ⟨[], e :: es, rfl, .nil, .cons he hs⟩
        · -- Inside the first expression something is open, so the part ends behind it.
          by_cases hc : cs = []
          · subst hc
            rw [List.append_nil] at he
            exact ⟨[e], es, rfl, .singleton he, hs⟩
          · have := he.isNested.pos us cs rfl hu hc
            omega
      · rw [tokenBalance_append, he.isNested.total, Int.zero_add] at hb
        obtain ⟨fs, gs, rfl, hf, hg⟩ := ih hs rfl hb
        exact ⟨e :: fs, gs, rfl, .cons he hf, hg⟩

/-! ## Sequences that are read -/

theorem parseAll_nil : parseAll [] = .ok [] := parseAll_eq_ok_iff.2 ⟨.nil, Nat.zero_le _⟩

theorem parseAll_split {us vs : List String} {es : List Expr} (h : parseAll (us ++ vs) = .ok es)
    (hb : tokenBalance us ≤ 0) :
    ∃ fs gs, es = fs ++ gs ∧ parseAll us = .ok fs ∧ parseAll vs = .ok gs := by
  rw [parseAll_eq_ok_iff, Expr.heightOfItems_le] at h
  obtain ⟨fs, gs, rfl, hf, hg⟩ := h.1.split rfl hb
  obtain ⟨hhf, hhg⟩ := List.forall_mem_append.1 h.2
  exact ⟨fs, gs, rfl, parseAll_eq_ok_iff.2 ⟨hf, Expr.heightOfItems_le.2 hhf⟩,
    parseAll_eq_ok_iff.2 ⟨hg, Expr.heightOfItems_le.2 hhg⟩⟩

theorem tokenBalance_of_parseAll {ts : List String} {es : List Expr} (h : parseAll ts = .ok es) :
    tokenBalance ts = 0 :=
  (parseAll_eq_ok_iff.1 h).1.isBalanced.total

/-- Tokens that spell no expression are none. -/
theorem eq_nil_of_parseAll_nil {ts : List String} (h : parseAll ts = .ok []) : ts = [] := by
  cases (parseAll_eq_ok_iff.1 h).1
  rfl

end SmallLisp
