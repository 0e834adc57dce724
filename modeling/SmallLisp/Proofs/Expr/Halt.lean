import SmallLisp.Proofs.Expr.Depth

/-!
# Where reading halts

Reading keeps track of where the lists were opened that are still open
(`OpensAt`), and the tokens it passes do not go deeper than allowed. So when it
halts with an error, the tokens passed tell which lists are open there, and
these and the next token tell the error (`Halts`): `OpensAt.step` is one token,
`halts_of_run` a run, `halts_of_next` a call.
-/

namespace SmallLisp.Parser

variable {maxDepth start position : Nat} {o : OpenList} {stack stack' : List OpenList}
  {ts us rest : List String} {t : String} {x : ParseError}

/-- The tokens read from `start` on leave the lists on the stack open, each where it was opened, and
none besides. -/
inductive OpensAt (start : Nat) : List OpenList → List String → Prop
  | nil : OpensAt start [] []
  | cons {o : OpenList} {stack : List OpenList} {ts us : List String} :
    OpensAt start stack ts → o.position = start + ts.length → IsBalancedTokens us →
    OpensAt start (o :: stack) (ts ++ "(" :: us)

/-- What keeps a token from being read, or the end of the tokens from being that of an expression,
and the error that tells it. -/
inductive Halts (maxDepth position : Nat) : List OpenList → List String → ParseError → Prop
  | atEnd : Halts maxDepth position [] [] ⟨.unexpectedEnd, position⟩
  | unclosed {o : OpenList} {stack : List OpenList} :
    Halts maxDepth position (o :: stack) [] ⟨.unclosed, o.position⟩
  | closing {rest : List String} :
    Halts maxDepth position [] (")" :: rest) ⟨.unexpectedClose, position⟩
  | tooDeep {stack : List OpenList} {t : String} {rest : List String} :
    t ≠ ")" → maxDepth ≤ stack.length →
    Halts maxDepth position stack (t :: rest) ⟨.tooDeep maxDepth, position⟩

/-! ## Open lists -/

namespace OpensAt

theorem balance (h : OpensAt start stack ts) : tokenBalance ts = stack.length := by
  induction h with
  | nil => rfl
  | cons _ _ hu ih =>
    rw [tokenBalance_append, tokenBalance_opening, ih, hu.total, List.length_cons]
    omega

theorem eq_nil (h : OpensAt start [] ts) : ts = [] := by
  cases h
  rfl

/-- Something is open behind every token. -/
theorem pos (h : OpensAt start (o :: stack) ts) {as bs : List String} (e : ts = as ++ bs)
    (ha : as ≠ []) : 0 < tokenBalance as := by
  generalize hs : o :: stack = s at h
  induction h generalizing o stack as bs with
  | nil => cases hs
  | @cons p outer ts us h _ hu ih =>
    rcases List.append_eq_append_iff.1 e with ⟨cs, rfl, hcs⟩ | ⟨cs, rfl, -⟩
    · cases cs with
      | nil =>
        rw [List.append_nil] at ha ⊢
        cases outer with
        | nil => exact absurd h.eq_nil ha
        | cons p' outer => exact ih (List.append_nil ts).symm ha rfl
      | cons c cs =>
        obtain ⟨rfl, rfl⟩ := List.cons.inj hcs
        have := hu.nonneg cs bs rfl
        rw [tokenBalance_append, tokenBalance_opening, h.balance]
        omega
    · cases outer with
      | nil => exact absurd (List.append_eq_nil_iff.1 h.eq_nil).1 ha
      | cons p' outer => exact ih rfl ha rfl

theorem exists_cons (h : OpensAt start (o :: stack) ts) : ∃ us, ts = "(" :: us := by
  generalize hs : o :: stack = s at h
  induction h generalizing o stack with
  | nil => cases hs
  | @cons p outer ts us h _ _ ih =>
    cases outer with
    | nil => exact ⟨us, by rw [h.eq_nil, List.nil_append]⟩
    | cons p' outer =>
      obtain ⟨vs, rfl⟩ := ih rfl
      exact ⟨vs ++ "(" :: us, rfl⟩

/-- A finished expression leaves open what was open. -/
theorem place {e : Expr} (h : OpensAt start stack ts) (hu : IsNested us)
    (hp : place e stack = .more stack') : OpensAt start stack' (ts ++ us) := by
  cases h with
  | nil => cases hp
  | cons h hpos hb =>
    obtain rfl := Step.more.inj hp
    rw [List.append_assoc]
    exact .cons h hpos (hb.append hu.isBalanced)

theorem step (h : OpensAt start stack ts)
    (hs : step maxDepth stack (start + ts.length) t = .more stack') :
    OpensAt start stack' (ts ++ [t]) ∧ (t ≠ ")" → tokenBalance ts < maxDepth) := by
  unfold Parser.step at hs
  split at hs
  · rename_i ht
    subst ht
    refine ⟨?_, absurd rfl⟩
    cases h with
    | nil => cases hs
    | cons h hpos hb =>
      rw [List.append_assoc]
      exact h.place hb.parens hs
  · rename_i hc
    split at hs
    · cases hs
    · rename_i hlt
      refine ⟨?_, fun _ => by rw [h.balance]; omega⟩
      split at hs
      · rename_i ho
        subst ho
        obtain rfl := Step.more.inj hs
        exact .cons h rfl isBalancedTokens_nil
      · rename_i ho
        exact h.place (isNested_singleton ho hc) hs

end OpensAt

/-! ## Errors -/

theorem halts_endError (maxDepth position : Nat) (stack : List OpenList) :
    Halts maxDepth position stack [] (endError position stack) := by
  cases stack with
  | nil => exact .atEnd
  | cons o stack => exact .unclosed

theorem place_ne_fail (e : Expr) (stack : List OpenList) (x : ParseError) :
    place e stack ≠ .fail x := by
  cases stack <;> nofun

theorem halts_of_step (h : step maxDepth stack position t = .fail x) (rest : List String) :
    Halts maxDepth position stack (t :: rest) x := by
  unfold step at h
  split at h
  · rename_i ht
    subst ht
    cases stack with
    | nil =>
      obtain rfl := Step.fail.inj h
      exact .closing
    | cons o stack => exact absurd h (place_ne_fail _ _ _)
  · rename_i hc
    split at h
    · rename_i hle
      obtain rfl := Step.fail.inj h
      exact .tooDeep hc hle
    · split at h
      · cases h
      · exact absurd h (place_ne_fail _ _ _)

/-- A run that fails has passed tokens that do not go too deep, and halts at what is open behind
them. -/
theorem halts_of_run {q : Nat} (h : OpensAt start stack ts) (hs : IsShallow maxDepth ts)
    (hr : run maxDepth stack (start + ts.length) us = (.error x, q, rest)) :
    ∃ used stack', us = used ++ rest ∧ q = start + (ts ++ used).length ∧
      OpensAt start stack' (ts ++ used) ∧ IsShallow maxDepth (ts ++ used) ∧
      Halts maxDepth q stack' rest x := by
  induction us generalizing stack ts with
  | nil =>
    obtain ⟨hx, hq⟩ := Prod.mk.inj hr
    obtain ⟨rfl, rfl⟩ := Prod.mk.inj hq
    obtain rfl := Except.error.inj hx
    refine ⟨[], stack, rfl, ?_⟩
    rw [List.append_nil]
    exact ⟨rfl, h, hs, halts_endError _ _ _⟩
  | cons t us ih =>
    rw [run] at hr
    split at hr
    · rename_i stack₁ hst
      obtain ⟨h₁, ht⟩ := h.step hst
      have hlen : start + ts.length + 1 = start + (ts ++ [t]).length := by
        rw [List.length_append, List.length_singleton, Nat.add_assoc]
      rw [hlen] at hr
      obtain ⟨used, stack', rfl, hq, hopens, hshallow, hhalts⟩ := ih h₁ (hs.snoc ht) hr
      rw [List.append_assoc] at hq hopens hshallow
      exact ⟨t :: used, stack', rfl, hq, hopens, hshallow, hhalts⟩
    · cases (Prod.mk.inj hr).1
    · rename_i x' hst
      obtain ⟨hx, hq⟩ := Prod.mk.inj hr
      obtain ⟨rfl, rfl⟩ := Prod.mk.inj hq
      obtain rfl := Except.error.inj hx
      refine ⟨[], stack, rfl, ?_⟩
      rw [List.append_nil]
      exact ⟨rfl, h, hs, halts_of_step hst us⟩

theorem halts_of_next {p q : Parser} (hm : 0 < p.maxDepth) (h : p.next = (.error x, q)) :
    ∃ used stack, p.rest = used ++ q.rest ∧ q.position = p.position + used.length ∧
      OpensAt p.position stack used ∧ IsShallow p.maxDepth used ∧
      Halts p.maxDepth q.position stack q.rest x := by
  rw [next, if_neg (by omega)] at h
  obtain ⟨hr, rfl⟩ := Prod.mk.inj h
  exact halts_of_run .nil .nil (Prod.ext hr rfl)

end SmallLisp.Parser
