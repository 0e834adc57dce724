import SmallLisp.Proofs.Expr.Cursor
import SmallLisp.Proofs.Expr.Halt

/-!
# Why no expression is read

A call of a parser that reads no expression is refused in one of five ways
(`Refusal`). Which of them applies is told by the limit and the tokens from the
cursor on alone: how many lists are open at a token, and which are never closed.

`Parser.next_refused`: a call fails just if one of the ways applies, and then
only that one does; it fixes the error, its position and where the cursor is
left.
-/

namespace SmallLisp

variable {tokens used rest us vs : List String} {maxDepth p : Nat}

/-- What is open behind `i` stays open up to `j`. -/
def StaysOpen (tokens : List String) (i j : Nat) : Prop :=
  ∀ k ≤ j, i < k → 0 < tokenBalance (tokens.extract i k)
deriving Decidable

/-- In the form that is opened at `p`, the token at `i` goes deeper than allowed. -/
def IsTooDeep (tokens : List String) (maxDepth p i : Nat) : Prop :=
  p < i ∧ StaysOpen tokens p i ∧ (∃ t ∈ tokens[i]?, t ≠ ")") ∧
    maxDepth ≤ tokenBalance (tokens.extract p i)
deriving Decidable

/-- A list is opened at `k` and never closed. -/
def NeverCloses (tokens : List String) (k : Nat) : Prop :=
  tokens[k]? = some "(" ∧ StaysOpen tokens k tokens.length
deriving Decidable

/-- The ways in which a call reads no expression. -/
inductive Refusal
  /-- The limit allows no expression at all. -/
  | noDepth
  /-- No token is left. -/
  | atEnd
  /-- The next token closes a list. -/
  | closing
  /-- A list goes too deep at a token. -/
  | tooDeep (i : Nat)
  /-- The list opened at a token is never closed, and none behind it either. -/
  | unclosed (k : Nat)
deriving DecidableEq, Repr

namespace Refusal

/-- When a call at `p` is refused in this way. -/
def Applies (tokens : List String) (maxDepth p : Nat) : Refusal → Prop
  | noDepth => maxDepth = 0
  | atEnd => 0 < maxDepth ∧ p = tokens.length
  | closing => 0 < maxDepth ∧ tokens[p]? = some ")"
  | tooDeep i =>
    0 < maxDepth ∧ tokens[p]? = some "(" ∧ IsTooDeep tokens maxDepth p i ∧
      ∀ j < i, ¬ IsTooDeep tokens maxDepth p j
  | unclosed k =>
    0 < maxDepth ∧ NeverCloses tokens p ∧ (∀ j < tokens.length, ¬ IsTooDeep tokens maxDepth p j) ∧
      NeverCloses tokens k ∧ ∀ j < tokens.length, k < j → ¬ NeverCloses tokens j

instance (tokens : List String) (maxDepth p : Nat) (r : Refusal) :
    Decidable (r.Applies tokens maxDepth p) := by
  cases r <;> dsimp only [Applies] <;> infer_instance

/-- The error that tells of the refusal. -/
def error (maxDepth p : Nat) : Refusal → ParseError
  | noDepth => ⟨.tooDeep maxDepth, p⟩
  | atEnd => ⟨.unexpectedEnd, p⟩
  | closing => ⟨.unexpectedClose, p⟩
  | tooDeep i => ⟨.tooDeep maxDepth, i⟩
  | unclosed k => ⟨.unclosed, k⟩

/-- Where the cursor is left. -/
def cursor (tokens : List String) (p : Nat) : Refusal → Nat
  | tooDeep i => i
  | unclosed _ => tokens.length
  | _ => p

/-- No two ways apply. -/
theorem Applies.unique {r r' : Refusal} (h : r.Applies tokens maxDepth p)
    (h' : r'.Applies tokens maxDepth p) : r = r' := by
  have hlt {i : Nat} (hi : IsTooDeep tokens maxDepth p i) : i < tokens.length := by
    obtain ⟨-, -, ⟨t, ht, -⟩, -⟩ := hi
    exact (List.getElem?_eq_some_iff.1 ht).1
  have hend : tokens[tokens.length]? = none := List.getElem?_eq_none (Nat.le_refl _)
  -- The limit, the first token and whether a token is too deep tell the ways apart; too deep is one
  -- first token, and unclosed one last list.
  cases r <;> cases r' <;> simp only [Applies] at h h' <;> grind [NeverCloses]

end Refusal

/-! ## Tokens from the cursor on -/

theorem extract_of_drop (h : tokens.drop p = us ++ vs) :
    tokens.extract p (p + us.length) = us := by
  rw [List.extract_eq_take_drop, Nat.add_sub_cancel_left, h, List.take_left]

theorem extract_length_of_drop (h : tokens.drop p = us) : tokens.extract p tokens.length = us := by
  rw [List.extract_eq_take_drop, ← List.length_drop, List.take_length, h]

theorem exists_append_of_le {k : Nat} (hp : p ≤ k) (hk : k ≤ p + used.length) :
    ∃ us vs, used = us ++ vs ∧ k = p + us.length := by
  refine ⟨used.take (k - p), used.drop (k - p), (List.take_append_drop _ _).symm, ?_⟩
  rw [List.length_take]
  omega

theorem getElem?_of_drop {t : String} (h : tokens.drop p = us ++ t :: vs) :
    tokens[p + us.length]? = some t := by
  rw [← List.getElem?_drop, h, List.getElem?_append_right (Nat.le_refl _), Nat.sub_self]
  rfl

theorem length_of_drop (hp : p ≤ tokens.length) (h : tokens.drop p = us) :
    p + us.length = tokens.length := by
  have := congrArg List.length h
  rw [List.length_drop] at this
  omega

theorem staysOpen_of_opensAt {o : OpenList} {stack : List OpenList}
    (h : Parser.OpensAt p (o :: stack) used) (hd : tokens.drop p = used ++ rest) :
    StaysOpen tokens p (p + used.length) := by
  intro k hk hlt
  obtain ⟨us, vs, rfl, rfl⟩ := exists_append_of_le hlt.le hk
  rw [List.append_assoc] at hd
  rw [extract_of_drop hd]
  exact h.pos rfl (List.ne_nil_of_length_pos (by omega))

theorem getElem?_of_opensAt {o : OpenList} {stack : List OpenList}
    (h : Parser.OpensAt p (o :: stack) used) (hd : tokens.drop p = used ++ rest) :
    tokens[p]? = some "(" := by
  obtain ⟨us, rfl⟩ := h.exists_cons
  exact getElem?_of_drop (hd.trans (List.nil_append _).symm)

/-- Tokens that are shallow are not too deep. -/
theorem not_isTooDeep_of_isShallow (h : IsShallow maxDepth used)
    (hd : tokens.drop p = used ++ rest) {i : Nat} (hi : i < p + used.length) :
    ¬ IsTooDeep tokens maxDepth p i := by
  rintro ⟨hp, -, ⟨t, ht, hne⟩, hle⟩
  obtain ⟨us, vs, rfl, rfl⟩ := exists_append_of_le hp.le hi.le
  rw [List.append_assoc] at hd
  cases vs with
  | nil => simp at hi
  | cons v vs =>
    obtain rfl : v = t := Option.some.inj ((getElem?_of_drop hd).symm.trans ht)
    rw [extract_of_drop hd] at hle
    have := h us v vs rfl hne
    omega

/-- If all that is opened behind a list is closed there, it is the last one that is not closed. -/
theorem neverCloses_of_drop {k : Nat} (h : tokens.drop k = "(" :: us) (hu : IsBalancedTokens us) :
    NeverCloses tokens k ∧ ∀ j, k < j → ¬ NeverCloses tokens j := by
  have hk : tokens[k]? = some "(" := getElem?_of_drop (h.trans (List.nil_append _).symm)
  have hlen := length_of_drop (List.getElem?_eq_some_iff.1 hk).1.le h
  -- any part of the tokens from `k` on begins with the opening parenthesis
  have hparts {as bs : List String} (e : "(" :: us = as ++ bs) (ha : as ≠ []) :
      ∃ as', as = "(" :: as' ∧ us = as' ++ bs := by
    obtain ⟨a, as', rfl⟩ := List.exists_cons_of_ne_nil ha
    rw [List.cons_append, List.cons.injEq] at e
    exact ⟨as', by rw [e.1], e.2⟩
  refine ⟨⟨hk, fun j hj hlt => ?_⟩, fun j hj hun => ?_⟩
  · obtain ⟨as, bs, e, rfl⟩ := exists_append_of_le hlt.le (hlen ▸ hj)
    obtain ⟨as', rfl, hus⟩ := hparts e (List.ne_nil_of_length_pos (by omega))
    rw [extract_of_drop (h.trans e), tokenBalance_opening]
    have := hu.nonneg as' bs hus
    omega
  · have hlt : j < tokens.length := (List.getElem?_eq_some_iff.1 hun.1).1
    obtain ⟨as, bs, e, rfl⟩ := exists_append_of_le hj.le (hlen ▸ hlt.le)
    obtain ⟨as', rfl, hus⟩ := hparts e (List.ne_nil_of_length_pos (by omega))
    have hdrop : tokens.drop (k + ("(" :: as').length) = bs := by
      rw [← List.drop_drop, h, e, List.drop_left]
    have hopen := hun.2 tokens.length (Nat.le_refl _) hlt
    rw [extract_length_of_drop hdrop] at hopen
    have htotal := hu.total
    rw [hus, tokenBalance_append] at htotal
    have := hu.nonneg as' bs hus
    omega

/-! ## Where reading halts -/

section Halts

variable {o : OpenList} {stack : List OpenList} (hm : 0 < maxDepth)
  (hs : IsShallow maxDepth used)

include hm hs

theorem applies_tooDeep {t : String} (h : Parser.OpensAt p stack used)
    (hd : tokens.drop p = used ++ t :: rest) (ht : t ≠ ")") (hle : maxDepth ≤ stack.length) :
    (Refusal.tooDeep (p + used.length)).Applies tokens maxDepth p := by
  cases stack with
  | nil => exact absurd hle (by rw [List.length_nil]; omega)
  | cons o stack =>
    have hlen : 0 < used.length := by
      obtain ⟨us, rfl⟩ := h.exists_cons
      exact Nat.succ_pos _
    refine ⟨hm, getElem?_of_opensAt h hd, ⟨by omega, staysOpen_of_opensAt h hd, ?_, ?_⟩, ?_⟩
    · exact ⟨t, getElem?_of_drop hd, ht⟩
    · rw [extract_of_drop hd, h.balance]
      omega
    · exact fun j => not_isTooDeep_of_isShallow hs hd

theorem applies_unclosed (h : Parser.OpensAt p (o :: stack) used) (hd : tokens.drop p = used) :
    (Refusal.unclosed o.position).Applies tokens maxDepth p := by
  have hd' : tokens.drop p = used ++ [] := by rw [hd, List.append_nil]
  have hp := getElem?_of_opensAt h hd'
  have hlen := length_of_drop (List.getElem?_eq_some_iff.1 hp).1.le hd
  have hun : NeverCloses tokens p := ⟨hp, hlen ▸ staysOpen_of_opensAt h hd'⟩
  have hdeep : ∀ j < tokens.length, ¬ IsTooDeep tokens maxDepth p j := fun j hj =>
    not_isTooDeep_of_isShallow hs hd' (hlen ▸ hj)
  cases h with
  | @cons o stack ts us h hpos hu =>
    have hk : tokens.drop o.position = "(" :: us := by
      rw [hpos, ← List.drop_drop, hd, List.drop_left]
    obtain ⟨hopen, hlast⟩ := neverCloses_of_drop hk hu
    exact ⟨hm, hun, hdeep, hopen, fun j _ => hlast j⟩

end Halts

namespace Parser

/-- A call that fails is refused in one of the ways. -/
theorem exists_refusal {x : ParseError} {q : Parser} (hp : p ≤ tokens.length)
    (h : next ⟨tokens.drop p, p, maxDepth⟩ = (.error x, q)) :
    ∃ r : Refusal, r.Applies tokens maxDepth p ∧ x = r.error maxDepth p ∧
      q.position = r.cursor tokens p := by
  by_cases hm : maxDepth = 0
  · subst hm
    obtain ⟨hx, rfl⟩ := Prod.mk.inj h
    exact ⟨.noDepth, rfl, (Except.error.inj hx).symm, rfl⟩
  · replace hm : 0 < maxDepth := Nat.pos_of_ne_zero hm
    obtain ⟨used, stack, hd, hq, hopens, hshallow, hhalts⟩ := halts_of_next hm h
    obtain ⟨rest, position, limit⟩ := q
    simp only at hd hq hopens hshallow hhalts
    subst hq
    cases hhalts with
    | atEnd =>
      obtain rfl := hopens.eq_nil
      exact ⟨.atEnd, ⟨hm, length_of_drop hp hd⟩, rfl, rfl⟩
    | closing =>
      obtain rfl := hopens.eq_nil
      exact ⟨.closing, ⟨hm, getElem?_of_drop hd⟩, rfl, rfl⟩
    | tooDeep ht hle =>
      exact ⟨.tooDeep _, applies_tooDeep hm hshallow hopens hd ht hle, rfl, rfl⟩
    | unclosed =>
      rw [List.append_nil] at hd
      exact ⟨.unclosed _, applies_unclosed hm hshallow hopens hd, rfl, length_of_drop hp hd⟩

/-- Where an expression is read, nothing refuses the call. -/
theorem not_applies_of_ok {e : Expr} {q : Parser}
    (h : next ⟨tokens.drop p, p, maxDepth⟩ = (.ok e, q)) (r : Refusal) :
    ¬ r.Applies tokens maxDepth p := by
  obtain ⟨ts, hd, -, -, hspells, hheight⟩ := spells_of_next h
  simp only at hd hheight
  have hnested := hspells.isNested
  have hshallow := hspells.isShallow.mono hheight
  have hpos := hspells.length_pos
  have hlen : p + ts.length ≤ tokens.length := by
    have := congrArg List.length hd
    rw [List.length_drop, List.length_append] at this
    omega
  -- the form is closed behind the tokens that spell it
  have hcloses {j : Nat} (hj : p + ts.length ≤ j) : ¬ StaysOpen tokens p j := fun hstays => by
    have := hstays (p + ts.length) hj (by omega)
    rw [extract_of_drop hd, hnested.total] at this
    exact absurd this (Int.lt_irrefl 0)
  intro hr
  cases r with
  | noDepth =>
    have := e.height_pos
    have hm : maxDepth = 0 := hr
    omega
  | atEnd =>
    have : p = tokens.length := hr.2
    omega
  | closing =>
    obtain ⟨t, ts, rfl⟩ := List.exists_cons_of_ne_nil (List.ne_nil_of_length_pos hpos)
    have hfirst := getElem?_of_drop (hd.trans (List.nil_append _).symm)
    obtain rfl : t = ")" := Option.some.inj (hfirst.symm.trans hr.2)
    exact absurd (hnested.isBalanced.nonneg [")"] ts rfl) (by decide)
  | tooDeep i =>
    obtain ⟨-, -, hdeep, -⟩ := hr
    by_cases hi : i < p + ts.length
    · exact not_isTooDeep_of_isShallow hshallow hd hi hdeep
    · exact hcloses (Nat.le_of_not_lt hi) hdeep.2.1
  | unclosed k => exact hcloses hlen hr.2.1.2

/-- A call that fails is refused in one of the ways and in no other, and a call that is refused
fails with the error of that way and leaves the cursor where that way says. The cursor never moves
back or past the tokens, and moves on where an expression is read. -/
theorem next_refused (tokens : List String) (maxDepth : Nat) {p : Nat} (hp : p ≤ tokens.length) :
    let parser (q : Nat) : Parser := ⟨tokens.drop q, q, maxDepth⟩
    (∀ x, (parser p).next.1 = .error x → ∃! r : Refusal, r.Applies tokens maxDepth p) ∧
      (∀ r : Refusal, r.Applies tokens maxDepth p →
        (parser p).next = (.error (r.error maxDepth p), parser (r.cursor tokens p))) ∧
      p ≤ (parser p).next.2.position ∧ (parser p).next.2.position ≤ tokens.length ∧
      ∀ e, (parser p).next.1 = .ok e → p < (parser p).next.2.position := by
  intro parser
  have hstands : StandsIn tokens maxDepth (parser p).next.2 :=
    (⟨rfl, hp, rfl⟩ : StandsIn tokens maxDepth (parser p)).next
  refine ⟨fun x hx => ?_, fun r hr => ?_, ?_, hstands.position_le, fun e he => ?_⟩
  · obtain ⟨r, hr, -⟩ := exists_refusal hp (Prod.ext hx rfl)
    exact ⟨r, hr, fun r' hr' => hr'.unique hr⟩
  · rcases hn : (parser p).next with ⟨x | e, q⟩
    · obtain ⟨r', hr', rfl, hq⟩ := exists_refusal hp hn
      obtain rfl := hr.unique hr'
      rw [hn] at hstands
      have hrest := hstands.rest_eq
      obtain ⟨rest, position, limit⟩ := q
      obtain rfl : limit = maxDepth := hstands.maxDepth_eq
      simp only at hq hrest
      rw [hrest, hq]
    · exact absurd hr (not_applies_of_ok hn r)
  · obtain ⟨k, -, hk⟩ := next_passes (parser p)
    rw [hk]
    exact Nat.le_add_right p k
  · obtain ⟨ts, -, hq, -, hs, -⟩ := spells_of_next (Prod.ext he rfl)
    have := hs.length_pos
    rw [hq]
    exact Nat.lt_add_of_pos_right this

/-- A form behind an atom: the first list in it is closed, the second one is not. -/
def halfOpen : List String := ["x", "(", "(", ")", "(", "y"]

/-- A limit of two stops the call at `y`, which stands in two open lists; without it the inner one
of these two is found to be unclosed. -/
theorem next_halfOpen :
    1 ≤ halfOpen.length ∧
      ((Refusal.tooDeep 5).Applies halfOpen 2 1 ∧
        next ⟨halfOpen.drop 1, 1, 2⟩ = (.error ⟨.tooDeep 2, 5⟩, ⟨halfOpen.drop 5, 5, 2⟩)) ∧
      ((Refusal.unclosed 4).Applies halfOpen 3 1 ∧
        next ⟨halfOpen.drop 1, 1, 3⟩ = (.error ⟨.unclosed, 4⟩, ⟨halfOpen.drop 6, 6, 3⟩)) := by
  have hp : 1 ≤ halfOpen.length := by decide
  have hdeep : (Refusal.tooDeep 5).Applies halfOpen 2 1 := by decide +kernel
  have hopen : (Refusal.unclosed 4).Applies halfOpen 3 1 := by decide +kernel
  exact ⟨hp, ⟨hdeep, (next_refused halfOpen 2 hp).2.1 _ hdeep⟩,
    hopen, (next_refused halfOpen 3 hp).2.1 _ hopen⟩

end Parser

end SmallLisp
