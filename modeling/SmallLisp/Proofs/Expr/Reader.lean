import SmallLisp.Proofs.Expr.Spelling

/-!
# The parser reads spellings

What the parser has read is spelled by the tokens it has passed, and its open
lists by those before (`Opens`): `opens_step` is one token, `spells_of_run` a
run. In turn it reads every spelling, as long as the expression is not nested
deeper than allowed (`run_of_spells`).

* `spells_of_next`, `next_of_spells`: one expression;
* `spellsItems_of_all`, `all_of_spellsItems`: all expressions to the end.
-/

namespace SmallLisp.Parser

variable {maxDepth position : Nat}

/-! ## What is read is spelled -/

/-- The tokens read so far open the lists on the stack and spell their items, and these are not
nested deeper than allowed. -/
inductive Opens (maxDepth : Nat) : List OpenList → List String → Prop
  | nil : Opens maxDepth [] []
  | cons {o : OpenList} {stack : List OpenList} {ts us : List String} :
    Opens maxDepth stack ts → stack.length < maxDepth → SpellsItems us o.items.reverse →
    (∀ e ∈ o.items, stack.length + 1 + e.height ≤ maxDepth) →
    Opens maxDepth (o :: stack) (ts ++ "(" :: us)

/-- What a step leaves behind the tokens `ts`. -/
def StepReads (maxDepth : Nat) (ts : List String) : Step → Prop
  | .more stack => Opens maxDepth stack ts
  | .done e => Spells ts e ∧ e.height ≤ maxDepth
  | .fail _ => True

theorem opens_place {stack : List OpenList} {ts us : List String} {e : Expr}
    (h : Opens maxDepth stack ts) (he : Spells us e) (hd : stack.length + e.height ≤ maxDepth) :
    StepReads maxDepth (ts ++ us) (place e stack) := by
  cases h with
  | nil => exact ⟨he, by simpa using hd⟩
  | @cons o stack ts vs hs hlt hi hh =>
    rw [List.append_assoc]
    refine .cons hs hlt ?_ ?_
    · rw [List.reverse_cons]
      exact hi.append (.singleton he)
    · intro f hf
      rcases List.mem_cons.1 hf with rfl | hf
      · exact hd
      · exact hh f hf

theorem opens_step {stack : List OpenList} {ts : List String} (h : Opens maxDepth stack ts)
    (position : Nat) (t : String) :
    StepReads maxDepth (ts ++ [t]) (step maxDepth stack position t) := by
  unfold step
  split
  · rename_i hc
    subst hc
    cases h with
    | nil => trivial
    | @cons o stack ts us hs hlt hi hh =>
      have he : Spells ("(" :: (us ++ [")"])) (.list o.items.reverse) := .list hi
      rw [List.append_assoc]
      refine opens_place hs he ?_
      have hle : Expr.heightOfItems o.items.reverse ≤ maxDepth - (stack.length + 1) :=
        Expr.heightOfItems_le.2 fun e hm => by
          have := hh e (List.mem_reverse.1 hm)
          omega
      rw [Expr.height]
      omega
  · rename_i hc
    split
    · trivial
    · rename_i hlt
      split
      · rename_i ho
        subst ho
        exact .cons h (by omega) .nil fun e he => absurd he List.not_mem_nil
      · rename_i ho
        refine opens_place h (spells_ofToken ho hc) ?_
        have hh : (Expr.ofToken t).height = 1 := by
          unfold Expr.ofToken
          split <;> rfl
        omega

/-- A run that reads an expression has passed tokens which, behind those that the stack stands for,
spell it. -/
theorem spells_of_run {stack : List OpenList} {ts us rest : List String} {e : Expr} {q : Nat}
    (h : Opens maxDepth stack ts) (hr : run maxDepth stack position us = (.ok e, q, rest)) :
    ∃ used, us = used ++ rest ∧ q = position + used.length ∧ Spells (ts ++ used) e ∧
      e.height ≤ maxDepth := by
  induction us generalizing stack ts position with
  | nil => cases (Prod.mk.inj hr).1
  | cons t us ih =>
    have hs := opens_step h position t
    rw [run] at hr
    split at hr
    · rename_i stack' hst
      rw [hst] at hs
      obtain ⟨used, rfl, rfl, hu, hh⟩ := ih hs hr
      refine ⟨t :: used, rfl, ?_, ?_, hh⟩
      · rw [List.length_cons]; omega
      · simpa using hu
    · rename_i e' hst
      rw [hst] at hs
      obtain ⟨he, hq⟩ := Prod.mk.inj hr
      obtain ⟨rfl, rfl⟩ := Prod.mk.inj hq
      obtain rfl := Except.ok.inj he
      exact ⟨[t], rfl, rfl, hs.1, hs.2⟩
    · cases (Prod.mk.inj hr).1

/-! ## What is spelled is read -/

/-- How a run goes on behind a step. -/
def resume (maxDepth position : Nat) (rest : List String) :
    Step → Except ParseError Expr × Nat × List String
  | .more stack => run maxDepth stack position rest
  | .done e => (.ok e, position, rest)
  | .fail error => (.error error, position, rest)

theorem run_cons {stack outer : List OpenList} {t : String} {e : Expr}
    (h : step maxDepth stack position t = place e outer) (rest : List String) :
    run maxDepth stack position (t :: rest) =
      resume maxDepth (position + 1) rest (place e outer) := by
  rw [run, h]
  cases outer <;> rfl

theorem run_opening {stack : List OpenList} (h : stack.length < maxDepth) (position : Nat)
    (rest : List String) :
    run maxDepth stack position ("(" :: rest) =
      run maxDepth (⟨position, []⟩ :: stack) (position + 1) rest := by
  have hs : step maxDepth stack position "(" = .more (⟨position, []⟩ :: stack) := by
    unfold step
    rw [if_neg (by decide), if_neg (by omega), if_pos rfl]
  rw [run, hs]

theorem run_closing (o : OpenList) (stack : List OpenList) (position : Nat) (rest : List String) :
    run maxDepth (o :: stack) position (")" :: rest) =
      resume maxDepth (position + 1) rest (place (.list o.items.reverse) stack) := by
  refine run_cons ?_ rest
  unfold step
  rw [if_pos rfl]

theorem run_ofToken {stack : List OpenList} {t : String} (ho : t ≠ "(") (hc : t ≠ ")")
    (hlt : stack.length < maxDepth) (position : Nat) (rest : List String) :
    run maxDepth stack position (t :: rest) =
      resume maxDepth (position + 1) rest (place (.ofToken t) stack) := by
  refine run_cons ?_ rest
  unfold step
  rw [if_neg hc, if_neg (by omega), if_neg ho]

mutual

theorem run_of_spells {ts : List String} {e : Expr} : Spells ts e → ∀ (stack : List OpenList)
    (position : Nat) (rest : List String), stack.length + e.height ≤ maxDepth →
    run maxDepth stack position (ts ++ rest) =
      resume maxDepth (position + ts.length) rest (place e stack)
  | .integer h, stack, position, rest, hd => by
    have ho := ne_of_readInt64? (s := "(") h (by decide)
    have hc := ne_of_readInt64? (s := ")") h (by decide)
    rw [← ofToken_of_readInt64? h]
    exact run_ofToken ho hc hd position rest
  | .text ho hc h, stack, position, rest, hd => by
    rw [← ofToken_of_not_integer h]
    exact run_ofToken ho hc hd position rest
  | @Spells.list ts es hs, stack, position, rest, hd => by
    rw [Expr.height] at hd
    have hitems := run_of_spellsItems hs ⟨position, []⟩ stack (position + 1) (")" :: rest)
      (by omega)
    rw [List.cons_append, List.append_assoc, run_opening (by omega)]
    refine hitems.trans ?_
    rw [run_closing, List.append_nil, List.reverse_reverse]
    congr 1
    rw [List.length_cons, List.length_append, List.length_singleton]
    omega

theorem run_of_spellsItems {ts : List String} {es : List Expr} : SpellsItems ts es →
    ∀ (o : OpenList) (stack : List OpenList) (position : Nat) (rest : List String),
    stack.length + 1 + Expr.heightOfItems es ≤ maxDepth →
    run maxDepth (o :: stack) position (ts ++ rest) =
      run maxDepth (⟨o.position, es.reverse ++ o.items⟩ :: stack) (position + ts.length) rest
  | .nil, o, stack, position, rest, _ => rfl
  | @SpellsItems.cons ts us e es h hs, o, stack, position, rest, hd => by
    rw [Expr.heightOfItems] at hd
    have hhead := run_of_spells h (o :: stack) position (us ++ rest)
      (by rw [List.length_cons]; omega)
    have htail := run_of_spellsItems hs ⟨o.position, e :: o.items⟩ stack (position + ts.length) rest
      (by omega)
    rw [List.append_assoc, hhead]
    refine htail.trans ?_
    rw [List.reverse_cons, List.append_assoc, List.singleton_append, List.length_append,
      Nat.add_assoc]

end

/-! ## Whole expressions -/

theorem spells_of_next {p q : Parser} {e : Expr} (h : p.next = (.ok e, q)) :
    ∃ ts, p.rest = ts ++ q.rest ∧ q.position = p.position + ts.length ∧
      q.maxDepth = p.maxDepth ∧ Spells ts e ∧ e.height ≤ p.maxDepth := by
  unfold next at h
  split at h
  · cases (Prod.mk.inj h).1
  · obtain ⟨hr, rfl⟩ := Prod.mk.inj h
    obtain ⟨ts, hu, hp, hs, hh⟩ := spells_of_run .nil (Prod.ext hr rfl)
    exact ⟨ts, hu, hp, rfl, hs, hh⟩

theorem next_of_spells {ts : List String} {e : Expr} (h : Spells ts e) (hh : e.height ≤ maxDepth)
    (position : Nat) (rest : List String) :
    next ⟨ts ++ rest, position, maxDepth⟩ = (.ok e, ⟨rest, position + ts.length, maxDepth⟩) := by
  have hpos := e.height_pos
  have hlim : ¬ maxDepth = 0 := by omega
  have hd : ([] : List OpenList).length + e.height ≤ maxDepth := by rw [List.length_nil]; omega
  rw [next, if_neg hlim]
  simp only [run_of_spells h [] position rest hd]
  rfl

theorem all_of_isFinished {p : Parser} (h : p.rest = []) : p.all = .ok [] := by
  rw [all]
  exact if_pos (List.isEmpty_iff.2 h)

theorem all_of_next {p q : Parser} {e : Expr} (h : p.next = (.ok e, q)) :
    p.all = q.all.map (e :: ·) := by
  have hne : p.isFinished = false := by
    have := length_lt_of_next h
    rw [isFinished, List.isEmpty_eq_false_iff, List.ne_nil_iff_length_pos]
    omega
  rw [all, if_neg (by rw [hne]; decide)]
  split
  · rename_i h'
    rw [h] at h'
    cases (Prod.mk.inj h').1
  · rename_i h'
    rw [h] at h'
    obtain ⟨he, rfl⟩ := Prod.mk.inj h'
    rw [Except.ok.inj he]

theorem all_of_spellsItems {ts : List String} {es : List Expr} (h : SpellsItems ts es)
    (hh : Expr.heightOfItems es ≤ maxDepth) (position : Nat) :
    all ⟨ts, position, maxDepth⟩ = .ok es := by
  induction es generalizing ts position with
  | nil =>
    cases h
    exact all_of_isFinished rfl
  | cons e es ih =>
    cases h with
    | @cons ts us _ _ he hs =>
      rw [Expr.heightOfItems] at hh
      have hd : e.height ≤ maxDepth := by omega
      rw [all_of_next (next_of_spells he hd position us), ih hs (by omega)]
      rfl

theorem spellsItems_of_all {p : Parser} {es : List Expr} (h : p.all = .ok es) :
    SpellsItems p.rest es ∧ Expr.heightOfItems es ≤ p.maxDepth := by
  fun_induction all p generalizing es with
  | case1 p hf =>
    obtain rfl := Except.ok.inj h
    rw [List.isEmpty_iff.1 hf]
    exact ⟨.nil, Nat.zero_le _⟩
  | case2 p hf error q hn => cases h
  | case3 p hf e q hn hlt ih =>
    cases hq : q.all with
    | error x =>
      rw [hq] at h
      cases h
    | ok fs =>
      rw [hq] at h
      obtain rfl := Except.ok.inj h
      obtain ⟨ts, hu, -, hm, hs, hh⟩ := spells_of_next hn
      obtain ⟨his, hih⟩ := ih hq
      rw [hu]
      refine ⟨.cons hs his, ?_⟩
      rw [Expr.heightOfItems]
      omega

end Parser

theorem spells_of_parse {tokens : List String} {e : Expr} (h : parse tokens = .ok e) :
    ∃ ts rest, tokens = ts ++ rest ∧ Spells ts e := by
  obtain ⟨ts, ht, -, -, hs, -⟩ := Parser.spells_of_next (Prod.ext h rfl)
  exact ⟨ts, _, ht, hs⟩

theorem parse_of_spells {ts : List String} {e : Expr} (h : Spells ts e)
    (hh : e.height ≤ defaultParseDepth) (rest : List String) : parse (ts ++ rest) = .ok e := by
  rw [parse, Parser.next_of_spells h hh]

theorem parseAll_eq_ok_iff {tokens : List String} {es : List Expr} :
    parseAll tokens = .ok es ↔
      SpellsItems tokens es ∧ Expr.heightOfItems es ≤ defaultParseDepth :=
  ⟨Parser.spellsItems_of_all, fun ⟨hs, hh⟩ => Parser.all_of_spellsItems hs hh 0⟩

end SmallLisp
