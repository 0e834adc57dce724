import SmallLisp.Proofs.Expr.Halt

/-!
# Balanced texts are read

A text in which parentheses stand outside of quoted strings is balanced just if
its tokens are (`isBalanced_iff`), and balanced tokens are read to their end
unless they go too deep (`Parser.tooDeep_of_all`). So the count of parentheses
and the parser accept the same texts up to the limit of depth
(`exists_parseAll_iff_isBalanced`).
-/

namespace SmallLisp

open Token (NotQuoted IsPlain scanAll)

/-! ## Balanced texts -/

/-- Behind `depth` open lists, the tokens never close more than is open, and leave nothing open. -/
structure ClosesFrom (depth : Int) (ts : List String) : Prop where
  total : depth + tokenBalance ts = 0
  nonneg : ∀ us vs, ts = us ++ vs → 0 ≤ depth + tokenBalance us

theorem closesFrom_zero_iff {ts : List String} : ClosesFrom 0 ts ↔ IsBalancedTokens ts := by
  constructor
  · rintro ⟨ht, hn⟩
    exact ⟨by omega, fun us vs e => by have := hn us vs e; omega⟩
  · rintro ⟨ht, hn⟩
    exact ⟨by omega, fun us vs e => by have := hn us vs e; omega⟩

theorem closesFrom_nil_iff {depth : Int} : ClosesFrom depth [] ↔ depth = 0 := by
  have h0 : tokenBalance [] = 0 := rfl
  constructor
  · rintro ⟨ht, -⟩
    omega
  · rintro rfl
    exact closesFrom_zero_iff.2 isBalancedTokens_nil

theorem closesFrom_cons_iff {depth : Int} {t : String} {ts : List String} :
    ClosesFrom depth (t :: ts) ↔ 0 ≤ depth ∧ ClosesFrom (depth + tokenBalance [t]) ts := by
  have h0 : tokenBalance [] = 0 := rfl
  constructor
  · rintro ⟨ht, hn⟩
    have h₀ := hn [] (t :: ts) rfl
    rw [tokenBalance_cons] at ht
    refine ⟨by omega, by omega, fun us vs e => ?_⟩
    have := hn (t :: us) vs (by rw [e, List.cons_append])
    rw [tokenBalance_cons] at this
    omega
  · rintro ⟨h₀, ht, hn⟩
    refine ⟨by rw [tokenBalance_cons]; omega, fun us vs e => ?_⟩
    cases us with
    | nil => omega
    | cons u us =>
      obtain ⟨rfl, rfl⟩ := List.cons.inj e
      have := hn us vs rfl
      rw [tokenBalance_cons]
      omega

theorem isBalancedFrom_cons {c : Char} (ho : c ≠ '(') (hc : c ≠ ')') (depth : Nat)
    (cs : List Char) : isBalancedFrom depth (c :: cs) = isBalancedFrom depth cs := by
  rw [isBalancedFrom.eq_def]
  grind

/-- Characters that are no parentheses do not count. -/
theorem isBalancedFrom_append {w : List Char} (ho : '(' ∉ w) (hc : ')' ∉ w) (depth : Nat)
    (cs : List Char) : isBalancedFrom depth (w ++ cs) = isBalancedFrom depth cs := by
  induction w with
  | nil => rfl
  | cons c w ih =>
    rw [List.mem_cons, not_or] at ho hc
    rw [List.cons_append, isBalancedFrom_cons (Ne.symm ho.1) (Ne.symm hc.1), ih ho.2 hc.2]

theorem isBalancedFrom_trimStart (depth : Nat) (cs : List Char) :
    isBalancedFrom depth (Text.trimStart cs) = isBalancedFrom depth cs := by
  have hcut := @List.takeWhile_append_dropWhile _ Text.isBlank cs
  have h := isBalancedFrom_append (Token.not_mem_takeWhile_isBlank (c := '(') (by decide) cs)
    (Token.not_mem_takeWhile_isBlank (c := ')') (by decide) cs) depth (cs.dropWhile Text.isBlank)
  rw [hcut] at h
  exact h.symm

theorem isBalancedFrom_token {t : String} {rest : List Char} {ts : List String}
    (ht : IsPlain t)
    (h : ∀ depth : Nat, isBalancedFrom depth rest = true ↔ ClosesFrom depth ts) (depth : Nat) :
    isBalancedFrom depth (t.toList ++ rest) = true ↔ ClosesFrom depth (t :: ts) := by
  rw [closesFrom_cons_iff]
  rcases ht with rfl | rfl | ⟨ho, hc⟩
  · show isBalancedFrom (depth + 1) rest = true ↔
      0 ≤ (depth : Int) ∧ ClosesFrom ((depth + 1 : Nat) : Int) ts
    rw [h (depth + 1)]
    exact ⟨fun hr => ⟨by omega, hr⟩, And.right⟩
  · cases depth with
    | zero =>
      refine iff_of_false Bool.false_ne_true fun hr => ?_
      have := hr.2.nonneg [] ts rfl
      exact absurd this (by decide)
    | succ depth =>
      have hd : ((depth + 1 : Nat) : Int) + tokenBalance [")"] = depth := by
        rw [show tokenBalance [")"] = -1 from rfl]; omega
      rw [hd, ← h depth]
      exact ⟨fun hr => ⟨by omega, hr⟩, And.right⟩
  · rw [isBalancedFrom_append ho hc, tokenBalance_of_not_mem ho hc, Int.add_zero, h depth]
    exact ⟨fun hr => ⟨by omega, hr⟩, And.right⟩

theorem isBalancedFrom_scanAll {cs : List Char} {ts : List String}
    (h : scanAll cs = (ts.map String.toList, [])) (ht : ∀ t ∈ ts, IsPlain t) (depth : Nat) :
    isBalancedFrom depth cs = true ↔ ClosesFrom depth ts := by
  fun_induction scanAll cs generalizing ts depth with
  | case1 cs hn =>
    obtain ⟨hts, hcs⟩ := Prod.mk.inj h
    obtain rfl := List.map_eq_nil_iff.1 hts.symm
    rw [← isBalancedFrom_trimStart, hcs, closesFrom_nil_iff]
    show (depth == 0) = true ↔ _
    rw [beq_iff_eq]
    omega
  | case2 cs u rest hs hlt us left he ih =>
    obtain ⟨hts, rfl⟩ := Prod.mk.inj h
    obtain ⟨t, ts, rfl, rfl, hus⟩ := List.map_eq_cons_iff.1 hts.symm
    rw [List.forall_mem_cons] at ht
    rw [← isBalancedFrom_trimStart, (Token.append_of_scan? hs).1]
    exact isBalancedFrom_token ht.1 (ih (he.trans (Prod.ext hus.symm rfl)) ht.2) depth

/-- If parentheses do not stand in quoted strings, a text is balanced just if its tokens are. -/
theorem isBalanced_iff {text : String} {ts : List String} (h : tokenize text = .ok ts)
    (ho : NotQuoted '(' ts) (hc : NotQuoted ')' ts) :
    isBalanced text = true ↔ IsBalancedTokens ts := by
  rw [← closesFrom_zero_iff]
  refine isBalancedFrom_scanAll (tokenize_eq_ok_iff.1 h) (fun t hm => ?_) 0
  exact (tokenize_singleton_iff.1 (tokenize_of_mem h hm)).isPlain (ho t hm) (hc t hm)

/-! ## Balanced tokens -/

theorem IsBalancedTokens.of_append_right {ts us : List String} (h : IsBalancedTokens (ts ++ us))
    (hb : tokenBalance ts = 0) : IsBalancedTokens us := by
  obtain ⟨ht, hn⟩ := h
  rw [tokenBalance_append, hb, Int.zero_add] at ht
  refine ⟨ht, fun as bs e => ?_⟩
  have := hn (ts ++ as) bs (by rw [e, List.append_assoc])
  rwa [tokenBalance_append, hb, Int.zero_add] at this

namespace Parser

/-- All that can be wrong with balanced tokens is that they go too deep, and then they do. -/
theorem tooDeep_of_all {p : Parser} {x : ParseError} (hm : 0 < p.maxDepth)
    (hb : IsBalancedTokens p.rest) (h : p.all = .error x) :
    x.fault = .tooDeep p.maxDepth ∧ ¬ IsShallow p.maxDepth p.rest := by
  fun_induction all p generalizing x with
  | case1 => cases h
  | case2 p hf x' q hn =>
    obtain rfl := Except.error.inj h
    obtain ⟨used, stack, hrest, -, hopens, -, hhalts⟩ := halts_of_next hm hn
    generalize q.rest = rest at hrest hhalts
    rw [hrest] at hb ⊢
    have hbal := hopens.balance
    cases hhalts with
    | atEnd =>
      rw [hopens.eq_nil] at hrest
      exact absurd (List.isEmpty_iff.2 hrest) hf
    | closing =>
      rw [hopens.eq_nil] at hb
      exact absurd (hb.nonneg [")"] _ rfl) (by decide)
    | @unclosed o stack =>
      have := hb.total
      rw [List.append_nil, hbal, List.length_cons] at this
      omega
    | tooDeep ht hle =>
      refine ⟨rfl, fun hs => ?_⟩
      have := hs used _ _ rfl ht
      omega
  | case3 p hf e q hn hlt ih =>
    obtain ⟨ts, hrest, -, hlimit, hs, -⟩ := spells_of_next hn
    have htotal := hs.isNested.total
    rw [hrest] at hb ⊢
    rw [hlimit] at ih
    cases hq : q.all with
    | ok es =>
      rw [hq] at h
      cases h
    | error y =>
      rw [hq] at h
      obtain rfl := Except.error.inj h
      obtain ⟨hx, hdeep⟩ := ih hm (hb.of_append_right htotal) hq
      exact ⟨hx, fun hshallow => hdeep (hshallow.of_append_right htotal)⟩

end Parser

/-- In a text no quoted string holds a parenthesis. Its tokens are read as expressions just if the
text is balanced and no token but a closing parenthesis stands in 256 open lists or more. So a
balanced text can only be nested too deep, and one that is not balanced is never read. -/
theorem exists_parseAll_iff_isBalanced {text : String} {ts : List String}
    (ht : tokenize text = .ok ts) (ho : NotQuoted '(' ts) (hc : NotQuoted ')' ts) :
    ((∃ es, parseAll ts = .ok es) ↔ isBalanced text = true ∧ IsShallow 256 ts) ∧
      (isBalanced text = true → ∀ x, parseAll ts = .error x → x.fault = .tooDeep 256) ∧
      (isBalanced text = false → ∃ x, parseAll ts = .error x) := by
  have hread {es : List Expr} (h : parseAll ts = .ok es) :
      isBalanced text = true ∧ IsShallow 256 ts := by
    obtain ⟨hs, hh⟩ := parseAll_eq_ok_iff.1 h
    exact ⟨(isBalanced_iff ht ho hc).2 hs.isBalanced, hs.isShallow.mono hh⟩
  have hfault {x : ParseError} (hb : isBalanced text = true) (h : parseAll ts = .error x) :
      x.fault = .tooDeep 256 ∧ ¬ IsShallow 256 ts :=
    Parser.tooDeep_of_all (Nat.succ_pos _) ((isBalanced_iff ht ho hc).1 hb) h
  refine ⟨⟨fun ⟨es, hes⟩ => hread hes, fun ⟨hb, hs⟩ => ?_⟩, fun hb x hx => (hfault hb hx).1,
    fun hb => ?_⟩
  · cases hp : parseAll ts with
    | ok es => exact ⟨es, rfl⟩
    | error x => exact absurd hs (hfault hb hp).2
  · cases hp : parseAll ts with
    | ok es => rw [(hread hp).1] at hb; cases hb
    | error x => exact ⟨x, rfl⟩

/-- A form over two lines, with a string that holds other brackets. -/
def overTwoLines : String := "(f (g) \"]\"\n ((h)))"

/-- The form is balanced and at most three lists deep. With one more closing parenthesis it is not
balanced any more, although no other token comes to stand deeper. -/
theorem overTwoLines_read :
    let ts := ["(", "f", "(", "g", ")", "\"]\"", "(", "(", "h", ")", ")", ")"]
    (tokenize overTwoLines = .ok ts ∧ NotQuoted '(' ts ∧ NotQuoted ')' ts) ∧
      (isBalanced overTwoLines = true ∧ IsShallow 256 ts ∧ ∃ es, parseAll ts = .ok es) ∧
      isBalanced (overTwoLines ++ ")") = false ∧ IsShallow 256 (ts ++ [")"]) ∧
        ∃ x, parseAll (ts ++ [")"]) = .error x := by
  intro ts
  have ht : tokenize overTwoLines = .ok ts := by decide +kernel
  have ho : NotQuoted '(' ts := by decide +kernel
  have hc : NotQuoted ')' ts := by decide +kernel
  have hb : isBalanced overTwoLines = true := by decide +kernel
  have hs : IsShallow 256 ts := by decide +kernel
  have hb' : isBalanced (overTwoLines ++ ")") = false := by decide +kernel
  refine ⟨⟨ht, ho, hc⟩, ⟨hb, hs, ?_⟩, hb', by decide +kernel, ?_⟩
  · exact (exists_parseAll_iff_isBalanced ht ho hc).1.2 ⟨hb, hs⟩
  · refine (exists_parseAll_iff_isBalanced ?_ ?_ ?_).2.2 hb' <;> decide +kernel

end SmallLisp
