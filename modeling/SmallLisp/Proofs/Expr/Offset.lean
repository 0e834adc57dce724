import SmallLisp.Proofs.Expr.Reader

/-!
# Tokens behind other tokens

Where a parser starts only moves the positions that it tells: by what one token
leads to (`step_later`), and so for whole expressions (`all_later`). Tokens that
are read as expressions are therefore read so whatever comes behind them, and
what comes behind is read as it is alone, with the positions of its errors moved
by their number (`parseAll_append`).
-/

namespace SmallLisp

variable (k : Nat)

/-- The error `k` tokens further on. -/
def ParseError.later (e : ParseError) : ParseError := ⟨e.fault, k + e.position⟩

/-- The open list `k` tokens further on. -/
def OpenList.later (o : OpenList) : OpenList := ⟨k + o.position, o.items⟩

namespace Parser

/-- The parser with the same tokens to read, `k` tokens further on. -/
def later (p : Parser) : Parser := { p with position := k + p.position }

/-- What a token leads to `k` tokens further on. -/
def Step.later : Step → Step
  | .more stack => .more (stack.map (OpenList.later k))
  | .done e => .done e
  | .fail error => .fail (error.later k)

theorem place_later (e : Expr) (stack : List OpenList) :
    place e (stack.map (OpenList.later k)) = (place e stack).later k := by
  cases stack <;> rfl

theorem step_later (maxDepth : Nat) (stack : List OpenList) (position : Nat) (t : String) :
    step maxDepth (stack.map (OpenList.later k)) (k + position) t =
      (step maxDepth stack position t).later k := by
  unfold step
  rw [List.length_map]
  split
  · cases stack with
    | nil => rfl
    | cons o stack => exact place_later k (.list o.items.reverse) stack
  · split
    · rfl
    · split
      · rfl
      · exact place_later k (.ofToken t) stack

theorem endError_later (position : Nat) (stack : List OpenList) :
    endError (k + position) (stack.map (OpenList.later k)) =
      (endError position stack).later k := by
  cases stack <;> rfl

theorem run_later (maxDepth : Nat) (stack : List OpenList) (position : Nat) (ts : List String) :
    run maxDepth (stack.map (OpenList.later k)) (k + position) ts =
      ((run maxDepth stack position ts).1.mapError (.later k),
        k + (run maxDepth stack position ts).2.1, (run maxDepth stack position ts).2.2) := by
  induction ts generalizing stack position with
  | nil =>
    rw [run, run, endError_later]
    rfl
  | cons t ts ih =>
    rw [run, run, step_later]
    cases step maxDepth stack position t with
    | more stack => exact ih stack (position + 1)
    | done e => rfl
    | fail error => rfl

theorem next_later (p : Parser) :
    (p.later k).next = (p.next.1.mapError (.later k), p.next.2.later k) := by
  unfold next
  show (if p.maxDepth = 0 then _ else _) = _
  split
  · rfl
  · have hr := run_later k p.maxDepth [] p.position p.rest
    simp only [List.map_nil] at hr
    simp only [later, hr]

theorem all_of_next_error {p q : Parser} {error : ParseError} (hf : p.isFinished = false)
    (h : p.next = (.error error, q)) : p.all = .error error := by
  rw [all, if_neg (by rw [hf]; decide)]
  split
  · rename_i h'
    rw [h] at h'
    exact congrArg Except.error (Except.error.inj (Prod.mk.inj h').1).symm
  · rename_i h'
    rw [h] at h'
    cases (Prod.mk.inj h').1

theorem all_later (p : Parser) : (p.later k).all = p.all.mapError (.later k) := by
  fun_induction all p with
  | case1 p hf => exact all_of_isFinished (List.isEmpty_iff.1 hf)
  | case2 p hf error q hn =>
    have hl : (p.later k).next = (.error (error.later k), q.later k) := by
      rw [next_later, hn]
      rfl
    exact all_of_next_error (Bool.eq_false_iff.2 hf) hl
  | case3 p hf e q hn hlt ih =>
    have hl : (p.later k).next = (.ok e, q.later k) := by
      rw [next_later, hn]
      rfl
    rw [all_of_next hl, ih]
    cases q.all <;> rfl

/-- Behind the tokens of expressions, the parser goes on with what is left. -/
theorem all_append {ts : List String} {es : List Expr} {maxDepth : Nat} (h : SpellsItems ts es)
    (hh : Expr.heightOfItems es ≤ maxDepth) (us : List String) (position : Nat) :
    all ⟨ts ++ us, position, maxDepth⟩ =
      (all ⟨us, position + ts.length, maxDepth⟩).map (es ++ ·) := by
  induction es generalizing ts position with
  | nil =>
    cases h
    rw [List.nil_append, List.length_nil, Nat.add_zero]
    cases all ⟨us, position, maxDepth⟩ <;> rfl
  | cons e es ih =>
    cases h with
    | @cons ts vs _ _ he hs =>
      rw [Expr.heightOfItems] at hh
      have hd : e.height ≤ maxDepth := by omega
      rw [List.append_assoc, all_of_next (next_of_spells he hd position (vs ++ us)),
        ih hs (by omega), List.length_append, Nat.add_assoc]
      cases all ⟨us, position + (ts.length + vs.length), maxDepth⟩ <;> rfl

end Parser

/-- Tokens behind those of expressions are read as they are alone, but further on. -/
theorem parseAll_append {ts us : List String} {es : List Expr} (h : parseAll ts = .ok es) :
    parseAll (ts ++ us) = ((parseAll us).mapError (.later ts.length)).map (es ++ ·) := by
  obtain ⟨hs, hh⟩ := parseAll_eq_ok_iff.1 h
  have hl : (⟨us, 0 + ts.length, defaultParseDepth⟩ : Parser) =
      Parser.later ts.length { rest := us } := by
    rw [Parser.later, Nat.zero_add, Nat.add_zero]
  rw [parseAll, Parser.all_append hs hh, hl, Parser.all_later]
  rfl

end SmallLisp
