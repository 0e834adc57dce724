import SmallLisp.Operator.Extension
import SmallLisp.Proofs.Eval.Adequacy
import SmallLisp.Proofs.Program.Composition
import SmallLisp.Proofs.Program.History

/-!
# Numbers and names

A token of the number class that is an integer is folded when it is read, and no
form takes it for a name (`Expr.isNoName_of_symbolName?`). Any other one stays a
text atom, which is looked up before it is read as a number. So it keeps its
meaning as long as the program does not bind it (`runText_number`), which it can
only do where it stands as a name behind a `setq` or a `defun`
(`runText_rebinds`).
-/

namespace SmallLisp

/-! ## Names -/

theorem IsName.string?_eq_none {t : String} (h : IsName t) : Literal.string? t = none := by
  unfold Literal.string?
  split
  · rename_i cs e
    exact absurd (by rw [e]; rfl) h
  · rfl

theorem IsName.symbolName?_text {t : String} (h : IsName t) :
    (Expr.text t).symbolName? = some t :=
  Option.filter_eq_some_iff.2 ⟨rfl, decide_eq_true h⟩

/-! ## Tokens of the number class -/

namespace Token

variable {t : String} (h : IsNumber t.toList)

include h

theorem IsNumber.ne_of_not {s : String} (hs : ¬ IsNumber s.toList) : t ≠ s := by
  rintro rfl
  exact hs h

theorem IsNumber.isName : IsName t := by
  obtain ⟨c, rest, ht, hc⟩ := h.exists_cons
  rw [IsName, ht, List.head?_cons, ne_eq, Option.some.injEq]
  rintro rfl
  cases hc

theorem IsNumber.get?_initial : Environment.initial.get? t = none := by
  rw [Environment.initial_eq_defineAll, Environment.get?_defineAll_of_ne]
  · exact Environment.get?_empty t
  · intro b hb
    obtain ⟨op, -, rfl⟩ := List.mem_map.1 hb
    refine h.ne_of_not ?_
    cases op <;> decide

/-- The text is one token and writes one atom. -/
theorem IsNumber.writesSome : WritesSome t [.ofToken t] := by
  refine ⟨List.cons_ne_nil _ _, writes_iff.2 ⟨[t], tokenize_singleton_iff.2 (.number h), ?_⟩⟩
  have hs : Spells [t] (.ofToken t) :=
    spells_ofToken (h.ne_of_not (by decide)) (h.ne_of_not (by decide))
  have hh : Expr.heightOfItems [.ofToken t] = 1 := by
    unfold Expr.ofToken
    split <;> rfl
  exact parseAll_eq_ok_iff.2 ⟨.singleton hs, hh.trans_le (Nat.succ_pos _)⟩

end Token

/-! ## Expressions that are no names -/

/-- No form that binds names takes the expression for one: where it stands for a name the form
fails, and nothing is bound. -/
structure Expr.IsNoName [Host] (e : Expr) : Prop where
  setq : ∀ (evaluator : Evaluator) (rest : List Expr) (env : Environment),
    ∃ x, evaluator.evaluate (.list (.text "setq" :: e :: rest)) env = (.error x, env)
  defun : ∀ (evaluator : Evaluator) (rest : List Expr) (env : Environment),
    ∃ x, evaluator.evaluate (.list (.text "defun" :: e :: rest)) env = (.error x, env)
  parameter : ∀ (evaluator : Evaluator) (name : Expr) (items body : List Expr) (env : Environment),
    e ∈ items →
    ∃ x, evaluator.evaluate (.list (.text "defun" :: name :: .list items :: body)) env =
      (.error x, env)

/-- A form that fails on every level has no value in any evaluator. -/
theorem Evaluator.exists_error [Host] {e : Expr} {env : Environment}
    (h : ∀ ev, ∃ x, evalExpr ev e env = (.error x, env)) (evaluator : Evaluator) :
    ∃ x, evaluator.evaluate e env = (.error x, env) := by
  obtain ⟨_ | n⟩ := evaluator
  · exact ⟨_, rfl⟩
  · exact h _

theorem exists_error_evalSetq (ev : Expr → Environment → Outcome Value) {e : Expr}
    (h : e.symbolName? = none) (rest : List Expr) (env : Environment) :
    ∃ x, evalSetq ev (e :: rest) env = (.error x, env) := by
  by_cases hl : (e :: rest).length = 2
  · obtain ⟨a, b, hab⟩ := List.length_eq_two.1 hl
    obtain ⟨rfl, -⟩ := List.cons.inj hab
    rw [hab, evalSetq_pair, h]
    exact ⟨_, rfl⟩
  · exact ⟨_, evalSetq_of_length_ne ev hl env⟩

theorem exists_error_evalDefun {operands : List Expr} (env : Environment)
    (h : ∀ name params body, operands = name :: params :: body →
      ∃ x, closureOf name params body = .error x) :
    ∃ x, evalDefun operands env = (.error x, env) := by
  by_cases hl : operands.length < 3
  · exact ⟨_, evalDefun_of_length_lt hl env⟩
  · obtain ⟨name, params, e, es, rfl⟩ := eq_cons_cons_cons_of_length (Nat.not_lt.1 hl)
    obtain ⟨x, hx⟩ := h name params (e :: es) rfl
    exact ⟨x, by rw [evalDefun, hx]⟩

theorem exists_error_closureOf {e name : Expr} (h : e.symbolName? = none) {items : List Expr}
    (he : e ∈ items) (body : List Expr) :
    ∃ x, closureOf name (.list items) body = .error x := by
  have hc := closureOf_spec name (.list items) body
  generalize closureOf name (.list items) body = r at hc
  cases hc with
  | notName _ => exact ⟨_, rfl⟩
  | notList _ _ => exact ⟨_, rfl⟩
  | notNames _ _ _ => exact ⟨_, rfl⟩
  | @names _ f ps _ hps =>
    have hm : e.symbolName? ∈ ps.map some := hps ▸ List.mem_map_of_mem he
    obtain ⟨p, -, hp⟩ := List.mem_map.1 hm
    rw [h] at hp
    cases hp

theorem Expr.isNoName_of_symbolName? [Host] {e : Expr} (h : e.symbolName? = none) : e.IsNoName where
  setq evaluator rest env := by
    refine evaluator.exists_error fun ev => ?_
    rw [evalExpr_setq]
    exact exists_error_evalSetq ev h rest env
  defun evaluator rest env := by
    refine evaluator.exists_error fun ev => ?_
    rw [evalExpr_defun]
    refine exists_error_evalDefun env fun name params body he => ?_
    obtain rfl := (List.cons.inj he).1
    exact ⟨_, closureOf_of_not_name h params body⟩
  parameter evaluator name items body env hm := by
    refine evaluator.exists_error fun ev => ?_
    rw [evalExpr_defun]
    refine exists_error_evalDefun env fun name params body he => ?_
    obtain ⟨rfl, -⟩ := List.cons.inj (List.cons.inj he).2
    exact exists_error_closureOf h hm body

/-! ## What texts bind -/

/-- What a text assigns is no integer: it would have been read as one. -/
theorem Writes.not_integer {cs : List Char} {es : List Expr} {e : Expr} {name : String}
    (h : Writes cs es) (he : e ∈ es) (hn : name ∈ e.assigned) :
    Numeral.readInt64? name.toList = none := by
  obtain ⟨ts, -, hp⟩ := h
  obtain ⟨head, rest, -, hm⟩ := hn
  have htext : .text name ∈ e.parts :=
    Expr.mem_parts_trans (Expr.mem_parts_of_mem (List.mem_cons_of_mem _ List.mem_cons_self)) hm
  exact ((parseAll_eq_ok_iff.1 hp).1.texts he htext).not_integer

namespace Evaluator

section Host

variable [Host]

/-- The names that a text binds are assigned in the expressions that it writes. -/
theorem runText_rebinds (evaluator : Evaluator) (text : String) (env : Environment) :
    env.Rebinds {name | ∃ es, Writes text.toList es ∧ ∃ e ∈ es, name ∈ e.assigned}
      (evaluator.runText text env).2 := by
  rcases evaluator.runText_cases text env with ⟨x, hx⟩ | ⟨es, ho⟩
  · rw [hx]
    exact .refl _ env
  · obtain ⟨es, hes⟩ := exists_writesSome_of_runText ho
    rw [runText_of_writesSome hes]
    refine evalSequence_rebinds (eval_rebinds _ _) ?_ .nil env
    exact fun e he name hn => ⟨es, hes.2, e, he, hn⟩

/-! ## Numbers in texts -/

variable (evaluator : Evaluator) {t : String} {env env' : Environment}

theorem evaluate_integer (n : Int64) (env env' : Environment) :
    (evaluator.evaluate (.integer n) env).1 = (evaluator.evaluate (.integer n) env').1 := by
  obtain ⟨_ | k⟩ := evaluator <;> rfl

/-- A text atom means the same wherever the same is bound to it. -/
theorem evaluate_text_congr (h : env.get? t = env'.get? t) :
    (evaluator.evaluate (.text t) env).1 = (evaluator.evaluate (.text t) env').1 := by
  obtain ⟨_ | k⟩ := evaluator
  · rfl
  · show resolve t env = resolve t env'
    unfold resolve
    rw [h]

theorem evaluate_text_of_get? {v : Value} (hm : 0 < evaluator.maxDepth)
    (hs : Literal.string? t = none) (h : env.get? t = some v) :
    evaluator.evaluate (.text t) env = (.ok v, env) := by
  rw [evaluate_of_pos hm]
  show (resolve t env, env) = _
  unfold resolve
  rw [hs, h]

theorem runText_of_isNumber (h : Token.IsNumber t.toList) (env : Environment) :
    evaluator.runText t env =
      ((evaluator.evaluate (.ofToken t) env).1.mapError .eval,
        (evaluator.evaluate (.ofToken t) env).2) :=
  runText_of_writesSome_singleton h.writesSome env

/-- A token of the number class that is an integer comes to the same in every environment, and is no
name. Any other one is a name. It comes, behind any text that is run in the first environment, to
what it comes to there, unless it is bound. The text then has it for a name behind a `setq` or a
`defun`, and what is bound is what it comes to. -/
theorem runText_number (evaluator evaluator' : Evaluator) (text : String) {t : String}
    (h : Token.IsNumber t.toList) :
    let env := (evaluator.runText text .initial).2
    ((∃ n, Numeral.readInt64? t.toList = some n) → (Expr.ofToken t).IsNoName ∧
      ∀ env, (evaluator'.runText t env).1 = (evaluator'.runText t .initial).1) ∧
    (Numeral.readInt64? t.toList = none → (Expr.ofToken t).symbolName? = some t) ∧
    (env.get? t = none → (evaluator'.runText t env).1 = (evaluator'.runText t .initial).1) ∧
    ∀ v, env.get? t = some v → Numeral.readInt64? t.toList = none ∧
      (∃ es, Writes text.toList es ∧ ∃ e ∈ es, t ∈ e.assigned) ∧
      (0 < evaluator'.maxDepth → evaluator'.runText t env = (.ok v, env)) := by
  intro env
  have hrun (env : Environment) := evaluator'.runText_of_isNumber h env
  refine ⟨fun ⟨n, hn⟩ => ?_, fun hn => ?_, fun hnone => ?_, fun v hv => ?_⟩
  · have ht := ofToken_of_readInt64? hn
    refine ⟨Expr.isNoName_of_symbolName? (by rw [ht]; rfl), fun env => ?_⟩
    rw [hrun, hrun, ht, evaluator'.evaluate_integer n env .initial]
  · rw [ofToken_of_not_integer hn]
    exact h.isName.symbolName?_text
  · rw [hrun, hrun]
    cases hn : Numeral.readInt64? t.toList with
    | some n =>
      rw [ofToken_of_readInt64? hn, evaluator'.evaluate_integer n env .initial]
    | none =>
      rw [ofToken_of_not_integer hn,
        evaluator'.evaluate_text_congr (hnone.trans h.get?_initial.symm)]
  · -- The first environment binds no number, so that the text must have assigned it.
    have hassigned : ∃ es, Writes text.toList es ∧ ∃ e ∈ es, t ∈ e.assigned := by
      by_contra hno
      have hget := (evaluator.runText_rebinds text .initial).get?_eq hno
      rw [h.get?_initial] at hget
      cases hget.symm.trans hv
    have hn : Numeral.readInt64? t.toList = none := by
      obtain ⟨es, hes, e, he, ha⟩ := hassigned
      exact hes.not_integer he ha
    refine ⟨hn, hassigned, fun hm => ?_⟩
    rw [hrun, ofToken_of_not_integer hn,
      evaluator'.evaluate_text_of_get? hm h.isName.string?_eq_none hv]
    rfl

end Host

/-- A text may bind `1.5`, and a function may have it for a parameter. -/
theorem runText_ne_of_bound :
    Token.IsNumber "1.5".toList ∧
      (runText ⟨8⟩ "1.5" (runText ⟨8⟩ "(setq 1.5 2)" .initial).2).1 ≠
        (runText ⟨8⟩ "1.5" .initial).1 ∧
      (runText ⟨8⟩ "(defun f (1.5) 1.5) (f 2)" .initial).1 ≠ (runText ⟨8⟩ "1.5" .initial).1 := by
  decide +kernel

/-- Binds a float, has another one for a parameter, and fails at an integer. -/
def numbersAsNames : String := "(setq 1.5 2) (defun f (2e3) 2e3) (setq x (f 0)) (setq -7 x)"

/-- Of the three numbers, one is no name, one is not bound when the text has failed, and one is. -/
theorem runText_numbersAsNames :
    let env := (runText ⟨8⟩ numbersAsNames .initial).2
    (runText ⟨8⟩ numbersAsNames .initial).1 = .error (.eval (.misplaced .target (.integer (-7)))) ∧
      (Token.IsNumber "-7".toList ∧ Token.IsNumber "2e3".toList ∧ Token.IsNumber "1.5".toList) ∧
      ((Expr.ofToken "-7").IsNoName ∧
        (runText ⟨8⟩ "-7" env).1 = (runText ⟨8⟩ "-7" .initial).1) ∧
      (runText ⟨8⟩ "2e3" env).1 = (runText ⟨8⟩ "2e3" .initial).1 ∧
      runText ⟨8⟩ "1.5" env = (.ok (.integer 2), env) := by
  intro env
  have h7 : Token.IsNumber "-7".toList := by decide
  have h2e3 : Token.IsNumber "2e3".toList := by decide
  have h15 : Token.IsNumber "1.5".toList := by decide
  refine ⟨by decide +kernel, ⟨h7, h2e3, h15⟩, ?_, ?_, ?_⟩
  · obtain ⟨hname, hsame⟩ := (runText_number ⟨8⟩ ⟨8⟩ numbersAsNames h7).1 ⟨-7, by decide +kernel⟩
    exact ⟨hname, hsame env⟩
  · exact (runText_number ⟨8⟩ ⟨8⟩ numbersAsNames h2e3).2.2.1 (by decide +kernel)
  · have hv : env.get? "1.5" = some (.integer 2) := by decide +kernel
    exact ((runText_number ⟨8⟩ ⟨8⟩ numbersAsNames h15).2.2.2 _ hv).2.2 (Nat.succ_pos 7)

end Evaluator

end SmallLisp
