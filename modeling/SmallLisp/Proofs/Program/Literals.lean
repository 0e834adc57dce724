import SmallLisp.Operator.Extension
import SmallLisp.Proofs.Expr.RoundTrip
import SmallLisp.Proofs.Program.Sequence

/-!
# String literals

`Literal.write` writes any text as a string literal: between quotation marks,
with a backslash in front of each backslash and each quotation mark. This is one
token (`Literal.isString_write`), and its contents are the text again
(`Literal.string?_write`). So every text is the value of its literal, evaluated
or quoted (`Evaluator.runText_write`).
-/

namespace SmallLisp

namespace Literal

/-- A character as it stands in a string literal. -/
def escape (c : Char) : List Char := if c = '\\' ∨ c = '"' then ['\\', c] else [c]

/-- The text as a string literal. -/
def write (s : String) : String := String.ofList ('"' :: (s.toList.flatMap escape ++ ['"']))

theorem toList_write (s : String) :
    (write s).toList = '"' :: (s.toList.flatMap escape ++ ['"']) := String.toList_ofList

/-! ## One token -/

theorem isQuoted_escape (c : Char) {cs : List Char} (h : Token.IsQuoted cs) :
    Token.IsQuoted (escape c ++ cs) := by
  unfold escape
  split
  · exact .escape h
  · rename_i hc
    obtain ⟨hb, hq⟩ := not_or.1 hc
    exact .char hq hb h

theorem isQuoted_flatMap_escape (cs : List Char) :
    Token.IsQuoted (cs.flatMap escape ++ ['"']) := by
  induction cs with
  | nil => exact .close
  | cons c cs ih =>
    rw [List.flatMap_cons, List.append_assoc]
    exact isQuoted_escape c ih

theorem isString_write (s : String) : Token.IsString (write s).toList :=
  ⟨_, toList_write s, isQuoted_flatMap_escape _⟩

/-! ## Its contents -/

theorem unescape_cons {c : Char} (h : c ≠ '\\') (cs : List Char) :
    unescape (c :: cs) = c :: unescape cs := by
  rw [unescape.eq_def]
  split
  · rename_i e
    cases e
  · rename_i e
    exact absurd (List.cons.inj e).1 h
  · rename_i e
    exact absurd (List.cons.inj e).1 h
  · rename_i e
    obtain ⟨rfl, rfl⟩ := List.cons.inj e
    rfl

theorem unescape_escape (c : Char) (cs : List Char) :
    unescape (escape c ++ cs) = c :: unescape cs := by
  unfold escape
  split
  · rename_i h
    -- Of the characters that have an escape, none stands for another one.
    rcases h with rfl | rfl <;> rfl
  · rename_i h
    exact unescape_cons (fun hb => h (.inl hb)) cs

theorem unescape_flatMap_escape (cs : List Char) : unescape (cs.flatMap escape) = cs := by
  induction cs with
  | nil => rfl
  | cons c cs ih => rw [List.flatMap_cons, unescape_escape, ih]

/-- The contents of what stands between quotation marks at both ends. -/
theorem string?_of_toList {t : String} {cs : List Char} (h : t.toList = '"' :: (cs ++ ['"'])) :
    string? t = some (String.ofList (unescape cs)) := by
  have hlast : (cs ++ ['"']).getLast? = some '"' := List.getLast?_concat
  rw [string?, h]
  simp only [hlast, if_pos, List.dropLast_concat]

theorem string?_write (s : String) : string? (write s) = some s := by
  rw [string?_of_toList (toList_write s), unescape_flatMap_escape, String.ofList_toList]

/-! ## The atom that it writes -/

theorem isAtomText_write (s : String) : IsAtomText (write s) where
  token := tokenize_singleton_iff.2 (.string (isString_write s))
  not_opening h := by
    have := toList_write s
    rw [h] at this
    cases this
  not_closing h := by
    have := toList_write s
    rw [h] at this
    cases this
  not_integer := by
    have hq : '"' ∈ (write s).toList := by
      rw [toList_write]
      exact List.mem_cons_self
    exact Numeral.readInt64?_eq_none_of_mem hq (by decide) (by decide) (by decide)

end Literal

/-- A printable expression is what its text writes. -/
theorem Expr.Printable.writesSome {e : Expr} (h : e.Printable) (hh : e.height ≤ defaultParseDepth) :
    WritesSome (toString e) [e] := by
  obtain ⟨ts, hr, hs⟩ := h.exists_tokens
  have hhs : heightOfItems [e] ≤ defaultParseDepth :=
    heightOfItems_le.2 (List.forall_mem_singleton.2 hh)
  have hp : parseAll ts = .ok [e] := parseAll_eq_ok_iff.2 ⟨.singleton hs, hhs⟩
  exact ⟨List.cons_ne_nil _ _, writes_iff.2 ⟨ts, hr.tokenize, hp⟩⟩

/-- The form that has a text atom as data. -/
def quoted (t : String) : Expr := .list [.text "quote", .text t]

theorem IsAtomText.printable_quoted {t : String} (h : IsAtomText t) : (quoted t).Printable := by
  have hquote : IsAtomText "quote" := by decide +kernel
  refine Expr.printable_list fun e he => ?_
  rcases List.mem_pair.1 he with rfl | rfl
  · exact hquote.printable
  · exact h.printable

theorem toString_text (t : String) : toString (Expr.text t) = t := String.ofList_toList

theorem toString_quoted (t : String) : toString (quoted t) = "(quote " ++ t ++ ")" := by
  apply String.toList_inj.1
  show (String.ofList (quoted t).print).toList = _
  rw [String.toList_ofList, String.toList_append, String.toList_append]
  rfl

/-- A literal is one token. Evaluated, or quoted, it has its text for a value. -/
theorem Evaluator.runText_write [Host] (s : String) {evaluator : Evaluator}
    (hm : 1 ≤ evaluator.maxDepth) (env : Environment) :
    tokenize (Literal.write s) = .ok [Literal.write s] ∧
      evaluator.runText (Literal.write s) env = (.ok (.str s), env) ∧
      evaluator.runText ("(quote " ++ Literal.write s ++ ")") env = (.ok (.str s), env) := by
  have hatom := Literal.isAtomText_write s
  have hs := Literal.string?_write s
  refine ⟨hatom.token, ?_, ?_⟩
  · have hw := hatom.printable.writesSome (show 1 ≤ 256 by omega)
    rw [toString_text] at hw
    have he : evaluator.evaluate (.text (Literal.write s)) env = (.ok (.str s), env) := by
      rw [evaluate_of_pos hm]
      show (resolve _ env, env) = _
      rw [resolve, hs]
    rw [runText_of_writesSome_singleton hw, he]
    rfl
  · have hw := hatom.printable_quoted.writesSome (show 2 ≤ 256 by omega)
    rw [toString_quoted] at hw
    have he : evaluator.evaluate (quoted (Literal.write s)) env = (.ok (.str s), env) := by
      rw [evaluate_of_pos hm]
      show ((.ok (Expr.toValue (.text (Literal.write s))), env) : Outcome Value) = _
      rw [Expr.toValue, hs]
      rfl
    rw [runText_of_writesSome_singleton hw, he]
    rfl

/-- Backslashes before a quotation mark, before the letter of an escape and at the end, and a line
feed and a parenthesis as they are. -/
def awkward : String := "\\\\\"\\n\n(é \\"

theorem Evaluator.runText_awkward :
    let text := "\"\\\\\\\\\\\"\\\\n\n(é \\\\\""
    Literal.write awkward = text ∧ 1 ≤ (Evaluator.mk 1).maxDepth ∧ tokenize text = .ok [text] ∧
      runText ⟨1⟩ text .initial = (.ok (.str awkward), .initial) ∧
      runText ⟨1⟩ ("(quote " ++ text ++ ")") .initial = (.ok (.str awkward), .initial) := by
  have hw : Literal.write awkward = "\"\\\\\\\\\\\"\\\\n\n(é \\\\\"" := by decide +kernel
  have hm : 1 ≤ (Evaluator.mk 1).maxDepth := Nat.le_refl 1
  intro text
  have h := runText_write awkward hm .initial
  rw [hw] at h
  exact ⟨hw, hm, h⟩

end SmallLisp
