import SmallLisp.Operator.Extension
import SmallLisp.Proofs.Expr.Offset
import SmallLisp.Proofs.Program.Sequence
import SmallLisp.Proofs.Token.Offset

/-!
# Texts put together

Two texts with blanks between them run as one text. Errors of tokens and
expressions are found before anything is evaluated, so those of the second text
keep the first from running; otherwise the second runs behind the first, if that
has a value (`runText_append`).
-/

namespace SmallLisp

theorem Writes.append {a w b : String} {ts us : List String} {es fs : List Expr}
    (hts : tokenize a = .ok ts) (hes : parseAll ts = .ok es) (hne : w ≠ "")
    (hw : ∀ c ∈ w.toList, Text.isBlank c = true) (hus : tokenize b = .ok us)
    (hfs : parseAll us = .ok fs) : Writes (a ++ w ++ b).toList (es ++ fs) := by
  refine writes_iff.2 ⟨ts ++ us, tokenize_append_of_ok hts hne hw hus, ?_⟩
  rw [parseAll_append hes, hfs]
  rfl

namespace Evaluator

section Host

variable [Host] {evaluator : Evaluator} {env : Environment}

theorem runText_of_tokenize {text : String} {e : TokenError} (h : tokenize text = .error e)
    (env : Environment) : evaluator.runText text env = (.error (.token e), env) := by
  simp only [runText, h]

theorem runText_of_parseAll {text : String} {ts : List String} {e : ParseError}
    (ht : tokenize text = .ok ts) (hp : parseAll ts = .error e) (env : Environment) :
    evaluator.runText text env = (.error (.parse e), env) := by
  simp only [runText, ht, hp]

theorem runText_of_writes_nil {text : String} (h : Writes text.toList []) (env : Environment) :
    evaluator.runText text env = (.error (.parse ⟨.noExpression, 0⟩), env) := by
  obtain ⟨ts, ht, hp⟩ := writes_iff.1 h
  simp only [runText, ht, hp]

/-- Texts that write the same expressions run in the same way. -/
theorem runText_congr {text text' : String} {es : List Expr} (h : Writes text.toList es)
    (h' : Writes text'.toList es) (env : Environment) :
    evaluator.runText text env = evaluator.runText text' env := by
  obtain ⟨ts, ht, hp⟩ := writes_iff.1 h
  obtain ⟨us, hu, hq⟩ := writes_iff.1 h'
  simp only [runText, ht, hp, hu, hq]

/-- A text that writes what two texts write one after the other runs as the second behind the
first. -/
theorem runText_of_writesSome_append {a b text : String} {es fs : List Expr}
    (ha : WritesSome a es) (hb : WritesSome b fs) (h : Writes text.toList (es ++ fs))
    (env : Environment) :
    evaluator.runText text env =
      match evaluator.runText a env with
      | (.error x, env) => (.error x, env)
      | (.ok _, env) => evaluator.runText b env := by
  have hsome : WritesSome text (es ++ fs) := ⟨List.append_ne_nil_of_left_ne_nil ha.1 fs, h⟩
  rw [runText_of_writesSome hsome, runText_of_writesSome ha, evalSequence_append]
  rcases evalSequence evaluator.evaluate .nil es env with ⟨x | v, env₁⟩
  · rfl
  · show _ = evaluator.runText b env₁
    rw [Outcome.bind_ok, runText_of_writesSome hb, evalSequence_of_ne_nil _ hb.1 v .nil]

/-- What a text that reads as expressions and another text, behind blanks, run to together. An error
of tokens or of expressions in the second keeps the first from running, and its place is told behind
the bytes or tokens before it. -/
theorem runText_append {a w b : String} {ts : List String} {es : List Expr}
    (hts : tokenize a = .ok ts) (hes : parseAll ts = .ok es) (hne : w ≠ "")
    (hw : ∀ c ∈ w.toList, Text.isBlank c = true) (evaluator : Evaluator) (env : Environment) :
    (∀ e, tokenize b = .error e → evaluator.runText (a ++ w ++ b) env =
      (.error (.token ⟨(a ++ w).utf8ByteSize + e.offset, e.found⟩), env)) ∧
    (∀ us e, tokenize b = .ok us → parseAll us = .error e →
      evaluator.runText (a ++ w ++ b) env =
        (.error (.parse ⟨e.fault, ts.length + e.position⟩), env)) ∧
    ∀ us fs, tokenize b = .ok us → parseAll us = .ok fs →
      (es = [] → evaluator.runText (a ++ w ++ b) env = evaluator.runText b env) ∧
      (es ≠ [] → ∀ x env', evaluator.runText a env = (.error x, env') →
        evaluator.runText (a ++ w ++ b) env = (.error x, env')) ∧
      ∀ v env', evaluator.runText a env = (.ok v, env') →
        (fs = [] → evaluator.runText (a ++ w ++ b) env = (.ok v, env')) ∧
        (fs ≠ [] → evaluator.runText (a ++ w ++ b) env = evaluator.runText b env') := by
  refine ⟨fun e he => ?_, fun us e hus he => ?_, fun us fs hus hfs => ?_⟩
  · refine runText_of_tokenize ?_ env
    rw [tokenize_append hts hne hw, he]
    rfl
  · refine runText_of_parseAll (tokenize_append_of_ok hts hne hw hus) ?_ env
    rw [parseAll_append hes, he]
    rfl
  · -- Both texts are read, so together they write the expressions of one and then of the other.
    have ha : Writes a.toList es := writes_iff.2 ⟨ts, hts, hes⟩
    have hb : Writes b.toList fs := writes_iff.2 ⟨us, hus, hfs⟩
    have hab := Writes.append hts hes hne hw hus hfs
    have hsome {v env'} (h : evaluator.runText a env = (.ok v, env')) : es ≠ [] := by
      rintro rfl
      rw [runText_of_writes_nil ha] at h
      cases h
    refine ⟨fun hnil => ?_, fun he x env' h => ?_, fun v env' h => ⟨fun hnil => ?_, fun hf => ?_⟩⟩
    · rw [hnil] at hab
      exact runText_congr hab hb env
    · by_cases hf : fs = []
      · rw [hf, List.append_nil] at hab
        rw [runText_congr hab ha, h]
      · rw [runText_of_writesSome_append ⟨he, ha⟩ ⟨hf, hb⟩ hab, h]
    · rw [hnil, List.append_nil] at hab
      rw [runText_congr hab ha, h]
    · rw [runText_of_writesSome_append ⟨hsome h, ha⟩ ⟨hf, hb⟩ hab, h]

end Host

/-- A binding and a quotient. -/
def quarters : String := "(setq x 4) (/ x d)"

/-- An em space and a line feed, four bytes in all. -/
def gap : String := "\u2003\n"

/-- Behind the 22 bytes and 10 tokens: a text with a character that begins no token, a list that is
not closed, and an expression, which is not reached if the quotient fails. -/
theorem runText_quarters_append :
    let env (d : Int64) := Environment.initial.define "d" (.integer d)
    let ts := ["(", "setq", "x", "4", ")", "(", "/", "x", "d", ")"]
    let es := [.list [.text "setq", .text "x", .integer 4],
      .list [.text "/", .text "x", .text "d"]]
    (tokenize quarters = .ok ts ∧ parseAll ts = .ok es ∧ gap ≠ "" ∧
      ∀ c ∈ gap.toList, Text.isBlank c = true) ∧
      runText ⟨8⟩ (quarters ++ gap ++ "x '(x)") (env 2) = (.error (.token ⟨24, "'"⟩), env 2) ∧
      runText ⟨8⟩ (quarters ++ gap ++ "x (x") (env 2) =
        (.error (.parse ⟨.unclosed, 11⟩), env 2) ∧
      runText ⟨8⟩ (quarters ++ gap ++ "(+ x 1)") (env 2) =
        (.ok (.integer 5), (env 2).define "x" (.integer 4)) ∧
      runText ⟨8⟩ (quarters ++ gap ++ "(+ x 1)") (env 0) =
        (.error (.eval .divisionByZero), (env 0).define "x" (.integer 4)) := by
  intro env ts es
  have ht : tokenize quarters = .ok ts := by decide +kernel
  have hp : parseAll ts = .ok es := by decide +kernel
  have hg : gap ≠ "" := by decide
  have hw : ∀ c ∈ gap.toList, Text.isBlank c = true :=
    List.all_eq_true.1 (by decide +kernel : gap.toList.all Text.isBlank = true)
  have hb : tokenize "(+ x 1)" = .ok ["(", "+", "x", "1", ")"] := by decide +kernel
  have hq : parseAll ["(", "+", "x", "1", ")"] =
      .ok [.list [.text "+", .text "x", .integer 1]] := by decide +kernel
  have h {b} (d : Int64) := runText_append (b := b) ht hp hg hw ⟨8⟩ (env d)
  refine ⟨⟨ht, hp, hg, hw⟩, ?_, ?_, ?_, ?_⟩
  · exact (h 2).1 ⟨2, "'"⟩ (by decide +kernel)
  · exact (h 2).2.1 ["x", "(", "x"] ⟨.unclosed, 1⟩ (by decide +kernel) (by decide +kernel)
  · have ha : runText ⟨8⟩ quarters (env 2) =
        (.ok (.integer 2), (env 2).define "x" (.integer 4)) := by decide +kernel
    rw [(((h 2).2.2 _ _ hb hq).2.2 _ _ ha).2 (List.cons_ne_nil _ _)]
    decide +kernel
  · exact ((h 0).2.2 _ _ hb hq).2.1 (List.cons_ne_nil _ _) _ _ (by decide +kernel)

end Evaluator

end SmallLisp
