import Mathlib.Data.Set.List
import SmallLisp.Operator.Extension
import SmallLisp.Proofs.Program.Sequence

/-!
# Running a text in chunks

Chunks that write expressions come to what the whole text comes to.

* `Evaluator.runChunks_of_runText`: if parentheses and line feeds stand outside
  of quoted strings, a text that can be evaluated as a whole is cut between its
  expressions, so its chunks come to the same value or to the same error;
* `Evaluator.runText_of_runChunks`: wherever a text without carriage returns is
  cut, if all chunks have values, the whole has the last of them.
-/

namespace SmallLisp

open Token (NotQuoted)

/-! ## The expressions of chunks -/

theorem forall₂_chunks_iff {text : String} {ess : List (List Expr)} :
    List.Forall₂ WritesSome (chunks text) ess ↔
      List.Forall₂ (fun b es => es ≠ [] ∧ Writes (joinLines b) es)
        (groupLines [] 0 (Text.lines text.toList)) ess := by
  simp only [chunks, List.forall₂_map_left_iff, WritesSome, String.toList_ofList]

/-- If no quoted string holds a line feed or a parenthesis, the chunks write the expressions of the
text. -/
theorem exists_writesSome_chunks {text : String} {ts : List String} {es : List Expr}
    (ht : tokenize text = .ok ts) (hn : NotQuoted '\n' ts) (ho : NotQuoted '(' ts)
    (hc : NotQuoted ')' ts) (hp : parseAll ts = .ok es) :
    ∃ ess, es = ess.flatten ∧ List.Forall₂ WritesSome (chunks text) ess := by
  have hr : Token.ReadsAs text.toList ts := by
    rw [Token.readsAs_iff, String.ofList_toList, ht]
  have hfeed : ∀ t ∈ ts, '\n' ∉ t.toList := fun t hm =>
    (tokenize_singleton_iff.1 (tokenize_of_mem ht hm)).not_mem (hn t hm) (by decide)
      (.inr (by decide)) (.inr (by decide))
  obtain ⟨hl, hj⟩ := (Text.isLines_lines text.toList).readsAs hr hfeed
  obtain ⟨ess, he, hw⟩ := (groups_groupLines _).exists_writes hl hj ho hc hp
  exact ⟨ess, he, forall₂_chunks_iff.2 hw⟩

/-- The expressions that the chunks write are those that the text writes. -/
theorem writes_of_forall₂_chunks {text : String} {ess : List (List Expr)} (hr : '\r' ∉ text.toList)
    (h : List.Forall₂ WritesSome (chunks text) ess) : Writes text.toList ess.flatten := by
  have hw := (forall₂_chunks_iff.1 h).imp fun _ _ h => h.2
  obtain ⟨ts, ht, hp⟩ := (groups_groupLines _).writes hw
  exact ⟨ts, (Text.isLines_lines text.toList).readsAs_of_joinLines hr ht, hp⟩

theorem getLast?_eq_some_getLastD {vs : List Value} (h : vs ≠ []) (last : Value) :
    vs.getLast? = some (vs.getLastD last) := by
  obtain ⟨v, vs, rfl⟩ := List.exists_cons_of_ne_nil h
  rw [List.getLast?_cons, List.getLastD_cons, List.getLastD_eq_getLast?]

namespace Evaluator

variable (evaluator : Evaluator) {text : String} {env env' : Environment}

theorem ne_nil_iff_of_runChunks [Host] {vs : List Value}
    (h : evaluator.runChunks text env = (vs.map .ok, env')) : vs ≠ [] ↔ chunks text ≠ [] := by
  have hlen := length_runAll evaluator (chunks text) env
  rw [← runChunks, h, List.length_map] at hlen
  rw [← List.length_pos_iff, ← List.length_pos_iff, hlen]

/-- What evaluation of the whole text comes to is what evaluation of the chunks' expressions comes
to. -/
theorem exists_chunks_of_runText [Host] {ts : List String} {o : Except EvalError Value}
    (ht : tokenize text = .ok ts) (hn : NotQuoted '\n' ts) (ho : NotQuoted '(' ts)
    (hc : NotQuoted ')' ts) (h : evaluator.runText text env = (o.mapError .eval, env')) :
    ∃ ess, List.Forall₂ WritesSome (chunks text) ess ∧ chunks text ≠ [] ∧
      evalSequence evaluator.evaluate .nil ess.flatten env = (o, env') := by
  obtain ⟨es, ⟨hne, hw⟩, hseq⟩ := runText_eq_iff.1 h
  obtain ⟨ts', ht', hp⟩ := writes_iff.1 hw
  obtain rfl := Except.ok.inj (ht.symm.trans ht')
  obtain ⟨ess, rfl, hess⟩ := exists_writesSome_chunks ht hn ho hc hp
  exact ⟨ess, hess, fun e => hne ((flatten_eq_nil_iff_of_writesSome hess).2 e), hseq⟩

/-- The tokens of a text are such that no quoted string holds a line feed or a parenthesis. If the
text has a value as a whole, then so has every chunk of it; the value is that of the last chunk, and
the environment is the same. If evaluation of the whole fails, then it fails alike in the first
chunk that fails at all, and the environment behind that chunk is the same. -/
theorem runChunks_of_runText [Host] {ts : List String} (env : Environment)
    (ht : tokenize text = .ok ts) (hn : NotQuoted '\n' ts) (ho : NotQuoted '(' ts)
    (hc : NotQuoted ')' ts) :
    (∀ v env', evaluator.runText text env = (.ok v, env') →
      ∃ vs : List Value, evaluator.runChunks text env = (vs.map .ok, env') ∧
        vs.getLast? = some v) ∧
    ∀ x env', evaluator.runText text env = (.error (.eval x), env') →
      ∃ (vs : List Value) (rest : List (Except RunError Value)),
        (evaluator.runChunks text env).1 = vs.map .ok ++ .error (.eval x) :: rest ∧
          (evaluator.runAll ((chunks text).take (vs.length + 1)) env).2 = env' := by
  constructor
  · intro v env' h
    obtain ⟨ess, hess, hne, hseq⟩ :=
      exists_chunks_of_runText evaluator ht hn ho hc (o := .ok v) h
    obtain ⟨vs, hvs, rfl⟩ := runAll_of_ok hess hseq
    have hne' : vs ≠ [] := (ne_nil_iff_of_runChunks evaluator hvs).2 hne
    exact ⟨vs, hvs, getLast?_eq_some_getLastD hne' .nil⟩
  · intro x env' h
    obtain ⟨ess, hess, -, hseq⟩ :=
      exists_chunks_of_runText evaluator ht hn ho hc (o := .error x) h
    exact runAll_of_error hess hseq

/-- Forms over several lines and two forms on one line, with blank lines and carriage returns. -/
def scattered : String := "(setq a 4)\r\n \n\n(setq b\n (/ a d)) (setq c b)\r\n\"d\" a"

/-- The text comes to a value if `d` is two. If it is zero, the second of three chunks fails. -/
theorem runChunks_scattered :
    let env (d : Int64) := Environment.initial.define "d" (.integer d)
    let made := [("a", .integer 4), ("b", .integer 2), ("c", .integer 2)]
    ∃ ts, tokenize scattered = .ok ts ∧ NotQuoted '\n' ts ∧ NotQuoted '(' ts ∧ NotQuoted ')' ts ∧
      (runText ⟨8⟩ scattered (env 2) = (.ok (.integer 4), (env 2).defineAll made) ∧
        ∃ vs : List Value, runChunks ⟨8⟩ scattered (env 2) =
          (vs.map .ok, (env 2).defineAll made) ∧ vs.getLast? = some (.integer 4)) ∧
      runText ⟨8⟩ scattered (env 0) =
        (.error (.eval .divisionByZero), (env 0).define "a" (.integer 4)) ∧
        ∃ (vs : List Value) (rest : List (Except RunError Value)),
          (runChunks ⟨8⟩ scattered (env 0)).1 =
            vs.map .ok ++ .error (.eval .divisionByZero) :: rest ∧
            (runAll ⟨8⟩ ((chunks scattered).take (vs.length + 1)) (env 0)).2 =
              (env 0).define "a" (.integer 4) := by
  intro env made
  have ht : tokenize scattered = .ok ["(", "setq", "a", "4", ")", "(", "setq", "b", "(", "/", "a",
      "d", ")", ")", "(", "setq", "c", "b", ")", "\"d\"", "a"] := by decide +kernel
  refine ⟨_, ht, by decide +kernel, by decide +kernel, by decide +kernel, ?_, ?_⟩
  · have h : runText ⟨8⟩ scattered (env 2) = (.ok (.integer 4), (env 2).defineAll made) := by
      decide +kernel
    exact ⟨h, (runChunks_of_runText ⟨8⟩ (env 2) ht (by decide +kernel) (by decide +kernel)
      (by decide +kernel)).1 _ _ h⟩
  · have h : runText ⟨8⟩ scattered (env 0) =
        (.error (.eval .divisionByZero), (env 0).define "a" (.integer 4)) := by
      decide +kernel
    exact ⟨h, (runChunks_of_runText ⟨8⟩ (env 0) ht (by decide +kernel) (by decide +kernel)
      (by decide +kernel)).2 _ _ h⟩

/-- A text holds no carriage return, and its chunks, of which there are some, all have values. Then
the text has the last of these values as a whole, and the environment is the same. -/
theorem runText_of_runChunks [Host] {results : List (Except RunError Value)}
    (hr : '\r' ∉ text.toList) (h : evaluator.runChunks text env = (results, env'))
    (hne : results ≠ []) (hok : ∀ r ∈ results, ∃ v, r = .ok v) :
    ∃ v, results.getLast? = some (.ok v) ∧ evaluator.runText text env = (.ok v, env') := by
  obtain ⟨vs, rfl⟩ : ∃ vs : List Value, vs.map .ok = results := by
    rw [← Set.mem_range, Set.range_list_map]
    exact fun r hm => (hok r hm).imp fun _ e => e.symm
  have hvs : vs ≠ [] := fun e => hne (List.map_eq_nil_iff.2 e)
  obtain ⟨ess, hess, hseq⟩ := evalSequence_of_runAll h
  have hsome : WritesSome text ess.flatten := by
    refine ⟨fun e => ?_, writes_of_forall₂_chunks hr hess⟩
    exact (ne_nil_iff_of_runChunks evaluator h).1 hvs ((flatten_eq_nil_iff_of_writesSome hess).1 e)
  refine ⟨vs.getLastD .nil, ?_, ?_⟩
  · rw [List.getLast?_map, getLast?_eq_some_getLastD hvs .nil]
    rfl
  · exact (runText_eq_iff (o := .ok (vs.getLastD .nil))).2 ⟨ess.flatten, hsome, hseq .nil⟩

/-- Parentheses in quoted strings keep the first two forms in one chunk, across a line feed in the
second string. -/
def entwined : String := "(setq s \"(\")\n(setq t \")\n\")\n\n s t\n"

theorem runText_entwined :
    let env := Environment.initial.defineAll [("s", .str "("), ("t", .str ")\n")]
    let results := [.ok (.str ")\n"), .ok (.str ")\n")]
    '\r' ∉ entwined.toList ∧ runChunks ⟨8⟩ entwined .initial = (results, env) ∧ results ≠ [] ∧
      (∀ r ∈ results, ∃ v, r = .ok v) ∧
      ∃ v, results.getLast? = some (.ok v) ∧ runText ⟨8⟩ entwined .initial = (.ok v, env) := by
  intro env results
  have hr : '\r' ∉ entwined.toList := by decide +kernel
  have h : runChunks ⟨8⟩ entwined .initial = (results, env) := by decide +kernel
  have hne : results ≠ [] := List.cons_ne_nil _ _
  have hok : ∀ r ∈ results, ∃ v, r = .ok v :=
    List.forall_mem_cons.2 ⟨⟨_, rfl⟩, List.forall_mem_singleton.2 ⟨_, rfl⟩⟩
  exact ⟨hr, h, hne, hok, runText_of_runChunks ⟨8⟩ hr h hne hok⟩

end Evaluator

end SmallLisp
