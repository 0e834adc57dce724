import Mathlib.Data.List.Forall2
import SmallLisp.Proofs.Expr.Balance
import SmallLisp.Proofs.Expr.Offset
import SmallLisp.Proofs.Program.Blocks
import SmallLisp.Proofs.Token.Continuation

/-!
# Expressions over lines

`Writes`: the expressions that a text writes. If every block of lines writes
expressions, the lines write them one after the other (`Groups.writes`). In
turn, if parentheses and line feeds stand outside of quoted strings, a text is
read line by line (`IsLines.readsAs`), and the blocks of its lines write its
expressions (`Groups.exists_writes`).
-/

namespace SmallLisp

open Token (ReadsAs NotQuoted)

/-- The text is read as tokens, and these as the expressions. -/
def Writes (cs : List Char) (es : List Expr) : Prop := ∃ ts, ReadsAs cs ts ∧ parseAll ts = .ok es

/-! ## Tokens over lines -/

theorem Token.ReadsAs.joinLines_append {ls ms : List (List Char)} {ts us : List String}
    (ht : ReadsAs (joinLines ls) ts) (hu : ReadsAs (joinLines ms) us) :
    ReadsAs (joinLines (ls ++ ms)) (ts ++ us) := by
  by_cases hl : ls = []
  · subst hl
    rwa [ht.unique .nil]
  · by_cases hm : ms = []
    · subst hm
      rwa [hu.unique .nil, List.append_nil, List.append_nil]
    · rw [SmallLisp.joinLines_append hl hm]
      exact ht.append_blank (by decide) hu

theorem Token.ReadsAs.joinLines_cons {l : List Char} {ls : List (List Char)} {ts us : List String}
    (ht : ReadsAs l ts) (hu : ReadsAs (joinLines ls) us) :
    ReadsAs (joinLines (l :: ls)) (ts ++ us) := by
  rw [← joinLines_singleton l] at ht
  exact ht.joinLines_append hu

theorem exists_readsAs_joinLines {ls : List (List Char)} (h : ∀ l ∈ ls, ∃ ts, ReadsAs l ts) :
    ∃ ts, ReadsAs (joinLines ls) ts := by
  induction ls with
  | nil => exact ⟨[], .nil⟩
  | cons l ls ih =>
    rw [List.forall_mem_cons] at h
    obtain ⟨ts, ht⟩ := h.1
    obtain ⟨us, hu⟩ := ih h.2
    exact ⟨ts ++ us, ht.joinLines_cons hu⟩

/-- A text without carriage returns is read as its lines are. -/
theorem Text.IsLines.readsAs_of_joinLines {cs : List Char} {ls : List (List Char)}
    {ts : List String} (h : IsLines cs ls) (hr : '\r' ∉ cs) (ht : ReadsAs (joinLines ls) ts) :
    ReadsAs cs ts := by
  rcases h.eq_joinLines hr with e | e
  · rwa [e]
  · rw [e, ← List.append_nil ts]
    exact ht.append_blank (by decide) .nil

/-- If no token of a text holds a line feed, every line is read to its end, and the joined lines are
read as the text is. -/
theorem Text.IsLines.readsAs {cs : List Char} {ls : List (List Char)} {ts : List String}
    (h : IsLines cs ls) (ht : ReadsAs cs ts) (hn : ∀ t ∈ ts, '\n' ∉ t.toList) :
    (∀ l ∈ ls, ∃ us, ReadsAs l us) ∧ ReadsAs (joinLines ls) ts := by
  induction h generalizing ts with
  | nil => exact ⟨nofun, ht⟩
  | last _ _ =>
    refine ⟨List.forall_mem_singleton.2 ⟨ts, ht⟩, ?_⟩
    rwa [joinLines_singleton]
  | @line l w r ls hl hw hrest ih =>
    obtain ⟨us, vs, rfl, hu, hv⟩ := ht.exists_line hw.isBlank hn
    obtain ⟨hls, hj⟩ := ih hv fun t hm => hn t (List.mem_append_right us hm)
    exact ⟨List.forall_mem_cons.2 ⟨⟨us, hu⟩, hls⟩, hu.joinLines_cons hj⟩

/-! ## Expressions over blocks -/

theorem parenBalance_joinLines (ls : List (List Char)) :
    parenBalance (joinLines ls) = parenBalance ls.flatten := by
  induction ls with
  | nil => rfl
  | cons l ls ih =>
    by_cases h : ls = []
    · rw [h, joinLines_singleton, List.flatten_singleton]
    · have hfeed : parenBalance ('\n' :: joinLines ls) = parenBalance (joinLines ls) := by
        rw [← List.singleton_append, parenBalance_append]
        exact Int.zero_add _
      rw [joinLines_cons l h, parenBalance_append, hfeed, ih, List.flatten_cons,
        parenBalance_append]

theorem writes_blank {cs : List Char} (h : cs.all Text.isBlank = true) : Writes cs [] :=
  ⟨[], Token.readsAs_nil_iff.2 (List.all_eq_true.1 h), parseAll_nil⟩

theorem Writes.joinLines_append {ls ms : List (List Char)} {es fs : List Expr}
    (he : Writes (joinLines ls) es) (hf : Writes (joinLines ms) fs) :
    Writes (joinLines (ls ++ ms)) (es ++ fs) := by
  obtain ⟨ts, ht, hes⟩ := he
  obtain ⟨us, hu, hfs⟩ := hf
  refine ⟨ts ++ us, ht.joinLines_append hu, ?_⟩
  rw [parseAll_append hes, hfs]
  rfl

/-- Blocks that write expressions write them one after the other. -/
theorem Groups.writes {ls : List (List Char)} {bs : List (List (List Char))}
    {ess : List (List Expr)} (h : Groups ls bs)
    (hw : List.Forall₂ (fun b es => Writes (joinLines b) es) bs ess) :
    Writes (joinLines ls) ess.flatten := by
  induction h generalizing ess with
  | nil =>
    cases hw
    exact writes_blank rfl
  | @blank l ls bs hl _ ih =>
    have hblank : Writes (joinLines [l]) [] := by
      rw [joinLines_singleton]
      exact writes_blank hl
    exact hblank.joinLines_append (ih hw)
  | closed _ _ _ ih =>
    cases hw with
    | cons hb hw => exact hb.joinLines_append (ih hw)
  | unclosed _ _ =>
    cases hw with
    | cons hb hw =>
      cases hw
      rwa [List.flatten_singleton]

theorem parenBalance_of_readsAs {ls : List (List Char)} {ts : List String}
    (h : ReadsAs (joinLines ls) ts) (ho : NotQuoted '(' ts) (hc : NotQuoted ')' ts) :
    parenBalance ls.flatten = tokenBalance ts := by
  have hb := parenBalance_of_tokenize h.tokenize ho hc
  rwa [String.toList_ofList, parenBalance_joinLines] at hb

theorem IsBlock.ne_nil_of_readsAs {b : List (List Char)} {ts : List String} (h : IsBlock b)
    (hl : ∀ l ∈ b, ∃ us, ReadsAs l us) (ht : ReadsAs (joinLines b) ts) : ts ≠ [] := by
  obtain ⟨l, ls, rfl, hblank⟩ := h.starts
  rw [List.forall_mem_cons] at hl
  obtain ⟨us, hu⟩ := hl.1
  obtain ⟨vs, hv⟩ := exists_readsAs_joinLines hl.2
  rw [ht.unique (hu.joinLines_cons hv)]
  rintro e
  rw [(List.append_eq_nil_iff.1 e).1, Token.readsAs_nil_iff, ← List.all_eq_true, hblank] at hu
  cases hu

/-- If the lines are read to their ends and parentheses do not stand in quoted strings, every block
writes some of the expressions. -/
theorem Groups.exists_writes {ls : List (List Char)} {bs : List (List (List Char))}
    {ts : List String} {es : List Expr} (h : Groups ls bs) (hl : ∀ l ∈ ls, ∃ us, ReadsAs l us)
    (ht : ReadsAs (joinLines ls) ts) (ho : NotQuoted '(' ts) (hc : NotQuoted ')' ts)
    (hp : parseAll ts = .ok es) :
    ∃ ess, es = ess.flatten ∧
      List.Forall₂ (fun b fs => fs ≠ [] ∧ Writes (joinLines b) fs) bs ess := by
  induction h generalizing ts es with
  | nil =>
    obtain rfl := ht.unique .nil
    obtain rfl := Except.ok.inj (hp.symm.trans parseAll_nil)
    exact ⟨[], rfl, .nil⟩
  | @blank l ls bs hb _ ih =>
    rw [List.forall_mem_cons] at hl
    obtain ⟨us, hu⟩ := exists_readsAs_joinLines hl.2
    have hblank := Token.readsAs_nil_iff.2 (List.all_eq_true.1 hb)
    obtain rfl : ts = us := ht.unique (hblank.joinLines_cons hu)
    exact ih hl.2 hu ho hc hp
  | @closed b ls bs hb hle _ ih =>
    rw [List.forall_mem_append] at hl
    obtain ⟨us, hu⟩ := exists_readsAs_joinLines hl.1
    obtain ⟨vs, hv⟩ := exists_readsAs_joinLines hl.2
    obtain rfl := ht.unique (hu.joinLines_append hv)
    have hleft : ∀ t ∈ us, t ∈ us ++ vs := fun _ => List.mem_append_left vs
    have hright : ∀ t ∈ vs, t ∈ us ++ vs := fun _ => List.mem_append_right us
    -- The block closes what it opens, so the expressions are cut behind it.
    rw [parenBalance_of_readsAs hu (ho.mono hleft) (hc.mono hleft)] at hle
    obtain ⟨fs, gs, rfl, hfs, hgs⟩ := parseAll_split hp hle
    obtain ⟨ess, rfl, hess⟩ := ih hl.2 hv (ho.mono hright) (hc.mono hright) hgs
    have hne : fs ≠ [] := by
      rintro rfl
      exact hb.ne_nil_of_readsAs hl.1 hu (eq_nil_of_parseAll_nil hfs)
    exact ⟨fs :: ess, rfl, .cons ⟨hne, us, hu, hfs⟩ hess⟩
  | @unclosed b hb hlt =>
    rw [parenBalance_of_readsAs ht ho hc, tokenBalance_of_parseAll hp] at hlt
    exact absurd hlt (Int.lt_irrefl 0)

end SmallLisp
