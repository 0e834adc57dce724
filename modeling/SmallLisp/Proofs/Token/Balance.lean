import Mathlib.Data.List.Basic
import SmallLisp.Program.Chunk
import SmallLisp.Proofs.Token.Sequence

/-!
# Parentheses in texts and among tokens

The parentheses of a text are those of its tokens and of what is left of it
(`parenBalance_scanAll`). If no quoted string holds a parenthesis
(`Token.NotQuoted`), every one of them is a token (`Token.IsPlain`), so that a
text has the balance of its tokens (`parenBalance_of_tokenize`).
-/

namespace SmallLisp

/-- Opening less closing parentheses among tokens. -/
def tokenBalance (ts : List String) : Int := (ts.count "(" : Int) - ts.count ")"

theorem tokenBalance_append (ts us : List String) :
    tokenBalance (ts ++ us) = tokenBalance ts + tokenBalance us := by
  simp only [tokenBalance, List.count_append]
  omega

theorem tokenBalance_cons (t : String) (ts : List String) :
    tokenBalance (t :: ts) = tokenBalance [t] + tokenBalance ts := tokenBalance_append [t] ts

theorem tokenBalance_opening (ts : List String) : tokenBalance ("(" :: ts) = 1 + tokenBalance ts :=
  tokenBalance_cons "(" ts

theorem tokenBalance_of_ne {t : String} (ho : t ≠ "(") (hc : t ≠ ")") : tokenBalance [t] = 0 := by
  rw [tokenBalance, List.count_singleton, List.count_singleton, if_neg (by simpa using ho),
    if_neg (by simpa using hc)]
  rfl

theorem tokenBalance_of_not_mem {t : String} (ho : '(' ∉ t.toList) (hc : ')' ∉ t.toList) :
    tokenBalance [t] = 0 := by
  refine tokenBalance_of_ne ?_ ?_
  · rintro rfl
    exact ho (List.mem_singleton_self _)
  · rintro rfl
    exact hc (List.mem_singleton_self _)

theorem parenBalance_append (cs ds : List Char) :
    parenBalance (cs ++ ds) = parenBalance cs + parenBalance ds := by
  simp only [parenBalance, List.count_append]
  omega

theorem parenBalance_of_not_mem {cs : List Char} (ho : '(' ∉ cs) (hc : ')' ∉ cs) :
    parenBalance cs = 0 := by
  rw [parenBalance, List.count_eq_zero_of_not_mem ho, List.count_eq_zero_of_not_mem hc]
  rfl

namespace Token

/-! ## The characters of tokens -/

theorem IsDigits.isSymbolChar {ds : List Char} (h : IsDigits ds) :
    ∀ c ∈ ds, isSymbolChar c = true :=
  fun c hc => isSymbolChar_of_isDigit c (h.2 c hc)

theorem IsFraction.isSymbolChar {f : List Char} (h : IsFraction f) :
    ∀ c ∈ f, isSymbolChar c = true := by
  cases h with
  | none => nofun
  | some hd => exact List.forall_mem_cons.2 ⟨by decide, hd.isSymbolChar⟩

theorem IsSign.isSymbolChar {s : List Char} (h : IsSign s) : ∀ c ∈ s, isSymbolChar c = true := by
  cases h with
  | none => nofun
  | plus => exact List.forall_mem_singleton.2 (by decide)
  | minus => exact List.forall_mem_singleton.2 (by decide)

theorem IsExponent.isSymbolChar {x : List Char} (h : IsExponent x) :
    ∀ c ∈ x, isSymbolChar c = true := by
  cases h with
  | none => nofun
  | some he hs hd =>
    refine List.forall_mem_cons.2
      ⟨?_, List.forall_mem_append.2 ⟨hs.isSymbolChar, hd.isSymbolChar⟩⟩
    rcases he with rfl | rfl <;> decide

theorem IsUnsigned.isSymbolChar {t : List Char} (h : IsUnsigned t) :
    ∀ c ∈ t, isSymbolChar c = true := by
  obtain ⟨hw, hf, hx⟩ := h
  exact List.forall_mem_append.2
    ⟨List.forall_mem_append.2 ⟨hw.isSymbolChar, hf.isSymbolChar⟩, hx.isSymbolChar⟩

theorem IsNumber.isSymbolChar {t : List Char} (h : IsNumber t) :
    ∀ c ∈ t, isSymbolChar c = true := by
  cases h with
  | unsigned h => exact h.isSymbolChar
  | negative h => exact List.forall_mem_cons.2 ⟨by decide, h.isSymbolChar⟩

/-- Neither a parenthesis nor a quoted string: symbol characters only. -/
theorem IsToken.cases_chars {t : List Char} (h : IsToken t) :
    t = ['('] ∨ t = [')'] ∨ IsString t ∨ ∀ c ∈ t, isSymbolChar c = true := by
  cases h with
  | opening => exact .inl rfl
  | closing => exact .inr (.inl rfl)
  | number h => exact .inr (.inr (.inr h.isSymbolChar))
  | string h => exact .inr (.inr (.inl h))
  | symbol h _ => exact .inr (.inr (.inr h.2))

/-- The character stands in none of the quoted strings. -/
def NotQuoted (c : Char) (ts : List String) : Prop := ∀ t ∈ ts, IsString t.toList → c ∉ t.toList

theorem isString_iff {t : List Char} : IsString t ↔ scanString? t = some (t, []) := by
  refine ⟨fun h => ?_, isString_of_scanString?⟩
  have hs := scanString?_append h []
  rwa [List.append_nil] at hs

instance (t : List Char) : Decidable (IsString t) := decidable_of_iff' _ isString_iff

instance (c : Char) (ts : List String) : Decidable (NotQuoted c ts) :=
  inferInstanceAs (Decidable (∀ t ∈ ts, IsString t.toList → c ∉ t.toList))

theorem NotQuoted.mono {c : Char} {ts us : List String} (h : NotQuoted c us)
    (hs : ∀ t ∈ ts, t ∈ us) : NotQuoted c ts :=
  fun t ht => h t (hs t ht)

theorem IsToken.not_mem {t : List Char} {c : Char} (h : IsToken t) (hs : IsString t → c ∉ t)
    (hc : isSymbolChar c = false) (ho : t ≠ ['('] ∨ c ≠ '(') (hp : t ≠ [')'] ∨ c ≠ ')') :
    c ∉ t := by
  rcases h.cases_chars with rfl | rfl | ht | ht
  · rw [List.mem_singleton]
    exact ho.resolve_left (absurd rfl)
  · rw [List.mem_singleton]
    exact hp.resolve_left (absurd rfl)
  · exact hs ht
  · intro hm
    rw [ht c hm] at hc
    cases hc

/-- The token is a parenthesis or holds none. -/
def IsPlain (t : String) : Prop := t = "(" ∨ t = ")" ∨ '(' ∉ t.toList ∧ ')' ∉ t.toList

theorem IsToken.isPlain {t : String} (h : IsToken t.toList)
    (ho : IsString t.toList → '(' ∉ t.toList) (hc : IsString t.toList → ')' ∉ t.toList) :
    IsPlain t := by
  by_cases hto : t = "("
  · exact .inl hto
  · by_cases htc : t = ")"
    · exact .inr (.inl htc)
    · have hne {s : String} (hs : t ≠ s) : t.toList ≠ s.toList := fun e =>
        hs (String.toList_injective e)
      exact .inr (.inr ⟨h.not_mem ho (by decide) (.inl (hne hto)) (.inr (by decide)),
        h.not_mem hc (by decide) (.inr (by decide)) (.inl (hne htc))⟩)

/-! ## The balance of a text -/

theorem not_mem_takeWhile_isBlank {c : Char} (h : Text.isBlank c = false) (cs : List Char) :
    c ∉ cs.takeWhile Text.isBlank := fun hm => by
  rw [List.mem_takeWhile_imp hm] at h
  cases h

theorem parenBalance_trimStart (cs : List Char) :
    parenBalance (Text.trimStart cs) = parenBalance cs := by
  have hw := parenBalance_of_not_mem (not_mem_takeWhile_isBlank (c := '(') (by decide) cs)
    (not_mem_takeWhile_isBlank (c := ')') (by decide) cs)
  have hcut := congrArg parenBalance (@List.takeWhile_append_dropWhile _ Text.isBlank cs)
  rwa [parenBalance_append, hw, Int.zero_add] at hcut

theorem parenBalance_scanAll (cs : List Char) :
    parenBalance cs = parenBalance (scanAll cs).1.flatten + parenBalance (scanAll cs).2 := by
  fun_induction scanAll cs with
  | case1 cs hs =>
    rw [parenBalance_trimStart]
    exact (Int.zero_add _).symm
  | case2 cs t rest hs hlt ts left he ih =>
    rw [he] at ih
    rw [← parenBalance_trimStart cs, (append_of_scan? hs).1, parenBalance_append, ih,
      List.flatten_cons, parenBalance_append, Int.add_assoc]

theorem IsPlain.parenBalance {t : String} (h : IsPlain t) :
    parenBalance t.toList = tokenBalance [t] := by
  rcases h with rfl | rfl | ⟨ho, hc⟩
  · decide
  · decide
  · rw [parenBalance_of_not_mem ho hc, tokenBalance_of_not_mem ho hc]

end Token

open Token in
/-- If parentheses do not stand in quoted strings, every one of them is a token. -/
theorem parenBalance_of_tokenize {text : String} {ts : List String} (h : tokenize text = .ok ts)
    (ho : NotQuoted '(' ts) (hc : NotQuoted ')' ts) :
    parenBalance text.toList = tokenBalance ts := by
  have ht : ∀ t ∈ ts, IsToken t.toList := fun t hm =>
    tokenize_singleton_iff.1 (tokenize_of_mem h hm)
  rw [parenBalance_scanAll, tokenize_eq_ok_iff.1 h]
  show parenBalance (ts.map String.toList).flatten + 0 = _
  rw [Int.add_zero]
  clear h
  induction ts with
  | nil => rfl
  | cons t ts ih =>
    rw [List.map_cons, List.flatten_cons, parenBalance_append,
      ((ht t List.mem_cons_self).isPlain (ho t List.mem_cons_self)
        (hc t List.mem_cons_self)).parenBalance,
      ih (ho.mono fun _ => List.mem_cons_of_mem t) (hc.mono fun _ => List.mem_cons_of_mem t)
        fun u hu => ht u (List.mem_cons_of_mem t hu),
      ← tokenBalance_append, List.singleton_append]

end SmallLisp
