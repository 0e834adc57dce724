import Mathlib.Data.List.DropRight
import SmallLisp.Proofs.Token.Decomposition
import SmallLisp.Proofs.Token.Offset

/-!
# What is rejected of a text

A text that cannot be read to its end is rejected from the place where reading
stops up to the blanks before the next token (`Token.IsRejected`). What stands
before that place is read alone as it is in the whole text
(`Token.IsReading.cut`).

* `Token.exists_isRejected`, `Token.rejected_append`: of any text, `rejected` is
  what is rejected, and nothing else is;
* `tokenize_eq_error_iff`: the error of a text tells the place where reading
  stops and what is rejected there.
-/

namespace SmallLisp

/-! ## Blanks at the end -/

theorem Text.exists_trimEnd_append (cs : List Char) :
    ∃ w, cs = trimEnd cs ++ w ∧ (∀ c ∈ w, isBlank c = true) ∧
      ∀ c ∈ (trimEnd cs).getLast?, isBlank c = false := by
  refine ⟨cs.rtakeWhile isBlank, List.rdropWhile_append_rtakeWhile.symm,
    fun c => List.mem_rtakeWhile_imp, fun c hc => ?_⟩
  rw [trimEnd, List.getLast?_reverse] at hc
  exact Token.stopsAt_dropWhile isBlank cs.reverse c hc

theorem Text.trimEnd_append {cs w : List Char} (hw : ∀ c ∈ w, isBlank c = true)
    (hcs : ∀ c ∈ cs.getLast?, isBlank c = false) : trimEnd (cs ++ w) = cs := by
  have hstop : Token.StopsAt isBlank cs.reverse := by
    intro c hc
    rw [List.head?_reverse] at hc
    exact hcs c hc
  have hw' : ∀ c ∈ w.reverse, isBlank c = true := fun c hc => hw c (List.mem_reverse.1 hc)
  rw [trimEnd, List.reverse_append, Token.dropWhile_append_of_stopsAt hw' hstop,
    List.reverse_reverse]

namespace Token

variable {p : List Char → Prop} {a cs t w r rest blanks : List Char}
  {parts : List (List Char × List Char)}

/-! ## Texts that are cut -/

theorem BeginsIn.append (h : BeginsIn p cs) (r : List Char) : BeginsIn p (cs ++ r) := by
  obtain ⟨t, ht, hp⟩ := h
  exact ⟨t, ht.trans (List.prefix_append cs r), hp⟩

theorem IsLongest.of_append (h : IsLongest p (cs ++ r) t) (ht : t <+: cs) : IsLongest p cs t :=
  ⟨ht, h.mem, fun u hu => h.length_le u (hu.trans (List.prefix_append cs r))⟩

/-- A text that is cut behind its first token still begins with that token. -/
theorem IsTokenAt.of_append (h : IsTokenAt (cs ++ r) t) (ht : t <+: cs) : IsTokenAt cs t := by
  obtain ⟨k, hk, hno⟩ := h
  exact ⟨k, hk.of_append ht, fun k' hk' hb => hno k' hk' (hb.append r)⟩

/-- What has been read is read alone as the same tokens. -/
theorem IsReading.cut (h : IsReading cs blanks parts rest) :
    IsReading (blanks ++ joined parts) blanks parts [] := by
  refine ⟨by rw [List.append_nil], h.blank_before, h.blank_behind, fun before q after e => ?_⟩
  have hq := h.token_at before q after e
  have hpre : q.1 <+: joined (q :: after) := by
    obtain ⟨t, w⟩ := q
    rw [joined_cons]
    exact List.prefix_append t _
  rw [List.append_nil]
  exact hq.of_append hpre

/-! ## Where tokens begin again -/

/-- No token begins at any place of `a` when `r` follows it. -/
def NoTokenIn (a r : List Char) : Prop :=
  ∀ b d, a = b ++ d → d ≠ [] → ∀ k : TokenClass, ¬ BeginsIn k.Has (d ++ r)

/-- The text is at its end, or a token begins. -/
def Resumes (r : List Char) : Prop := r = [] ∨ ∃ t, IsTokenAt r t

theorem noTokenIn_nil (r : List Char) : NoTokenIn [] r := by
  intro b d e hd
  exact absurd (List.append_eq_nil_iff.1 e.symm).2 hd

theorem noTokenIn_cons_iff {c : Char} :
    NoTokenIn (c :: a) r ↔ scan? (c :: (a ++ r)) = none ∧ NoTokenIn a r := by
  rw [scan?_eq_none_iff]
  constructor
  · intro h
    refine ⟨h [] (c :: a) rfl (List.cons_ne_nil c a), fun b d e => ?_⟩
    exact h (c :: b) d (by rw [e, List.cons_append])
  · rintro ⟨hc, ha⟩ b d e hd
    cases b with
    | nil =>
      obtain rfl : c :: a = d := e
      exact hc
    | cons x b => exact ha b d (List.cons.inj e).2 hd

theorem noTokenIn_append_iff {b : List Char} :
    NoTokenIn (a ++ b) r ↔ NoTokenIn a (b ++ r) ∧ NoTokenIn b r := by
  induction a with
  | nil => exact (and_iff_right (noTokenIn_nil _)).symm
  | cons c a ih => rw [List.cons_append, noTokenIn_cons_iff, noTokenIn_cons_iff, ih,
      List.append_assoc, and_assoc]

theorem stopsAt_isBlank_of_scan? (h : scan? cs = some (t, r)) : StopsAt Text.isBlank cs := by
  obtain ⟨rfl, ht⟩ := scan?_eq_some_iff.1 h
  exact ht.stopsAt_isBlank

theorem scan?_blank {c : Char} (h : Text.isBlank c = true) (cs : List Char) :
    scan? (c :: cs) = none := by
  refine Option.eq_none_iff_forall_ne_some.2 fun q hq => ?_
  have hc := stopsAt_isBlank_of_scan? (t := q.1) (r := q.2) hq c rfl
  rw [h] at hc
  cases hc

theorem noTokenIn_of_blank (hw : ∀ c ∈ w, Text.isBlank c = true) (r : List Char) :
    NoTokenIn w r := by
  induction w with
  | nil => exact noTokenIn_nil r
  | cons c w ih =>
    rw [List.forall_mem_cons] at hw
    exact noTokenIn_cons_iff.2 ⟨scan?_blank hw.1 _, ih hw.2⟩

theorem resumes_iff : Resumes r ↔ r = [] ∨ (scan? r).isSome = true := by
  refine or_congr_right ?_
  rw [Option.isSome_iff_exists]
  constructor
  · rintro ⟨t, ht⟩
    obtain ⟨k, hk, hno⟩ := ht
    obtain ⟨r', rfl⟩ := hk.begins
    exact ⟨_, scan?_eq_some_iff.2 ⟨rfl, k, hk, hno⟩⟩
  · rintro ⟨⟨t, r'⟩, hs⟩
    exact ⟨t, (scan?_eq_some_iff.1 hs).2⟩

/-- The text up to the next token is all that stands before a place where a token begins, or before
the end. -/
theorem untilToken_spec (cs : List Char) :
    ∃ r, cs = untilToken cs ++ r ∧ NoTokenIn (untilToken cs) r ∧ Resumes r := by
  fun_induction untilToken cs with
  | case1 => exact ⟨[], rfl, noTokenIn_nil _, .inl rfl⟩
  | case2 c cs hs => exact ⟨c :: cs, rfl, noTokenIn_nil _, resumes_iff.2 (.inr hs)⟩
  | case3 c cs hs ih =>
    obtain ⟨r, e, hno, hr⟩ := ih
    refine ⟨r, by rw [List.cons_append, ← e], noTokenIn_cons_iff.2 ⟨?_, hno⟩, hr⟩
    rw [← e]
    exact Option.not_isSome_iff_eq_none.1 hs

theorem untilToken_append (ha : NoTokenIn a r) (hr : Resumes r) : untilToken (a ++ r) = a := by
  induction a with
  | nil =>
    rcases resumes_iff.1 hr with rfl | hs
    · rfl
    · cases r with
      | nil => rfl
      | cons c r => rw [List.nil_append, untilToken, if_pos hs]
  | cons c a ih =>
    obtain ⟨hc, ha⟩ := noTokenIn_cons_iff.1 ha
    rw [List.cons_append, untilToken, if_neg (by rw [hc]; decide), ih ha]

/-! ## The rejected text -/

/-- `found` is rejected in front of `after`: it has no blanks around it, no token begins in it, and
behind it, or behind blanks, a token begins or the text ends. -/
structure IsRejected (found after : List Char) : Prop where
  ne_nil : found ≠ []
  no_blank_first : ∀ c ∈ found.head?, Text.isBlank c = false
  no_blank_last : ∀ c ∈ found.getLast?, Text.isBlank c = false
  no_token : NoTokenIn found after
  resumes : ∃ w r, after = w ++ r ∧ (∀ c ∈ w, Text.isBlank c = true) ∧ Resumes r

theorem IsRejected.ends {found after : List Char} (h : IsRejected found after) :
    Ends (found ++ after) := by
  obtain ⟨c, f, rfl⟩ := List.exists_cons_of_ne_nil h.ne_nil
  exact ⟨stopsAt_cons (h.no_blank_first c rfl) _, (noTokenIn_cons_iff.1 h.no_token).1⟩

theorem rejected_eq_trimEnd (h : scan? cs = none) : rejected cs = Text.trimEnd (untilToken cs) := by
  cases cs with
  | nil => rfl
  | cons c cs => rw [rejected, untilToken, if_neg (by rw [h]; decide)]

theorem rejected_ne_nil (h : Ends cs) (hne : cs ≠ []) : rejected cs ≠ [] := by
  obtain ⟨c, cs, rfl⟩ := List.exists_cons_of_ne_nil hne
  intro hnil
  have hc := List.rdropWhile_eq_nil_iff.1 hnil c List.mem_cons_self
  rw [h.1 c rfl] at hc
  cases hc

/-- Where nothing can be read on, a text is rejected. -/
theorem exists_isRejected (h : Ends cs) (hne : cs ≠ []) :
    ∃ after, cs = rejected cs ++ after ∧ IsRejected (rejected cs) after := by
  obtain ⟨r, hr, hno, hres⟩ := untilToken_spec cs
  obtain ⟨w, hw, hblank, hlast⟩ := Text.exists_trimEnd_append (untilToken cs)
  rw [← rejected_eq_trimEnd h.2] at hw hlast
  rw [hw, List.append_assoc] at hr
  rw [hw, noTokenIn_append_iff] at hno
  have hfirst : ∀ c ∈ (rejected cs).head?, Text.isBlank c = false := by
    intro c hc
    refine h.1 c ?_
    rw [hr]
    exact List.mem_head?_append_of_mem_head? hc
  exact ⟨w ++ r, hr, rejected_ne_nil h hne, hfirst, hlast, hno.1, w, r, rfl, hblank, hres⟩

theorem rejected_append {found after : List Char} (h : IsRejected found after) :
    rejected (found ++ after) = found := by
  obtain ⟨w, r, rfl, hw, hr⟩ := h.resumes
  have hno : NoTokenIn (found ++ w) r :=
    noTokenIn_append_iff.2 ⟨h.no_token, noTokenIn_of_blank hw r⟩
  rw [rejected_eq_trimEnd h.ends.2, ← List.append_assoc, untilToken_append hno hr,
    Text.trimEnd_append hw h.no_blank_last]

end Token

/-- An error tells where a text is read no further and what is rejected there. The text before that
place is read to its end, as the tokens that have been read in the whole text. -/
structure TokenError.Tells (e : TokenError) (text before after : String) : Prop where
  text_eq : text = before ++ e.found ++ after
  offset_eq : e.offset = before.utf8ByteSize
  read_before : ∃ ts blanks parts, tokenize before = .ok ts ∧
    Token.IsReading text.toList blanks parts (e.found ++ after).toList ∧
    parts.map Prod.fst = ts.map String.toList
  rejected : Token.IsRejected e.found.toList after.toList

namespace Token.IsReading

variable {text : String} {blanks rest : List Char} {parts : List (List Char × List Char)}

/-- What stands before the rest of a reading. -/
theorem text_eq_append (h : IsReading text.toList blanks parts rest) :
    text = String.ofList (blanks ++ joined parts) ++ String.ofList rest := by
  rw [← String.ofList_append, List.append_assoc, ← h.text_eq, String.ofList_toList]

theorem tokenize_cut (h : IsReading text.toList blanks parts rest) :
    tokenize (String.ofList (blanks ++ joined parts)) =
      .ok ((parts.map Prod.fst).map String.ofList) := by
  rw [tokenize_eq_ok_iff, String.toList_ofList, scanAll_eq_iff ends_nil, Text.map_toList_ofList]
  exact ⟨blanks, parts, h.cut, rfl⟩

/-- Where a reading ends before the text does, the text is rejected. -/
theorem tokenize_eq_error (h : IsReading text.toList blanks parts rest) (he : Ends rest)
    (hne : rest ≠ []) :
    tokenize text = .error ⟨(String.ofList (blanks ++ joined parts)).utf8ByteSize,
      String.ofList (rejected rest)⟩ := by
  obtain ⟨c, left, rfl⟩ := List.exists_cons_of_ne_nil hne
  have hsize : text.utf8ByteSize - Text.utf8Length (c :: left) =
      (String.ofList (blanks ++ joined parts)).utf8ByteSize := by
    rw [h.text_eq_append, String.utf8ByteSize_append, Text.utf8Length_ofList, Nat.add_sub_cancel]
  rw [tokenize_of_scanAll ((scanAll_eq_iff he).2 ⟨blanks, parts, h, rfl⟩), hsize]

end Token.IsReading

theorem exists_tells_of_tokenize {text : String} {e : TokenError} (h : tokenize text = .error e) :
    ∃ before after, e.Tells text before after := by
  obtain ⟨ts, c, left, hs⟩ := exists_tokenize_eq_error_iff.1 ⟨e, h⟩
  have hends := (Token.exists_isReading text.toList).1
  rw [hs] at hends
  obtain ⟨blanks, parts, hr, -⟩ := (Token.scanAll_eq_iff hends).1 hs
  have hne : c :: left ≠ [] := List.cons_ne_nil c left
  obtain ⟨after, hafter, hrej⟩ := Token.exists_isRejected hends hne
  obtain rfl := Except.error.inj ((hr.tokenize_eq_error hends hne).symm.trans h)
  have hrest : (String.ofList (Token.rejected (c :: left)) ++ String.ofList after).toList =
      c :: left := by
    rw [← String.ofList_append, String.toList_ofList, ← hafter]
  refine ⟨String.ofList (blanks ++ Token.joined parts), String.ofList after, ?_, rfl,
    ⟨_, blanks, parts, hr.tokenize_cut, by rwa [hrest], (Text.map_toList_ofList _).symm⟩, ?_⟩
  · rw [String.append_assoc, ← String.ofList_append, ← hafter, ← hr.text_eq_append]
  · rwa [String.toList_ofList, String.toList_ofList]

theorem TokenError.Tells.tokenize {text before after : String} {e : TokenError}
    (h : e.Tells text before after) : tokenize text = .error e := by
  obtain ⟨-, blanks, parts, -, hr, -⟩ := h.read_before
  have hends := h.rejected.ends
  rw [← String.toList_append] at hends
  have hne : (e.found ++ after).toList ≠ [] := by
    rw [String.toList_append]
    exact List.append_ne_nil_of_left_ne_nil h.rejected.ne_nil _
  have hbefore : String.ofList (blanks ++ Token.joined parts) = before := by
    have ht := hr.text_eq_append
    rw [String.ofList_toList] at ht
    exact String.append_left_inj _ |>.1 (ht.symm.trans (h.text_eq.trans (String.append_assoc ..)))
  rw [hr.tokenize_eq_error hends hne, hbefore, String.toList_append,
    Token.rejected_append h.rejected, String.ofList_toList, ← h.offset_eq]

/-- A text cannot be read just if there is a place where it is read no further, and the error is
what tells it. -/
theorem tokenize_eq_error_iff (text : String) (e : TokenError) :
    (tokenize text = .error e ↔ ∃ before after, e.Tells text before after) ∧
      e.message = "invalid character sequence: " ++ e.found :=
  ⟨⟨exists_tells_of_tokenize, fun ⟨_, _, h⟩ => h.tokenize⟩, rfl⟩

example : tokenize "\"í\" é# \"a\\\"" = .error ⟨5, "é# \""⟩ := by decide +kernel

end SmallLisp
