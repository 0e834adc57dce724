import Mathlib.Data.List.Basic
import SmallLisp.Proofs.Token.Sequence

/-!
# Texts that go on

What is cut off a text stays the same when the text goes on with what ends
numbers and symbols (`scan?_append_left`), and only a quoted string can begin in
a text where nothing could be cut off before (`isString_of_scan?_append`). So a
text that is read to its end is read as the same tokens before any such
continuation (`readsAs_iff`), and a text can be read line by line if no token
holds a line feed (`ReadsAs.exists_line`).
-/

namespace SmallLisp.Token

variable {p : Char → Bool} {r t rest : List Char}

/-! ## Runs of characters -/

theorem takeWhile_append_left (hr : StopsAt p r) (cs : List Char) :
    (cs ++ r).takeWhile p = cs.takeWhile p := by
  induction cs with
  | nil => exact stopsAt_iff_takeWhile.1 hr
  | cons c cs ih => rw [List.cons_append, List.takeWhile_cons, List.takeWhile_cons, ih]

theorem dropWhile_append_left (hr : StopsAt p r) (cs : List Char) :
    (cs ++ r).dropWhile p = cs.dropWhile p ++ r := by
  induction cs with
  | nil => exact dropWhile_append_of_stopsAt (w := []) nofun hr
  | cons c cs ih =>
    rw [List.cons_append, List.dropWhile_cons, List.dropWhile_cons, ih]
    split <;> rfl

/-- A part that is cut off, and the rest gone on with `r`. -/
def goOn (r : List Char) (part : List Char × List Char) : List Char × List Char :=
  (part.1, part.2 ++ r)

theorem spanDigits_append_left (hr : Stops r) (cs : List Char) :
    spanDigits (cs ++ r) = goOn r (spanDigits cs) := by
  rw [spanDigits, takeWhile_append_left hr.stopsAt_isDigit,
    dropWhile_append_left hr.stopsAt_isDigit]
  rfl

theorem spanFraction_of_stopsAt {cs : List Char} (h : StopsAt (· = '.') cs) :
    spanFraction cs = ([], cs) := by
  unfold spanFraction
  split
  · exact absurd (h '.' rfl) (by decide)
  · rfl

theorem Stops.stopsAt_eq {c : Char} (hr : Stops r) (hc : isSymbolChar c = true) :
    StopsAt (· = c) r :=
  hr.mono fun d hd => by rw [of_decide_eq_true hd, hc]

theorem spanFraction_append_left (hr : Stops r) (cs : List Char) :
    spanFraction (cs ++ r) = goOn r (spanFraction cs) := by
  have hp : StopsAt (· = '.') r := hr.stopsAt_eq (by decide)
  cases cs with
  | nil => exact spanFraction_of_stopsAt hp
  | cons c cs =>
    by_cases hc : c = '.'
    · subst hc
      rw [List.cons_append, spanFraction, spanFraction, spanDigits_append_left hr]
      by_cases hd : (spanDigits cs).1 = []
      · simp only [goOn, hd, if_true, List.cons_append]
      · simp only [goOn, hd, if_false]
    · have hs (a : List Char) : StopsAt (· = '.') (c :: a) := stopsAt_cons (decide_eq_false hc) a
      rw [List.cons_append, spanFraction_of_stopsAt (hs _), spanFraction_of_stopsAt (hs _)]
      rfl

theorem spanSign_of_stopsAt {cs : List Char} (h : StopsAt (fun c => c = '+' || c = '-') cs) :
    spanSign cs = ([], cs) :=
  spanSign_append .none h

theorem spanSign_append_left (hr : Stops r) (cs : List Char) :
    spanSign (cs ++ r) = goOn r (spanSign cs) := by
  cases cs with
  | nil =>
    refine spanSign_of_stopsAt (hr.mono fun c hc => ?_)
    rcases Bool.or_eq_true_iff.1 hc with hc | hc <;> (rw [of_decide_eq_true hc]; decide)
  | cons c cs =>
    by_cases hp : c = '+'
    · subst hp
      rfl
    · by_cases hm : c = '-'
      · subst hm
        rfl
      · have hs (a : List Char) : StopsAt (fun c => c = '+' || c = '-') (c :: a) :=
          stopsAt_cons (by simp [hp, hm]) a
        rw [List.cons_append, spanSign_of_stopsAt (hs _), spanSign_of_stopsAt (hs _)]
        rfl

theorem spanExponent_append_left (hr : Stops r) (cs : List Char) :
    spanExponent (cs ++ r) = goOn r (spanExponent cs) := by
  cases cs with
  | nil => exact spanExponent_append .none hr
  | cons c cs =>
    rw [List.cons_append, spanExponent, spanExponent, spanSign_append_left hr]
    simp only [goOn, spanDigits_append_left hr]
    split <;> rfl

theorem scanUnsigned?_append_left (hr : Stops r) (cs : List Char) :
    scanUnsigned? (cs ++ r) = (scanUnsigned? cs).map (goOn r) := by
  rw [scanUnsigned?, scanUnsigned?, spanDigits_append_left hr]
  simp only [goOn, spanFraction_append_left hr, spanExponent_append_left hr]
  split <;> rfl

theorem scanNumber?_append_left {cs : List Char} (hcs : cs ≠ []) (hr : Stops r) :
    scanNumber? (cs ++ r) = (scanNumber? cs).map (goOn r) := by
  obtain ⟨c, cs, rfl⟩ := List.exists_cons_of_ne_nil hcs
  by_cases hc : c = '-'
  · subst hc
    rw [List.cons_append, scanNumber?, scanNumber?, scanUnsigned?_append_left hr,
      Option.map_map, Option.map_map]
    rfl
  · have hs (a : List Char) : scanNumber? (c :: a) = scanUnsigned? (c :: a) := by
      rw [scanNumber?.eq_def]
      split
      · rename_i e
        exact absurd (List.cons.inj e).1 hc
      · rfl
    rw [List.cons_append, hs, hs, ← List.cons_append, scanUnsigned?_append_left hr]

theorem scanSymbol?_append_left (hr : Stops r) (cs : List Char) :
    scanSymbol? (cs ++ r) = (scanSymbol? cs).map (goOn r) := by
  rw [scanSymbol?, scanSymbol?, takeWhile_append_left hr, dropWhile_append_left hr]
  split <;> rfl

theorem scanParen?_append_left {cs : List Char} (hcs : cs ≠ []) (r : List Char) :
    scanParen? (cs ++ r) = (scanParen? cs).map (goOn r) := by
  obtain ⟨c, cs, rfl⟩ := List.exists_cons_of_ne_nil hcs
  by_cases ho : c = '('
  · subst ho
    rfl
  · by_cases hc : c = ')'
    · subst hc
      rfl
    · rw [List.cons_append, scanParen?_cons ho hc, scanParen?_cons ho hc]
      rfl

theorem scanString?_append_left {cs : List Char} (h : scanString? cs = some (t, rest))
    (r : List Char) : scanString? (cs ++ r) = some (t, rest ++ r) := by
  rw [(append_of_scanString? h).1, List.append_assoc]
  exact scanString?_append (isString_of_scanString? h) (rest ++ r)

/-! ## Tokens -/

theorem ne_nil_of_scan? {cs : List Char} (h : scan? cs = some (t, rest)) : cs ≠ [] := by
  rintro rfl
  cases h

/-- What is cut off a text does not depend on how the text goes on behind the end of numbers and
symbols. -/
theorem scan?_append_left {cs : List Char} (h : scan? cs = some (t, rest)) (hr : Stops r) :
    scan? (cs ++ r) = some (t, rest ++ r) := by
  have hcs := ne_nil_of_scan? h
  simp only [scan?, Option.orElse_eq_orElse, Option.orElse_eq_or, Option.or_eq_some_iff] at h ⊢
  rw [scanParen?_append_left hcs, scanNumber?_append_left hcs hr, scanSymbol?_append_left hr]
  rcases h with h | ⟨hp, h | ⟨hn, h | ⟨hq, h⟩⟩⟩
  · rw [h]
    exact .inl rfl
  · rw [hp, h]
    exact .inr ⟨rfl, .inl rfl⟩
  · rw [hp, hn]
    exact .inr ⟨rfl, .inr ⟨rfl, .inl (scanString?_append_left h r)⟩⟩
  · obtain ⟨c, u, rfl, hc⟩ := (isSymbol_of_scanSymbol? h).exists_cons
    have hq' : scanString? (cs ++ r) = none := by
      rw [(append_of_scanSymbol? h).1]
      exact scanString?_of_isSymbolChar hc _
    rw [hp, hn, hq', h]
    exact .inr ⟨rfl, .inr ⟨rfl, .inr ⟨rfl, rfl⟩⟩⟩

/-- Where no token begins, none begins when the text goes on, unless it is a quoted string that does
not end before. -/
theorem isString_of_scan?_append {cs : List Char} (hcs : cs ≠ []) (hr : Stops r)
    (hn : scan? cs = none) (h : scan? (cs ++ r) = some (t, rest)) :
    IsString t ∧ cs.length < t.length := by
  simp only [scan?, Option.orElse_eq_orElse, Option.orElse_eq_or, Option.or_eq_none_iff,
    Option.or_eq_some_iff] at hn h
  obtain ⟨hp, hnum, hstr, hsym⟩ := hn
  rw [scanParen?_append_left hcs, scanNumber?_append_left hcs hr, scanSymbol?_append_left hr, hp,
    hnum, hsym] at h
  rcases h with h | ⟨-, h | ⟨-, h | ⟨-, h⟩⟩⟩
  · cases h
  · cases h
  · have ht := isString_of_scanString? h
    refine ⟨ht, Nat.lt_of_not_le fun hle => ?_⟩
    -- A string that ends in the text could have been cut off it.
    obtain ⟨u, rfl⟩ : t <+: cs :=
      List.prefix_of_prefix_length_le ⟨rest, (append_of_scanString? h).1.symm⟩ ⟨r, rfl⟩ hle
    rw [scanString?_append ht u] at hstr
    cases hstr
  · cases h

/-! ## Texts read to their end -/

theorem trimStart_append {cs : List Char} (h : Text.trimStart cs ≠ []) (r : List Char) :
    Text.trimStart (cs ++ r) = Text.trimStart cs ++ r := by
  unfold Text.trimStart at h ⊢
  rw [List.dropWhile_append, if_neg (by rwa [List.isEmpty_iff])]

theorem scanAll_append_of_blank {w : List Char} (h : ∀ c ∈ w, Text.isBlank c = true)
    (r : List Char) : scanAll (w ++ r) = scanAll r := by
  induction w with
  | nil => rfl
  | cons c w ih =>
    rw [List.forall_mem_cons] at h
    rw [List.cons_append, scanAll_blank h.1, ih h.2]

theorem isBlank_of_trimStart {cs : List Char} (h : Text.trimStart cs = []) :
    ∀ c ∈ cs, Text.isBlank c = true :=
  List.dropWhile_eq_nil_iff.1 h

theorem scanAll_append_of_scan? {cs : List Char} (h : scan? (Text.trimStart cs) = some (t, rest))
    (hr : Stops r) :
    scanAll (cs ++ r) = (t :: (scanAll (rest ++ r)).1, (scanAll (rest ++ r)).2) := by
  refine scanAll_cons ?_
  rw [trimStart_append (ne_nil_of_scan? h), scan?_append_left h hr]

theorem scanAll_append_left {cs : List Char} (h : (scanAll cs).2 = []) (hr : Stops r) :
    scanAll (cs ++ r) = ((scanAll cs).1 ++ (scanAll r).1, (scanAll r).2) := by
  fun_induction scanAll cs with
  | case1 cs hs => exact scanAll_append_of_blank (isBlank_of_trimStart h) r
  | case2 cs t rest hs hlt ts left he ih =>
    rw [he] at ih
    rw [scanAll_append_of_scan? hs hr, ih h]
    rfl

/-- A text is read as tokens before every end of tokens just if it is read so alone. -/
theorem readsAs_iff {cs : List Char} {ts : List String} :
    ReadsAs cs ts ↔ tokenize (String.ofList cs) = .ok ts := by
  refine ⟨ReadsAs.tokenize, fun h r hr => ?_⟩
  rw [tokenize_eq_ok_iff, String.toList_ofList] at h
  rw [scanAll_append_left (by rw [h]) hr, h]

theorem exists_readsAs_iff {cs : List Char} : (∃ ts, ReadsAs cs ts) ↔ (scanAll cs).2 = [] := by
  constructor
  · rintro ⟨ts, h⟩
    rw [readsAs_iff, tokenize_eq_ok_iff, String.toList_ofList] at h
    rw [h]
  · intro h
    refine ⟨(scanAll cs).1.map String.ofList, fun r hr => ?_⟩
    rw [scanAll_append_left h hr, Text.map_toList_ofList]

theorem ReadsAs.unique {cs : List Char} {ts us : List String} (ht : ReadsAs cs ts)
    (hu : ReadsAs cs us) : ts = us :=
  Except.ok.inj (ht.tokenize.symm.trans hu.tokenize)

theorem readsAs_nil_iff {cs : List Char} : ReadsAs cs [] ↔ ∀ c ∈ cs, Text.isBlank c = true := by
  refine ⟨fun h => ?_, fun h r _ => scanAll_append_of_blank h r⟩
  have hs := tokenize_eq_ok_iff.1 h.tokenize
  rw [String.toList_ofList, scanAll] at hs
  split at hs
  · exact isBlank_of_trimStart (Prod.mk.inj hs).2
  · cases (Prod.mk.inj hs).1

/-! ## Reading line by line -/

theorem IsQuoted.getLast? {t : List Char} (h : IsQuoted t) : t.getLast? = some '"' := by
  induction h with
  | close => rfl
  | @escape c t h ih =>
    cases t with
    | nil => cases h
    | cons d t => rw [List.getLast?_cons_cons, List.getLast?_cons_cons, ih]
  | @char c t _ _ h ih =>
    cases t with
    | nil => cases h
    | cons d t => rw [List.getLast?_cons_cons, ih]

theorem IsString.getLast? {t : List Char} (h : IsString t) : t.getLast? = some '"' := by
  obtain ⟨cs, rfl, hq⟩ := h
  cases cs with
  | nil => cases hq
  | cons c cs => rw [List.getLast?_cons_cons, hq.getLast?]

/-- A string that is longer than a part of the line where it begins goes on behind the line. -/
theorem IsString.mem_of_lt {a w : List Char} (h : IsString t)
    (hw : ∀ c ∈ w, Text.isBlank c = true) (he : a ++ (w ++ '\n' :: r) = t ++ rest)
    (hlt : a.length < t.length) : '\n' ∈ t := by
  obtain ⟨u, rfl⟩ : a <+: t :=
    List.prefix_of_prefix_length_le ⟨w ++ '\n' :: r, rfl⟩ ⟨rest, he.symm⟩ hlt.le
  rw [List.length_append] at hlt
  rw [List.append_assoc, List.append_cancel_left_eq] at he
  have hu : u ≠ [] := List.ne_nil_of_length_pos (by omega)
  have hq : '"' ∈ u := by
    have hl := h.getLast?
    rw [List.getLast?_append_of_ne_nil a hu] at hl
    exact List.mem_of_getLast? hl
  have hqw : '"' ∉ w := fun hm => absurd (hw _ hm) (by decide)
  refine List.mem_append_right a ?_
  rcases List.append_eq_append_iff.1 he with ⟨v, rfl, hv⟩ | ⟨v, rfl, -⟩
  · cases v with
    | nil =>
      rw [List.append_nil] at hq
      exact absurd hq hqw
    | cons d v =>
      rw [(List.cons.inj hv).1]
      exact List.mem_append_right w List.mem_cons_self
  · exact absurd (List.mem_append_left v hq) hqw

variable {l w : List Char}

/-- Blanks end numbers and symbols, if there are any. -/
theorem stops_append_of_blank (hw : ∀ c ∈ w, Text.isBlank c = true) (hr : w = [] → Stops r) :
    Stops (w ++ r) := by
  cases w with
  | nil => exact hr rfl
  | cons c w => exact stops_of_isBlank (hw c List.mem_cons_self) _

theorem stops_lineEnd (hw : ∀ c ∈ w, Text.isBlank c = true) (r : List Char) :
    Stops (w ++ '\n' :: r) :=
  stops_append_of_blank hw fun _ => stops_of_isBlank (by decide) r

/-- If no token of a text holds a line feed, the first line is read to its end. -/
theorem scanAll_line (hw : ∀ c ∈ w, Text.isBlank c = true)
    (h : (scanAll (l ++ (w ++ '\n' :: r))).2 = [])
    (hn : ∀ t ∈ (scanAll (l ++ (w ++ '\n' :: r))).1, '\n' ∉ t) : (scanAll l).2 = [] := by
  have hr := stops_lineEnd hw r
  fun_induction scanAll l with
  | case1 l hs =>
    by_contra hne
    have hx := trimStart_append hne (w ++ '\n' :: r)
    cases hs' : scan? (Text.trimStart (l ++ (w ++ '\n' :: r))) with
    | none =>
      rw [scanAll_none hs', hx, List.append_eq_nil_iff] at h
      exact hne h.1
    | some q =>
      obtain ⟨t, rest⟩ := q
      rw [scanAll_cons hs'] at hn
      rw [hx] at hs'
      obtain ⟨ht, hlt⟩ := isString_of_scan?_append hne hr hs hs'
      exact hn t List.mem_cons_self (ht.mem_of_lt hw (append_of_scan? hs').1 hlt)
  | case2 l t rest hs hlt ts left he ih =>
    rw [he] at ih
    rw [scanAll_append_of_scan? hs hr] at h hn
    exact ih h fun u hu => hn u (List.mem_cons_of_mem _ hu)

theorem ReadsAs.append_lineEnd {us vs : List String} (hw : ∀ c ∈ w, Text.isBlank c = true)
    (hu : ReadsAs l us) (hv : ReadsAs r vs) : ReadsAs (l ++ (w ++ '\n' :: r)) (us ++ vs) := by
  intro r' hr'
  rw [List.append_assoc, List.append_assoc, List.cons_append, hu _ (stops_lineEnd hw _),
    scanAll_append_of_blank hw, scanAll_blank (by decide), hv r' hr', List.map_append,
    List.append_assoc]

/-- If no token of a text holds a line feed, the text is read line by line. -/
theorem ReadsAs.exists_line {ts : List String} (hw : ∀ c ∈ w, Text.isBlank c = true)
    (h : ReadsAs (l ++ (w ++ '\n' :: r)) ts) (hn : ∀ t ∈ ts, '\n' ∉ t.toList) :
    ∃ us vs, ts = us ++ vs ∧ ReadsAs l us ∧ ReadsAs r vs := by
  have hs := tokenize_eq_ok_iff.1 h.tokenize
  rw [String.toList_ofList] at hs
  have hl : (scanAll l).2 = [] := by
    refine scanAll_line hw (by rw [hs]) ?_
    rw [hs]
    exact List.forall_mem_map.2 hn
  obtain ⟨us, hu⟩ := exists_readsAs_iff.2 hl
  have hend := hu _ (stops_lineEnd hw r)
  rw [hs, scanAll_append_of_blank hw, scanAll_blank (by decide)] at hend
  obtain ⟨vs, hv⟩ := exists_readsAs_iff.2 (Prod.mk.inj hend).2.symm
  exact ⟨us, vs, h.unique (hu.append_lineEnd hw hv), hu, hv⟩

end SmallLisp.Token
