import Mathlib.Data.Set.Subsingleton
import SmallLisp.Proofs.Token.Longest
import SmallLisp.Proofs.Token.Sequence

/-!
# Texts as blanks and tokens

`IsReading`: a text is blanks, then tokens with blanks behind each of them, then
a rest. Every token is the one that the text begins with at its place. Reading
goes on until nothing can be read on (`Ends`), and up to there it goes in one
way only (`IsReading.unique`).

* `tokenize_decomposes`: the tokens of a text are those of its only reading to
  the end, and there are none just where reading ends before a character that
  is not blank and begins no token.
-/

namespace SmallLisp

namespace Token

/-- Tokens, each with the blanks behind it, one after the other. -/
def joined (parts : List (List Char × List Char)) : List Char := parts.flatMap fun p => p.1 ++ p.2

/-- The text is blanks, tokens with the blanks behind each of them, and a rest. -/
structure IsReading (cs blanks : List Char) (parts : List (List Char × List Char))
    (rest : List Char) : Prop where
  text_eq : cs = blanks ++ (joined parts ++ rest)
  blank_before : ∀ c ∈ blanks, Text.isBlank c = true
  blank_behind : ∀ p ∈ parts, ∀ c ∈ p.2, Text.isBlank c = true
  token_at : ∀ before p after, parts = before ++ p :: after →
    IsTokenAt (joined (p :: after) ++ rest) p.1

/-- Nothing can be read on: there is neither a blank nor a token. -/
def Ends (rest : List Char) : Prop := StopsAt Text.isBlank rest ∧ scan? rest = none

variable {cs t w blanks blanks' rest rest' : List Char}
  {parts parts' : List (List Char × List Char)}

/-! ## Reading token by token -/

theorem joined_cons (t w : List Char) (parts : List (List Char × List Char)) :
    joined ((t, w) :: parts) = t ++ (w ++ joined parts) := by
  rw [joined, List.flatMap_cons, List.append_assoc]
  rfl

theorem isReading_nil_iff :
    IsReading cs blanks [] rest ↔ cs = blanks ++ rest ∧ ∀ c ∈ blanks, Text.isBlank c = true := by
  constructor
  · exact fun h => ⟨h.text_eq, h.blank_before⟩
  · rintro ⟨e, hb⟩
    refine ⟨e, hb, nofun, fun before p after h => ?_⟩
    exact absurd h.symm (List.append_ne_nil_of_right_ne_nil before (List.cons_ne_nil p after))

/-- Behind the first token a reading is one of the text behind it. -/
theorem isReading_cons_iff :
    IsReading cs blanks ((t, w) :: parts) rest ↔
      ∃ r, cs = blanks ++ (t ++ r) ∧ (∀ c ∈ blanks, Text.isBlank c = true) ∧
        IsTokenAt (t ++ r) t ∧ IsReading r w parts rest := by
  constructor
  · intro h
    have hb := List.forall_mem_cons.1 h.blank_behind
    have ht := h.token_at [] (t, w) parts rfl
    rw [joined_cons, List.append_assoc, List.append_assoc] at ht
    refine ⟨w ++ (joined parts ++ rest), ?_, h.blank_before, ht, rfl, hb.1, hb.2, ?_⟩
    · rw [h.text_eq, joined_cons, List.append_assoc, List.append_assoc]
    · intro before p after e
      exact h.token_at ((t, w) :: before) p after (by rw [e, List.cons_append])
  · rintro ⟨r, rfl, hb, ht, h⟩
    refine ⟨?_, hb, List.forall_mem_cons.2 ⟨h.blank_before, h.blank_behind⟩, ?_⟩
    · rw [h.text_eq, joined_cons, List.append_assoc, List.append_assoc]
    · intro before p after e
      cases before with
      | nil =>
        obtain ⟨rfl, rfl⟩ := List.cons.inj e
        rwa [joined_cons, List.append_assoc, List.append_assoc, ← h.text_eq]
      | cons q before => exact h.token_at before p after (List.cons.inj e).2

/-! ## One reading of every text -/

/-- Every text is read until nothing can be read on. -/
theorem exists_isReading (cs : List Char) :
    Ends (scanAll cs).2 ∧
      ∃ blanks parts, IsReading cs blanks parts (scanAll cs).2 ∧
        parts.map Prod.fst = (scanAll cs).1 := by
  have hsplit (cs : List Char) : cs = cs.takeWhile Text.isBlank ++ Text.trimStart cs :=
    List.takeWhile_append_dropWhile.symm
  have hblank (cs : List Char) : ∀ c ∈ cs.takeWhile Text.isBlank, Text.isBlank c = true :=
    fun c hc => List.mem_takeWhile_imp hc
  fun_induction scanAll cs with
  | case1 cs hn =>
    refine ⟨⟨stopsAt_dropWhile _ cs, hn⟩, cs.takeWhile Text.isBlank, [], ?_, rfl⟩
    exact isReading_nil_iff.2 ⟨hsplit cs, hblank cs⟩
  | case2 cs t r hs hlt ts left he ih =>
    rw [he] at ih
    obtain ⟨hend, w, parts, hr, hts⟩ := ih
    obtain ⟨e, ht⟩ := scan?_eq_some_iff.1 hs
    refine ⟨hend, cs.takeWhile Text.isBlank, (t, w) :: parts, ?_, by rw [List.map_cons, hts]⟩
    refine isReading_cons_iff.2 ⟨r, ?_, hblank cs, ?_, hr⟩
    · rw [← e]
      exact hsplit cs
    · rwa [← e]

/-- Blanks are the same if the same text goes on behind them without a blank. -/
theorem blanks_unique {b b' r r' : List Char} (hb : ∀ c ∈ b, Text.isBlank c = true)
    (hb' : ∀ c ∈ b', Text.isBlank c = true) (hr : StopsAt Text.isBlank r)
    (hr' : StopsAt Text.isBlank r') (e : b ++ r = b' ++ r') : b = b' ∧ r = r' := by
  have ht := takeWhile_append_of_stopsAt hb hr
  have hd := dropWhile_append_of_stopsAt hb hr
  rw [e] at ht hd
  exact ⟨ht.symm.trans (takeWhile_append_of_stopsAt hb' hr'),
    hd.symm.trans (dropWhile_append_of_stopsAt hb' hr')⟩

theorem IsTokenAt.stopsAt_isBlank {r : List Char} (h : IsTokenAt (t ++ r) t) :
    StopsAt Text.isBlank (t ++ r) := by
  have ht := isToken_of_scan? (scan?_eq_some_iff.2 ⟨rfl, h⟩)
  rw [← ht.trimStart r]
  exact stopsAt_dropWhile _ _

/-- Two readings of a text that both go on until nothing can be read on are the same. -/
theorem IsReading.unique (h : IsReading cs blanks parts rest)
    (h' : IsReading cs blanks' parts' rest') (he : Ends rest) (he' : Ends rest') :
    blanks = blanks' ∧ parts = parts' ∧ rest = rest' := by
  induction parts generalizing cs blanks blanks' parts' with
  | nil =>
    obtain ⟨rfl, hb⟩ := isReading_nil_iff.1 h
    cases parts' with
    | nil =>
      obtain ⟨e, hb'⟩ := isReading_nil_iff.1 h'
      obtain ⟨rfl, rfl⟩ := blanks_unique hb hb' he.1 he'.1 e
      exact ⟨rfl, rfl, rfl⟩
    | cons p parts' =>
      obtain ⟨r, e, hb', ht, -⟩ := isReading_cons_iff.1 h'
      obtain ⟨-, rfl⟩ := blanks_unique hb hb' he.1 ht.stopsAt_isBlank e
      have hs := scan?_eq_some_iff.2 ⟨rfl, ht⟩
      rw [he.2] at hs
      cases hs
  | cons p parts ih =>
    obtain ⟨r, rfl, hb, ht, hrest⟩ := isReading_cons_iff.1 h
    have hs := scan?_eq_some_iff.2 ⟨rfl, ht⟩
    cases parts' with
    | nil =>
      obtain ⟨e, hb'⟩ := isReading_nil_iff.1 h'
      obtain ⟨-, rfl⟩ := blanks_unique hb hb' ht.stopsAt_isBlank he'.1 e
      rw [he'.2] at hs
      cases hs
    | cons p' parts' =>
      obtain ⟨r', e, hb', ht', hrest'⟩ := isReading_cons_iff.1 h'
      obtain ⟨rfl, et⟩ := blanks_unique hb hb' ht.stopsAt_isBlank ht'.stopsAt_isBlank e
      rw [et, scan?_eq_some_iff.2 ⟨rfl, ht'⟩] at hs
      obtain ⟨htoken, rfl⟩ := Prod.mk.inj (Option.some.inj hs)
      obtain ⟨hw, rfl, rfl⟩ := ih hrest hrest'
      exact ⟨rfl, by rw [Prod.ext htoken.symm hw], rfl⟩

theorem ends_nil : Ends [] := ⟨stopsAt_nil _, rfl⟩

theorem ends_cons_iff {c : Char} {cs : List Char} :
    Ends (c :: cs) ↔ Text.isBlank c = false ∧
      (c ∉ tokenAlphabet ∨ c = '"' ∧ ¬ BeginsIn IsString (c :: cs)) := by
  rw [Ends, scan?_cons_eq_none_iff]
  exact and_congr_left fun _ => ⟨fun h => h c rfl, fun h => stopsAt_cons h cs⟩

/-- What a text is read as up to an end is what its reading up to there tells. -/
theorem scanAll_eq_iff {ts : List (List Char)} (he : Ends rest) :
    scanAll cs = (ts, rest) ↔
      ∃ blanks parts, IsReading cs blanks parts rest ∧ parts.map Prod.fst = ts := by
  obtain ⟨he', blanks', parts', h', hts'⟩ := exists_isReading cs
  constructor
  · intro h
    rw [h] at h' hts'
    exact ⟨blanks', parts', h', hts'⟩
  · rintro ⟨blanks, parts, h, rfl⟩
    obtain ⟨-, rfl, e⟩ := h.unique h' he he'
    exact Prod.ext hts'.symm e.symm

end Token

open Token

theorem exists_tokenize_eq_error_iff {text : String} :
    (∃ e, tokenize text = .error e) ↔ ∃ ts c rest, scanAll text.toList = (ts, c :: rest) := by
  unfold tokenize
  rcases scanAll text.toList with ⟨ts, _ | ⟨c, rest⟩⟩
  · exact iff_of_false nofun nofun
  · exact iff_of_true ⟨_, rfl⟩ ⟨ts, c, rest, rfl⟩

/-- The tokens of a text are those of a reading of the whole text, of which there is no other.
There are none just where the reading comes to a character that is not blank and either begins no
token or is the quotation mark of a string that is never closed. -/
theorem tokenize_decomposes (text : String) :
    (∀ ts, tokenize text = .ok ts ↔ ∃ blanks parts, IsReading text.toList blanks parts [] ∧
      parts.map Prod.fst = ts.map String.toList) ∧
    {reading : List Char × List (List Char × List Char) |
      IsReading text.toList reading.1 reading.2 []}.Subsingleton ∧
    ((∃ e, tokenize text = .error e) ↔ ∃ blanks parts c rest,
      IsReading text.toList blanks parts (c :: rest) ∧ Text.isBlank c = false ∧
        (c ∉ tokenAlphabet ∨ c = '"' ∧ ¬ BeginsIn IsString (c :: rest))) := by
  refine ⟨fun ts => ?_, fun d hd d' hd' => ?_, ?_⟩
  · rw [tokenize_eq_ok_iff, scanAll_eq_iff ends_nil]
  · obtain ⟨hb, hp, -⟩ := IsReading.unique hd hd' ends_nil ends_nil
    exact Prod.ext hb hp
  · rw [exists_tokenize_eq_error_iff]
    constructor
    · rintro ⟨ts, c, rest, h⟩
      have he := (exists_isReading text.toList).1
      rw [h] at he
      obtain ⟨blanks, parts, hr, -⟩ := (scanAll_eq_iff he).1 h
      exact ⟨blanks, parts, c, rest, hr, ends_cons_iff.1 he⟩
    · rintro ⟨blanks, parts, c, rest, hr, hc⟩
      exact ⟨_, c, rest, (scanAll_eq_iff (ends_cons_iff.2 hc)).2 ⟨blanks, parts, hr, rfl⟩⟩

example : tokenize "\t-12.5e+.x1e5 \"\\\" \"1.(-)" =
    .ok ["-12.5", "e+.x1e5", "\"\\\" \"", "1", ".", "(", "-", ")"] := by decide +kernel

end SmallLisp
