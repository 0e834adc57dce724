import SmallLisp.Proofs.Token.Continuation
import SmallLisp.Proofs.Token.Decomposition

/-!
# Tokens with other blanks between them

The tokens of a text can be written down again with any blanks around them, as
long as there are some between any two (`IsSpacing`).

* `Token.scanAll_joined`: so written, tokens are read one by one, whatever text
  they were taken from;
* `tokenize_joined`: the tokens of a text stay its tokens when the blanks are
  changed, and each of them is a text of one token.
-/

namespace SmallLisp

namespace Token

variable {t w r : List Char} {parts : List (List Char × List Char)}

/-- There are blanks behind every token but the last one, which need not have any. -/
structure IsSpacing (parts : List (List Char × List Char)) : Prop where
  blank_behind : ∀ p ∈ parts, ∀ c ∈ p.2, Text.isBlank c = true
  apart : ∀ p ∈ parts.dropLast, p.2 ≠ []

theorem isSpacing_cons (h : IsSpacing ((t, w) :: parts)) :
    (∀ c ∈ w, Text.isBlank c = true) ∧ (w = [] → parts = []) ∧ IsSpacing parts := by
  obtain ⟨hw, hparts⟩ := List.forall_mem_cons.1 h.blank_behind
  cases parts with
  | nil => exact ⟨hw, fun _ => rfl, nofun, nofun⟩
  | cons p parts =>
    have hapart := h.apart
    rw [List.dropLast_cons_of_ne_nil (List.cons_ne_nil p parts), List.forall_mem_cons] at hapart
    exact ⟨hw, fun hnil => absurd hnil hapart.1, hparts, hapart.2⟩

/-- Tokens that are kept apart are read one by one. -/
theorem scanAll_joined (ht : ∀ p ∈ parts, IsToken p.1) (h : IsSpacing parts) (hr : Stops r) :
    scanAll (joined parts ++ r) = (parts.map Prod.fst ++ (scanAll r).1, (scanAll r).2) := by
  induction parts with
  | nil => rfl
  | cons p parts ih =>
    obtain ⟨t, w⟩ := p
    obtain ⟨ht, hparts⟩ := List.forall_mem_cons.1 ht
    obtain ⟨hw, hlast, h⟩ := isSpacing_cons h
    -- Blanks are missing behind the last token at most, and there `r` ends it.
    have hstop : Stops (w ++ (joined parts ++ r)) := by
      refine stops_append_of_blank hw fun hnil => ?_
      rw [hlast hnil]
      exact hr
    rw [joined_cons, List.append_assoc, List.append_assoc, scanAll_append ht hstop,
      scanAll_append_of_blank hw, ih hparts h, List.map_cons, List.cons_append]

end Token

open Token

/-- Other blanks leave the tokens of a text as they are, if there are some between any two of them.
Each token is, alone, that one token. -/
theorem tokenize_joined {text : String} {ts : List String} {blanks : List Char}
    {parts : List (List Char × List Char)} (h : tokenize text = .ok ts)
    (hts : parts.map Prod.fst = ts.map String.toList)
    (hb : ∀ c ∈ blanks, Text.isBlank c = true) (hparts : IsSpacing parts) :
    tokenize (String.ofList (blanks ++ joined parts)) = .ok ts ∧
      ∀ t ∈ ts, tokenize t = .ok [t] := by
  have halone : ∀ t ∈ ts, tokenize t = .ok [t] := fun t ht => tokenize_of_mem h ht
  have htoken : ∀ p ∈ parts, IsToken p.1 := by
    intro p hp
    have hm : p.1 ∈ ts.map String.toList := hts ▸ List.mem_map_of_mem hp
    obtain ⟨t, ht, e⟩ := List.mem_map.1 hm
    exact e ▸ tokenize_singleton_iff.1 (halone t ht)
  have hread := scanAll_joined htoken hparts (stopsAt_nil _)
  rw [List.append_nil, scanAll_nil, List.append_nil, hts] at hread
  refine ⟨tokenize_eq_ok_iff.2 ?_, halone⟩
  rw [String.toList_ofList, scanAll_append_of_blank hb, hread]

/-- Tokens that stand close together, written down with a blank before the first of them and lines
between them. -/
theorem tokenize_pulledApart :
    let ts := ["-123", "abc", "\"a \\\"b\"", "1", ".e+", ")"]
    let parts := ts.map fun t => (t.toList, ['\u2003', '\n'])
    tokenize "-123abc\"a \\\"b\"1.e+)" = .ok ts ∧ parts.map Prod.fst = ts.map String.toList ∧
      (∀ c ∈ [' '], Text.isBlank c = true) ∧ IsSpacing parts ∧
      tokenize (String.ofList ([' '] ++ joined parts)) = .ok ts ∧
      ∀ t ∈ ts, tokenize t = .ok [t] := by
  intro ts parts
  have h : tokenize "-123abc\"a \\\"b\"1.e+)" = .ok ts := by decide +kernel
  have hts : parts.map Prod.fst = ts.map String.toList := List.map_map
  have hb : ∀ c ∈ [' '], Text.isBlank c = true := List.forall_mem_singleton.2 (by decide)
  have hparts : IsSpacing parts := by
    constructor
    · exact List.forall_mem_map.2 fun t _ => List.forall_mem_cons.2
        ⟨by decide, List.forall_mem_singleton.2 (by decide)⟩
    · intro p hp
      obtain ⟨t, -, rfl⟩ := List.mem_map.1 (List.mem_of_mem_dropLast hp)
      exact List.cons_ne_nil _ _
  exact ⟨h, hts, hb, hparts, tokenize_joined h hts hb hparts⟩

end SmallLisp
