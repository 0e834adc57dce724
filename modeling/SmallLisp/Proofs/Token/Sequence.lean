import SmallLisp.Proofs.Token.Grammar
import SmallLisp.Token.Tokenize

/-!
# Texts as sequences of tokens

What is read from a text that begins with a token (`scanAll_append`) or a blank
(`scanAll_blank`) comes from reading the rest.

* `tokenize_eq_ok_iff`: the tokens of a text are read to its very end;
* `tokenize_singleton_iff`: a text is one token just if `IsToken` holds of it;
* `tokenize_of_mem`: each token of a text is, alone, that one token;
* `ReadsAs`: what a text is read as before an end of tokens.
-/

namespace SmallLisp

namespace Token

theorem scanAll_cons {cs t r : List Char} (h : scan? (Text.trimStart cs) = some (t, r)) :
    scanAll cs = (t :: (scanAll r).1, (scanAll r).2) := by
  rw [scanAll]
  split
  · rename_i h'
    rw [h] at h'
    cases h'
  · rename_i t' r' h'
    rw [h] at h'
    obtain ⟨rfl, rfl⟩ := Prod.mk.inj (Option.some.inj h')
    rfl

theorem scanAll_none {cs : List Char} (h : scan? (Text.trimStart cs) = none) :
    scanAll cs = ([], Text.trimStart cs) := by
  rw [scanAll]
  split
  · rfl
  · rename_i h'
    rw [h] at h'
    cases h'

theorem scanAll_nil : scanAll [] = ([], []) := scanAll_none rfl

theorem scanAll_append {t r : List Char} (h : IsToken t) (hr : Stops r) :
    scanAll (t ++ r) = (t :: (scanAll r).1, (scanAll r).2) := by
  refine scanAll_cons ?_
  rw [h.trimStart, scan?_append h hr]

/-- A parenthesis is a token whatever follows it. -/
theorem scanAll_opening (r : List Char) :
    scanAll ('(' :: r) = (['('] :: (scanAll r).1, (scanAll r).2) := by
  refine scanAll_cons ?_
  rw [show '(' :: r = ['('] ++ r from rfl, IsToken.opening.trimStart]
  rfl

theorem scanAll_closing (r : List Char) :
    scanAll (')' :: r) = ([')'] :: (scanAll r).1, (scanAll r).2) := by
  refine scanAll_cons ?_
  rw [show ')' :: r = [')'] ++ r from rfl, IsToken.closing.trimStart]
  rfl

theorem scanAll_blank {c : Char} (h : Text.isBlank c = true) (r : List Char) :
    scanAll (c :: r) = scanAll r := by
  have ht : Text.trimStart (c :: r) = Text.trimStart r := List.dropWhile_cons_of_pos h
  cases hs : scan? (Text.trimStart r) with
  | none => rw [scanAll_none (ht ▸ hs), scanAll_none hs, ht]
  | some p => rw [scanAll_cons (ht ▸ hs), scanAll_cons hs]

/-- Each token is cut off where the text has come to it. -/
theorem exists_scan?_of_mem_scanAll {cs t : List Char} (h : t ∈ (scanAll cs).1) :
    ∃ place rest, place <:+ cs ∧ scan? place = some (t, rest) := by
  fun_induction scanAll cs with
  | case1 cs hn => cases h
  | case2 cs t' r hs hlt ts left he ih =>
    have htrim : Text.trimStart cs <:+ cs := List.dropWhile_suffix _
    rcases List.mem_cons.1 h with rfl | h
    · exact ⟨_, r, htrim, hs⟩
    · obtain ⟨place, rest, hp, ht⟩ := ih (by rw [he]; exact h)
      have hr : r <:+ Text.trimStart cs := ⟨t', (append_of_scan? hs).1.symm⟩
      exact ⟨place, rest, hp.trans (hr.trans htrim), ht⟩

theorem isToken_of_mem_scanAll {cs t : List Char} (h : t ∈ (scanAll cs).1) : IsToken t := by
  obtain ⟨place, rest, -, hs⟩ := exists_scan?_of_mem_scanAll h
  exact isToken_of_scan? hs

end Token

/-! ## Texts and their characters -/

theorem Text.map_toList_ofList (css : List (List Char)) :
    (css.map String.ofList).map String.toList = css := by
  rw [List.map_map]
  exact (List.map_congr_left fun _ _ => String.toList_ofList).trans (List.map_id css)

theorem Text.map_ofList_toList (ts : List String) :
    (ts.map String.toList).map String.ofList = ts := by
  rw [List.map_map]
  exact (List.map_congr_left fun _ _ => String.ofList_toList).trans (List.map_id ts)

theorem tokenize_eq_ok_iff {text : String} {ts : List String} :
    tokenize text = .ok ts ↔ Token.scanAll text.toList = (ts.map String.toList, []) := by
  unfold tokenize
  rcases Token.scanAll text.toList with ⟨us, _ | ⟨c, left⟩⟩
  · constructor
    · intro h
      rw [← Except.ok.inj h, Text.map_toList_ofList]
    · intro h
      obtain ⟨rfl, -⟩ := Prod.mk.inj h
      exact congrArg Except.ok (Text.map_ofList_toList ts)
  · exact iff_of_false nofun nofun

theorem tokenize_singleton_iff {t : String} : tokenize t = .ok [t] ↔ Token.IsToken t.toList := by
  rw [tokenize_eq_ok_iff]
  constructor
  · intro h
    have hm : t.toList ∈ (Token.scanAll t.toList).1 := by rw [h]; exact List.mem_cons_self
    exact Token.isToken_of_mem_scanAll hm
  · intro h
    have ha := Token.scanAll_append h (Token.stopsAt_nil _)
    rw [List.append_nil, Token.scanAll_nil] at ha
    exact ha

theorem tokenize_of_mem {text t : String} {ts : List String} (h : tokenize text = .ok ts)
    (ht : t ∈ ts) : tokenize t = .ok [t] := by
  have hm : t.toList ∈ (Token.scanAll text.toList).1 := by
    rw [tokenize_eq_ok_iff.1 h]
    exact List.mem_map_of_mem ht
  exact tokenize_singleton_iff.2 (Token.isToken_of_mem_scanAll hm)

namespace Token

/-! ## Texts before an end of tokens -/

/-- Before all that ends numbers and symbols, the text is read as the tokens. -/
def ReadsAs (cs : List Char) (ts : List String) : Prop :=
  ∀ r, Stops r → scanAll (cs ++ r) = (ts.map String.toList ++ (scanAll r).1, (scanAll r).2)

theorem ReadsAs.nil : ReadsAs [] [] := fun _ _ => rfl

theorem ReadsAs.token {t : List Char} (h : IsToken t) : ReadsAs t [String.ofList t] := by
  intro r hr
  rw [scanAll_append h hr, List.map_singleton, String.toList_ofList, List.singleton_append]

theorem ReadsAs.append_blank {cs ds : List Char} {ts us : List String} {c : Char}
    (hb : Text.isBlank c = true) (hc : ReadsAs cs ts) (hd : ReadsAs ds us) :
    ReadsAs (cs ++ c :: ds) (ts ++ us) := by
  intro r hr
  rw [List.append_assoc, List.cons_append, hc _ (stops_of_isBlank hb _), scanAll_blank hb, hd r hr,
    List.map_append, List.append_assoc]

theorem ReadsAs.parens {cs : List Char} {ts : List String} (h : ReadsAs cs ts) :
    ReadsAs ('(' :: cs ++ [')']) ("(" :: (ts ++ [")"])) := by
  intro r _
  have hs : Stops (')' :: r) := stopsAt_cons (by decide) _
  have hm : ("(" :: (ts ++ [")"])).map String.toList =
      ['('] :: (ts.map String.toList ++ [[')']]) := by
    rw [List.map_cons, List.map_append]
    rfl
  rw [List.cons_append, List.cons_append, List.append_assoc, scanAll_opening, List.singleton_append,
    h _ hs, scanAll_closing, hm, List.cons_append, List.append_assoc, List.singleton_append]

theorem ReadsAs.tokenize {cs : List Char} {ts : List String} (h : ReadsAs cs ts) :
    tokenize (String.ofList cs) = .ok ts := by
  have he := h [] (stopsAt_nil _)
  rw [List.append_nil, scanAll_nil, List.append_nil] at he
  rw [tokenize_eq_ok_iff, String.toList_ofList, he]

end Token

end SmallLisp
