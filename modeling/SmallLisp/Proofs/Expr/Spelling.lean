import SmallLisp.Expr.Parse
import SmallLisp.Proofs.Expr.Parts

/-!
# Spellings of expressions

`Spells ts e`: the tokens `ts` spell the expression `e`, an atom with one token
and a list with those of its items between parentheses. An integer has many
spellings; of another atom, the token is the text (`Spells.texts`).
-/

namespace SmallLisp

mutual

/-- The tokens spell the expression. -/
inductive Spells : List String → Expr → Prop
  | integer {t : String} {n : Int64} :
    Numeral.readInt64? t.toList = some n → Spells [t] (.integer n)
  | text {t : String} :
    t ≠ "(" → t ≠ ")" → Numeral.readInt64? t.toList = none → Spells [t] (.text t)
  | list {ts : List String} {es : List Expr} :
    SpellsItems ts es → Spells ("(" :: (ts ++ [")"])) (.list es)

/-- The tokens spell the expressions, one after the other. -/
inductive SpellsItems : List String → List Expr → Prop
  | nil : SpellsItems [] []
  | cons {ts us : List String} {e : Expr} {es : List Expr} :
    Spells ts e → SpellsItems us es → SpellsItems (ts ++ us) (e :: es)

end

theorem SpellsItems.singleton {ts : List String} {e : Expr} (h : Spells ts e) :
    SpellsItems ts [e] := by
  rw [← List.append_nil ts]
  exact .cons h .nil

theorem SpellsItems.append {ts us : List String} {es fs : List Expr} :
    SpellsItems ts es → SpellsItems us fs → SpellsItems (ts ++ us) (es ++ fs)
  | .nil, h => h
  | .cons h hs, h' => by
    rw [List.append_assoc]
    exact .cons h (hs.append h')

theorem Spells.length_pos {ts : List String} {e : Expr} (h : Spells ts e) : 0 < ts.length := by
  cases h with
  | integer _ => exact Nat.one_pos
  | text _ _ _ => exact Nat.one_pos
  | list _ => exact Nat.succ_pos _

theorem ne_of_readInt64? {t s : String} {n : Int64} (h : Numeral.readInt64? t.toList = some n)
    (hs : Numeral.readInt64? s.toList = none) : t ≠ s := by
  rintro rfl
  rw [hs] at h
  cases h

/-- A token other than a parenthesis spells the atom it is read as. -/
theorem spells_ofToken {t : String} (ho : t ≠ "(") (hc : t ≠ ")") : Spells [t] (.ofToken t) := by
  unfold Expr.ofToken
  split
  · rename_i n h
    exact .integer h
  · rename_i h
    exact .text ho hc h

theorem ofToken_of_readInt64? {t : String} {n : Int64} (h : Numeral.readInt64? t.toList = some n) :
    Expr.ofToken t = .integer n := by
  rw [Expr.ofToken, h]

theorem ofToken_of_not_integer {t : String} (h : Numeral.readInt64? t.toList = none) :
    Expr.ofToken t = .text t := by
  rw [Expr.ofToken, h]

/-- What an expression's texts are in any spelling: tokens of it that are neither parentheses nor
integers. -/
structure IsTextToken (ts : List String) (t : String) : Prop where
  mem : t ∈ ts
  not_opening : t ≠ "("
  not_closing : t ≠ ")"
  not_integer : Numeral.readInt64? t.toList = none

theorem IsTextToken.mono {ts us : List String} {t : String} (h : IsTextToken ts t)
    (hs : ∀ s ∈ ts, s ∈ us) : IsTextToken us t :=
  ⟨hs t h.mem, h.not_opening, h.not_closing, h.not_integer⟩

mutual

theorem Spells.texts {ts : List String} {e : Expr} {t : String} :
    Spells ts e → .text t ∈ e.parts → IsTextToken ts t
  | .integer _, ht => by
    rw [Expr.parts, List.mem_singleton] at ht
    cases ht
  | .text ho hc hi, ht => by
    rw [Expr.parts, List.mem_singleton] at ht
    cases ht
    exact ⟨List.mem_cons_self, ho, hc, hi⟩
  | .list hs, ht => by
    rcases Expr.mem_parts_list.1 ht with e | ⟨e, he, hte⟩
    · cases e
    · exact (hs.texts he hte).mono fun s hm => List.mem_cons_of_mem _ (List.mem_append_left _ hm)

theorem SpellsItems.texts {ts : List String} {es : List Expr} {e : Expr} {t : String} :
    SpellsItems ts es → e ∈ es → .text t ∈ e.parts → IsTextToken ts t
  | .nil, he, _ => nomatch he
  | .cons h hs, he, ht => by
    rcases List.mem_cons.1 he with he | he
    · rw [he] at ht
      exact (h.texts ht).mono fun s hm => List.mem_append_left _ hm
    · exact (hs.texts he ht).mono fun s hm => List.mem_append_right _ hm

end

end SmallLisp
