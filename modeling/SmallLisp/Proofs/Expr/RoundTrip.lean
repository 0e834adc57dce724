import SmallLisp.Expr.Print
import SmallLisp.Proofs.Expr.Reader
import SmallLisp.Proofs.Number.Numeral
import SmallLisp.Proofs.Token.Sequence

/-!
# Written expressions read back

An expression whose texts are tokens of their own (`Expr.Printable`) is written
as tokens that spell it (`Expr.Printable.exists_tokens`), by induction on the
expression; so the parser reads it back (`print_round_trip`). All that it reads
from a text is printable.
-/

namespace SmallLisp

/-- The text is one token, and is read neither as a parenthesis nor as an integer. -/
structure IsAtomText (t : String) : Prop where
  token : tokenize t = .ok [t]
  not_opening : t ≠ "("
  not_closing : t ≠ ")"
  not_integer : Numeral.readInt64? t.toList = none

/-- Every text in the expression is an atom's. -/
def Expr.Printable (e : Expr) : Prop := ∀ t, .text t ∈ e.parts → IsAtomText t

instance (t : String) : Decidable (IsAtomText t) :=
  decidable_of_iff (tokenize t = .ok [t] ∧ t ≠ "(" ∧ t ≠ ")" ∧ Numeral.readInt64? t.toList = none)
    ⟨fun ⟨ht, ho, hc, hi⟩ => ⟨ht, ho, hc, hi⟩, fun ⟨ht, ho, hc, hi⟩ => ⟨ht, ho, hc, hi⟩⟩

instance (e : Expr) : Decidable e.Printable := decidable_of_iff' _ Expr.forall_text_iff

theorem Expr.Printable.of_mem {e : Expr} {items : List Expr} (h : Printable (.list items))
    (he : e ∈ items) : e.Printable :=
  fun t ht => h t (mem_parts_trans ht (mem_parts_of_mem he))

theorem IsAtomText.printable {t : String} (h : IsAtomText t) : (Expr.text t).Printable := by
  intro u hu
  rw [Expr.parts, List.mem_singleton] at hu
  cases hu
  exact h

theorem Expr.printable_list {items : List Expr} (h : ∀ e ∈ items, e.Printable) :
    (list items).Printable := by
  intro t ht
  rcases mem_parts_list.1 ht with e | ⟨e, he, hte⟩
  · cases e
  · exact h e he t hte

theorem exists_tokens_items {es : List Expr}
    (h : ∀ e ∈ es, ∃ ts, Token.ReadsAs e.print ts ∧ Spells ts e) :
    ∃ ts, Token.ReadsAs (Expr.printItems es) ts ∧ SpellsItems ts es := by
  induction es with
  | nil => exact ⟨[], .nil, .nil⟩
  | cons e es ih =>
    obtain ⟨ts, hr, hs⟩ := h e List.mem_cons_self
    cases es with
    | nil => exact ⟨ts, hr, .singleton hs⟩
    | cons f es =>
      obtain ⟨us, hrs, hss⟩ := ih fun e he => h e (List.mem_cons_of_mem _ he)
      exact ⟨ts ++ us, hr.append_blank (by decide) hrs, .cons hs hss⟩

theorem Expr.Printable.exists_tokens {e : Expr} (h : e.Printable) :
    ∃ ts, Token.ReadsAs e.print ts ∧ Spells ts e := by
  induction e with
  | integer n =>
    refine ⟨_, .token (.number (Numeral.isNumber_ofInt n.toInt)), .integer ?_⟩
    rw [String.toList_ofList]
    exact Numeral.readInt64?_ofInt n
  | text t =>
    obtain ⟨ht, ho, hc, hi⟩ := h t (mem_parts_self _)
    have hr := Token.ReadsAs.token (tokenize_singleton_iff.1 ht)
    rw [String.ofList_toList] at hr
    exact ⟨[t], hr, .text ho hc hi⟩
  | list items ih =>
    obtain ⟨ts, hr, hs⟩ := exists_tokens_items fun e he => ih e he (h.of_mem he)
    exact ⟨_, hr.parens, .list hs⟩

/-- What tokens of a text spell is printable. -/
theorem Spells.printable {text : String} {tokens ts : List String} {e : Expr} (h : Spells ts e)
    (ht : tokenize text = .ok tokens) (hs : ∀ t ∈ ts, t ∈ tokens) : e.Printable := by
  intro t hp
  obtain ⟨hm, ho, hc, hi⟩ := h.texts hp
  exact ⟨tokenize_of_mem ht (hs t hm), ho, hc, hi⟩

theorem SpellsItems.exists_spells {ts : List String} {es : List Expr} {e : Expr}
    (h : SpellsItems ts es) (he : e ∈ es) : ∃ us, Spells us e ∧ ∀ t ∈ us, t ∈ ts := by
  induction es generalizing ts with
  | nil => cases he
  | cons f es ih =>
    cases h with
    | @cons ts us _ _ hf hs =>
      rcases List.mem_cons.1 he with rfl | he
      · exact ⟨ts, hf, fun t ht => List.mem_append_left _ ht⟩
      · obtain ⟨vs, hv, hsub⟩ := ih hs he
        exact ⟨vs, hv, fun t ht => List.mem_append_right _ (hsub t ht)⟩

/-- A printable expression that is not nested too deep is read back as it was written, and what is
read from a text is printable. -/
theorem print_round_trip :
    (∀ e : Expr, e.Printable → e.height ≤ 256 →
      ∃ ts, tokenize (toString e) = .ok ts ∧ parse ts = .ok e ∧ parseAll ts = .ok [e]) ∧
    ∀ (text : String) (ts : List String), tokenize text = .ok ts →
      (∀ e, parse ts = .ok e → e.Printable) ∧
      ∀ es, parseAll ts = .ok es → ∀ e ∈ es, e.Printable := by
  refine ⟨fun e h hh => ?_, fun text ts ht => ⟨fun e hp => ?_, fun es hp e he => ?_⟩⟩
  · obtain ⟨ts, hr, hs⟩ := h.exists_tokens
    have hp := parse_of_spells hs hh []
    rw [List.append_nil] at hp
    have hhs : Expr.heightOfItems [e] ≤ defaultParseDepth :=
      Expr.heightOfItems_le.2 (List.forall_mem_singleton.2 hh)
    exact ⟨ts, hr.tokenize, hp, parseAll_eq_ok_iff.2 ⟨.singleton hs, hhs⟩⟩
  · obtain ⟨us, rest, rfl, hs⟩ := spells_of_parse hp
    exact hs.printable ht fun t hm => List.mem_append_left _ hm
  · obtain ⟨us, hs, hsub⟩ := (parseAll_eq_ok_iff.1 hp).1.exists_spells he
    exact hs.printable ht hsub

/-- A definition with a quoted string that holds a quotation mark and a parenthesis, next to numbers
and signs that must not run together. -/
def signsAndQuotes : Expr :=
  .list [.text "defun", .text "f-1", .list [], .list [.text "-", .integer (-1), .text "-1.5e+3"],
    .text "\"a) \\\" (b\""]

theorem signsAndQuotes_read_back :
    signsAndQuotes.Printable ∧ signsAndQuotes.height ≤ 256 ∧
      ∃ ts, tokenize (toString signsAndQuotes) = .ok ts ∧ parse ts = .ok signsAndQuotes ∧
        parseAll ts = .ok [signsAndQuotes] ∧ ∀ e ∈ [signsAndQuotes], e.Printable := by
  have hp : signsAndQuotes.Printable := by decide +kernel
  have hh : signsAndQuotes.height ≤ 256 := by decide
  obtain ⟨ts, ht, he, hs⟩ := print_round_trip.1 signsAndQuotes hp hh
  exact ⟨hp, hh, ts, ht, he, hs, (print_round_trip.2 _ ts ht).2 _ hs⟩

end SmallLisp
