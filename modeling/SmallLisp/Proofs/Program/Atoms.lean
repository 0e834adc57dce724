import SmallLisp.Proofs.Program.Literals
import SmallLisp.Proofs.Program.Numbers
import SmallLisp.Proofs.Token.Longest

/-!
# Tokens and what is made of them

A text is cut into tokens by the classes of the grammar. What a token means is
found by tests of its ends and its first characters alone, which other texts
pass that are no tokens. On tokens they agree with the classes
(`recognizers_agree`). The escapes of a string are told apart by
`Literal.pieces`, and those of a token are complete
(`Token.IsQuoted.exists_pieces`).
-/

namespace SmallLisp

/-! ## Escapes -/

namespace Literal

/-- What is read at once where escapes are resolved: a character, a backslash with the character
behind it, or a backslash at the end. -/
inductive Piece
  | plain (c : Char)
  | escape (c : Char)
  | trailing
deriving DecidableEq, Repr

namespace Piece

/-- The piece as it stands in the text. -/
def text : Piece → List Char
  | plain c => [c]
  | escape c => ['\\', c]
  | trailing => ['\\']

/-- The character that the piece stands for. -/
def value : Piece → Char
  | plain c => c
  | escape c => escaped c
  | trailing => '\\'

end Piece

/-- The pieces that are read one after the other. -/
def pieces : List Char → List Piece
  | [] => []
  | ['\\'] => [.trailing]
  | '\\' :: c :: cs => .escape c :: pieces cs
  | c :: cs => .plain c :: pieces cs

theorem pieces_cons {c : Char} (h : c ≠ '\\') (cs : List Char) :
    pieces (c :: cs) = .plain c :: pieces cs := by
  rw [pieces.eq_def]
  split
  · rename_i e
    cases e
  · rename_i e
    exact absurd (List.cons.inj e).1 h
  · rename_i e
    exact absurd (List.cons.inj e).1 h
  · rename_i e
    obtain ⟨rfl, rfl⟩ := List.cons.inj e
    rfl

/-- Escapes are resolved piece by piece. -/
theorem map_value_pieces (cs : List Char) : (pieces cs).map Piece.value = unescape cs := by
  fun_induction pieces cs with
  | case1 => rfl
  | case2 => rfl
  | case3 c cs ih => rw [List.map_cons, ih, Piece.value, unescape]
  | case4 c cs hend hescape ih =>
    rw [List.map_cons, ih, Piece.value, unescape]
    · exact hend
    · exact hescape

/-- The pieces make up the text. -/
theorem flatMap_text_pieces (cs : List Char) : (pieces cs).flatMap Piece.text = cs := by
  fun_induction pieces cs with
  | case1 => rfl
  | case2 => rfl
  | case3 c cs ih => rw [List.flatMap_cons, ih]; rfl
  | case4 c cs _ _ ih => rw [List.flatMap_cons, ih]; rfl

end Literal

/-- A string literal in which every backslash that is read as an escape stands before a character
that the escape takes along. -/
def Literal.IsComplete (t : String) : Prop :=
  ∃ inner, t.toList = '"' :: (inner ++ ['"']) ∧
    string? t = some (.ofList ((pieces inner).map Piece.value)) ∧
    (pieces inner).flatMap Piece.text = inner ∧ .trailing ∉ pieces inner

namespace Token

/-- Up to the closing quotation mark the escapes are complete. -/
theorem IsQuoted.exists_pieces {cs : List Char} (h : IsQuoted cs) :
    ∃ inner, cs = inner ++ ['"'] ∧ .trailing ∉ Literal.pieces inner := by
  induction h with
  | close => exact ⟨[], rfl, List.not_mem_nil⟩
  | @escape c cs _ ih =>
    obtain ⟨inner, rfl, hi⟩ := ih
    exact ⟨'\\' :: c :: inner, rfl, List.not_mem_cons_of_ne_of_not_mem nofun hi⟩
  | @char c cs hq hb _ ih =>
    obtain ⟨inner, rfl, hi⟩ := ih
    refine ⟨c :: inner, rfl, ?_⟩
    rw [Literal.pieces_cons hb]
    exact List.not_mem_cons_of_ne_of_not_mem nofun hi

theorem IsString.isComplete {t : String} (h : IsString t.toList) : Literal.IsComplete t := by
  obtain ⟨cs, ht, hquoted⟩ := h
  obtain ⟨inner, rfl, hcomplete⟩ := hquoted.exists_pieces
  refine ⟨inner, ht, ?_, Literal.flatMap_text_pieces inner, hcomplete⟩
  rw [Literal.string?_of_toList ht, Literal.map_value_pieces]

/-! ## Classes of tokens -/

namespace TokenClass

variable {k : TokenClass} {cs t : List Char}

/-- The text begins with a token of the class: what the class cuts off there, if no class that is
tried before cuts anything off. -/
def Cuts (k : TokenClass) (cs t : List Char) : Prop :=
  (∃ rest, k.scan? cs = some (t, rest)) ∧ ∀ k' ∈ k.earlier, k'.scan? cs = none

theorem Cuts.has (h : k.Cuts cs t) : k.Has t := by
  obtain ⟨⟨rest, hs⟩, -⟩ := h
  exact (k.scansLongest.sound hs).2

/-- Tokens of the string class are told by their first character. -/
theorem Has.eq_string_iff (h : k.Has t) : k = .string ↔ t.head? = some '"' := by
  constructor
  · rintro rfl
    obtain ⟨cs, rfl, -⟩ := h
    rfl
  · intro hq
    obtain ⟨c, rest, rfl, -, hc⟩ := h.exists_cons
    exact hc (Option.some.inj hq)

/-- Tokens of the symbol class do not start like numbers. -/
theorem Cuts.startsNumeric (h : symbol.Cuts cs t) : Literal.startsNumeric t = false := by
  obtain ⟨⟨rest, hs⟩, hearlier⟩ := h
  exact startsNumeric_of_scanSymbol? (hearlier .number (by decide)) hs

end TokenClass

/-- Each token of a text is cut off it by a class. -/
theorem exists_cuts {text t : String} {ts : List String} (h : tokenize text = .ok ts)
    (ht : t ∈ ts) :
    ∃ (k : TokenClass) (cs : List Char), cs <:+ text.toList ∧ k.Cuts cs t.toList := by
  have hm : t.toList ∈ (scanAll text.toList).1 := by
    rw [tokenize_eq_ok_iff.1 h]
    exact List.mem_map_of_mem ht
  obtain ⟨cs, rest, hcs, hs⟩ := exists_scan?_of_mem_scanAll hm
  obtain ⟨k, hk, hearlier⟩ := scan?_eq_some_iff_class.1 hs
  exact ⟨k, cs, hcs, ⟨rest, hk⟩, hearlier⟩

end Token

/-! ## Atoms -/

namespace Literal

variable {t : String}

theorem number?_of_not_startsNumeric (h : startsNumeric t.toList = false) : number? t = none := by
  unfold number?
  simp only [h]
  rfl

/-- A text that is not read as an integer is no integer as a number. -/
theorem number?_ne_integer (h : Numeral.readInt64? t.toList = none) (n : Int64) :
    number? t ≠ some (.integer n) := by
  unfold number?
  simp only [h]
  split
  · split
    · intro hn
      obtain ⟨d, -, hd⟩ := Option.map_eq_some_iff.1 hn
      cases hd
    · nofun
  · nofun

end Literal

namespace Expr

theorem symbolName?_text_of_not_isName {t : String} (h : ¬ IsName t) :
    (text t).symbolName? = none :=
  Option.filter_eq_none_iff.2 fun s hs hname => by
    obtain rfl := Option.some.inj hs
    exact h (of_decide_eq_true hname)

/-- What stays text is the token itself, and is no integer. -/
theorem ofToken_eq_text {t s : String} (h : ofToken t = text s) :
    s = t ∧ Numeral.readInt64? t.toList = none := by
  cases hn : Numeral.readInt64? t.toList with
  | some n =>
    rw [ofToken_of_readInt64? hn] at h
    cases h
  | none =>
    rw [ofToken_of_not_integer hn] at h
    exact ⟨(Expr.text.inj h).symm, rfl⟩

end Expr

open Literal Token

/-- What is made of a token agrees with how it was cut off. It is a string literal just if it begins
with a quotation mark, and then its escapes are complete. It is a name just if it is no string
literal. If it was cut off as a symbol it is not a number, and if it was not folded when it was read
it is not an integer. -/
theorem recognizers_agree {text t : String} {ts : List String} (h : tokenize text = .ok ts)
    (ht : t ∈ ts) :
    ((string? t).isSome ↔ t.toList.head? = some '"') ∧
    (t.toList.head? = some '"' → IsComplete t) ∧
    (Expr.text t).symbolName? = (if string? t = none then some t else none) ∧
    ((∃ (k : TokenClass) (cs : List Char), cs <:+ text.toList ∧ k.Cuts cs t.toList) ∧
      ∀ cs, TokenClass.symbol.Cuts cs t.toList → number? t = none) ∧
    ∀ s, Expr.ofToken t = .text s → ∀ n, number? s ≠ some (.integer n) := by
  obtain ⟨k, cs, hcs, hcuts⟩ := exists_cuts h ht
  have hcomplete (hq : t.toList.head? = some '"') : IsComplete t := by
    obtain rfl := hcuts.has.eq_string_iff.2 hq
    exact IsString.isComplete hcuts.has
  have hname : string? t = none ↔ IsName t := by
    refine ⟨fun hnone hq => ?_, IsName.string?_eq_none⟩
    obtain ⟨inner, -, hsome, -⟩ := hcomplete hq
    cases hnone.symm.trans hsome
  refine ⟨?_, hcomplete, ?_, ⟨⟨k, cs, hcs, hcuts⟩, fun cs hsymbol => ?_⟩, fun s hs => ?_⟩
  · rw [Option.isSome_iff_ne_none, ne_eq, hname, IsName, ne_eq, not_not]
  · split
    · rename_i hnone
      exact (hname.1 hnone).symbolName?_text
    · rename_i hsome
      exact Expr.symbolName?_text_of_not_isName (mt hname.2 hsome)
  · exact number?_of_not_startsNumeric hsymbol.startsNumeric
  · obtain ⟨rfl, hn⟩ := Expr.ofToken_eq_text hs
    exact number?_ne_integer hn

/-- An escaped quotation mark and an escaped backslash before the closing quotation mark, and a
point that a number leaves behind. The text `1.` is a number but no token. -/
theorem recognizers_agree_adjacent :
    let text := "(-x\"\\\"\\\\\"1.)"
    let literal := "\"\\\"\\\\\""
    let ts := ["(", "-x", literal, "1", ".", ")"]
    (tokenize text = .ok ts ∧ literal ∈ ts ∧ "." ∈ ts) ∧
      (IsComplete literal ∧ (Expr.text literal).symbolName? = none) ∧
      (TokenClass.symbol.Cuts ".)".toList ".".toList ∧ number? "." = none) ∧
      number? "1." ≠ none := by
  intro text literal ts
  have hts : tokenize text = .ok ts := by decide +kernel
  have hliteral : literal ∈ ts := by decide
  have hpoint : "." ∈ ts := by decide
  have hcuts : TokenClass.symbol.Cuts ".)".toList ".".toList :=
    ⟨⟨[')'], by decide +kernel⟩, by decide +kernel⟩
  obtain ⟨-, hcomplete, hname, -⟩ := recognizers_agree hts hliteral
  obtain ⟨-, -, -, ⟨-, hnumber⟩, -⟩ := recognizers_agree hts hpoint
  refine ⟨⟨hts, hliteral, hpoint⟩, ⟨hcomplete (by decide +kernel), ?_⟩,
    ⟨hcuts, hnumber _ hcuts⟩, by decide +kernel⟩
  rw [hname]
  decide +kernel

end SmallLisp
