import Mathlib.Data.List.Infix
import SmallLisp.Proofs.Token.Grammar

/-!
# The longest token of the first class

The classes of tokens in the order in which they are tried (`TokenClass`), and
the token that they make a text begin with: of the first class that has any
member there, the longest one (`IsTokenAt`). Numbers and symbols are told apart
only by this order and by the length.

* `scan?_eq_some_iff`: `scan?` cuts off just this token;
* `scan?_eq_none_iff`: it finds none just where no class has a member;
* `scan?_cons_eq_none_iff`: that is at a character that begins no token, and at
  a quotation mark that opens a string which is never closed.
-/

namespace SmallLisp.Token

/-! ## Longest members of a class -/

/-- The text begins with a member of the class. -/
def BeginsIn (p : List Char → Prop) (cs : List Char) : Prop := ∃ t, t <+: cs ∧ p t

/-- Of the members of the class that the text begins with, `t` is the longest. -/
structure IsLongest (p : List Char → Prop) (cs t : List Char) : Prop where
  begins : t <+: cs
  mem : p t
  length_le : ∀ u, u <+: cs → p u → u.length ≤ t.length

variable {p : List Char → Prop} {cs t u r rest : List Char}

theorem IsLongest.unique (ht : IsLongest p cs t) (hu : IsLongest p cs u) : t = u :=
  (List.prefix_of_prefix_length_le ht.begins hu.begins
    (hu.length_le t ht.begins ht.mem)).eq_of_length_le (ht.length_le u hu.begins hu.mem)

/-- A scanner cuts off members of the class only, and never a shorter one than is there. -/
structure ScansLongest (p : List Char → Prop)
    (scan : List Char → Option (List Char × List Char)) : Prop where
  sound : ∀ {cs t r : List Char}, scan cs = some (t, r) → cs = t ++ r ∧ p t
  covers : ∀ {u : List Char} (r : List Char), p u →
    ∃ t rest, scan (u ++ r) = some (t, rest) ∧ u.length ≤ t.length

namespace ScansLongest

variable {scan : List Char → Option (List Char × List Char)} (h : ScansLongest p scan)

include h

theorem isLongest (hs : scan cs = some (t, r)) : IsLongest p cs t := by
  obtain ⟨e, ht⟩ := h.sound hs
  refine ⟨⟨r, e.symm⟩, ht, ?_⟩
  rintro u ⟨r', rfl⟩ hu
  obtain ⟨t', rest, hs', hle⟩ := h.covers r' hu
  rw [hs] at hs'
  rwa [(Prod.mk.inj (Option.some.inj hs')).1]

theorem eq_none_iff : scan cs = none ↔ ¬ BeginsIn p cs := by
  constructor
  · rintro hn ⟨u, ⟨r, rfl⟩, hu⟩
    obtain ⟨t, rest, hs, -⟩ := h.covers r hu
    rw [hn] at hs
    cases hs
  · intro hn
    cases hs : scan cs with
    | none => rfl
    | some q =>
      obtain ⟨e, ht⟩ := h.sound (t := q.1) (r := q.2) hs
      exact absurd ⟨q.1, ⟨q.2, e.symm⟩, ht⟩ hn

theorem eq_some_iff : scan cs = some (t, r) ↔ cs = t ++ r ∧ IsLongest p cs t := by
  refine ⟨fun hs => ⟨(h.sound hs).1, h.isLongest hs⟩, ?_⟩
  rintro ⟨e, ht⟩
  cases hs : scan cs with
  | none => exact absurd ⟨t, ht.begins, ht.mem⟩ (h.eq_none_iff.1 hs)
  | some q =>
    obtain ⟨t', r'⟩ := q
    obtain rfl := (h.isLongest hs).unique ht
    rw [(h.sound hs).1, List.append_cancel_left_eq] at e
    rw [e]

end ScansLongest

/-! ## The scanners of the classes -/

theorem length_le_spanDigits (h : ∀ c ∈ u, c.isDigit = true) (r : List Char) :
    u.length ≤ (spanDigits (u ++ r)).1.length := by
  rw [spanDigits, List.takeWhile_append_of_pos h, List.length_append]
  omega

theorem IsDigits.spanDigits_ne_nil {ds : List Char} (h : IsDigits ds) (r : List Char) :
    (spanDigits (ds ++ r)).1 ≠ [] :=
  List.ne_nil_of_length_pos
    (Nat.lt_of_lt_of_le (List.length_pos_iff.2 h.1) (length_le_spanDigits h.2 r))

theorem IsDigits.stopsAt_sign {ds : List Char} (h : IsDigits ds) (r : List Char) :
    StopsAt (fun c => c = '+' || c = '-') (ds ++ r) := by
  obtain ⟨d, rest, rfl, hd⟩ := h.exists_cons
  refine stopsAt_cons ?_ _
  rw [Bool.or_eq_false_iff, decide_eq_false_iff_not, decide_eq_false_iff_not]
  constructor <;> (rintro rfl; exact absurd hd (by decide))

theorem length_le_spanExponent {x : List Char} (h : IsExponent x) (r : List Char) :
    x.length ≤ (spanExponent (x ++ r)).1.length := by
  cases h with
  | none => exact Nat.zero_le _
  | @some c sign ds hc hs hd =>
    have hle := length_le_spanDigits hd.2 r
    rw [List.cons_append, List.append_assoc, spanExponent, spanSign_append hs (hd.stopsAt_sign r)]
    simp only [if_pos (And.intro hc (hd.spanDigits_ne_nil r)), List.length_cons, List.length_append]
    omega

/-- Where digits may go on there is neither a fraction nor an exponent. -/
theorem IsExponent.eq_nil {x : List Char} (h : IsExponent x)
    (hr : ¬ StopsAt Char.isDigit (x ++ r)) : x = [] := by
  cases h with
  | none => rfl
  | some hc _ _ =>
    refine absurd (stopsAt_cons ?_ _) hr
    rcases hc with rfl | rfl <;> decide

theorem IsFraction.eq_nil {f : List Char} (h : IsFraction f)
    (hr : ¬ StopsAt Char.isDigit (f ++ r)) : f = [] := by
  cases h with
  | none => rfl
  | some _ => exact absurd (stopsAt_cons (by decide) _) hr

theorem spanFraction_of_digits {ds : List Char} (hd : IsDigits ds) (r : List Char) :
    spanFraction ('.' :: (ds ++ r)) =
      ('.' :: (spanDigits (ds ++ r)).1, (spanDigits (ds ++ r)).2) := by
  rw [spanFraction]
  exact if_neg (hd.spanDigits_ne_nil r)

/-- The fraction and the exponent that are cut off are together as long as any that are there. -/
theorem length_le_spanFraction_spanExponent {f x : List Char} (hf : IsFraction f)
    (hx : IsExponent x) (r : List Char) :
    f.length + x.length ≤ (spanFraction (f ++ (x ++ r))).1.length +
      (spanExponent (spanFraction (f ++ (x ++ r))).2).1.length := by
  have hle := length_le_spanExponent hx r
  cases hf with
  | none =>
    cases hx with
    | none => exact Nat.zero_le _
    | @some c sign ds hc hs hd =>
      have hstop : StopsAt (fun c => c.isDigit || c = '.') (c :: (sign ++ ds) ++ r) := by
        refine stopsAt_cons ?_ _
        rcases hc with rfl | rfl <;> decide
      rw [spanFraction_append .none hstop]
      exact Nat.add_le_add_left hle _
  | @some ds hd =>
    rw [List.cons_append, spanFraction_of_digits hd]
    by_cases hr : StopsAt Char.isDigit (x ++ r)
    · rw [spanDigits_append hd hr]
      exact Nat.add_le_add_left hle _
    · obtain rfl := hx.eq_nil hr
      have hd' := length_le_spanDigits hd.2 ([] ++ r)
      simp only [List.length_cons, List.length_nil]
      omega

theorem scanUnsigned?_of_ne_nil (h : (spanDigits cs).1 ≠ []) :
    scanUnsigned? cs = some
      ((spanDigits cs).1 ++ (spanFraction (spanDigits cs).2).1 ++
        (spanExponent (spanFraction (spanDigits cs).2).2).1,
      (spanExponent (spanFraction (spanDigits cs).2).2).2) := by
  rw [scanUnsigned?]
  exact if_neg h

theorem scanUnsigned?_covers (h : IsUnsigned u) (r : List Char) :
    ∃ t rest, scanUnsigned? (u ++ r) = some (t, rest) ∧ u.length ≤ t.length := by
  cases h with
  | @mk w f x hw hf hx =>
    rw [List.append_assoc, List.append_assoc]
    refine ⟨_, _, scanUnsigned?_of_ne_nil (hw.spanDigits_ne_nil _), ?_⟩
    simp only [List.length_append]
    by_cases hr : StopsAt Char.isDigit (f ++ (x ++ r))
    · have hle := length_le_spanFraction_spanExponent hf hx r
      simp only [spanDigits_append hw hr]
      omega
    · -- The digits go on in the text, so the number is digits alone.
      obtain rfl := hf.eq_nil hr
      obtain rfl := hx.eq_nil hr
      have hle := length_le_spanDigits hw.2 ([] ++ ([] ++ r))
      rw [List.length_nil]
      omega

theorem scansLongest_number : ScansLongest IsNumber scanNumber? where
  sound hs := ⟨(append_of_scanNumber? hs).1, isNumber_of_scanNumber? hs⟩
  covers := by
    intro u r hu
    cases hu with
    | @negative v hv =>
      obtain ⟨t, rest, hs, hle⟩ := scanUnsigned?_covers hv r
      exact ⟨'-' :: t, rest, by rw [List.cons_append, scanNumber?, hs, Option.map_some],
        Nat.succ_le_succ hle⟩
    | unsigned hu =>
      obtain ⟨t, rest, hs, hle⟩ := scanUnsigned?_covers hu r
      obtain ⟨d, v, rfl, hd⟩ := hu.exists_cons
      have hne : d ≠ '-' := by rintro rfl; exact absurd hd (by decide)
      refine ⟨t, rest, ?_, hle⟩
      rw [List.cons_append, scanNumber?.eq_def]
      split
      · rename_i e
        exact absurd (List.cons.inj e).1 hne
      · exact hs

theorem scansLongest_paren : ScansLongest (fun t => t = ['('] ∨ t = [')']) scanParen? where
  sound := by
    intro cs t r hs
    unfold scanParen? at hs
    split at hs
    · obtain ⟨rfl, rfl⟩ := Prod.mk.inj (Option.some.inj hs)
      exact ⟨rfl, .inl rfl⟩
    · obtain ⟨rfl, rfl⟩ := Prod.mk.inj (Option.some.inj hs)
      exact ⟨rfl, .inr rfl⟩
    · cases hs
  covers := by
    rintro u r (rfl | rfl)
    · exact ⟨_, r, rfl, Nat.le_refl _⟩
    · exact ⟨_, r, rfl, Nat.le_refl _⟩

theorem scansLongest_string : ScansLongest IsString scanString? where
  sound hs := ⟨(append_of_scanString? hs).1, isString_of_scanString? hs⟩
  covers r hu := ⟨_, r, scanString?_append hu r, Nat.le_refl _⟩

theorem scansLongest_symbol : ScansLongest IsSymbol scanSymbol? where
  sound hs := ⟨(append_of_scanSymbol? hs).1, isSymbol_of_scanSymbol? hs⟩
  covers := by
    intro u r hu
    have ht : (u ++ r).takeWhile isSymbolChar = u ++ r.takeWhile isSymbolChar :=
      List.takeWhile_append_of_pos hu.2
    refine ⟨_, _, if_neg ?_, ?_⟩
    · rw [ht]
      exact List.append_ne_nil_of_left_ne_nil hu.1 _
    · rw [ht, List.length_append]
      omega

/-! ## Classes in their order -/

/-- The characters of symbols, one by one. -/
def symbolAlphabet : List Char :=
  "ABCDEFGHIJKLMNOPQRSTUVWXYZabcdefghijklmnopqrstuvwxyz0123456789_+-*/!?=<>.".toList

/-- The characters that tokens begin with. -/
def tokenAlphabet : List Char := '(' :: ')' :: '"' :: symbolAlphabet

theorem mem_symbolAlphabet_iff {c : Char} : c ∈ symbolAlphabet ↔ isSymbolChar c = true := by
  constructor
  · have h : symbolAlphabet.all isSymbolChar = true := by decide +kernel
    exact fun hc => List.all_eq_true.1 h c hc
  · intro h
    have hall : ∀ n < 0x7f, isSymbolChar (Char.ofNat n) = true → Char.ofNat n ∈ symbolAlphabet := by
      decide +kernel
    have hc := hall c.toNat (toNat_of_isSymbolChar h).2
    rw [Char.ofNat_toNat] at hc
    exact hc h

/-- The classes of tokens, in the order in which they are tried. -/
inductive TokenClass
  | paren
  | number
  | string
  | symbol
deriving DecidableEq, Repr

namespace TokenClass

/-- The texts of a class. -/
def Has : TokenClass → List Char → Prop
  | paren, t => t = ['('] ∨ t = [')']
  | number, t => IsNumber t
  | string, t => IsString t
  | symbol, t => t ≠ [] ∧ ∀ c ∈ t, c ∈ symbolAlphabet

/-- The classes that are tried before. -/
def earlier : TokenClass → List TokenClass
  | paren => []
  | number => [paren]
  | string => [paren, number]
  | symbol => [paren, number, string]

/-- What cuts off the tokens of a class. -/
def scan? : TokenClass → List Char → Option (List Char × List Char)
  | paren => scanParen?
  | number => scanNumber?
  | string => scanString?
  | symbol => scanSymbol?

theorem has_symbol : symbol.Has = IsSymbol := by
  funext t
  simp only [Has, IsSymbol, mem_symbolAlphabet_iff]

theorem scansLongest (k : TokenClass) : ScansLongest k.Has k.scan? := by
  cases k with
  | paren => exact scansLongest_paren
  | number => exact scansLongest_number
  | string => exact scansLongest_string
  | symbol => exact has_symbol ▸ scansLongest_symbol

theorem scan?_eq_some_iff {k : TokenClass} :
    k.scan? cs = some (t, r) ↔ cs = t ++ r ∧ IsLongest k.Has cs t :=
  k.scansLongest.eq_some_iff

theorem scan?_eq_none_iff {k : TokenClass} : k.scan? cs = none ↔ ¬ BeginsIn k.Has cs :=
  k.scansLongest.eq_none_iff

end TokenClass

/-- The token that a text begins with: the longest one of the first class that has a member
there. -/
def IsTokenAt (cs t : List Char) : Prop :=
  ∃ k : TokenClass, IsLongest k.Has cs t ∧ ∀ k' ∈ k.earlier, ¬ BeginsIn k'.Has cs

/-- The classes are tried in their order. -/
theorem scan?_eq_some_iff_class {q : List Char × List Char} :
    scan? cs = some q ↔
      ∃ k : TokenClass, k.scan? cs = some q ∧ ∀ k' ∈ k.earlier, k'.scan? cs = none := by
  simp only [scan?, Option.orElse_eq_orElse, Option.orElse_eq_or, Option.or_eq_some_iff]
  constructor
  · rintro (h | ⟨hp, h | ⟨hn, h | ⟨hs, h⟩⟩⟩)
    · exact ⟨.paren, h, List.forall_mem_nil _⟩
    · exact ⟨.number, h, List.forall_mem_singleton.2 hp⟩
    · exact ⟨.string, h, List.forall_mem_cons.2 ⟨hp, List.forall_mem_singleton.2 hn⟩⟩
    · exact ⟨.symbol, h, List.forall_mem_cons.2
        ⟨hp, List.forall_mem_cons.2 ⟨hn, List.forall_mem_singleton.2 hs⟩⟩⟩
  · rintro ⟨k, h, hk⟩
    cases k with
    | paren => exact .inl h
    | number => exact .inr ⟨hk .paren (by decide), .inl h⟩
    | string => exact .inr ⟨hk .paren (by decide), .inr ⟨hk .number (by decide), .inl h⟩⟩
    | symbol =>
      exact .inr ⟨hk .paren (by decide), .inr ⟨hk .number (by decide),
        .inr ⟨hk .string (by decide), h⟩⟩⟩

theorem scan?_eq_none_iff_class : scan? cs = none ↔ ∀ k : TokenClass, k.scan? cs = none := by
  simp only [scan?, Option.orElse_eq_orElse, Option.orElse_eq_or, Option.or_eq_none_iff]
  constructor
  · rintro ⟨hp, hn, hs, hy⟩ k
    cases k with
    | paren => exact hp
    | number => exact hn
    | string => exact hs
    | symbol => exact hy
  · exact fun h => ⟨h .paren, h .number, h .string, h .symbol⟩

/-- The token that is cut off a text is the one that the text begins with. -/
theorem scan?_eq_some_iff : scan? cs = some (t, r) ↔ cs = t ++ r ∧ IsTokenAt cs t := by
  simp only [scan?_eq_some_iff_class, TokenClass.scan?_eq_some_iff, TokenClass.scan?_eq_none_iff,
    IsTokenAt, and_assoc, exists_and_left]

theorem scan?_eq_none_iff : scan? cs = none ↔ ∀ k : TokenClass, ¬ BeginsIn k.Has cs := by
  simp only [scan?_eq_none_iff_class, TokenClass.scan?_eq_none_iff]

/-- A member of a class begins with a character of the alphabet, and only a string begins with a
quotation mark. -/
theorem TokenClass.Has.exists_cons {k : TokenClass} (h : k.Has t) :
    ∃ c rest, t = c :: rest ∧ c ∈ tokenAlphabet ∧ (c = '"' → k = .string) := by
  have hsymbol {c : Char} (hc : isSymbolChar c = true) (k : TokenClass) :
      c ∈ tokenAlphabet ∧ (c = '"' → k = .string) := by
    refine ⟨?_, ?_⟩
    · simp only [tokenAlphabet, List.mem_cons, mem_symbolAlphabet_iff]
      exact .inr (.inr (.inr hc))
    · rintro rfl
      exact absurd hc (by decide)
  cases k with
  | paren =>
    rcases h with rfl | rfl
    · exact ⟨_, _, rfl, by decide, nofun⟩
    · exact ⟨_, _, rfl, by decide, nofun⟩
  | number =>
    obtain ⟨d, rest, rfl, hd⟩ := IsNumber.exists_cons h
    exact ⟨d, rest, rfl, hsymbol hd _⟩
  | string =>
    obtain ⟨cs, rfl, -⟩ := h
    exact ⟨_, cs, rfl, by decide, fun _ => rfl⟩
  | symbol =>
    rw [has_symbol] at h
    obtain ⟨c, rest, rfl, hc⟩ := IsSymbol.exists_cons h
    exact ⟨c, rest, rfl, hsymbol hc _⟩

/-- No token begins at a character outside of the alphabet and at the quotation mark of a string
that is never closed, and at no other character. -/
theorem scan?_cons_eq_none_iff {c : Char} {cs : List Char} :
    scan? (c :: cs) = none ↔ c ∉ tokenAlphabet ∨ c = '"' ∧ ¬ BeginsIn IsString (c :: cs) := by
  rw [scan?_eq_none_iff]
  constructor
  · intro h
    by_contra hn
    rw [not_or, not_not] at hn
    obtain ⟨hm, hq⟩ := hn
    simp only [tokenAlphabet, List.mem_cons] at hm
    rcases hm with rfl | rfl | rfl | hm
    · exact h .paren ⟨['('], ⟨cs, rfl⟩, .inl rfl⟩
    · exact h .paren ⟨[')'], ⟨cs, rfl⟩, .inr rfl⟩
    · exact hq ⟨rfl, h .string⟩
    · exact h .symbol ⟨[c], ⟨cs, rfl⟩, List.cons_ne_nil _ _, List.forall_mem_singleton.2 hm⟩
  · rintro h k ⟨u, ⟨r, e⟩, hu⟩
    obtain ⟨d, rest, rfl, hm, hk⟩ := hu.exists_cons
    obtain ⟨rfl, -⟩ := List.cons.inj e
    rcases h with h | ⟨rfl, h⟩
    · exact h hm
    · obtain rfl := hk rfl
      exact h ⟨_, ⟨r, e⟩, hu⟩

end SmallLisp.Token
