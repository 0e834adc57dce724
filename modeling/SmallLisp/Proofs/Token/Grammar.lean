import Mathlib.Data.List.TakeWhile
import SmallLisp.Eval.Literal
import SmallLisp.Token.Scan

/-!
# The grammar of tokens

The classes of tokens as predicates on texts (`IsNumber`, `IsString`,
`IsSymbol`), and what is a token when it stands alone (`IsToken`).

* `isToken_of_scan?`: what is cut off a text is such a token;
* `scan?_append`: such a token is cut off any text that begins with it and goes
  on with what ends numbers and symbols (`Stops`).
-/

namespace SmallLisp.Token

/-! ## Where a run of characters ends -/

/-- The text is empty or begins with a character that is not in the class. -/
def StopsAt (p : Char → Bool) (cs : List Char) : Prop := ∀ c ∈ cs.head?, p c = false

/-- The text does not go on with a character of numbers and symbols. -/
def Stops (cs : List Char) : Prop := StopsAt isSymbolChar cs

theorem stopsAt_nil (p : Char → Bool) : StopsAt p [] := nofun

theorem stopsAt_cons {p : Char → Bool} {c : Char} (h : p c = false) (cs : List Char) :
    StopsAt p (c :: cs) := by
  intro d hd
  obtain rfl : c = d := Option.some.inj hd
  exact h

theorem StopsAt.mono {p q : Char → Bool} {cs : List Char} (h : StopsAt p cs)
    (hqp : ∀ c, q c = true → p c = true) : StopsAt q cs := by
  intro c hc
  cases hq : q c with
  | false => rfl
  | true => exact absurd (hqp c hq) (by rw [h c hc]; decide)

theorem takeWhile_append_of_stopsAt {p : Char → Bool} {w r : List Char}
    (hw : ∀ c ∈ w, p c = true) (hr : StopsAt p r) : (w ++ r).takeWhile p = w := by
  rw [List.takeWhile_append_of_pos hw]
  cases r with
  | nil => exact List.append_nil w
  | cons c r => rw [List.takeWhile_cons_of_neg (by rw [hr c rfl]; decide), List.append_nil]

theorem dropWhile_append_of_stopsAt {p : Char → Bool} {w r : List Char}
    (hw : ∀ c ∈ w, p c = true) (hr : StopsAt p r) : (w ++ r).dropWhile p = r := by
  rw [List.dropWhile_append_of_pos hw]
  cases r with
  | nil => rfl
  | cons c r => rw [List.dropWhile_cons_of_neg (by rw [hr c rfl]; decide)]

theorem isSymbolChar_of_isDigit (c : Char) (h : c.isDigit = true) : isSymbolChar c = true := by
  simp [isSymbolChar, Char.isAlphanum, h]

theorem Stops.stopsAt_isDigit {r : List Char} (h : Stops r) : StopsAt Char.isDigit r :=
  h.mono isSymbolChar_of_isDigit

/-! ## Numbers -/

/-- One digit or more. -/
def IsDigits (ds : List Char) : Prop := ds ≠ [] ∧ ∀ c ∈ ds, c.isDigit = true

/-- A point and digits, or nothing. -/
inductive IsFraction : List Char → Prop
  | none : IsFraction []
  | some {ds : List Char} : IsDigits ds → IsFraction ('.' :: ds)

/-- A plus or minus sign, or nothing. -/
inductive IsSign : List Char → Prop
  | none : IsSign []
  | plus : IsSign ['+']
  | minus : IsSign ['-']

/-- The letter `e` of either case, an optional sign and digits, or nothing. -/
inductive IsExponent : List Char → Prop
  | none : IsExponent []
  | some {c : Char} {sign ds : List Char} :
    c = 'e' ∨ c = 'E' → IsSign sign → IsDigits ds → IsExponent (c :: (sign ++ ds))

/-- Digits with an optional fraction and an optional exponent. -/
inductive IsUnsigned : List Char → Prop
  | mk {w f x : List Char} :
    IsDigits w → IsFraction f → IsExponent x → IsUnsigned (w ++ f ++ x)

/-- A number, which may start with a minus sign. -/
inductive IsNumber : List Char → Prop
  | unsigned {t : List Char} : IsUnsigned t → IsNumber t
  | negative {t : List Char} : IsUnsigned t → IsNumber ('-' :: t)

theorem IsDigits.exists_cons {ds : List Char} (h : IsDigits ds) :
    ∃ d rest, ds = d :: rest ∧ d.isDigit = true := by
  obtain ⟨hne, hd⟩ := h
  cases ds with
  | nil => exact absurd rfl hne
  | cons d rest => exact ⟨d, rest, rfl, hd d List.mem_cons_self⟩

theorem spanDigits_append {ds r : List Char} (h : IsDigits ds) (hr : StopsAt Char.isDigit r) :
    spanDigits (ds ++ r) = (ds, r) := by
  rw [spanDigits, takeWhile_append_of_stopsAt h.2 hr, dropWhile_append_of_stopsAt h.2 hr]

theorem isDigits_spanDigits {cs : List Char} (h : (spanDigits cs).1 ≠ []) :
    IsDigits (spanDigits cs).1 :=
  ⟨h, fun _ hc => List.mem_takeWhile_imp hc⟩

theorem spanFraction_append {f r : List Char} (h : IsFraction f)
    (hr : StopsAt (fun c => c.isDigit || c = '.') r) : spanFraction (f ++ r) = (f, r) := by
  cases h with
  | none =>
    rw [List.nil_append]
    unfold spanFraction
    split
    · exact absurd (hr '.' rfl) (by decide)
    · rfl
  | some hd =>
    have hr' : StopsAt Char.isDigit r := hr.mono fun c hc => by rw [hc]; rfl
    rw [List.cons_append, spanFraction, spanDigits_append hd hr']
    exact if_neg hd.1

theorem spanSign_append {sign r : List Char} (h : IsSign sign)
    (hr : StopsAt (fun c => c = '+' || c = '-') r) : spanSign (sign ++ r) = (sign, r) := by
  cases h with
  | plus => rfl
  | minus => rfl
  | none =>
    rw [List.nil_append]
    unfold spanSign
    split
    · exact absurd (hr '+' rfl) (by decide)
    · exact absurd (hr '-' rfl) (by decide)
    · rfl

theorem spanExponent_append {x r : List Char} (h : IsExponent x) (hr : Stops r) :
    spanExponent (x ++ r) = (x, r) := by
  cases h with
  | none =>
    cases r with
    | nil => rfl
    | cons c r =>
      have hc : ¬ (c = 'e' ∨ c = 'E') := by
        rintro (rfl | rfl)
        · exact absurd (hr 'e' rfl) (by decide)
        · exact absurd (hr 'E' rfl) (by decide)
      rw [List.nil_append, spanExponent]
      exact if_neg fun h => hc h.1
  | @some c sign ds hc hs hd =>
    obtain ⟨d, rest, rfl, hdd⟩ := hd.exists_cons
    have hd' : StopsAt (fun c => c = '+' || c = '-') (d :: rest ++ r) := by
      refine stopsAt_cons ?_ _
      rw [Bool.or_eq_false_iff, decide_eq_false_iff_not, decide_eq_false_iff_not]
      constructor <;> (rintro rfl; exact absurd hdd (by decide))
    rw [List.cons_append, List.append_assoc, spanExponent, spanSign_append hs hd']
    simp only [spanDigits_append hd hr.stopsAt_isDigit]
    exact if_pos ⟨hc, hd.1⟩

/-- Behind an exponent, or where there is none, no fraction begins and no digits go on. -/
theorem IsExponent.stopsAt {x r : List Char} (h : IsExponent x) (hr : Stops r) :
    StopsAt (fun c => c.isDigit || c = '.') (x ++ r) := by
  cases h with
  | none =>
    refine hr.mono fun c hc => ?_
    rcases Bool.or_eq_true_iff.1 hc with hc | hc
    · exact isSymbolChar_of_isDigit c hc
    · rw [of_decide_eq_true hc]
      decide
  | some hc hs hd =>
    refine stopsAt_cons ?_ _
    rcases hc with rfl | rfl <;> decide

theorem IsFraction.stopsAt {f r : List Char} (h : IsFraction f) (hr : StopsAt Char.isDigit r) :
    StopsAt Char.isDigit (f ++ r) := by
  cases h with
  | none => exact hr
  | some hd => exact stopsAt_cons (by decide) _

theorem scanUnsigned?_append {t r : List Char} (h : IsUnsigned t) (hr : Stops r) :
    scanUnsigned? (t ++ r) = some (t, r) := by
  obtain ⟨hw, hf, hx⟩ := h
  have hxr := hx.stopsAt hr
  have hfr := hf.stopsAt (hxr.mono fun c hc => by rw [hc]; rfl)
  rw [List.append_assoc, List.append_assoc, scanUnsigned?, spanDigits_append hw hfr]
  simp only [spanFraction_append hf hxr, spanExponent_append hx hr]
  rw [if_neg hw.1, List.append_assoc]

theorem IsUnsigned.exists_cons {t : List Char} (h : IsUnsigned t) :
    ∃ d rest, t = d :: rest ∧ d.isDigit = true := by
  obtain ⟨hw, hf, hx⟩ := h
  obtain ⟨d, rest, rfl, hd⟩ := hw.exists_cons
  exact ⟨d, _, rfl, hd⟩

theorem scanNumber?_append {t r : List Char} (h : IsNumber t) (hr : Stops r) :
    scanNumber? (t ++ r) = some (t, r) := by
  cases h with
  | negative h => rw [List.cons_append, scanNumber?, scanUnsigned?_append h hr, Option.map_some]
  | unsigned h =>
    obtain ⟨d, rest, rfl, hd⟩ := h.exists_cons
    have hne : d ≠ '-' := by rintro rfl; exact absurd hd (by decide)
    rw [List.cons_append, scanNumber?.eq_def]
    split
    · rename_i e
      exact absurd (List.cons.inj e).1 hne
    · exact scanUnsigned?_append h hr

theorem isFraction_spanFraction (cs : List Char) : IsFraction (spanFraction cs).1 := by
  unfold spanFraction
  split
  · simp only []
    split
    · exact .none
    · rename_i h
      exact .some (isDigits_spanDigits h)
  · exact .none

theorem isSign_spanSign (cs : List Char) : IsSign (spanSign cs).1 := by
  unfold spanSign
  split
  · exact .plus
  · exact .minus
  · exact .none

theorem isExponent_spanExponent (cs : List Char) : IsExponent (spanExponent cs).1 := by
  unfold spanExponent
  split
  · exact .none
  · simp only []
    split
    · rename_i h
      exact .some h.1 (isSign_spanSign _) (isDigits_spanDigits h.2)
    · exact .none

theorem isUnsigned_of_scanUnsigned? {cs t r : List Char} (h : scanUnsigned? cs = some (t, r)) :
    IsUnsigned t := by
  simp only [scanUnsigned?] at h
  split at h
  · cases h
  · rename_i hw
    obtain ⟨rfl, -⟩ := Prod.mk.inj (Option.some.inj h)
    exact ⟨isDigits_spanDigits hw, isFraction_spanFraction _, isExponent_spanExponent _⟩

theorem isNumber_of_scanNumber? {cs t r : List Char} (h : scanNumber? cs = some (t, r)) :
    IsNumber t := by
  unfold scanNumber? at h
  split at h
  · obtain ⟨⟨t', r'⟩, h', e⟩ := Option.map_eq_some_iff.1 h
    obtain ⟨rfl, -⟩ := Prod.mk.inj e
    exact .negative (isUnsigned_of_scanUnsigned? h')
  · exact .unsigned (isUnsigned_of_scanUnsigned? h)

theorem isNumber_iff {t : List Char} : IsNumber t ↔ scanNumber? t = some (t, []) := by
  refine ⟨fun h => ?_, isNumber_of_scanNumber?⟩
  have hs := scanNumber?_append h (stopsAt_nil _)
  rwa [List.append_nil] at hs

instance (t : List Char) : Decidable (IsNumber t) := decidable_of_iff' _ isNumber_iff

theorem stopsAt_iff_takeWhile {p : Char → Bool} {cs : List Char} :
    StopsAt p cs ↔ cs.takeWhile p = [] := by
  cases cs with
  | nil => exact iff_of_true (stopsAt_nil p) rfl
  | cons c cs =>
    rw [List.takeWhile_cons]
    cases hc : p c with
    | true => exact iff_of_false (fun h => absurd (h c rfl) (by rw [hc]; decide)) nofun
    | false => exact iff_of_true (stopsAt_cons hc cs) rfl

theorem scanUnsigned?_eq_none_iff {cs : List Char} :
    scanUnsigned? cs = none ↔ StopsAt Char.isDigit cs := by
  rw [stopsAt_iff_takeWhile, scanUnsigned?]
  by_cases h : cs.takeWhile Char.isDigit = []
  · simp only [spanDigits, h]
    exact iff_of_true rfl trivial
  · simp only [spanDigits, h]
    exact iff_of_false (Option.some_ne_none _) not_false

theorem startsNumeric_cons {c : Char} (h : c ≠ '-') (cs : List Char) :
    Literal.startsNumeric (c :: cs) = c.isDigit := by
  unfold Literal.startsNumeric
  split
  · rename_i e
    exact absurd (List.cons.inj e).1 h
  · rename_i e
    rw [(List.cons.inj e).1]
  · rename_i e
    cases e

/-- A number begins just where the text starts like one. -/
theorem scanNumber?_eq_none_iff {cs : List Char} :
    scanNumber? cs = none ↔ Literal.startsNumeric cs = false := by
  unfold scanNumber?
  split
  · rename_i cs
    rw [Option.map_eq_none_iff, scanUnsigned?_eq_none_iff]
    cases cs with
    | nil => exact iff_of_true (stopsAt_nil _) rfl
    | cons c cs => exact ⟨fun h => h c rfl, fun h => stopsAt_cons h cs⟩
  · rename_i hne
    rw [scanUnsigned?_eq_none_iff]
    cases cs with
    | nil => exact iff_of_true (stopsAt_nil _) rfl
    | cons c cs =>
      rw [startsNumeric_cons fun e => hne cs (by rw [e])]
      exact ⟨fun h => h c rfl, fun h => stopsAt_cons h cs⟩

/-! ## Strings and symbols -/

/-- The rest of a quoted string with its closing quotation mark. -/
inductive IsQuoted : List Char → Prop
  | close : IsQuoted ['"']
  | escape {c : Char} {t : List Char} : IsQuoted t → IsQuoted ('\\' :: c :: t)
  | char {c : Char} {t : List Char} :
    c ≠ '"' → c ≠ '\\' → IsQuoted t → IsQuoted (c :: t)

/-- A quoted string. -/
def IsString (t : List Char) : Prop := ∃ cs, t = '"' :: cs ∧ IsQuoted cs

/-- A run of symbol characters. -/
def IsSymbol (t : List Char) : Prop := t ≠ [] ∧ ∀ c ∈ t, isSymbolChar c = true

theorem scanQuoted?_append {t : List Char} (h : IsQuoted t) (r : List Char) :
    scanQuoted? (t ++ r) = some (t, r) := by
  induction h with
  | close => rfl
  | escape _ ih => rw [List.cons_append, List.cons_append, scanQuoted?, ih, Option.map_some]
  | @char c t hq hb _ ih =>
    rw [List.cons_append, scanQuoted?.eq_def]
    split
    · rename_i e
      cases e
    · rename_i e
      exact absurd (List.cons.inj e).1 hb
    · rename_i e
      exact absurd (List.cons.inj e).1 hq
    · rename_i e
      exact absurd (List.cons.inj e).1 hb
    · rename_i e
      obtain ⟨rfl, rfl⟩ := List.cons.inj e
      rw [ih, Option.map_some]

theorem isQuoted_of_scanQuoted? {cs t r : List Char} (h : scanQuoted? cs = some (t, r)) :
    IsQuoted t := by
  fun_induction scanQuoted? cs generalizing t r with
  | case1 => cases h
  | case2 => cases h
  | case3 cs =>
    obtain ⟨rfl, -⟩ := Prod.mk.inj (Option.some.inj h)
    exact .close
  | case4 c cs ih =>
    obtain ⟨⟨t', r'⟩, h', e⟩ := Option.map_eq_some_iff.1 h
    obtain ⟨rfl, -⟩ := Prod.mk.inj e
    exact .escape (ih h')
  | case5 c cs hb hq he ih =>
    obtain ⟨⟨t', r'⟩, h', e⟩ := Option.map_eq_some_iff.1 h
    obtain ⟨rfl, -⟩ := Prod.mk.inj e
    have hb' : c ≠ '\\' := fun hc => by
      cases cs with
      | nil => exact hb hc rfl
      | cons d cs => exact he d cs hc rfl
    exact .char hq hb' (ih h')

theorem scanString?_append {t : List Char} (h : IsString t) (r : List Char) :
    scanString? (t ++ r) = some (t, r) := by
  obtain ⟨cs, rfl, hq⟩ := h
  rw [List.cons_append, scanString?, scanQuoted?_append hq, Option.map_some]

theorem isString_of_scanString? {cs t r : List Char} (h : scanString? cs = some (t, r)) :
    IsString t := by
  unfold scanString? at h
  split at h
  · obtain ⟨⟨t', r'⟩, h', e⟩ := Option.map_eq_some_iff.1 h
    obtain ⟨rfl, -⟩ := Prod.mk.inj e
    exact ⟨t', rfl, isQuoted_of_scanQuoted? h'⟩
  · cases h

theorem scanSymbol?_append {t r : List Char} (h : IsSymbol t) (hr : Stops r) :
    scanSymbol? (t ++ r) = some (t, r) := by
  rw [scanSymbol?, takeWhile_append_of_stopsAt h.2 hr, dropWhile_append_of_stopsAt h.2 hr,
    if_neg h.1]

theorem isSymbol_of_scanSymbol? {cs t r : List Char} (h : scanSymbol? cs = some (t, r)) :
    IsSymbol t := by
  unfold scanSymbol? at h
  split at h
  · cases h
  · rename_i hne
    obtain ⟨rfl, -⟩ := Prod.mk.inj (Option.some.inj h)
    exact ⟨hne, fun _ hc => List.mem_takeWhile_imp hc⟩

/-! ## Tokens -/

/-- A token that stands alone. Among the texts of symbol characters, those that start like a number
are tokens only if they are numbers. -/
inductive IsToken : List Char → Prop
  | opening : IsToken ['(']
  | closing : IsToken [')']
  | number {t : List Char} : IsNumber t → IsToken t
  | string {t : List Char} : IsString t → IsToken t
  | symbol {t : List Char} : IsSymbol t → Literal.startsNumeric t = false → IsToken t

theorem startsNumeric_append {t r : List Char} (ht : t ≠ []) (hr : Stops r) :
    Literal.startsNumeric (t ++ r) = Literal.startsNumeric t := by
  obtain ⟨c, t, rfl⟩ := List.exists_cons_of_ne_nil ht
  by_cases hc : c = '-'
  · subst hc
    cases t with
    | cons d t => rfl
    | nil =>
      cases r with
      | nil => rfl
      | cons d r => exact hr.stopsAt_isDigit d rfl
  · rw [List.cons_append, startsNumeric_cons hc, startsNumeric_cons hc]

theorem stopsAt_dropWhile (p : Char → Bool) (cs : List Char) : StopsAt p (cs.dropWhile p) := by
  intro c hc
  have h := List.head?_dropWhile_not p cs
  rw [Option.mem_def.1 hc] at h
  exact h

/-- A run of symbol characters ends where it does in the text, so it starts like a number only if
the text does. -/
theorem startsNumeric_of_scanSymbol? {cs t r : List Char} (hn : scanNumber? cs = none)
    (h : scanSymbol? cs = some (t, r)) : Literal.startsNumeric t = false := by
  have hr : Stops r := by
    unfold scanSymbol? at h
    split at h
    · cases h
    · obtain ⟨-, rfl⟩ := Prod.mk.inj (Option.some.inj h)
      exact stopsAt_dropWhile _ _
  rw [← startsNumeric_append (isSymbol_of_scanSymbol? h).1 hr, ← (append_of_scanSymbol? h).1]
  exact scanNumber?_eq_none_iff.1 hn

theorem isToken_of_scan? {cs t r : List Char} (h : scan? cs = some (t, r)) : IsToken t := by
  simp only [scan?, Option.orElse_eq_orElse, Option.orElse_eq_or, Option.or_eq_some_iff] at h
  rcases h with h | ⟨-, h | ⟨hn, h | ⟨-, h⟩⟩⟩
  · unfold scanParen? at h
    split at h
    · obtain ⟨rfl, -⟩ := Prod.mk.inj (Option.some.inj h)
      exact .opening
    · obtain ⟨rfl, -⟩ := Prod.mk.inj (Option.some.inj h)
      exact .closing
    · cases h
  · exact .number (isNumber_of_scanNumber? h)
  · exact .string (isString_of_scanString? h)
  · exact .symbol (isSymbol_of_scanSymbol? h) (startsNumeric_of_scanSymbol? hn h)

theorem scanParen?_cons {c : Char} (ho : c ≠ '(') (hc : c ≠ ')') (cs : List Char) :
    scanParen? (c :: cs) = none := by
  unfold scanParen?
  split
  · rename_i e
    exact absurd (List.cons.inj e).1 ho
  · rename_i e
    exact absurd (List.cons.inj e).1 hc
  · rfl

theorem scanParen?_of_isSymbolChar {c : Char} (h : isSymbolChar c = true) (cs : List Char) :
    scanParen? (c :: cs) = none := by
  refine scanParen?_cons ?_ ?_ cs <;> (rintro rfl; exact absurd h (by decide))

theorem scanString?_of_isSymbolChar {c : Char} (h : isSymbolChar c = true) (cs : List Char) :
    scanString? (c :: cs) = none := by
  unfold scanString?
  split
  · rename_i e
    rw [(List.cons.inj e).1] at h
    exact absurd h (by decide)
  · rfl

theorem IsNumber.exists_cons {t : List Char} (h : IsNumber t) :
    ∃ c rest, t = c :: rest ∧ isSymbolChar c = true := by
  cases h with
  | negative h => exact ⟨'-', _, rfl, by decide⟩
  | unsigned h =>
    obtain ⟨d, rest, rfl, hd⟩ := h.exists_cons
    exact ⟨d, rest, rfl, isSymbolChar_of_isDigit d hd⟩

theorem IsSymbol.exists_cons {t : List Char} (h : IsSymbol t) :
    ∃ c rest, t = c :: rest ∧ isSymbolChar c = true := by
  obtain ⟨c, rest, rfl⟩ := List.exists_cons_of_ne_nil h.1
  exact ⟨c, rest, rfl, h.2 c List.mem_cons_self⟩

theorem scan?_append {t r : List Char} (h : IsToken t) (hr : Stops r) :
    scan? (t ++ r) = some (t, r) := by
  cases h with
  | opening => rfl
  | closing => rfl
  | number h =>
    have hp : scanParen? (t ++ r) = none := by
      obtain ⟨c, rest, rfl, hc⟩ := h.exists_cons
      exact scanParen?_of_isSymbolChar hc _
    rw [scan?, hp, scanNumber?_append h hr]
    rfl
  | string h =>
    have hp : scanParen? (t ++ r) = none := by
      obtain ⟨cs, rfl, -⟩ := h
      rfl
    have hn : scanNumber? (t ++ r) = none := by
      obtain ⟨cs, rfl, -⟩ := h
      rfl
    rw [scan?, hp, hn, scanString?_append h r]
    rfl
  | symbol h hs =>
    have hn : scanNumber? (t ++ r) = none := by
      rw [scanNumber?_eq_none_iff, startsNumeric_append h.1 hr, hs]
    obtain ⟨c, rest, rfl, hc⟩ := h.exists_cons
    have hq : scanString? (c :: rest ++ r) = none := scanString?_of_isSymbolChar hc _
    have hp : scanParen? (c :: rest ++ r) = none := scanParen?_of_isSymbolChar hc _
    rw [scan?, hp, hn, hq, scanSymbol?_append h hr]
    rfl

/-! ## Tokens and blanks -/

theorem toNat_of_isAlphanum {c : Char} (h : c.isAlphanum = true) :
    0x30 ≤ c.toNat ∧ c.toNat ≤ 0x7a := by
  rcases Bool.or_eq_true_iff.1 h with ha | hd
  · rcases Bool.or_eq_true_iff.1 ha with hu | hl
    · obtain ⟨h₁, h₂⟩ := of_decide_eq_true hu
      exact ⟨Nat.le_trans (by decide) (UInt32.le_iff_toNat_le.1 h₁),
        Nat.le_trans (UInt32.le_iff_toNat_le.1 h₂) (by decide)⟩
    · obtain ⟨h₁, h₂⟩ := Bool.and_eq_true_iff.1 hl
      exact ⟨Nat.le_trans (by decide) (UInt32.le_iff_toNat_le.1 (of_decide_eq_true h₁)),
        Nat.le_trans (UInt32.le_iff_toNat_le.1 (of_decide_eq_true h₂)) (by decide)⟩
  · obtain ⟨h₁, h₂⟩ := Char.isDigit_iff_toNat.1 hd
    exact ⟨h₁, Nat.le_trans h₂ (by decide)⟩

theorem toNat_of_isSymbolChar {c : Char} (h : isSymbolChar c = true) :
    0x20 < c.toNat ∧ c.toNat < 0x7f := by
  rcases Bool.or_eq_true_iff.1 h with h | h
  · obtain ⟨h₁, h₂⟩ := toNat_of_isAlphanum h
    omega
  · have hs : ("_+-*/!?=<>.".toList.all fun c =>
        decide (0x20 < c.toNat ∧ c.toNat < 0x7f)) = true := by decide
    exact of_decide_eq_true (List.all_eq_true.1 hs c (List.contains_iff_mem.1 h))

theorem isBlank_of_isSymbolChar {c : Char} (h : isSymbolChar c = true) :
    Text.isBlank c = false := by
  have hn := toNat_of_isSymbolChar h
  simp only [Text.isBlank, Bool.or_eq_false_iff, Bool.and_eq_false_iff, decide_eq_false_iff_not,
    beq_eq_false_iff_ne]
  omega

theorem stops_of_isBlank {c : Char} (h : Text.isBlank c = true) (cs : List Char) :
    Stops (c :: cs) := by
  refine stopsAt_cons ?_ cs
  cases hc : isSymbolChar c with
  | false => rfl
  | true => rw [isBlank_of_isSymbolChar hc] at h; cases h

/-- A token does not begin with a blank. -/
theorem IsToken.trimStart {t : List Char} (h : IsToken t) (r : List Char) :
    Text.trimStart (t ++ r) = t ++ r := by
  have hc : ∃ c rest, t = c :: rest ∧ Text.isBlank c = false := by
    cases h with
    | opening => exact ⟨_, _, rfl, by decide⟩
    | closing => exact ⟨_, _, rfl, by decide⟩
    | number h =>
      obtain ⟨c, rest, rfl, hc⟩ := h.exists_cons
      exact ⟨c, rest, rfl, isBlank_of_isSymbolChar hc⟩
    | string h =>
      obtain ⟨cs, rfl, -⟩ := h
      exact ⟨_, _, rfl, by decide⟩
    | symbol h _ =>
      obtain ⟨c, rest, rfl, hc⟩ := h.exists_cons
      exact ⟨c, rest, rfl, isBlank_of_isSymbolChar hc⟩
  obtain ⟨c, rest, rfl, hc⟩ := hc
  rw [Text.trimStart, List.cons_append, List.dropWhile_cons_of_neg (by rw [hc]; decide)]

end SmallLisp.Token
