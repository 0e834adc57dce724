import SmallLisp.Text.Blank

/-!
# Tokens

At any place of a text a token is a parenthesis, else a number, else a quoted
string, else a symbol: the first of these classes that has a member there, and
of its members the longest. `scan?` cuts that token off.

`append_of_scan?`: a token is not empty, and nothing is lost between it and the
rest.
`length_lt_of_scan?`: the rest is shorter than the text.
-/

namespace SmallLisp.Token

/-- A parenthesis. -/
def scanParen? : List Char → Option (List Char × List Char)
  | '(' :: cs => some (['('], cs)
  | ')' :: cs => some ([')'], cs)
  | _ => none

/-- The digits a text starts with, and the rest. -/
def spanDigits (cs : List Char) : List Char × List Char :=
  (cs.takeWhile Char.isDigit, cs.dropWhile Char.isDigit)

/-- A point and digits, or nothing. -/
def spanFraction : List Char → List Char × List Char
  | '.' :: cs =>
    let (ds, rest) := spanDigits cs
    if ds = [] then ([], '.' :: cs) else ('.' :: ds, rest)
  | cs => ([], cs)

/-- A plus or minus sign, or nothing. -/
def spanSign : List Char → List Char × List Char
  | '+' :: cs => (['+'], cs)
  | '-' :: cs => (['-'], cs)
  | cs => ([], cs)

/-- The letter `e` of either case, an optional sign and digits, or nothing. -/
def spanExponent : List Char → List Char × List Char
  | [] => ([], [])
  | c :: cs =>
    let (sign, cs') := spanSign cs
    let (ds, rest) := spanDigits cs'
    if (c = 'e' ∨ c = 'E') ∧ ds ≠ [] then (c :: (sign ++ ds), rest) else ([], c :: cs)

/-- Digits with an optional fraction and an optional exponent. -/
def scanUnsigned? (cs : List Char) : Option (List Char × List Char) :=
  let (whole, cs) := spanDigits cs
  if whole = [] then none
  else
    let (fraction, cs) := spanFraction cs
    let (exponent, cs) := spanExponent cs
    some (whole ++ fraction ++ exponent, cs)

/-- A number, which may start with a minus sign. -/
def scanNumber? : List Char → Option (List Char × List Char)
  | '-' :: cs => (scanUnsigned? cs).map fun (t, rest) => ('-' :: t, rest)
  | cs => scanUnsigned? cs

/-- The rest of a quoted string with its closing quotation mark. A backslash takes the character
after it along, whatever that is. -/
def scanQuoted? : List Char → Option (List Char × List Char)
  | [] | ['\\'] => none
  | '"' :: cs => some (['"'], cs)
  | '\\' :: c :: cs => (scanQuoted? cs).map fun (t, rest) => ('\\' :: c :: t, rest)
  | c :: cs => (scanQuoted? cs).map fun (t, rest) => (c :: t, rest)

/-- A quoted string. -/
def scanString? : List Char → Option (List Char × List Char)
  | '"' :: cs => (scanQuoted? cs).map fun (t, rest) => ('"' :: t, rest)
  | _ => none

/-- The characters of symbols: ASCII letters, digits and some signs. -/
def isSymbolChar (c : Char) : Bool := c.isAlphanum || "_+-*/!?=<>.".toList.contains c

/-- A run of symbol characters. -/
def scanSymbol? (cs : List Char) : Option (List Char × List Char) :=
  if cs.takeWhile isSymbolChar = [] then none
  else some (cs.takeWhile isSymbolChar, cs.dropWhile isSymbolChar)

/-- The token a text starts with, and the rest of the text. -/
def scan? (cs : List Char) : Option (List Char × List Char) :=
  scanParen? cs <|> scanNumber? cs <|> scanString? cs <|> scanSymbol? cs

/-! ## A token and the rest make up the text -/

theorem append_of_scanParen? {cs t rest : List Char} (h : scanParen? cs = some (t, rest)) :
    cs = t ++ rest ∧ t ≠ [] := by
  unfold scanParen? at h
  split at h <;> grind

theorem append_spanDigits (cs : List Char) : (spanDigits cs).1 ++ (spanDigits cs).2 = cs :=
  List.takeWhile_append_dropWhile

theorem append_spanFraction (cs : List Char) : (spanFraction cs).1 ++ (spanFraction cs).2 = cs := by
  unfold spanFraction
  split
  · rename_i r; have := append_spanDigits r; grind
  · rfl

theorem append_spanSign (cs : List Char) : (spanSign cs).1 ++ (spanSign cs).2 = cs := by
  unfold spanSign; split <;> rfl

theorem append_spanExponent (cs : List Char) : (spanExponent cs).1 ++ (spanExponent cs).2 = cs := by
  unfold spanExponent
  split
  · rfl
  · rename_i c r
    have := append_spanSign r
    have := append_spanDigits (spanSign r).2
    grind

theorem append_of_scanUnsigned? {cs t rest : List Char} (h : scanUnsigned? cs = some (t, rest)) :
    cs = t ++ rest ∧ t ≠ [] := by
  have h1 := append_spanDigits cs
  have h2 := append_spanFraction (spanDigits cs).2
  have h3 := append_spanExponent (spanFraction (spanDigits cs).2).2
  simp only [scanUnsigned?] at h
  split at h
  · simp at h
  · obtain ⟨rfl, rfl⟩ := Prod.mk.inj (Option.some.inj h)
    exact ⟨by rw [List.append_assoc, h3, List.append_assoc, h2, h1], by simp_all⟩

theorem append_of_scanNumber? {cs t rest : List Char} (h : scanNumber? cs = some (t, rest)) :
    cs = t ++ rest ∧ t ≠ [] := by
  unfold scanNumber? at h
  split at h
  · obtain ⟨⟨t', rest'⟩, h', e⟩ := Option.map_eq_some_iff.1 h
    have := append_of_scanUnsigned? h'
    grind
  · exact append_of_scanUnsigned? h

theorem append_of_scanQuoted? {cs t rest : List Char} (h : scanQuoted? cs = some (t, rest)) :
    cs = t ++ rest ∧ t ≠ [] := by
  fun_induction scanQuoted? cs generalizing t rest with
  | case1 | case2 => simp at h
  | case3 => grind
  | case4 _ _ ih | case5 _ _ _ _ _ ih =>
    obtain ⟨⟨t', rest'⟩, h', e⟩ := Option.map_eq_some_iff.1 h
    have := ih h'
    grind

theorem append_of_scanString? {cs t rest : List Char} (h : scanString? cs = some (t, rest)) :
    cs = t ++ rest ∧ t ≠ [] := by
  unfold scanString? at h
  split at h
  · obtain ⟨⟨t', rest'⟩, h', e⟩ := Option.map_eq_some_iff.1 h
    have := append_of_scanQuoted? h'
    grind
  · simp at h

theorem append_of_scanSymbol? {cs t rest : List Char} (h : scanSymbol? cs = some (t, rest)) :
    cs = t ++ rest ∧ t ≠ [] := by
  have := List.takeWhile_append_dropWhile (p := isSymbolChar) (l := cs)
  grind [scanSymbol?]

theorem append_of_scan? {cs t rest : List Char} (h : scan? cs = some (t, rest)) :
    cs = t ++ rest ∧ t ≠ [] := by
  simp only [scan?, Option.orElse_eq_orElse, Option.orElse_eq_or, Option.or_eq_some_iff] at h
  rcases h with h | ⟨-, h | ⟨-, h | ⟨-, h⟩⟩⟩
  · exact append_of_scanParen? h
  · exact append_of_scanNumber? h
  · exact append_of_scanString? h
  · exact append_of_scanSymbol? h

theorem length_lt_of_scan? {cs t rest : List Char} (h : scan? cs = some (t, rest)) :
    rest.length < cs.length := by
  have ⟨e, ht⟩ := append_of_scan? h
  have := List.length_pos_iff.2 ht
  rw [e, List.length_append]; omega

end SmallLisp.Token
