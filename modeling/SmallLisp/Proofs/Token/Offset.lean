import Mathlib.Data.String.Basic
import SmallLisp.Proofs.Token.Continuation
import SmallLisp.Proofs.Token.Decomposition

/-!
# Texts behind other texts

A text that is read to its end is read as the same tokens in front of blanks and
another text, and that one is read as it is alone, with the offset of its error
moved by the bytes before it (`tokenize_append`).
-/

namespace SmallLisp

/-! ## Bytes -/

theorem Text.utf8Length_append (cs ds : List Char) :
    utf8Length (cs ++ ds) = utf8Length cs + utf8Length ds := by
  induction cs with
  | nil => exact (Nat.zero_add _).symm
  | cons c cs ih => rw [List.cons_append, utf8Length, utf8Length, ih, Nat.add_assoc]

theorem Text.utf8Length_ofList (cs : List Char) :
    utf8Length cs = (String.ofList cs).utf8ByteSize := by
  rw [String.utf8ByteSize_ofList]
  induction cs with
  | nil => rfl
  | cons c cs ih => rw [utf8Length, String.utf8Len_cons, ih, Nat.add_comm]

theorem Text.utf8Length_toList (s : String) : utf8Length s.toList = s.utf8ByteSize := by
  rw [utf8Length_ofList, String.ofList_toList]

/-! ## Tokens -/

/-- The error `n` bytes further on. -/
def TokenError.later (n : Nat) (e : TokenError) : TokenError := ⟨n + e.offset, e.found⟩

namespace Token

/-- What reading leaves is the end of the text. -/
theorem utf8Length_scanAll_le (cs : List Char) :
    Text.utf8Length (scanAll cs).2 ≤ Text.utf8Length cs := by
  obtain ⟨-, blanks, parts, h, -⟩ := exists_isReading cs
  have he := congrArg Text.utf8Length h.text_eq
  rw [Text.utf8Length_append, Text.utf8Length_append] at he
  omega

end Token

/-- The place where reading stops, and what is rejected there. -/
theorem tokenize_of_scanAll {text : String} {ts : List (List Char)} {c : Char} {left : List Char}
    (h : Token.scanAll text.toList = (ts, c :: left)) :
    tokenize text = .error ⟨text.utf8ByteSize - Text.utf8Length (c :: left),
      String.ofList (Token.rejected (c :: left))⟩ := by
  unfold tokenize
  rw [h, Text.utf8Length_toList]

/-! ## Texts behind blanks -/

section

variable {a w b : String} {ts : List String} (h : tokenize a = .ok ts) (hne : w ≠ "")
  (hw : ∀ c ∈ w.toList, Text.isBlank c = true)

include h hne hw

theorem scanAll_append_blanks :
    Token.scanAll (a ++ w ++ b).toList =
      (ts.map String.toList ++ (Token.scanAll b.toList).1, (Token.scanAll b.toList).2) := by
  have ha := tokenize_eq_ok_iff.1 h
  have hs : Token.Stops (w.toList ++ b.toList) :=
    Token.stops_append_of_blank hw fun hnil => absurd (String.toList_eq_nil_iff.1 hnil) hne
  rw [String.toList_append, String.toList_append, List.append_assoc,
    Token.scanAll_append_left (by rw [ha]) hs, ha, Token.scanAll_append_of_blank hw]

/-- Behind a text that is read to its end, the tokens of another one are added to those of the
first, and its error is told behind the bytes before it. -/
theorem tokenize_append :
    tokenize (a ++ w ++ b) =
      ((tokenize b).mapError (.later (a ++ w).utf8ByteSize)).map (ts ++ ·) := by
  have hs := scanAll_append_blanks (b := b) h hne hw
  rcases hb : Token.scanAll b.toList with ⟨us, _ | ⟨c, left⟩⟩
  · have hu : tokenize b = .ok (us.map String.ofList) := by rw [tokenize, hb]
    have hub := tokenize_eq_ok_iff.1 hu
    rw [hu]
    refine tokenize_eq_ok_iff.2 ?_
    rw [hs, hub, List.map_append]
  · -- What is left is the end of `b`, so that offsets count from the start of `a` instead.
    have hle := Token.utf8Length_scanAll_le b.toList
    rw [hb] at hs
    rw [hb, Text.utf8Length_toList] at hle
    rw [tokenize_of_scanAll hs, tokenize_of_scanAll hb, String.utf8ByteSize_append,
      Nat.add_sub_assoc hle]
    rfl

theorem tokenize_append_of_ok {us : List String} (hb : tokenize b = .ok us) :
    tokenize (a ++ w ++ b) = .ok (ts ++ us) := by
  rw [tokenize_append h hne hw, hb]
  rfl

end

end SmallLisp
