import Mathlib.Data.List.Basic
import SmallLisp.Proofs.Expr.Reader

/-!
# A parser among its tokens

A parser that has been called any number of times, with success or without
(`Parser.Reached`), stands before the tokens from its position on
(`Parser.Reached.standsIn`). What it reads next and where it stops is therefore
told by the tokens alone.

`Parser.reads_spellings`: a call succeeds just on the spellings that start at
the position and are not nested too deep, and `parseAll` just on sequences of
spellings.
-/

namespace SmallLisp.Parser

variable {tokens : List String} {maxDepth : Nat} {p : Parser}

/-- The parsers that any number of calls make of a new one. -/
inductive Reached (tokens : List String) (maxDepth : Nat) : Parser → Prop
  | start : Reached tokens maxDepth ⟨tokens, 0, maxDepth⟩
  | next {p : Parser} : Reached tokens maxDepth p → Reached tokens maxDepth p.next.2

/-- The parser has the tokens from its position on before it. -/
structure StandsIn (tokens : List String) (maxDepth : Nat) (p : Parser) : Prop where
  rest_eq : p.rest = tokens.drop p.position
  position_le : p.position ≤ tokens.length
  maxDepth_eq : p.maxDepth = maxDepth

/-! ## Calls pass tokens -/

theorem run_passes (stack : List OpenList) (position : Nat) (ts : List String) :
    ∃ k ≤ ts.length, (run maxDepth stack position ts).2 = (position + k, ts.drop k) := by
  induction ts generalizing stack position with
  | nil => exact ⟨0, Nat.le_refl 0, rfl⟩
  | cons t ts ih =>
    rw [run]
    cases step maxDepth stack position t with
    | more stack' =>
      obtain ⟨k, hk, h⟩ := ih stack' (position + 1)
      refine ⟨k + 1, Nat.succ_le_succ hk, h.trans ?_⟩
      rw [List.drop_succ_cons, Nat.add_assoc, Nat.add_comm 1 k]
    | done e => exact ⟨1, Nat.succ_le_succ (Nat.zero_le _), rfl⟩
    | fail error => exact ⟨0, Nat.zero_le _, rfl⟩

theorem next_passes (p : Parser) :
    ∃ k ≤ p.rest.length, p.next.2 = ⟨p.rest.drop k, p.position + k, p.maxDepth⟩ := by
  rw [next]
  split
  · exact ⟨0, Nat.zero_le _, rfl⟩
  · obtain ⟨k, hk, h⟩ := @run_passes p.maxDepth [] p.position p.rest
    refine ⟨k, hk, ?_⟩
    simp only [h]

theorem StandsIn.next (h : StandsIn tokens maxDepth p) : StandsIn tokens maxDepth p.next.2 := by
  obtain ⟨k, hk, hn⟩ := next_passes p
  rw [h.rest_eq, List.length_drop] at hk
  have hle := h.position_le
  rw [hn]
  refine ⟨?_, ?_, h.maxDepth_eq⟩
  · show p.rest.drop k = tokens.drop (p.position + k)
    rw [h.rest_eq, List.drop_drop]
  · show p.position + k ≤ tokens.length
    omega

theorem Reached.standsIn (h : Reached tokens maxDepth p) : StandsIn tokens maxDepth p := by
  induction h with
  | start => exact ⟨rfl, Nat.zero_le _, rfl⟩
  | next _ ih => exact ih.next

/-! ## What is read from a position -/

theorem StandsIn.next_iff (h : StandsIn tokens maxDepth p) (e : Expr) (q : Nat) :
    p.next.1 = .ok e ∧ p.next.2.position = q ↔
      q ≤ tokens.length ∧ Spells (tokens.extract p.position q) e ∧ e.height ≤ maxDepth := by
  have hle := h.position_le
  constructor
  · rintro ⟨he, rfl⟩
    obtain ⟨p', hn⟩ : ∃ p', p.next = (.ok e, p') := ⟨p.next.2, Prod.ext he rfl⟩
    obtain ⟨ts, hr, hq, -, hs, hh⟩ := spells_of_next hn
    simp only [hn]
    have hlen : (tokens.drop p.position).length = ts.length + p'.rest.length := by
      rw [← h.rest_eq, hr, List.length_append]
    rw [List.length_drop] at hlen
    refine ⟨by omega, ?_, h.maxDepth_eq ▸ hh⟩
    rw [List.extract_eq_take_drop, hq, Nat.add_sub_cancel_left, ← h.rest_eq, hr,
      List.take_left]
    exact hs
  · rintro ⟨hq, hs, hh⟩
    have hlen := hs.length_pos
    rw [List.extract_eq_take_drop] at hs hlen
    have hcut := List.take_append_drop (q - p.position) (tokens.drop p.position)
    have hn := next_of_spells hs hh p.position ((tokens.drop p.position).drop (q - p.position))
    rw [hcut, List.length_take, List.length_drop] at hn
    rw [List.length_take, List.length_drop] at hlen
    have hp : p = ⟨tokens.drop p.position, p.position, maxDepth⟩ := by
      rw [← h.rest_eq, ← h.maxDepth_eq]
    rw [← hp] at hn
    rw [hn]
    refine ⟨rfl, ?_⟩
    show p.position + min (q - p.position) (tokens.length - p.position) = q
    omega

end SmallLisp.Parser

namespace SmallLisp

/-- After any calls, a parser reads an expression up to a place just if the tokens from its position
to that place spell it and it is not nested deeper than allowed. All tokens are read just if they
spell the expressions one after the other, none of them nested deeper than 256. -/
theorem Parser.reads_spellings :
    (∀ (tokens : List String) (maxDepth : Nat) (p : Parser), Parser.Reached tokens maxDepth p →
      ∀ (e : Expr) (q : Nat), p.next.1 = .ok e ∧ p.next.2.position = q ↔
        q ≤ tokens.length ∧ Spells (tokens.extract p.position q) e ∧ e.height ≤ maxDepth) ∧
    ∀ (tokens : List String) (es : List Expr), parseAll tokens = .ok es ↔
      SpellsItems tokens es ∧ ∀ e ∈ es, e.height ≤ 256 := by
  refine ⟨fun tokens maxDepth p h e q => h.standsIn.next_iff e q, fun tokens es => ?_⟩
  rw [parseAll_eq_ok_iff, Expr.heightOfItems_le]
  rfl

/-- A form inside two lists. -/
def nestedTokens : List String := ["(", "(", "7", ")", ")", "x"]

/-- The limit of two stops the first call inside the inner list; the second call reads the number
there, which is what the token at its position spells. -/
theorem Parser.read_after_failure :
    let p := (Parser.next ⟨nestedTokens, 0, 2⟩).2
    Parser.Reached nestedTokens 2 p ∧ p.position = 2 ∧
      (p.next.1 = .ok (.integer 7) ∧ p.next.2.position = 3) ∧
      (3 ≤ nestedTokens.length ∧ Spells (nestedTokens.extract p.position 3) (.integer 7) ∧
        Expr.height (.integer 7) ≤ 2) := by
  intro p
  have hp : Parser.Reached nestedTokens 2 p := .next .start
  have hr : p.next.1 = .ok (.integer 7) ∧ p.next.2.position = 3 := by decide +kernel
  exact ⟨hp, by decide +kernel, hr, (Parser.reads_spellings.1 nestedTokens 2 p hp _ 3).1 hr⟩

end SmallLisp
