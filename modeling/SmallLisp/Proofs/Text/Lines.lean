import Mathlib.Data.List.Basic
import SmallLisp.Text.Blank

/-!
# The lines of a text

`IsLines`: how a text is made of lines, each ended by a line feed that a
carriage return may stand before, and the last one by the end of the text.
`isLines_lines`: `Text.lines` cuts a text in this way. `lines_line`,
`lines_last`: the lines of a text without carriage returns, one by one.
`exists_lines_append`: where its lines are parted, the text can be cut.
-/

namespace SmallLisp.Text

/-- What a line feed takes along. -/
def IsReturn (w : List Char) : Prop := w = [] ∨ w = ['\r']

/-- The text is made of the lines. -/
inductive IsLines : List Char → List (List Char) → Prop
  | nil : IsLines [] []
  | last {l : List Char} : l ≠ [] → '\n' ∉ l → IsLines l [l]
  | line {l w r : List Char} {ls : List (List Char)} :
    '\n' ∉ l → IsReturn w → IsLines r ls → IsLines (l ++ (w ++ '\n' :: r)) (l :: ls)

theorem IsReturn.isBlank {w : List Char} (h : IsReturn w) : ∀ c ∈ w, isBlank c = true := by
  rcases h with rfl | rfl
  · nofun
  · exact List.forall_mem_singleton.2 (by decide)

theorem IsLines.consFirst {c : Char} {cs : List Char} {ls : List (List Char)} (hc : c ≠ '\n')
    (h : IsLines cs ls) : IsLines (c :: cs) (consFirst c ls) := by
  have hmem {l : List Char} (hl : '\n' ∉ l) : '\n' ∉ c :: l := fun hm =>
    (List.mem_cons.1 hm).elim (fun e => hc e.symm) hl
  cases h with
  | nil => exact .last (List.cons_ne_nil _ _) (hmem List.not_mem_nil)
  | last hne hl => exact .last (List.cons_ne_nil _ _) (hmem hl)
  | @line l w r ls hl hw hr => exact .line (l := c :: l) (hmem hl) hw hr

theorem isLines_lines (cs : List Char) : IsLines cs (lines cs) := by
  fun_induction lines cs with
  | case1 => exact .nil
  | case2 cs ih => exact .line (l := []) (w := []) List.not_mem_nil (.inl rfl) ih
  | case3 cs ih => exact .line (l := []) (w := ['\r']) List.not_mem_nil (.inr rfl) ih
  | case4 c cs hn hr ih => exact ih.consFirst fun e => hn e

theorem IsLines.not_mem {cs : List Char} {ls : List (List Char)} (h : IsLines cs ls) :
    ∀ l ∈ ls, '\n' ∉ l := by
  induction h with
  | nil => exact nofun
  | last _ hl => exact List.forall_mem_singleton.2 hl
  | line hl _ _ ih => exact List.forall_mem_cons.2 ⟨hl, ih⟩

theorem IsLines.mem_text {cs : List Char} {ls : List (List Char)} (h : IsLines cs ls) :
    ∀ l ∈ ls, ∀ c ∈ l, c ∈ cs := by
  induction h with
  | nil => exact nofun
  | last _ _ => exact List.forall_mem_singleton.2 fun c => id
  | @line l w r ls _ _ _ ih =>
    refine List.forall_mem_cons.2 ⟨fun c => List.mem_append_left _, fun m hm c hc => ?_⟩
    exact List.mem_append_right _ (List.mem_append_right _ (List.mem_cons_of_mem _ (ih m hm c hc)))

/-! ## Lines of texts without carriage returns -/

theorem lines_cons {c : Char} (hn : c ≠ '\n') (hr : c ≠ '\r') (cs : List Char) :
    lines (c :: cs) = consFirst c (lines cs) := by
  rw [lines]
  · exact hn
  · rintro ds rfl _
    exact hr rfl

theorem lines_line {l : List Char} (hn : '\n' ∉ l) (hr : '\r' ∉ l) (r : List Char) :
    lines (l ++ '\n' :: r) = l :: lines r := by
  induction l with
  | nil => rfl
  | cons c l ih =>
    obtain ⟨hcn, hn⟩ := not_or.1 (mt List.mem_cons.2 hn)
    obtain ⟨hcr, hr⟩ := not_or.1 (mt List.mem_cons.2 hr)
    rw [List.cons_append, lines_cons (Ne.symm hcn) (Ne.symm hcr), ih hn hr, consFirst]

theorem lines_last {l : List Char} (hne : l ≠ []) (hn : '\n' ∉ l) (hr : '\r' ∉ l) :
    lines l = [l] := by
  induction l with
  | nil => exact absurd rfl hne
  | cons c l ih =>
    obtain ⟨hcn, hn⟩ := not_or.1 (mt List.mem_cons.2 hn)
    obtain ⟨hcr, hr⟩ := not_or.1 (mt List.mem_cons.2 hr)
    rw [lines_cons (Ne.symm hcn) (Ne.symm hcr)]
    by_cases hl : l = []
    · rw [hl]
      rfl
    · rw [ih hl hn hr, consFirst]

/-! ## Texts that are cut -/

/-- A text whose lines are parted can be cut there. -/
theorem exists_lines_append {cs : List Char} {ls ms : List (List Char)}
    (h : lines cs = ls ++ ms) :
    ∃ kept tail, cs = kept ++ tail ∧ lines kept = ls ∧ lines tail = ms := by
  fun_induction lines cs generalizing ls with
  | case1 =>
    obtain ⟨rfl, rfl⟩ := List.append_eq_nil_iff.1 h.symm
    exact ⟨[], [], rfl, rfl, rfl⟩
  | case2 cs ih =>
    rcases List.cons_eq_append_iff.1 h with ⟨rfl, hm⟩ | ⟨ls, rfl, hls⟩
    · exact ⟨[], '\n' :: cs, rfl, rfl, hm.symm⟩
    · obtain ⟨kept, tail, rfl, hk, ht⟩ := ih hls
      exact ⟨'\n' :: kept, tail, rfl, by rw [lines, hk], ht⟩
  | case3 cs ih =>
    rcases List.cons_eq_append_iff.1 h with ⟨rfl, hm⟩ | ⟨ls, rfl, hls⟩
    · exact ⟨[], '\r' :: '\n' :: cs, rfl, rfl, hm.symm⟩
    · obtain ⟨kept, tail, rfl, hk, ht⟩ := ih hls
      exact ⟨'\r' :: '\n' :: kept, tail, rfl, by rw [lines, hk], ht⟩
  | case4 c cs hn hr ih =>
    -- a front part of the text has no line feed behind `c` either
    have hc {kept tail : List Char} (e : cs = kept ++ tail) :
        lines (c :: kept) = consFirst c (lines kept) := by
      rw [lines]
      · exact hn
      · rintro ds rfl rfl
        exact hr (ds ++ tail) rfl e
    cases ls with
    | nil => exact ⟨[], c :: cs, rfl, rfl, (hc (List.append_nil cs).symm).trans h⟩
    | cons l ls =>
      cases hcs : lines cs with
      | nil =>
        rw [hcs, consFirst, List.cons_append] at h
        obtain ⟨rfl, hnil⟩ := List.cons.inj h
        obtain ⟨rfl, rfl⟩ := List.append_eq_nil_iff.1 hnil.symm
        exact ⟨c :: cs, [], (List.append_nil _).symm,
          by rw [hc (List.append_nil cs).symm, hcs, consFirst], rfl⟩
      | cons m rest =>
        rw [hcs, consFirst, List.cons_append] at h
        obtain ⟨rfl, hrest⟩ := List.cons.inj h
        have hparted : lines cs = m :: ls ++ ms := by rw [hcs, hrest, List.cons_append]
        obtain ⟨kept, tail, e, hk, ht⟩ := ih hparted
        exact ⟨c :: kept, tail, by rw [e, List.cons_append], by rw [hc e, hk, consFirst], ht⟩

end SmallLisp.Text
