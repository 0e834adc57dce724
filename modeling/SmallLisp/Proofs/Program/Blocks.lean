import Mathlib.Data.List.Basic
import SmallLisp.Proofs.Text.Lines
import SmallLisp.Proofs.Token.Balance

/-!
# Lines in blocks

`IsBlock`: lines that stay together, since parentheses are open before each but
the first. `Groups`: blocks that lines are cut into, without the blank lines
between them.

* `groups_groupLines`: `groupLines` cuts lines in this way;
* `exists_chunks_append`: between any two of its chunks, a text can be cut;
* `Text.IsLines.eq_joinLines`: joined again, the lines of a text without
  carriage returns make up the text but for a line feed at its end.
-/

namespace SmallLisp

/-- The first line is not blank, and parentheses are open before every other line. -/
structure IsBlock (b : List (List Char)) : Prop where
  starts : ∃ l ls, b = l :: ls ∧ l.all Text.isBlank = false
  stays_open : ∀ ls ms, b = ls ++ ms → ls ≠ [] → ms ≠ [] → 0 < parenBalance ls.flatten

/-- The lines are those of the blocks, with blank lines between them. Only the last block may leave
parentheses open, and then it takes all lines that follow. -/
inductive Groups : List (List Char) → List (List (List Char)) → Prop
  | nil : Groups [] []
  | blank {l : List Char} {ls : List (List Char)} {bs : List (List (List Char))} :
    l.all Text.isBlank = true → Groups ls bs → Groups (l :: ls) bs
  | closed {b ls : List (List Char)} {bs : List (List (List Char))} :
    IsBlock b → parenBalance b.flatten ≤ 0 → Groups ls bs → Groups (b ++ ls) (b :: bs)
  | unclosed {b : List (List Char)} : IsBlock b → 0 < parenBalance b.flatten → Groups b [b]

theorem IsBlock.ne_nil {b : List (List Char)} (h : IsBlock b) : b ≠ [] := by
  obtain ⟨l, ls, rfl, -⟩ := h.starts
  exact List.cons_ne_nil l ls

theorem isBlock_singleton {l : List Char} (h : l.all Text.isBlank = false) : IsBlock [l] := by
  refine ⟨⟨l, [], rfl, h⟩, fun ls ms e hl hm => ?_⟩
  rcases List.append_eq_singleton_iff.1 e.symm with ⟨h, -⟩ | ⟨-, h⟩
  · exact absurd h hl
  · exact absurd h hm

theorem IsBlock.snoc {b : List (List Char)} (h : IsBlock b) (hb : 0 < parenBalance b.flatten)
    (l : List Char) : IsBlock (b ++ [l]) := by
  constructor
  · obtain ⟨m, ms, rfl, hm⟩ := h.starts
    exact ⟨m, ms ++ [l], rfl, hm⟩
  · intro ls ms e hl hm
    obtain ⟨ms, m, rfl⟩ := (List.eq_nil_or_concat' ms).resolve_left hm
    rw [← List.append_assoc] at e
    have e := List.append_inj_left' e rfl
    by_cases hms : ms = []
    · rw [hms, List.append_nil] at e
      rwa [← e]
    · exact h.stays_open ls ms e hl hms

/-! ## How lines are grouped -/

theorem groupLines_blank {l : List Char} (h : l.all Text.isBlank = true) (ls : List (List Char)) :
    groupLines [] 0 (l :: ls) = groupLines [] 0 ls := by
  rw [groupLines, if_pos ⟨rfl, h⟩]

theorem groupLines_cons {block : List (List Char)} {l : List Char}
    (h : block ≠ [] ∨ l.all Text.isBlank = false) (balance : Int) (ls : List (List Char)) :
    groupLines block balance (l :: ls) =
      if balance + parenBalance l ≤ 0 then (block ++ [l]) :: groupLines [] 0 ls
      else groupLines (block ++ [l]) (balance + parenBalance l) ls := by
  rw [groupLines, if_neg]
  rintro ⟨hb, hl⟩
  rcases h with h | h
  · exact h hb
  · rw [hl] at h
    cases h

theorem groupLines_nil {block : List (List Char)} (h : block ≠ []) (balance : Int) :
    groupLines block balance [] = [block] := by
  rw [groupLines, if_neg h]

/-- A line that is not passed over stands in a block, behind the lines of it that came before. -/
theorem exists_mem_groupLines {block : List (List Char)} {l : List Char}
    (h : block ≠ [] ∨ l.all Text.isBlank = false) (balance : Int) (ls : List (List Char)) :
    ∃ rest, block ++ l :: rest ∈ groupLines block balance (l :: ls) := by
  rw [groupLines_cons h]
  induction ls generalizing block l balance with
  | nil =>
    rw [groupLines_nil (List.concat_ne_nil l block)]
    exact ⟨[], by split <;> exact List.mem_cons_self⟩
  | cons m ls ih =>
    split
    · exact ⟨[], List.mem_cons_self⟩
    · have hne : block ++ [l] ≠ [] := List.concat_ne_nil l block
      obtain ⟨rest, hr⟩ := ih (.inl hne) (balance + parenBalance l)
      rw [← groupLines_cons (.inl hne)] at hr
      exact ⟨m :: rest, by rwa [List.append_cons block l (m :: rest)]⟩

theorem parenBalance_flatten_snoc (b : List (List Char)) (l : List Char) :
    parenBalance (b ++ [l]).flatten = parenBalance b.flatten + parenBalance l := by
  rw [List.flatten_append, parenBalance_append, List.flatten_singleton]

/-- With the next line a block is complete, or it goes on. -/
theorem groups_step {block ls : List (List Char)} {l : List Char} (hl : IsBlock (block ++ [l]))
    (hne : block ≠ [] ∨ l.all Text.isBlank = false)
    (hclosed : Groups ls (groupLines [] 0 ls))
    (hopen : ∀ b, IsBlock b → 0 < parenBalance b.flatten →
      Groups (b ++ ls) (groupLines b (parenBalance b.flatten) ls)) :
    Groups (block ++ l :: ls) (groupLines block (parenBalance block.flatten) (l :: ls)) := by
  rw [groupLines_cons hne, ← parenBalance_flatten_snoc, List.append_cons]
  split
  · rename_i hle
    exact .closed hl hle hclosed
  · rename_i hgt
    exact hopen _ hl (by omega)

theorem groups_groupLines_open (ls : List (List Char)) :
    Groups ls (groupLines [] 0 ls) ∧
      ∀ b, IsBlock b → 0 < parenBalance b.flatten →
        Groups (b ++ ls) (groupLines b (parenBalance b.flatten) ls) := by
  induction ls with
  | nil =>
    refine ⟨.nil, fun b hb hp => ?_⟩
    rw [groupLines_nil hb.ne_nil, List.append_nil]
    exact .unclosed hb hp
  | cons l ls ih =>
    refine ⟨?_, fun b hb hp => groups_step (hb.snoc hp l) (.inl hb.ne_nil) ih.1 ih.2⟩
    cases hl : l.all Text.isBlank with
    | true =>
      rw [groupLines_blank hl]
      exact .blank hl ih.1
    | false => exact @groups_step [] ls l (isBlock_singleton hl) (.inr hl) ih.1 ih.2

theorem groups_groupLines (ls : List (List Char)) : Groups ls (groupLines [] 0 ls) :=
  (groups_groupLines_open ls).1

theorem groupLines_isBlock_append {pre post : List (List Char)} {l : List Char}
    (h : IsBlock (pre ++ l :: post)) (ls : List (List Char)) :
    groupLines pre (parenBalance pre.flatten) (l :: (post ++ ls)) =
      if parenBalance (pre ++ l :: post).flatten ≤ 0
      then (pre ++ l :: post) :: groupLines [] 0 ls
      else groupLines (pre ++ l :: post) (parenBalance (pre ++ l :: post).flatten) ls := by
  have hne : pre ≠ [] ∨ l.all Text.isBlank = false := by
    obtain ⟨m, ms, e, hm⟩ := h.starts
    by_cases hp : pre = []
    · rw [hp, List.nil_append] at e
      exact .inr ((List.cons.inj e).1 ▸ hm)
    · exact .inl hp
  rw [groupLines_cons hne, ← parenBalance_flatten_snoc]
  induction post generalizing pre l with
  | nil => rfl
  | cons m post ih =>
    rw [List.append_cons pre l (m :: post)] at h ⊢
    have hpre : pre ++ [l] ≠ [] := List.concat_ne_nil l pre
    have ho := h.stays_open (pre ++ [l]) (m :: post) rfl hpre (List.cons_ne_nil m post)
    rw [if_neg (by omega), List.cons_append, groupLines_cons (.inl hpre),
      ← parenBalance_flatten_snoc]
    exact ih h (.inl hpre)

theorem IsBlock.groupLines_append {b : List (List Char)} (h : IsBlock b) (ls : List (List Char)) :
    groupLines [] 0 (b ++ ls) =
      if parenBalance b.flatten ≤ 0 then b :: groupLines [] 0 ls
      else groupLines b (parenBalance b.flatten) ls := by
  obtain ⟨l, post, rfl⟩ := List.exists_cons_of_ne_nil h.ne_nil
  exact @groupLines_isBlock_append [] post l h ls

/-- Lines can be cut into blocks in one way only. -/
theorem Groups.groupLines_eq {ls : List (List Char)} {bs : List (List (List Char))}
    (h : Groups ls bs) : groupLines [] 0 ls = bs := by
  induction h with
  | nil => rfl
  | blank hl _ ih => rw [groupLines_blank hl, ih]
  | closed hb hc _ ih => rw [hb.groupLines_append, if_pos hc, ih]
  | @unclosed b hb ho =>
    rw [← List.append_nil b, hb.groupLines_append, if_neg (by omega), groupLines_nil hb.ne_nil,
      List.append_nil]

theorem Groups.mem_lines {ls : List (List Char)} {bs : List (List (List Char))} (h : Groups ls bs) :
    ∀ b ∈ bs, ∀ l ∈ b, l ∈ ls := by
  induction h with
  | nil => exact nofun
  | blank _ _ ih => exact fun b hb l hl => List.mem_cons_of_mem _ (ih b hb l hl)
  | closed _ _ _ ih =>
    refine List.forall_mem_cons.2 ⟨fun l => List.mem_append_left _, fun b hb l hl => ?_⟩
    exact List.mem_append_right _ (ih b hb l hl)
  | unclosed _ _ => exact List.forall_mem_singleton.2 fun l => id

/-- Where blocks are parted, so are the lines. -/
theorem Groups.exists_append {ls : List (List Char)} {bs cs : List (List (List Char))}
    (h : Groups ls (bs ++ cs)) : ∃ ms ns, ls = ms ++ ns ∧ Groups ms bs ∧ Groups ns cs := by
  generalize hds : bs ++ cs = ds at h
  induction h generalizing bs with
  | nil =>
    obtain ⟨rfl, rfl⟩ := List.append_eq_nil_iff.1 hds
    exact ⟨[], [], rfl, .nil, .nil⟩
  | @blank l ls ds hl _ ih =>
    obtain ⟨ms, ns, rfl, hm, hn⟩ := ih hds
    exact ⟨l :: ms, ns, rfl, .blank hl hm, hn⟩
  | @closed b ls ds hb hc hg ih =>
    rcases List.append_eq_cons_iff.1 hds with ⟨rfl, rfl⟩ | ⟨bs, rfl, rfl⟩
    · exact ⟨[], b ++ ls, rfl, .nil, .closed hb hc hg⟩
    · obtain ⟨ms, ns, rfl, hm, hn⟩ := ih rfl
      exact ⟨b ++ ms, ns, (List.append_assoc ..).symm, .closed hb hc hm, hn⟩
  | @unclosed b hb ho =>
    rcases List.append_eq_singleton_iff.1 hds with ⟨rfl, rfl⟩ | ⟨rfl, rfl⟩
    · exact ⟨[], b, rfl, .nil, .unclosed hb ho⟩
    · exact ⟨b, [], (List.append_nil b).symm, .unclosed hb ho, .nil⟩

/-- A text whose chunks are parted can be cut there. -/
theorem exists_chunks_append {text : String} {as bs : List String} (h : chunks text = as ++ bs) :
    ∃ kept tail, text = kept ++ tail ∧ chunks kept = as ∧ chunks tail = bs := by
  obtain ⟨as, bs, hg, rfl, rfl⟩ := List.map_eq_append_iff.1 h
  have hgroups := groups_groupLines (Text.lines text.toList)
  rw [hg] at hgroups
  obtain ⟨ms, ns, hl, hm, hn⟩ := hgroups.exists_append
  obtain ⟨kept, tail, ht, rfl, rfl⟩ := Text.exists_lines_append hl
  refine ⟨.ofList kept, .ofList tail, ?_, ?_, ?_⟩
  · rw [← String.ofList_append, ← ht, String.ofList_toList]
  · rw [chunks, String.toList_ofList, hm.groupLines_eq]
  · rw [chunks, String.toList_ofList, hn.groupLines_eq]

/-! ## Joined lines -/

theorem joinLines_singleton (l : List Char) : joinLines [l] = l := List.intercalate_singleton

theorem joinLines_cons (l : List Char) {ls : List (List Char)} (h : ls ≠ []) :
    joinLines (l :: ls) = l ++ '\n' :: joinLines ls := by
  rw [joinLines, List.intercalate_cons_of_ne_nil h, List.append_assoc]
  rfl

theorem joinLines_append {as bs : List (List Char)} (ha : as ≠ []) (hb : bs ≠ []) :
    joinLines (as ++ bs) = joinLines as ++ '\n' :: joinLines bs := by
  induction as with
  | nil => exact absurd rfl ha
  | cons a as ih =>
    by_cases h : as = []
    · rw [h, joinLines_singleton, List.singleton_append, joinLines_cons a hb]
    · rw [List.cons_append, joinLines_cons a (List.append_ne_nil_of_left_ne_nil h bs), ih h,
        joinLines_cons a h, List.append_assoc, List.cons_append]

/-- Without carriage returns nothing but a line feed at the end is lost between a text and its
lines. -/
theorem Text.IsLines.eq_joinLines {cs : List Char} {ls : List (List Char)} (h : IsLines cs ls)
    (hr : '\r' ∉ cs) : cs = joinLines ls ∨ cs = joinLines ls ++ ['\n'] := by
  induction h with
  | nil => exact .inl rfl
  | last _ _ => exact .inl (joinLines_singleton _).symm
  | @line l w r ls hl hw hrest ih =>
    have hw' : w = [] := hw.resolve_right fun e => hr (by simp [e])
    subst hw'
    have hr' : '\r' ∉ r := fun hm => hr (by simp [hm])
    by_cases hls : ls = []
    · subst hls
      cases hrest
      exact .inr (by rw [joinLines_singleton, List.nil_append])
    · rw [joinLines_cons l hls, List.append_assoc, List.cons_append, List.nil_append]
      rcases ih hr' with e | e
      · exact .inl (by rw [← e])
      · exact .inr (by rw [← e])

end SmallLisp
