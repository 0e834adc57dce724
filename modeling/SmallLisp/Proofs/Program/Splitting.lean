import SmallLisp.Proofs.Program.Layout

/-!
# How a text is split

`IsSplitting`: lines are blocks with blank lines around them, each block ends as
soon as its parentheses have closed, and one that leaves parentheses open has no
line behind it.

* `groupLines_eq_iff`: this is how lines are grouped, and the blocks are known
  from it;
* `chunks_split`: the chunks of a text are the blocks of such a splitting of its
  lines, and a chunk whose parentheses have closed is split no further.
-/

namespace SmallLisp

/-- The lines are the blocks, each with the blank lines behind it, and blank lines before them.
Only the last block may leave parentheses open, and then the lines end with it. -/
structure IsSplitting (ls blanks : List (List Char))
    (parts : List (List (List Char) × List (List Char))) : Prop where
  lines_eq : ls = blanks ++ parts.flatMap fun p => p.1 ++ p.2
  blank_before : ∀ l ∈ blanks, l.all Text.isBlank = true
  blank_behind : ∀ p ∈ parts, ∀ l ∈ p.2, l.all Text.isBlank = true
  block : ∀ p ∈ parts, IsBlock p.1
  closed : ∀ p ∈ parts.dropLast, parenBalance p.1.flatten ≤ 0
  last_open : ∀ p ∈ parts.getLast?, 0 < parenBalance p.1.flatten → p.2 = []

variable {ls b gap blanks : List (List Char)} {bs : List (List (List Char))}
  {parts : List (List (List Char) × List (List Char))}

theorem isSplitting_nil_iff :
    IsSplitting ls blanks [] ↔ ls = blanks ∧ ∀ l ∈ blanks, l.all Text.isBlank = true := by
  constructor
  · intro h
    have he := h.lines_eq
    rw [List.flatMap_nil, List.append_nil] at he
    exact ⟨he, h.blank_before⟩
  · rintro ⟨rfl, hb⟩
    exact ⟨(List.append_nil _).symm, hb, nofun, nofun, nofun, nofun⟩

/-- Behind the first block a splitting is one of the lines behind it. -/
theorem isSplitting_cons_iff :
    IsSplitting ls blanks ((b, gap) :: parts) ↔
      ∃ rest, ls = blanks ++ (b ++ rest) ∧ (∀ l ∈ blanks, l.all Text.isBlank = true) ∧ IsBlock b ∧
        (0 < parenBalance b.flatten → gap = [] ∧ parts = []) ∧ IsSplitting rest gap parts := by
  constructor
  · intro h
    obtain ⟨hgap, hbehind⟩ := List.forall_mem_cons.1 h.blank_behind
    obtain ⟨hb, hblock⟩ := List.forall_mem_cons.1 h.block
    refine ⟨gap ++ parts.flatMap fun p => p.1 ++ p.2, ?_, h.blank_before, hb, ?_, rfl, hgap,
      hbehind, hblock, ?_, ?_⟩
    · rw [h.lines_eq, List.flatMap_cons, List.append_assoc]
    · -- What is told of the first block depends on whether it is the last one, too.
      intro hopen
      cases parts with
      | nil => exact ⟨h.last_open (b, gap) rfl hopen, rfl⟩
      | cons p parts =>
        have hle := h.closed (b, gap) List.mem_cons_self
        exact absurd hopen (Int.not_lt.2 hle)
    · cases parts with
      | nil => exact nofun
      | cons p parts => exact fun q hq => h.closed q (List.mem_cons_of_mem _ hq)
    · cases parts with
      | nil => exact nofun
      | cons p parts => exact h.last_open
  · rintro ⟨rest, rfl, hblanks, hb, hopen, h⟩
    refine ⟨?_, hblanks, List.forall_mem_cons.2 ⟨h.blank_before, h.blank_behind⟩,
      List.forall_mem_cons.2 ⟨hb, h.block⟩, ?_, ?_⟩
    · rw [h.lines_eq, List.flatMap_cons, List.append_assoc]
    · cases parts with
      | nil => exact nofun
      | cons p parts =>
        refine List.forall_mem_cons.2 ⟨Int.not_lt.1 fun hlt => ?_, h.closed⟩
        exact List.cons_ne_nil p parts (hopen hlt).2
    · cases parts with
      | nil =>
        rintro q hq hlt
        obtain rfl := Option.some.inj hq
        exact (hopen hlt).1
      | cons p parts => exact h.last_open

theorem Groups.append_blanks (hb : ∀ l ∈ blanks, l.all Text.isBlank = true) (h : Groups ls bs) :
    Groups (blanks ++ ls) bs := by
  induction blanks with
  | nil => exact h
  | cons l blanks ih =>
    rw [List.forall_mem_cons] at hb
    exact .blank hb.1 (ih hb.2)

theorem Groups.exists_isSplitting (h : Groups ls bs) :
    ∃ blanks parts, IsSplitting ls blanks parts ∧ parts.map Prod.fst = bs := by
  induction h with
  | nil => exact ⟨[], [], isSplitting_nil_iff.2 ⟨rfl, nofun⟩, rfl⟩
  | @blank l ls bs hl _ ih =>
    obtain ⟨blanks, parts, hs, rfl⟩ := ih
    refine ⟨l :: blanks, parts, ?_, rfl⟩
    exact { hs with
      lines_eq := by rw [hs.lines_eq, List.cons_append]
      blank_before := List.forall_mem_cons.2 ⟨hl, hs.blank_before⟩ }
  | @closed b ls bs hb hle _ ih =>
    obtain ⟨gap, parts, hs, rfl⟩ := ih
    refine ⟨[], (b, gap) :: parts, isSplitting_cons_iff.2 ⟨ls, rfl, nofun, hb, ?_, hs⟩, rfl⟩
    exact fun hlt => absurd hlt (Int.not_lt.2 hle)
  | @unclosed b hb hlt =>
    refine ⟨[], [(b, [])], isSplitting_cons_iff.2 ⟨[], ?_, nofun, hb, fun _ => ⟨rfl, rfl⟩, ?_⟩, rfl⟩
    · rw [List.nil_append, List.append_nil]
    · exact isSplitting_nil_iff.2 ⟨rfl, nofun⟩

theorem IsSplitting.groups (h : IsSplitting ls blanks parts) : Groups ls (parts.map Prod.fst) := by
  induction parts generalizing ls blanks with
  | nil =>
    obtain ⟨rfl, hb⟩ := isSplitting_nil_iff.1 h
    rw [← List.append_nil ls]
    exact Groups.nil.append_blanks hb
  | cons p parts ih =>
    obtain ⟨b, gap⟩ := p
    obtain ⟨rest, rfl, hblanks, hb, hopen, hrest⟩ := isSplitting_cons_iff.1 h
    refine Groups.append_blanks hblanks ?_
    by_cases hle : parenBalance b.flatten ≤ 0
    · exact .closed hb hle (ih hrest)
    · have hlt := Int.not_le.1 hle
      obtain ⟨rfl, rfl⟩ := hopen hlt
      obtain ⟨rfl, -⟩ := isSplitting_nil_iff.1 hrest
      rw [List.append_nil]
      exact .unclosed hb hlt

/-- Lines are grouped as they are split, and there is one way to split them. -/
theorem groupLines_eq_iff :
    groupLines [] 0 ls = bs ↔ ∃ blanks parts, IsSplitting ls blanks parts ∧
      parts.map Prod.fst = bs := by
  constructor
  · rintro rfl
    exact (groups_groupLines ls).exists_isSplitting
  · rintro ⟨blanks, parts, h, rfl⟩
    exact h.groups.groupLines_eq

/-! ## Chunks and their lines -/

theorem Groups.isBlock (h : Groups ls bs) : ∀ b ∈ bs, IsBlock b := by
  induction h with
  | nil => exact nofun
  | blank _ _ ih => exact ih
  | closed hb _ _ ih => exact List.forall_mem_cons.2 ⟨hb, ih⟩
  | unclosed hb _ => exact List.forall_mem_singleton.2 hb

/-- A block whose parentheses have closed does not end with an empty line. -/
theorem IsBlock.getLast?_ne (h : IsBlock b) (hc : parenBalance b.flatten ≤ 0) :
    b.getLast? ≠ some [] := by
  intro hlast
  obtain ⟨init, rfl⟩ := List.getLast?_eq_some_iff.1 hlast
  by_cases hi : init = []
  · obtain ⟨l, ls, e, hl⟩ := h.starts
    rw [hi, List.nil_append] at e
    rw [← (List.cons.inj e).1] at hl
    cases hl
  · have hopen := h.stays_open init [[]] rfl hi (List.cons_ne_nil _ _)
    have hempty : parenBalance [] = 0 := rfl
    rw [parenBalance_flatten_snoc] at hc
    omega

/-- Joined and cut again, lines are the same. -/
theorem Text.lines_joinLines (hne : b ≠ []) (hl : ∀ l ∈ b, '\n' ∉ l ∧ '\r' ∉ l)
    (hlast : b.getLast? ≠ some []) : lines (joinLines b) = b := by
  induction b with
  | nil => exact absurd rfl hne
  | cons l b ih =>
    obtain ⟨⟨hn, hr⟩, hl⟩ := List.forall_mem_cons.1 hl
    by_cases hb : b = []
    · subst hb
      rw [joinLines_singleton]
      exact lines_last (fun e => hlast (by rw [e]; rfl)) hn hr
    · rw [joinLines_cons l hb, lines_line hn hr, ih hb hl]
      rwa [List.getLast?_cons_of_ne_nil hb] at hlast

theorem splitOn_joinLines (hne : b ≠ []) (hl : ∀ l ∈ b, '\n' ∉ l) :
    (joinLines b).splitOn '\n' = b :=
  List.splitOn_intercalate '\n' hl hne

/-- A block whose parentheses have closed is split no further. -/
theorem IsBlock.groupLines_joinLines (h : IsBlock b) (hc : parenBalance b.flatten ≤ 0)
    (hl : ∀ l ∈ b, '\n' ∉ l ∧ '\r' ∉ l) : groupLines [] 0 (Text.lines (joinLines b)) = [b] := by
  have hg : Groups b [b] := by
    have hclosed := Groups.closed h hc .nil
    rwa [List.append_nil] at hclosed
  rw [Text.lines_joinLines h.ne_nil hl (h.getLast?_ne hc), hg.groupLines_eq]

/-- Cut at their line feeds, the chunks of a text are the blocks of a splitting of its lines, which
is the only one. If the text holds no carriage return, a chunk whose parentheses have closed is
split no further. -/
theorem chunks_split (text : String) :
    (∀ blocks, (chunks text).map (fun chunk => chunk.toList.splitOn '\n') = blocks ↔
      ∃ blanks parts, IsSplitting (Text.lines text.toList) blanks parts ∧
        parts.map Prod.fst = blocks) ∧
    ('\r' ∉ text.toList → ∀ chunk ∈ chunks text, parenBalance chunk.toList ≤ 0 →
      chunks chunk = [chunk]) := by
  have hlines := Text.isLines_lines text.toList
  have hgroups := groups_groupLines (Text.lines text.toList)
  have hn : ∀ b ∈ groupLines [] 0 (Text.lines text.toList), ∀ l ∈ b, '\n' ∉ l :=
    fun b hb l hl => hlines.not_mem l (hgroups.mem_lines b hb l hl)
  constructor
  · intro blocks
    have hcut : (chunks text).map (fun chunk => chunk.toList.splitOn '\n') =
        groupLines [] 0 (Text.lines text.toList) := by
      rw [chunks, List.map_map]
      refine (List.map_congr_left fun b hb => ?_).trans (List.map_id _)
      rw [Function.comp_apply, String.toList_ofList,
        splitOn_joinLines (hgroups.isBlock b hb).ne_nil (hn b hb), id]
    rw [hcut, groupLines_eq_iff]
  · intro hr chunk hchunk hle
    obtain ⟨b, hb, rfl⟩ := List.mem_map.1 hchunk
    have hl : ∀ l ∈ b, '\n' ∉ l ∧ '\r' ∉ l := fun l hl =>
      ⟨hn b hb l hl, fun hm => hr (hlines.mem_text l (hgroups.mem_lines b hb l hl) _ hm)⟩
    rw [String.toList_ofList, parenBalance_joinLines] at hle
    rw [chunks, String.toList_ofList, (hgroups.isBlock b hb).groupLines_joinLines hle hl,
      List.map_singleton]

/-- A chunk with too many closing parentheses, one that goes on over a blank line, and one that is
never closed, which takes the blank line at the end along. -/
theorem chunks_untidy :
    let text := "(a))\n\n (b\n\n\"(\" c))\n(d\n  "
    '\r' ∉ text.toList ∧ chunks text = ["(a))", " (b\n\n\"(\" c))", "(d\n  "] ∧
      (∃ blanks parts, IsSplitting (Text.lines text.toList) blanks parts ∧
        parts.map Prod.fst = (chunks text).map fun chunk => chunk.toList.splitOn '\n') ∧
      parenBalance " (b\n\n\"(\" c))".toList ≤ 0 ∧
      chunks " (b\n\n\"(\" c))" = [" (b\n\n\"(\" c))"] := by
  intro text
  have hr : '\r' ∉ text.toList := by decide +kernel
  have h : chunks text = ["(a))", " (b\n\n\"(\" c))", "(d\n  "] := by decide +kernel
  have hle : parenBalance " (b\n\n\"(\" c))".toList ≤ 0 := by decide +kernel
  have hsplit := chunks_split text
  exact ⟨hr, h, (hsplit.1 _).1 rfl, hle, hsplit.2 hr _ (by rw [h]; decide) hle⟩

end SmallLisp
