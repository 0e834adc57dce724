import SmallLisp.Console.Session
import SmallLisp.Proofs.Program.Sequence

/-!
# The console runs chunks

Between its commands, the console takes lines together just as a text is cut
into chunks.

* `Session.takeAll_groupLines`: this holds, by induction on the lines, of a
  session that already has the lines of an unfinished block;
* `Session.takeAll_chunks`: so program text at the console comes to what its
  chunks come to, and to what they come to from a file; a form that the input
  leaves open is not run.

Lines are edited before they are taken (`LineEditor.EditsTo`). Of the editor
nothing is asked but that it keeps lines without backspaces, so that a text
without any is taken as it is typed.
-/

namespace SmallLisp

/-- The text has more opening than closing parentheses. -/
def IsUnclosed (text : String) : Prop := text.toList.count ')' < text.toList.count '('
deriving Decidable

/-- The text begins, on its first line, with a colon behind blanks. -/
def BeginsWithColon (text : String) : Prop :=
  (Text.trim (text.toList.takeWhile (· ≠ '\n'))).head? = some ':'
deriving Decidable

/-- The texts without the last one, if that leaves parentheses open. -/
def dropUnclosed : List String → List String
  | [] => []
  | [text] => if IsUnclosed text then [] else [text]
  | text :: next :: texts => text :: dropUnclosed (next :: texts)

namespace Console.LineEditor

variable {edit : LineEditor}

/-- The lines of the second text are those of the first one when they have been edited. -/
def EditsTo (edit : LineEditor) (typed text : String) : Prop :=
  (Text.lines typed.toList).map edit = (Text.lines text.toList).map some

instance (edit : LineEditor) (typed text : String) : Decidable (edit.EditsTo typed text) :=
  inferInstanceAs (Decidable (_ = _))

/-- A text without backspaces is taken as it is. -/
theorem KeepsPlain.editsTo_self (hplain : edit.KeepsPlain) {text : String}
    (h : backspace ∉ text.toList) : edit.EditsTo text text := by
  refine List.map_congr_left fun l hl => hplain l fun hb => h ?_
  exact (Text.isLines_lines text.toList).mem_text l hl _ hb

end Console.LineEditor

theorem dropUnclosed_cons {text : String} (h : ¬ IsUnclosed text) (texts : List String) :
    dropUnclosed (text :: texts) = text :: dropUnclosed texts := by
  cases texts with
  | nil => exact if_neg h
  | cons next texts => rfl

theorem dropUnclosed_spec (texts : List String) :
    dropUnclosed texts = texts ∨
      ∃ text, IsUnclosed text ∧ texts = dropUnclosed texts ++ [text] := by
  fun_induction dropUnclosed texts with
  | case1 => exact .inl rfl
  | case2 text h => exact .inr ⟨text, h, rfl⟩
  | case3 text h => exact .inl rfl
  | case4 text next texts ih =>
    rcases ih with e | ⟨last, hl, e⟩
    · exact .inl (by rw [e])
    · exact .inr ⟨last, hl, by rw [List.cons_append, ← e]⟩

/-! ## Blocks as texts -/

theorem isUnclosed_joinLines {b : List (List Char)} :
    IsUnclosed (String.ofList (joinLines b)) ↔ 0 < parenBalance b.flatten := by
  rw [← parenBalance_joinLines, IsUnclosed, String.toList_ofList, parenBalance]
  omega

theorem takeWhile_joinLines {l : List Char} (h : '\n' ∉ l) (ls : List (List Char)) :
    (joinLines (l :: ls)).takeWhile (· ≠ '\n') = l := by
  have hl : ∀ c ∈ l, decide (c ≠ '\n') = true := fun c hc =>
    decide_eq_true fun e => h (e ▸ hc)
  by_cases hls : ls = []
  · rw [hls, joinLines_singleton, List.takeWhile_eq_self_iff.2 hl]
  · rw [joinLines_cons l hls, List.takeWhile_append_of_pos hl]
    simp

theorem Command.ofLine?_eq_none {line : List Char} (h : (Text.trim line).head? ≠ some ':') :
    ofLine? line = none := by
  simp only [ofLine?, if_neg h]

/-- A chunk that does not begin with a colon has a first line that is not a command. -/
theorem Groups.head_not_command {ls : List (List Char)} {bs : List (List (List Char))}
    (h : Groups ls bs) (hl : ∀ l ∈ ls, '\n' ∉ l)
    (hc : ∀ b ∈ bs, ¬ BeginsWithColon (String.ofList (joinLines b))) :
    ∀ b ∈ bs, ∀ l ∈ b.head?, Command.ofLine? l = none := by
  intro b hb l hlb
  obtain ⟨ms, rfl⟩ := List.head?_eq_some_iff.1 hlb
  have hcolon := hc _ hb
  rw [BeginsWithColon, String.toList_ofList,
    takeWhile_joinLines (hl l (h.mem_lines _ hb l List.mem_cons_self))] at hcolon
  exact Command.ofLine?_eq_none hcolon

namespace Session

/-! ## Lines of a block -/

/-- What a session holds of the lines of an unfinished block. -/
def heldLines (block : List (List Char)) : Option (List Char) :=
  if block = [] then none else some (joinLines block)

section Host

variable [Host] {edit : Console.LineEditor} {session : Session} {files : Files}
  {block : List (List Char)} {l : List Char}

theorem takeEdited_blank (hp : session.pending = none) (hl : l.all Text.isBlank = true) :
    session.takeEdited files l = ⟨"", session, .running⟩ := by
  unfold takeEdited
  rw [hp]
  exact if_pos hl

theorem takeEdited_of_block (hp : session.pending = heldLines block)
    (hl : block ≠ [] ∨ l.all Text.isBlank = false) (hc : block = [] → Command.ofLine? l = none) :
    session.takeEdited files l = session.runWhenClosed (joinLines (block ++ [l])) := by
  unfold takeEdited
  rw [hp]
  by_cases hb : block = []
  · subst hb
    have hblank := hl.resolve_left fun h => h rfl
    have hcommand : session.command? l = none := by
      rw [command?, hp]
      exact hc rfl
    simp only [heldLines, if_pos, hblank, hcommand, List.nil_append, joinLines_singleton]
    rfl
  · simp only [heldLines, if_neg hb]
    rw [joinLines_append hb (List.cons_ne_nil l []), joinLines_singleton]

theorem runWhenClosed_open (h : 0 < parenBalance block.flatten) :
    session.runWhenClosed (joinLines block) =
      ⟨"", { session with pending := some (joinLines block) }, .running⟩ := by
  have hu := isUnclosed_joinLines.2 h
  rw [IsUnclosed, String.toList_ofList] at hu
  exact if_pos hu

theorem runWhenClosed_closed (h : parenBalance block.flatten ≤ 0) :
    session.runWhenClosed (joinLines block) =
      ⟨showResult (session.evaluator.runText (String.ofList (joinLines block)) session.env).1,
        { session with
          env := (session.evaluator.runText (String.ofList (joinLines block)) session.env).2
          pending := none }, .running⟩ := by
  have hu := mt isUnclosed_joinLines.1 (Int.not_lt.2 h)
  rw [IsUnclosed, String.toList_ofList] at hu
  exact if_neg hu

/-! ## Replies -/

/-- The reply of a session that runs texts and is over then: all results, and the last
environment. -/
structure Runs (session : Session) (texts : List String) (reply : Reply) : Prop where
  output : reply.output =
    String.join ((session.evaluator.runAll texts session.env).1.map showResult) ++ Console.farewell
  env : reply.session.env = (session.evaluator.runAll texts session.env).2
  status : reply.status = .closed

theorem takeAll_cons {raw : List Char} {reply : Reply} (ht : session.take edit files raw = reply)
    (hs : reply.status = .running) (raws : List (List Char)) :
    session.takeAll edit files (raw :: raws) =
      { reply.session.takeAll edit files raws with
        output := reply.output ++ (reply.session.takeAll edit files raws).output } := by
  rw [takeAll, ht]
  exact if_pos hs

theorem runs_nil (session : Session) (edit : Console.LineEditor) (files : Files) :
    session.Runs [] (session.takeAll edit files []) :=
  ⟨String.empty_append.symm, rfl, rfl⟩

/-- A line after which nothing has changed but the lines that are held. -/
theorem Runs.hold {raw : List Char} {raws : List (List Char)} {texts : List String}
    {pending : Option (List Char)}
    (ht : session.take edit files raw = ⟨"", { session with pending }, .running⟩)
    (h : { session with pending }.Runs texts ({ session with pending }.takeAll edit files raws)) :
    session.Runs texts (session.takeAll edit files (raw :: raws)) := by
  rw [takeAll_cons ht rfl]
  exact ⟨String.empty_append.trans h.output, h.env, h.status⟩

/-- A line that completes a text. -/
theorem Runs.cons {raw : List Char} {raws : List (List Char)} {text : String}
    {texts : List String} {result : Except RunError Value} {env : Environment}
    (hr : session.evaluator.runText text session.env = (result, env))
    (ht : session.take edit files raw =
      ⟨showResult result, { session with env, pending := none }, .running⟩)
    (h : { session with env, pending := none }.Runs texts
      ({ session with env, pending := none }.takeAll edit files raws)) :
    session.Runs (text :: texts) (session.takeAll edit files (raw :: raws)) := by
  rw [takeAll_cons ht rfl]
  refine ⟨?_, ?_, h.status⟩
  · rw [Evaluator.runAll_cons, hr, List.map_cons, String.join_cons, String.append_assoc]
    exact congrArg (showResult result ++ ·) h.output
  · rw [Evaluator.runAll_cons, hr]
    exact h.env

/-- A session that holds the lines of an unfinished block takes the lines that follow, as they have
been edited, in the groups that `groupLines` makes of them. -/
theorem takeAll_groupLines {raws ls : List (List Char)}
    (he : raws.map edit = ls.map some) (hp : session.pending = heldLines block)
    (hb : block ≠ [] → 0 < parenBalance block.flatten)
    (hc : ∀ b ∈ groupLines block (parenBalance block.flatten) ls, ∀ l ∈ b.head?,
      Command.ofLine? l = none) :
    session.Runs
      (dropUnclosed ((groupLines block (parenBalance block.flatten) ls).map
        fun b => String.ofList (joinLines b)))
      (session.takeAll edit files raws) := by
  induction ls generalizing raws block session with
  | nil =>
    obtain rfl := List.map_eq_nil_iff.1 he
    by_cases hnil : block = []
    · subst hnil
      exact runs_nil session edit files
    · rw [groupLines_nil hnil, List.map_singleton, dropUnclosed,
        if_pos (isUnclosed_joinLines.2 (hb hnil))]
      exact runs_nil session edit files
  | cons l ls ih =>
    obtain ⟨raw, raws, rfl, hl, he⟩ := List.map_eq_cons_iff.1 he
    have ht : session.take edit files raw = session.takeEdited files l := by rw [take, hl]
    by_cases hblank : block = [] ∧ l.all Text.isBlank = true
    · obtain ⟨rfl, hlb⟩ := hblank
      have hg : groupLines [] (parenBalance ([] : List (List Char)).flatten) (l :: ls) =
        groupLines [] 0 ls := groupLines_blank hlb ls
      rw [hg] at hc ⊢
      exact .hold (ht.trans (takeEdited_blank hp hlb)) (ih he hp hb hc)
    have hne : block ≠ [] ∨ l.all Text.isBlank = false := by
      rw [← Bool.not_eq_true]
      exact not_and_or.1 hblank
    have hcommand : block = [] → Command.ofLine? l = none := by
      rintro rfl
      obtain ⟨rest, hr⟩ := exists_mem_groupLines hne _ ls
      exact hc _ hr l rfl
    rw [groupLines_cons hne, ← parenBalance_flatten_snoc] at hc ⊢
    split at hc
    · rename_i hle
      rw [if_pos hle, List.map_cons, dropUnclosed_cons (mt isUnclosed_joinLines.1 (by omega))]
      rw [takeEdited_of_block hp hne hcommand, runWhenClosed_closed hle] at ht
      exact .cons rfl ht (ih he rfl (fun h => absurd rfl h) (List.forall_mem_cons.1 hc).2)
    · rename_i hgt
      have hopen : 0 < parenBalance (block ++ [l]).flatten := by omega
      have hheld : some (joinLines (block ++ [l])) = heldLines (block ++ [l]) :=
        (if_neg (List.concat_ne_nil l block)).symm
      rw [takeEdited_of_block hp hne hcommand, runWhenClosed_open hopen] at ht
      rw [if_neg hgt]
      exact .hold ht (ih he hheld (fun _ => hopen) hc)

/-- Program text at the console, none of whose chunks begins with a colon, comes to what its chunks
come to, but a last chunk that leaves parentheses open is not run. What the session shows before it
takes its leave, and the environment it leaves, are those of a file with the same text but for such
a chunk. The text is what the lines typed are edited to, and what is typed if it has no
backspace. -/
theorem takeAll_chunks {edit : Console.LineEditor} (hplain : edit.KeepsPlain) (session : Session)
    (hp : session.pending = none) (files : Files) {text : String}
    (hc : ∀ chunk ∈ chunks text, ¬ BeginsWithColon chunk) :
    (Console.backspace ∉ text.toList → edit.EditsTo text text) ∧
    ∀ typed, edit.EditsTo typed text →
      let reply := session.takeAll edit files (Text.lines typed.toList)
      session.Runs (dropUnclosed (chunks text)) reply ∧
        ∃ kept tail, text = kept ++ tail ∧ chunks text = chunks kept ++ chunks tail ∧
          (tail = "" ∨ ∃ chunk, IsUnclosed chunk ∧ chunks tail = [chunk]) ∧
          chunks kept = dropUnclosed (chunks text) ∧
          ∀ (files' : Files) (path : String), files' path = .ok kept →
            reply.output = (session.load files' path).1 ++ Console.farewell ∧
              reply.session.env = (session.load files' path).2.1.env := by
  refine ⟨hplain.editsTo_self, fun typed he => ?_⟩
  intro reply
  have hgroups := groups_groupLines (Text.lines text.toList)
  have hcommand := hgroups.head_not_command (Text.isLines_lines _).not_mem fun b hb =>
    hc _ (List.mem_map_of_mem hb)
  have hr : session.Runs (dropUnclosed (chunks text)) reply :=
    takeAll_groupLines he hp (fun h => absurd rfl h) hcommand
  have hload {kept : String} (hk : chunks kept = dropUnclosed (chunks text)) {files' : Files}
      {path : String} (hf : files' path = .ok kept) :
      reply.output = (session.load files' path).1 ++ Console.farewell ∧
        reply.session.env = (session.load files' path).2.1.env := by
    simp only [load, hf, Evaluator.runChunks, hk]
    exact ⟨hr.output, hr.env⟩
  refine ⟨hr, ?_⟩
  rcases dropUnclosed_spec (chunks text) with e | ⟨chunk, hu, e⟩
  · have hnil : chunks "" = [] := rfl
    exact ⟨text, "", String.append_empty.symm, by rw [hnil, List.append_nil], .inl rfl, e.symm,
      fun _ _ => hload e.symm⟩
  · obtain ⟨kept, tail, ht, hk, htail⟩ := exists_chunks_append e
    exact ⟨kept, tail, ht, by rw [hk, htail, ← e], .inr ⟨chunk, hu, htail⟩, hk,
      fun _ _ => hload hk⟩

end Host

/-- Text at the console with a backspace, a carriage return, a closing parenthesis too many and a
form that is left open. -/
def untidy : String := "(setq a 12\x08)\n\n(+ a\n2) a)\r\nb\n(f\n"

/-- The text of `untidy` without the backspace and what it takes back. -/
def untidyEdited : String := "(setq a 1)\n\n(+ a\n2) a)\r\nb\n(f\n"

/-- Of the four chunks the first three are run, and the second and the third one fail. The editor is
the one of the console that runs. -/
theorem takeAll_untidy :
    let session : Session := ⟨⟨8⟩, .initial, none⟩
    let files : Files := fun _ => .error .missing
    let reply := session.takeAll Console.editLine? files (Text.lines untidy.toList)
    (Console.editLine?.KeepsPlain ∧ session.pending = none ∧
      ∀ chunk ∈ chunks untidyEdited, ¬ BeginsWithColon chunk) ∧
    (Console.editLine?.EditsTo untidy untidyEdited ∧
      session.Runs (dropUnclosed (chunks untidyEdited)) reply) ∧
    dropUnclosed (chunks untidyEdited) = ["(setq a 1)", "(+ a\n2) a)", "b"] ∧
    reply.output = unlines ["1", "Error: ParseError: unexpected token ')'",
      "Error: EvalError: undefined symbol: b", "Goodbye!"] := by
  intro session files reply
  have he : Console.editLine?.EditsTo untidy untidyEdited := by decide +kernel
  have hc : ∀ chunk ∈ chunks untidyEdited, ¬ BeginsWithColon chunk := by decide +kernel
  have hruns := takeAll_chunks Console.keepsPlain_editLine? session rfl files hc
  exact ⟨⟨Console.keepsPlain_editLine?, rfl, hc⟩, ⟨he, (hruns.2 untidy he).1⟩,
    by decide +kernel, by decide +kernel⟩

/-- The chunks of a text with a backspace are not what the console runs: here the chunk is no text
that can be read, but the line is, once its backspace has been obeyed. -/
theorem takeAll_ne_of_backspace :
    let session : Session := ⟨⟨8⟩, .initial, none⟩
    let files : Files := fun _ => .error .missing
    let typed := "1\x082\n"
    let reply := session.takeAll Console.editLine? files (Text.lines typed.toList)
    let run := session.evaluator.runAll (dropUnclosed (chunks typed)) session.env
    (∀ chunk ∈ chunks typed, ¬ BeginsWithColon chunk) ∧
      reply.output = unlines ["2", "Goodbye!"] ∧
      String.join (run.1.map showResult) ++ Console.farewell =
        unlines ["Error: LexError: invalid character sequence: \x08 (at offset 1)", "Goodbye!"] ∧
      reply.output ≠ String.join (run.1.map showResult) ++ Console.farewell := by
  decide +kernel

end Session

end SmallLisp
