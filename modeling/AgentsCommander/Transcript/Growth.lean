import AgentsCommander.Transcript.Completeness
import AgentsCommander.Transcript.Utf8

/-! A line reader over a file that grows in any way finds the lines of the whole. -/
namespace AgentsCommander.Transcript
open Foundation

/-- Where one reader stands in one file. -/
structure LineCursor where
  offset : ℕ
  remainder : Bytes
  deriving DecidableEq

/-- The length a call is told, and what it reads afterwards, unless that fails. -/
structure FileCall where
  fileLen : ℕ
  content : Option Bytes

def lineReader : Machine LineCursor FileCall (Option (List (ℕ × Text))) where
  step c call :=
    let (lines, offset, remainder) :=
      readNewLinesWithStarts call.fileLen call.content c.offset c.remainder
    (⟨offset, remainder⟩, lines)

/-- The file grows to this stream, call after call and between the two looks of each. -/
def Grows (stream : Bytes) : ℕ → List FileCall → Prop
  | _, [] => True
  | seen, call :: calls => seen ≤ call.fileLen ∧
      (∀ content ∈ call.content, content <+: stream ∧ call.fileLen ≤ content.length) ∧
      Grows stream (call.content.elim call.fileLen List.length) calls

/-- The reader starts at a line, of which it may hold the first bytes already. -/
structure Begins (stream : Bytes) (base : ℕ) (remainder : Bytes) : Prop where
  first : lineStart stream base = base
  heads : remainder <+: stream.drop base
  clean : newline ∉ remainder
  utf8 : isUtf8 remainder = true

/-- All lines of this text from `base` on, in order, each with where it starts. -/
structure AllLines (content : Bytes) (base : ℕ) (lines : List (ℕ × Bytes)) : Prop where
  ordered : lines.Pairwise (·.1 < ·.1)
  mem : ∀ start line, (start, line) ∈ lines ↔ base ≤ start ∧ CompleteLine content start line

/-! Lines found in parts. -/

theorem linesFrom_append (start : ℕ) (line a b : Bytes) :
    linesFrom start line (a ++ b) =
      let found := linesFrom start line a
      let more := linesFrom found.2.1 found.2.2 b
      (found.1 ++ more.1, more.2) := by
  induction a generalizing start line with
  | nil => rfl
  | cons c a ih =>
    rw [List.cons_append, linesFrom, linesFrom]
    split_ifs
    · rw [ih]
      rfl
    · exact ih start (line ++ [c])

theorem linesFrom_clean {start : ℕ} {line a : Bytes} (h : newline ∉ a) :
    linesFrom start line a = ([], start, line ++ a) := by
  induction a generalizing line with
  | nil => rw [List.append_nil]; rfl
  | cons c a ih =>
    rw [List.mem_cons, not_or] at h
    rw [linesFrom, if_neg (Ne.symm h.1), ih h.2, List.append_assoc, List.singleton_append]

theorem linesFrom_end (start : ℕ) (line bytes : Bytes) :
    (linesFrom start line bytes).2.1 + (linesFrom start line bytes).2.2.length =
      start + line.length + bytes.length := by
  induction bytes generalizing start line with
  | nil => rfl
  | cons c rest ih =>
    rw [linesFrom]
    split_ifs
    · rw [List.length_cons]
      refine (ih _ []).trans ?_
      rw [List.length_nil]
      omega
    · rw [ih, List.length_append, List.length_singleton, List.length_cons]
      omega

theorem linesFrom_tail_clean {line : Bytes} (h : newline ∉ line) (start : ℕ) (bytes : Bytes) :
    newline ∉ (linesFrom start line bytes).2.2 := by
  induction bytes generalizing start line with
  | nil => exact h
  | cons c rest ih =>
    rw [linesFrom]
    split_ifs with hc
    · exact ih List.not_mem_nil _
    · refine ih ?_ start
      rw [List.mem_append, List.mem_singleton]
      exact fun hm => hm.elim h fun he => hc he.symm

theorem le_of_mem_linesFrom {start : ℕ} {line bytes : Bytes} :
    ∀ l ∈ (linesFrom start line bytes).1, start ≤ l.1 := by
  induction bytes generalizing start line with
  | nil => exact nofun
  | cons c rest ih =>
    rw [linesFrom]
    split_ifs
    · refine List.forall_mem_cons.mpr ⟨le_rfl, fun l hl => ?_⟩
      exact le_trans (by omega) (ih l hl)
    · exact ih

/-- What is found is complete. -/
theorem complete_of_mem {content : Bytes} {start : ℕ} {line bytes : Bytes}
    (h : content.drop start = line ++ bytes) (hfirst : lineStart content start = start)
    (hclean : newline ∉ line) :
    ∀ l ∈ (linesFrom start line bytes).1, CompleteLine content l.1 l.2 := by
  induction bytes generalizing start line with
  | nil => exact fun l hl => by cases hl
  | cons c rest ih =>
    rw [linesFrom]
    split_ifs with hc
    · subst hc
      have hnext : content.drop (start + line.length + 1) = [] ++ rest := by
        rw [Nat.add_assoc, ← List.drop_drop, h]
        simp
      refine List.forall_mem_cons.mpr ⟨⟨hfirst, ⟨rest, h⟩, hclean⟩, ?_⟩
      exact ih hnext (lineStart_succ (getElem?_of_drop h)) List.not_mem_nil
    · refine ih (by rw [h, List.append_assoc]; rfl) hfirst ?_
      rw [List.mem_append, List.mem_singleton]
      exact fun hm => hm.elim hclean fun he => hc he.symm

theorem lineStart_of_clean {content : Bytes} {start : ℕ} (hfirst : lineStart content start = start)
    (n : ℕ) (h : newline ∉ (content.drop start).take n) : lineStart content (start + n) = start := by
  induction n with
  | zero => exact hfirst
  | succ n ih =>
    have hne : content[start + n]? ≠ some newline := by
      intro hat
      refine h (List.mem_of_getElem? (i := n) ?_)
      rw [List.getElem?_take_of_lt n.lt_succ_self, List.getElem?_drop, hat]
    rw [← Nat.add_assoc, lineStart, if_neg hne]
    refine ih fun hm => h ?_
    exact (List.take_sublist_take_left n.le_succ).subset hm

/-! A valid text stays valid behind a valid part of it. -/

theorem continuation_of_append {w : ℕ} {a b : Bytes} (h : continuation w a = w) :
    continuation w (a ++ b) = w := by
  have hlen : w ≤ a.length := by
    unfold continuation at h
    have hrun := List.takeWhile_sublist (fun c : UInt8 => decide (0x80 ≤ c ∧ c ≤ 0xBF))
      (l := a.take w)
    have := hrun.length_le
    have := List.length_take_le' w a
    omega
  unfold continuation at h ⊢
  rwa [List.take_append_of_le_length hlen]

theorem decodeOne_of_append {b : UInt8} {a rest : Bytes} {c : Char}
    (h : (decodeOne b a).1 = some c) :
    decodeOne b (a ++ rest) = decodeOne b a ∧ (decodeOne b a).2 - 1 ≤ a.length := by
  refine ⟨?_, (utf8Size_decodeOne h).2⟩
  rcases decodeOne_cases h with hb | ⟨d, tail, width, low, high, rfl, hc⟩
  · rw [decodeOne_ascii hb, decodeOne_ascii hb]
  · have hlong : Continues b d (tail ++ rest) width low high :=
      ⟨hc.wide, hc.lead, hc.second, continuation_of_append hc.others⟩
    have hlen : width - 1 ≤ (d :: tail).length := by
      have := (utf8Size_decodeOne h).2
      rwa [hc.decodeOne] at this
    rw [List.cons_append, hlong.decodeOne, hc.decodeOne, ← List.cons_append,
      List.take_append_of_le_length hlen]

theorem isUtf8_of_append {a rest : Bytes} (ha : isUtf8 a = true)
    (h : isUtf8 (a ++ rest) = true) : isUtf8 rest = true := by
  induction hn : a.length using Nat.strong_induction_on generalizing a with
  | _ n ih =>
    cases a with
    | nil => exact h
    | cons b a =>
      obtain ⟨hfirst, hothers⟩ := (isUtf8_cons b a).mp ha
      obtain ⟨c, hc⟩ := Option.isSome_iff_exists.mp hfirst
      obtain ⟨hsame, hle⟩ := @decodeOne_of_append b a rest c hc
      rw [List.cons_append, isUtf8_cons, hsame, List.drop_append_of_le_length hle] at h
      rw [List.length_cons] at hn
      have hdrop := List.length_drop (i := (decodeOne b a).2 - 1) (l := a)
      exact ih _ (by omega) hothers h.2 rfl

/-! The reader at work. -/

/-- What the reader has found of the stream from its first line on, and what is still to come. -/
structure Stage (stream : Bytes) (base : ℕ) (found : List (ℕ × Bytes)) (c : LineCursor) : Prop where
  window : ∃ read rest, stream.drop base = read ++ rest ∧ c.offset = base + read.length ∧
    linesFrom base [] read = (found, c.offset - c.remainder.length, c.remainder) ∧
    isUtf8 rest = true

theorem isUtf8_drop {stream : Bytes} (h : isUtf8 stream = true) {base : ℕ}
    (hfirst : lineStart stream base = base) : isUtf8 (stream.drop base) = true := by
  cases base with
  | zero => exact h
  | succ i =>
    have hat := newline_of_lineStart hfirst
    obtain ⟨hlt, hget⟩ := List.getElem?_eq_some_iff.mp hat
    have hsplit : stream = stream.take i ++ newline :: stream.drop (i + 1) := by
      rw [← hget, ← List.drop_eq_getElem_cons hlt, List.take_append_drop]
    rw [hsplit] at h
    exact (isUtf8_append h).2

theorem Begins.stage {stream remainder : Bytes} {base : ℕ} (h : Begins stream base remainder)
    (hutf : isUtf8 stream = true) :
    Stage stream base [] ⟨base + remainder.length, remainder⟩ := by
  obtain ⟨rest, hrest⟩ := h.heads
  refine ⟨remainder, rest, hrest.symm, rfl, ?_, ?_⟩
  · rw [linesFrom_clean h.clean, List.nil_append, Nat.add_sub_cancel]
  · refine isUtf8_of_append h.utf8 ?_
    rw [hrest]
    exact isUtf8_drop hutf h.first

/-- A read of the file from where the reader stands. -/
theorem Stage.read {stream content : Bytes} {base : ℕ} {found : List (ℕ × Bytes)} {c : LineCursor}
    (h : Stage stream base found c) (hcontent : content <+: stream)
    (hinside : c.offset ≤ content.length) (hutf : isUtf8 (content.drop c.offset) = true) :
    let fresh := linesFrom (c.offset - c.remainder.length) [] (c.remainder ++ content.drop c.offset)
    Stage stream base (found ++ fresh.1)
      ⟨c.offset + (content.drop c.offset).length, fresh.2.2⟩ := by
  obtain ⟨read, rest, hdrop, hoffset, hlines, hrest⟩ := h.window
  obtain ⟨later, hlater⟩ := hcontent
  have hbuf : rest = content.drop c.offset ++ later := by
    have hstream : stream.drop c.offset = rest := by
      rw [hoffset, ← List.drop_drop, hdrop, List.drop_left]
    rw [← hstream, ← hlater, List.drop_append_of_le_length hinside]
  have hclean : newline ∉ c.remainder := by
    have := @linesFrom_tail_clean [] List.not_mem_nil base read
    rwa [hlines] at this
  have hfresh : linesFrom (c.offset - c.remainder.length) []
      (c.remainder ++ content.drop c.offset) =
        linesFrom (c.offset - c.remainder.length) c.remainder (content.drop c.offset) := by
    rw [linesFrom_append, linesFrom_clean hclean]
    rfl
  have hmore : linesFrom base [] (read ++ content.drop c.offset) =
      (found ++ (linesFrom (c.offset - c.remainder.length) c.remainder
        (content.drop c.offset)).1, (linesFrom (c.offset - c.remainder.length) c.remainder
        (content.drop c.offset)).2) := by
    rw [linesFrom_append, hlines]
  have hend := linesFrom_end base [] (read ++ content.drop c.offset)
  rw [hmore] at hend
  dsimp only at hend ⊢
  rw [hfresh]
  refine ⟨read ++ content.drop c.offset, later, ?_, ?_, ?_, ?_⟩
  · rw [hdrop, hbuf, List.append_assoc]
  · dsimp only
    rw [List.length_append]
    omega
  · rw [hmore]
    refine Prod.ext rfl (Prod.ext ?_ rfl)
    rw [List.length_nil, List.length_append] at hend
    dsimp only
    omega
  · rw [hbuf] at hrest
    exact isUtf8_of_append hutf hrest

/-- One call, from a reader that has not read beyond what is there. -/
theorem Stage.call {stream : Bytes} {base seen : ℕ} {found : List (ℕ × Bytes)} {c : LineCursor}
    (h : Stage stream base found c) (hseen : c.offset ≤ seen) {call : FileCall}
    {calls : List FileCall} (hgrows : Grows stream seen (call :: calls)) :
    ∃ more, Stage stream base (found ++ more) (lineReader.next c call) ∧
      (lineReader.answer c call).getD [] = more.filterMap acceptLine ∧
      (lineReader.next c call).offset ≤ call.content.elim call.fileLen List.length := by
  obtain ⟨hlen, hcontent, -⟩ := hgrows
  have hkept : ∀ x : Option (List (ℕ × Text)), x.getD [] = [] →
      lineReader.step c call = (c, x) → c.offset ≤ call.content.elim call.fileLen List.length →
      ∃ more, Stage stream base (found ++ more) (lineReader.next c call) ∧
        (lineReader.answer c call).getD [] = more.filterMap acceptLine ∧
        (lineReader.next c call).offset ≤ call.content.elim call.fileLen List.length := by
    intro x hx hstep hle
    have hnext : lineReader.next c call = c := congrArg Prod.fst hstep
    refine ⟨[], ?_, ?_, ?_⟩
    · rw [List.append_nil, hnext]
      exact h
    · exact (congrArg (fun r => Option.getD r.2 []) hstep).trans hx
    · rw [hnext]
      exact hle
  obtain ⟨fileLen, content⟩ := call
  have hnot : ¬ fileLen < c.offset := Nat.not_lt.mpr (hseen.trans hlen)
  by_cases hsame : fileLen ≤ c.offset
  · refine hkept (some []) rfl ?_ ?_
    · simp only [lineReader, readNewLinesWithStarts, if_neg hnot, if_pos hsame]
    · cases content with
      | none => exact hseen.trans hlen
      | some content => exact (hseen.trans hlen).trans (hcontent content rfl).2
  cases content with
  | none =>
    refine hkept none rfl ?_ (hseen.trans hlen)
    simp only [lineReader, readNewLinesWithStarts, if_neg hnot, if_neg hsame]
  | some content =>
    obtain ⟨hstarts, hle⟩ := hcontent content rfl
    have hinside : c.offset ≤ content.length := (hseen.trans hlen).trans hle
    by_cases hutf : isUtf8 (content.drop c.offset) = true
    · have hstep := @World.readNewLinesWithStarts_eq _ c.remainder _ _ (Nat.lt_of_not_le hsame) hutf
      have hnext : lineReader.next c ⟨fileLen, some content⟩ = _ :=
        congrArg (fun r : Option (List (ℕ × Text)) × ℕ × Bytes => LineCursor.mk r.2.1 r.2.2) hstep
      have hanswer : lineReader.answer c ⟨fileLen, some content⟩ = _ := congrArg Prod.fst hstep
      rw [hnext, hanswer]
      refine ⟨_, h.read hstarts hinside hutf, rfl, ?_⟩
      dsimp only
      rw [List.length_drop, Nat.add_sub_cancel' hinside]
      rfl
    · refine hkept none rfl ?_ hinside
      simp only [lineReader, readNewLinesWithStarts, if_neg hnot, if_neg hsame, if_neg hutf]

theorem Stage.run {stream : Bytes} {base seen : ℕ} {found : List (ℕ × Bytes)} {c : LineCursor}
    (h : Stage stream base found c) (hseen : c.offset ≤ seen) {calls : List FileCall}
    (hgrows : Grows stream seen calls) :
    ∃ more, Stage stream base (found ++ more) (lineReader.run c calls) ∧
      ((lineReader.answers c calls).map (·.getD [])).flatten = more.filterMap acceptLine := by
  induction calls generalizing found c seen with
  | nil => exact ⟨[], by rw [List.append_nil]; exact h, rfl⟩
  | cons call calls ih =>
    obtain ⟨first, hstage, hfirst, hle⟩ := h.call hseen hgrows
    obtain ⟨more, hrun, hmore⟩ := ih hstage hle hgrows.2.2
    refine ⟨first ++ more, ?_, ?_⟩
    · rw [← List.append_assoc]
      exact hrun
    · rw [List.filterMap_append, ← hfirst, ← hmore]
      rfl

theorem le_of_lineStart {content : Bytes} {base : ℕ} (h : lineStart content base = base) :
    base ≤ content.length := by
  cases base with
  | zero => exact Nat.zero_le _
  | succ i => exact (List.getElem?_eq_some_iff.mp (newline_of_lineStart h)).1

theorem Stage.inside {stream : Bytes} {base : ℕ} {found : List (ℕ × Bytes)} {c : LineCursor}
    (h : Stage stream base found c) (hfirst : lineStart stream base = base) :
    c.offset ≤ stream.length := by
  obtain ⟨read, rest, hdrop, hoffset, -⟩ := h.window
  have hbase := le_of_lineStart hfirst
  have hlen := congrArg List.length hdrop
  rw [List.length_drop, List.length_append] at hlen
  omega

theorem Stage.allLines {stream : Bytes} {base : ℕ} {found : List (ℕ × Bytes)} {c : LineCursor}
    (h : Stage stream base found c) (hfirst : lineStart stream base = base) :
    AllLines (stream.take c.offset) base found ∧
      c.remainder = (stream.take c.offset).drop (lineStart (stream.take c.offset) c.offset) := by
  have hinside := h.inside hfirst
  obtain ⟨read, rest, hdrop, hoffset, hlines, -⟩ := h.window
  have hread : (stream.take c.offset).drop base = [] ++ read := by
    rw [List.drop_take, hoffset, Nat.add_sub_cancel_left, hdrop, List.take_left, List.nil_append]
  have hlen : (stream.take c.offset).length = c.offset := List.length_take_of_le hinside
  have hstart : lineStart (stream.take c.offset) base = base := by
    have hle : base ≤ (stream.take c.offset).length := by omega
    rw [← lineStart_append hle (stream.drop c.offset), List.take_append_drop, hfirst]
  have hspec := linesFrom_spec base [] read hread
  have hmem : ∀ start line, CompleteLine (stream.take c.offset) start line → base ≤ start →
      (start, line) ∈ (linesFrom base [] read).1 :=
    fun start line hline => mem_linesFrom hline base [] read hread List.not_mem_nil
  have hcomplete := complete_of_mem hread hstart List.not_mem_nil
  have htail := linesFrom_tail base [] read hread hstart List.not_mem_nil
  rw [hlines] at hspec hmem hcomplete htail
  refine ⟨⟨hspec.2.1.imp fun hb => ?_, fun start line => ⟨fun hl => ?_, fun hl => ?_⟩⟩, ?_⟩
  · obtain ⟨i, hle, hlt, -⟩ := hb
    exact hle.trans_lt hlt
  · exact ⟨(hspec.1 _ hl).1, hcomplete _ hl⟩
  · exact hmem start line hl.2 hl.1
  · dsimp only at hspec htail
    have hclean : newline ∉ ((stream.take c.offset).drop (c.offset - c.remainder.length)).take
        c.remainder.length := by
      rw [hspec.2.2.2, List.take_length]
      exact htail.2
    have hkept : c.remainder.length ≤ c.offset := by
      have hjoin := congrArg List.length hspec.2.2.2
      rw [List.length_drop, hlen] at hjoin
      omega
    have hline := lineStart_of_clean htail.1 c.remainder.length hclean
    rw [Nat.sub_add_cancel hkept] at hline
    rw [hline, hspec.2.2.2]

theorem Stage.finish {stream : Bytes} {base : ℕ} {found : List (ℕ × Bytes)} {c : LineCursor}
    (h : Stage stream base found c) (hfirst : lineStart stream base = base) :
    (lineReader.next c ⟨stream.length, some stream⟩).offset = stream.length := by
  have hinside := h.inside hfirst
  obtain ⟨read, rest, hdrop, hoffset, -, hrest⟩ := h.window
  rcases Nat.eq_or_lt_of_le hinside with hall | hlt
  · have hstep : lineReader.next c ⟨stream.length, some stream⟩ = c := by
      simp only [Machine.next, lineReader, readNewLinesWithStarts, hall, lt_irrefl, le_refl,
        if_true, if_false]
      rw [← hall]
    rw [hstep, hall]
  · have hutf : isUtf8 (stream.drop c.offset) = true := by
      rw [hoffset, ← List.drop_drop, hdrop, List.drop_left]
      exact hrest
    have hstep := @World.readNewLinesWithStarts_eq _ c.remainder _ _ hlt hutf
    have hoff : (lineReader.next c ⟨stream.length, some stream⟩).offset =
        c.offset + (stream.drop c.offset).length :=
      congrArg (fun r : Option (List (ℕ × Text)) × ℕ × Bytes => r.2.1) hstep
    rw [hoff, List.length_drop, Nat.add_sub_cancel' hinside]

theorem Grows.of_append {stream : Bytes} {seen : ℕ} {calls more : List FileCall}
    (h : Grows stream seen (calls ++ more)) : Grows stream seen calls := by
  induction calls generalizing seen with
  | nil => trivial
  | cons call calls ih => exact ⟨h.1, h.2.1, ih h.2.2⟩

/-- A call that fails changes nothing, and one on a file that shrank skips to its end. Over a
valid stream that grows in any way, the calls find its lines, and the reader holds the rest. -/
theorem lineReader_law :
    (∀ c call, lineReader.answer c call = none → lineReader.next c call = c) ∧
    (∀ c call, call.fileLen < c.offset → lineReader.step c call = (⟨call.fileLen, []⟩, some [])) ∧
    (∀ c call, ∀ lines ∈ lineReader.answer c call, ∀ l ∈ lines,
      c.offset - c.remainder.length ≤ l.1) ∧
    ∀ (stream : Bytes), isUtf8 stream = true → ∀ base remainder, Begins stream base remainder →
      ∀ calls, Grows stream (base + remainder.length) calls →
        let start : LineCursor := ⟨base + remainder.length, remainder⟩
        let c := lineReader.run start calls
        let content := stream.take c.offset
        (∃ lines, AllLines content base lines ∧
          ((lineReader.answers start calls).map (·.getD [])).flatten = lines.filterMap acceptLine) ∧
        c.remainder = content.drop (lineStart content c.offset) ∧
        ∀ earlier, calls = earlier ++ [⟨stream.length, some stream⟩] →
          c.offset = stream.length := by
  refine ⟨fun c call => ?_, fun c call h => ?_, fun c call lines h l hl => ?_,
    fun stream hutf base remainder hbegin calls hgrows => ?_⟩
  · simp only [Machine.answer, Machine.next, lineReader, readNewLinesWithStarts]
    split_ifs
    · exact nofun
    · exact nofun
    · cases call.content with
      | none => exact fun _ => rfl
      | some content =>
        dsimp only
        split_ifs
        · exact nofun
        · exact fun _ => rfl
  · simp only [lineReader, readNewLinesWithStarts, if_pos h]
  · simp only [Machine.answer, lineReader, readNewLinesWithStarts] at h
    split_ifs at h
    · cases h
      cases hl
    · cases h
      cases hl
    · cases hcontent : call.content with
      | none => simp [hcontent] at h
      | some content =>
        simp only [hcontent] at h
        split_ifs at h
        · cases h
          obtain ⟨found, hfound, haccept⟩ := List.mem_filterMap.mp hl
          split_ifs at haccept
          cases haccept
          exact le_of_mem_linesFrom _ hfound
        · cases h
  · have hstage := hbegin.stage hutf
    obtain ⟨found, hrun, hfound⟩ := hstage.run le_rfl hgrows
    obtain ⟨hall, hremainder⟩ := hrun.allLines hbegin.first
    refine ⟨⟨found, hall, hfound⟩, hremainder, fun earlier hcalls => ?_⟩
    subst hcalls
    obtain ⟨_, hbefore, -⟩ := hstage.run le_rfl hgrows.of_append
    rw [Machine.run_concat]
    exact hbefore.finish hbegin.first

/-- A read cut inside the two bytes of a character, and the next one. -/
theorem lineReader_law_cut :
    (lineReader.run ⟨0, []⟩ [⟨1, some [0xC3]⟩, ⟨3, some [0xC3, 0xA9, 10]⟩]).offset = 3 := by
  have hstream := lineReader_law.2.2.2 [0xC3, 0xA9, 10] (by decide) 0 [] ⟨rfl, ⟨_, rfl⟩, nofun, rfl⟩
    [⟨1, some [0xC3]⟩, ⟨3, some [0xC3, 0xA9, 10]⟩]
  refine (hstream ⟨Nat.zero_le _, ?_, by decide, ?_, trivial⟩).2.2 [⟨1, some [0xC3]⟩] rfl
  · rintro _ ⟨⟩
    exact ⟨⟨[0xA9, 10], rfl⟩, le_rfl⟩
  · rintro _ ⟨⟩
    exact ⟨List.prefix_rfl, le_rfl⟩

end AgentsCommander.Transcript
