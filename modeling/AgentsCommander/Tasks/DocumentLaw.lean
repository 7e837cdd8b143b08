import AgentsCommander.Tasks.Document

/-! What is read back from a task document after it is written, and what runs of edits keep. -/
namespace AgentsCommander.Tasks
open Foundation Foundation.Lines Transcript

/-! ### Trimming -/

theorem trimStart_append {blank : Text} (h : ∀ c ∈ blank, isWhitespace c = true) (rest : Text) :
    trimStart (blank ++ rest) = trimStart rest := List.dropWhile_append_of_pos h

theorem trimStart_cons {c : Char} (h : isWhitespace c = false) (rest : Text) :
    trimStart (c :: rest) = c :: rest := by
  unfold trimStart
  rw [List.dropWhile_cons_of_neg (by simp [h])]

theorem trim_eq (s : Text) : trim s = trimEnd (trimStart s) := rfl

theorem trimEnd_concat {c : Char} (h : isWhitespace c = false) (s : Text) :
    trimEnd (s ++ [c]) = s ++ [c] := List.rdropWhile_concat_neg _ _ _ (by simp [h])

theorem trim_quoted {q : Char} (h : isWhitespace q = false) (inner : Text) :
    trim (q :: (inner ++ [q])) = q :: (inner ++ [q]) := by
  rw [trim_eq, trimStart_cons h, ← List.cons_append, trimEnd_concat h]

theorem trimStart_trimEnd (s : Text) (h : trimStart s = s) : trimStart (trimEnd s) = trimEnd s := by
  have hpre : trimEnd s <+: s := List.rdropWhile_prefix _ s
  cases hs : trimEnd s with
  | nil => rfl
  | cons c rest =>
    rw [hs] at hpre
    obtain ⟨after, hafter⟩ := hpre
    have hc : isWhitespace c = false := by
      have hhead := List.head?_dropWhile_not isWhitespace s
      have hdrop : s.dropWhile isWhitespace = c :: (rest ++ after) := h.trans hafter.symm
      rw [hdrop] at hhead
      exact hhead
    exact trimStart_cons hc rest

theorem trim_trim (s : Text) : trim (trim s) = trim s := by
  have hidem : trimStart (trimStart s) = trimStart s := List.dropWhile_idempotent _ _
  have hend : trimEnd (trimEnd (trimStart s)) = trimEnd (trimStart s) :=
    List.rdropWhile_idempotent _ _
  rw [trim_eq (trim s), trim_eq s, trimStart_trimEnd _ hidem, hend]

/-! ### Title lines -/

theorem titleLine_new {blank : Text} (h : ∀ c ∈ blank, isWhitespace c = true) (title : Text) :
    titleLine (blank ++ newTitleLine title) =
      some ⟨blank, '\'' :: (double '\'' title ++ ['\''])⟩ := by
  have hline : newTitleLine title =
      "title".toList ++ ':' :: ' ' :: '\'' :: (double '\'' title ++ ['\'']) := rfl
  have hstart : trimStart (blank ++ newTitleLine title) = newTitleLine title := by
    rw [trimStart_append h, hline]
    exact trimStart_cons (by decide) _
  have hlead : (blank ++ newTitleLine title).takeWhile isWhitespace = blank := by
    rw [List.takeWhile_append_of_pos h, hline]
    exact List.append_nil blank
  have hkey : isTitleKey "title".toList = true := by decide
  have hvalue : trim (' ' :: '\'' :: (double '\'' title ++ ['\''])) =
      '\'' :: (double '\'' title ++ ['\'']) := by
    have hspace : ∀ c ∈ [' '], isWhitespace c = true := by
      intro c hc
      rw [List.mem_singleton.mp hc]
      decide
    have hblank : trimStart (' ' :: '\'' :: (double '\'' title ++ ['\''])) =
        '\'' :: (double '\'' title ++ ['\'']) :=
      (trimStart_append hspace _).trans (trimStart_cons (by decide) _)
    rw [trim_eq, hblank, ← List.cons_append, trimEnd_concat (by decide)]
  unfold titleLine
  rw [hstart, hline, splitOnce_append (by decide)]
  simp only [hkey, if_true, hvalue]
  rw [← hline, hlead]

theorem decodeTitleScalar_quoted (title : Text) :
    decodeTitleScalar ('\'' :: (double '\'' title ++ ['\''])) = title := by
  have hunquote : unquote '\'' ('\'' :: (double '\'' title ++ ['\''])) =
      some (double '\'' title) := by
    unfold unquote
    have hlast : ('\'' :: (double '\'' title ++ ['\''])).getLast? = some '\'' := by
      rw [← List.cons_append, List.getLast?_concat]
    rw [if_pos ⟨by simp, rfl, hlast⟩, List.tail_cons, List.dropLast_concat]
  unfold decodeTitleScalar
  rw [trim_quoted (by decide)]
  simp only [hunquote, undouble_double]

/-- The first title line is the one replaced. -/
theorem replaceTitle_eq_some {line : Text} {lines lines' : List Text}
    (h : replaceTitle line lines = some lines') :
    ∃ before old title after, lines = before ++ old :: after ∧ titleLine old = some title ∧
      (∀ other ∈ before, titleLine other = none) ∧
      lines' = before ++ (title.leading ++ line) :: after := by
  induction lines generalizing lines' with
  | nil => cases h
  | cons old rest ih =>
    unfold replaceTitle at h
    cases hold : titleLine old with
    | some title =>
      simp only [hold, Option.some.injEq] at h
      exact ⟨[], old, title, rest, rfl, hold, by simp, h.symm⟩
    | none =>
      simp only [hold, Option.map_eq_some_iff] at h
      obtain ⟨replaced, hreplaced, hcons⟩ := h
      obtain ⟨before, found, title, after, hsplit, htitle, hbefore, hafter⟩ := ih hreplaced
      refine ⟨old :: before, found, title, after, by rw [hsplit]; rfl, htitle, ?_, ?_⟩
      · intro other hother
        rcases List.mem_cons.mp hother with rfl | hmem
        · exact hold
        · exact hbefore other hmem
      · rw [← hcons, hafter]
        rfl

theorem replaceTitle_eq_none {line : Text} {lines : List Text}
    (h : replaceTitle line lines = none) : ∀ other ∈ lines, titleLine other = none := by
  induction lines with
  | nil => simp
  | cons old rest ih =>
    unfold replaceTitle at h
    cases hold : titleLine old with
    | some title => simp [hold] at h
    | none =>
      simp only [hold, Option.map_eq_none_iff] at h
      intro other hother
      rcases List.mem_cons.mp hother with rfl | hmem
      · exact hold
      · exact ih h other hmem

theorem leading_eq {line : Text} {title : TitleLine} (h : titleLine line = some title) :
    title.leading = line.takeWhile isWhitespace := by
  unfold titleLine at h
  cases hsplit : splitOnce ':' (trimStart line) with
  | none => simp [hsplit] at h
  | some pair =>
    simp only [hsplit] at h
    split_ifs at h
    rw [← Option.some.inj h]

theorem leading_blank {line : Text} {title : TitleLine} (h : titleLine line = some title) :
    ∀ c ∈ title.leading, isWhitespace c = true := by
  intro c hc
  rw [leading_eq h] at hc
  exact List.mem_takeWhile_imp hc

theorem leading_of_line {line : Text} {title : TitleLine} (h : titleLine line = some title) :
    title.leading <+: line := by
  rw [leading_eq h]
  exact List.takeWhile_prefix _

/-- The title set is the title read, whatever the document. -/
theorem titleValueOf_applySetTitle (parsed : ParsedTask) (title : Text) :
    titleValueOf (applySetTitle parsed title) = some title := by
  have hnew : ∀ {blank : Text}, (∀ c ∈ blank, isWhitespace c = true) →
      ∀ (after : List Text), List.findSome?
        (fun line => (titleLine line).map fun t => decodeTitleScalar t.value)
        ((blank ++ newTitleLine title) :: after) = some title := by
    intro blank hblank after
    rw [List.findSome?_cons, titleLine_new hblank, Option.map_some, decodeTitleScalar_quoted]
  have hhead := @hnew [] (by simp)
  unfold applySetTitle titleValueOf
  by_cases hfresh : (!parsed.hasFrontmatter && parsed.body.isEmpty && !parsed.bom) = true
  · simp only [hfresh, if_true]
    exact hhead []
  · simp only [hfresh]
    by_cases hplain : (!parsed.hasFrontmatter) = true
    · simp only [hplain, if_true]
      exact hhead []
    · simp only [hplain]
      cases hreplaced : replaceTitle (newTitleLine title) parsed.frontmatter with
      | none => exact hhead parsed.frontmatter
      | some lines =>
        obtain ⟨before, old, found, after, -, hfound, hbefore, rfl⟩ :=
          replaceTitle_eq_some hreplaced
        have hnone : List.findSome? (fun line => (titleLine line).map fun t =>
            decodeTitleScalar t.value) before = none := by
          rw [List.findSome?_eq_none_iff]
          intro other hother
          rw [hbefore other hother, Option.map_none]
        exact (List.findSome?_append.trans (by rw [hnone, Option.none_or])).trans
          (hnew (leading_blank hfound) after)

/-! ### Parsing what was rendered -/

/-- A line that can stand in a frontmatter. -/
structure IsLine (line : Text) : Prop where
  noNewline : '\n' ∉ line
  stripped : stripEol line = line
  notDelimiter : trim line ≠ delimiter

/-- A parsed document that could have come from a file. -/
structure ParsedTask.WellFormed (parsed : ParsedTask) : Prop where
  lines : ∀ line ∈ parsed.frontmatter, IsLine line
  plain : parsed.hasFrontmatter = false → parsed.frontmatter = [] ∧
    parsed.lineEnding = lineEndingOf parsed.body ∧ scanFrontmatter parsed.body = none ∧
    (parsed.bom = false → parsed.body.head? ≠ some byteOrderMark)

theorem stripEol_append (line : Text) (eol : LineEnding) :
    stripEol (line ++ eol.text) = stripEol line := by
  have hlf : ∀ l : Text, stripEol (l ++ ['\n']) = stripEol l := fun l =>
    List.rdropWhile_concat_pos _ _ _ (by decide)
  cases eol with
  | lf => exact hlf line
  | crlf =>
    have hcr : stripEol (line ++ ['\r']) = stripEol line :=
      List.rdropWhile_concat_pos _ _ _ (by decide)
    have happend : line ++ LineEnding.crlf.text = line ++ ['\r'] ++ ['\n'] := by
      rw [List.append_assoc]
      rfl
    rw [happend, hlf, hcr]

theorem splitInclusive_eol {line : Text} (h : '\n' ∉ line) (eol : LineEnding) (rest : Text) :
    splitInclusive '\n' (line ++ eol.text ++ rest) =
      (line ++ eol.text) :: splitInclusive '\n' rest := by
  cases eol with
  | lf =>
    have hline := splitInclusive_line h rest
    rw [List.append_assoc]
    exact hline
  | crlf =>
    have hcr : '\n' ∉ line ++ ['\r'] := by simp [h]
    have hline := splitInclusive_line hcr rest
    rw [List.append_assoc, List.singleton_append] at hline
    rw [List.append_assoc]
    refine hline.trans ?_
    rw [List.append_assoc]
    rfl

theorem walk_lines {lines : List Text} (h : ∀ line ∈ lines, IsLine line) (eol : LineEnding)
    (after : List Text) (consumed : ℕ) (before : List Text) :
    walk consumed before (lines.map (· ++ eol.text) ++ (delimiter ++ eol.text) :: after) =
      some (consumed + ((lines.map (· ++ eol.text)).flatten ++ delimiter ++ eol.text).length,
        before ++ lines) := by
  induction lines generalizing consumed before with
  | nil =>
    have hclose : trim (stripEol (delimiter ++ eol.text)) = delimiter := by
      rw [stripEol_append]
      decide
    rw [List.map_nil, List.nil_append, walk, if_pos hclose, List.append_nil]
    rfl
  | cons line lines ih =>
    have hline := h line List.mem_cons_self
    have hstrip : stripEol (line ++ eol.text) = line := by rw [stripEol_append, hline.stripped]
    rw [List.map_cons, List.cons_append, walk, hstrip, if_neg hline.notDelimiter,
      ih (fun other hmem => h other (List.mem_cons_of_mem line hmem))]
    simp only [List.flatten_cons, List.length_append, Option.some.injEq, Prod.mk.injEq,
      List.append_assoc, List.singleton_append, and_true]
    omega

theorem splitInclusive_lines {lines : List Text} (h : ∀ line ∈ lines, IsLine line)
    (eol : LineEnding) (rest : Text) :
    splitInclusive '\n' ((lines.map (· ++ eol.text)).flatten ++ rest) =
      lines.map (· ++ eol.text) ++ splitInclusive '\n' rest := by
  induction lines with
  | nil => rfl
  | cons line lines ih =>
    rw [List.map_cons, List.flatten_cons, List.append_assoc,
      splitInclusive_eol (h line List.mem_cons_self).noNewline,
      ih (fun other hmem => h other (List.mem_cons_of_mem line hmem))]
    rfl

/-- The frontmatter as it is written. -/
def header (lines : List Text) (eol : LineEnding) : Text :=
  delimiter ++ eol.text ++ (lines.map (· ++ eol.text)).flatten ++ delimiter ++ eol.text

theorem scanFrontmatter_header {lines : List Text} (h : ∀ line ∈ lines, IsLine line)
    (eol : LineEnding) (body : Text) :
    scanFrontmatter (header lines eol ++ body) = some ((header lines eol).length, lines) := by
  have hdelimiter : '\n' ∉ delimiter := by decide
  have hopening : trim (delimiter ++ eol.text) = delimiter := by cases eol <;> decide
  have hsplit : splitInclusive '\n' (header lines eol ++ body) =
      (delimiter ++ eol.text) ::
        (lines.map (· ++ eol.text) ++ (delimiter ++ eol.text) :: splitInclusive '\n' body) := by
    have hassoc : header lines eol ++ body = delimiter ++ eol.text ++
        ((lines.map (· ++ eol.text)).flatten ++ (delimiter ++ eol.text ++ body)) := by
      simp only [header, List.append_assoc]
    rw [hassoc, splitInclusive_eol hdelimiter, splitInclusive_lines h,
      splitInclusive_eol hdelimiter]
  unfold scanFrontmatter
  rw [hsplit]
  simp only [hopening, if_true]
  rw [walk_lines h]
  simp only [header, List.length_append, List.nil_append, Option.some.injEq, Prod.mk.injEq,
    and_true]
  omega

theorem lineEndingOf_header (lines : List Text) (eol : LineEnding) (body : Text) :
    lineEndingOf (header lines eol ++ body) = eol := by
  have hassoc : header lines eol ++ body = delimiter ++ (eol.text ++
      ((lines.map (· ++ eol.text)).flatten ++ (delimiter ++ (eol.text ++ body)))) := by
    simp only [header, List.append_assoc]
  rw [hassoc]
  cases eol <;> simp [lineEndingOf, delimiter, LineEnding.text, List.idxOf?_cons]

theorem parsePeeled_header {lines : List Text} (h : ∀ line ∈ lines, IsLine line) (bom : Bool)
    (eol : LineEnding) (body : Text) :
    parsePeeled bom (header lines eol ++ body) = ⟨bom, eol, true, lines, body⟩ := by
  unfold parsePeeled
  rw [scanFrontmatter_header h, lineEndingOf_header]
  simp only [List.drop_left]

theorem parseTask_mark (s : Text) : parseTask (byteOrderMark :: s) = parsePeeled true s := rfl

theorem parseTask_plain {s : Text} (h : s.head? ≠ some byteOrderMark) :
    parseTask s = parsePeeled false s := if_neg h

/-- Rendering is undone by parsing. -/
theorem parse_render {parsed : ParsedTask} (h : parsed.WellFormed) :
    parseTask (render parsed) = parsed := by
  obtain ⟨bom, eol, hasFrontmatter, lines, body⟩ := parsed
  have hpeeled : parsePeeled bom (renderPeeled ⟨bom, eol, hasFrontmatter, lines, body⟩) =
      ⟨bom, eol, hasFrontmatter, lines, body⟩ := by
    cases hasFrontmatter with
    | true =>
      have hrender : renderPeeled ⟨bom, eol, true, lines, body⟩ = header lines eol ++ body := by
        simp [renderPeeled, header]
      rw [hrender, parsePeeled_header h.lines]
    | false =>
      obtain ⟨hlines, heol, hscan, -⟩ := h.plain rfl
      have hrender : renderPeeled ⟨bom, eol, false, lines, body⟩ = body := rfl
      simp only at hlines heol hscan
      rw [hrender, parsePeeled, hscan, hlines, heol]
  cases bom with
  | true => exact hpeeled
  | false =>
    have hhead : (renderPeeled ⟨false, eol, hasFrontmatter, lines, body⟩).head? ≠
        some byteOrderMark := by
      cases hasFrontmatter with
      | true =>
        intro heq
        exact absurd (Option.some.inj heq) (by decide)
      | false => exact (h.plain rfl).2.2.2 rfl
    have hrender : render ⟨false, eol, hasFrontmatter, lines, body⟩ =
        renderPeeled ⟨false, eol, hasFrontmatter, lines, body⟩ := rfl
    rw [hrender, parseTask_plain hhead, hpeeled]

/-! ### What a file is parsed to -/

theorem isLine_stripEol {s line : Text} (h : line ∈ splitInclusive '\n' s)
    (hclose : trim (stripEol line) ≠ delimiter) : IsLine (stripEol line) := by
  have hidem : stripEol (stripEol line) = stripEol line := List.rdropWhile_idempotent _ _
  obtain ⟨front, hfront, hline⟩ := exists_of_mem_splitInclusive h
  have hstrip : stripEol line = stripEol front := by
    rcases hline with rfl | rfl
    · exact stripEol_append front .lf
    · rfl
  have hpre : stripEol front <+: front := List.rdropWhile_prefix _ _
  refine ⟨?_, hidem, hclose⟩
  intro hmem
  rw [hstrip] at hmem
  exact hfront (hpre.subset hmem)

theorem walk_isLine {s : Text} {iter before lines : List Text} {consumed finish : ℕ}
    (h : walk consumed before iter = some (finish, lines))
    (hiter : ∀ line ∈ iter, line ∈ splitInclusive '\n' s) (hbefore : ∀ line ∈ before, IsLine line) :
    ∀ line ∈ lines, IsLine line := by
  induction iter generalizing consumed before with
  | nil => cases h
  | cons line iter ih =>
    unfold walk at h
    by_cases hclose : trim (stripEol line) = delimiter
    · simp only [hclose, if_true, Option.some.injEq, Prod.mk.injEq] at h
      rw [← h.2]
      exact hbefore
    · simp only [hclose, if_false] at h
      refine ih h (fun other hmem => hiter other (List.mem_cons_of_mem line hmem)) ?_
      intro other hother
      rcases List.mem_append.mp hother with hmem | hmem
      · exact hbefore other hmem
      · rw [List.mem_singleton.mp hmem]
        exact isLine_stripEol (hiter line List.mem_cons_self) hclose

theorem scanFrontmatter_isLine {s : Text} {consumed : ℕ} {lines : List Text}
    (h : scanFrontmatter s = some (consumed, lines)) : ∀ line ∈ lines, IsLine line := by
  unfold scanFrontmatter at h
  cases hsplit : splitInclusive '\n' s with
  | nil => simp [hsplit] at h
  | cons opening iter =>
    simp only [hsplit] at h
    split_ifs at h
    refine walk_isLine (s := s) h (fun line hmem => ?_) (by simp)
    rw [hsplit]
    exact List.mem_cons_of_mem opening hmem

theorem wellFormed_parsePeeled {bom : Bool} {s : Text}
    (h : bom = false → s.head? ≠ some byteOrderMark) : (parsePeeled bom s).WellFormed := by
  unfold parsePeeled
  cases hscan : scanFrontmatter s with
  | some found => exact ⟨scanFrontmatter_isLine hscan, fun hplain => absurd hplain (by simp)⟩
  | none => exact ⟨by simp, fun _ => ⟨rfl, rfl, hscan, h⟩⟩

theorem wellFormed_parseTask (s : Text) : (parseTask s).WellFormed := by
  by_cases h : s.head? = some byteOrderMark
  · rw [parseTask, if_pos h]
    exact wellFormed_parsePeeled (fun hbom => absurd hbom (by simp))
  · rw [parseTask_plain h]
    exact wellFormed_parsePeeled fun _ => h

theorem body_suffix_parsePeeled (bom : Bool) (s : Text) : (parsePeeled bom s).body <:+ s := by
  unfold parsePeeled
  cases scanFrontmatter s with
  | some found => exact List.drop_suffix _ _
  | none => exact List.suffix_rfl

theorem body_suffix_parseTask (s : Text) : (parseTask s).body <:+ s := by
  unfold parseTask
  split_ifs
  · exact (body_suffix_parsePeeled true s.tail).trans (List.tail_suffix s)
  · exact body_suffix_parsePeeled false s

theorem renderPeeled_parsePeeled {bom : Bool} {s : Text}
    (h : (parsePeeled bom s).hasFrontmatter = false) : renderPeeled (parsePeeled bom s) = s := by
  unfold parsePeeled at h ⊢
  cases hscan : scanFrontmatter s with
  | some found => simp [hscan] at h
  | none => rfl

theorem bom_parsePeeled (bom : Bool) (s : Text) : (parsePeeled bom s).bom = bom := by
  unfold parsePeeled
  cases scanFrontmatter s <;> rfl

theorem render_parseTask_of_plain {s : Text} (h : (parseTask s).hasFrontmatter = false) :
    render (parseTask s) = s := by
  unfold parseTask at h ⊢
  split_ifs at h ⊢ with hmark
  · have hsplit : byteOrderMark :: s.tail = s := List.cons_head?_tail hmark
    rw [render, bom_parsePeeled, if_pos rfl, renderPeeled_parsePeeled h, hsplit]
  · rw [render, bom_parsePeeled, renderPeeled_parsePeeled h]
    rfl

/-- A parsed file renders to a file that parses the same, its body is kept as it was, and a file
without a closed frontmatter is kept whole. -/
theorem document_round_trip (s : Text) :
    parseTask (render (parseTask s)) = parseTask s ∧ (parseTask s).body <:+ s ∧
      ((parseTask s).hasFrontmatter = false → render (parseTask s) = s) ∧
      ∀ parsed : ParsedTask, parsed.WellFormed ↔ parseTask (render parsed) = parsed :=
  ⟨parse_render (wellFormed_parseTask s), body_suffix_parseTask s, render_parseTask_of_plain,
    fun parsed => ⟨parse_render, fun h => h ▸ wellFormed_parseTask (render parsed)⟩⟩

end AgentsCommander.Tasks
