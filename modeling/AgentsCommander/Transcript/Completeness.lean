import AgentsCommander.Transcript.Deliveries

/-! No record is lost where a file is attached at the end of a line and left with nothing unread. -/
namespace AgentsCommander.Transcript
open Foundation

theorem lineStart_append {content : Bytes} {i : ℕ} (h : i ≤ content.length) (more : Bytes) :
    lineStart (content ++ more) i = lineStart content i := by
  induction i with
  | zero => rfl
  | succ i ih =>
    rw [lineStart, lineStart, List.getElem?_append_left h, ih (Nat.le_of_succ_le h)]

theorem CompleteLine.terminated {content line : Bytes} {start : ℕ}
    (h : CompleteLine content start line) : content[start + line.length]? = some newline := by
  obtain ⟨rest, hdrop⟩ := h.drop
  exact getElem?_of_drop hdrop

/-- What was complete before the file grew. -/
theorem CompleteLine.of_append {content more line : Bytes} {start : ℕ}
    (h : CompleteLine (content ++ more) start line) (hlt : start + line.length < content.length) :
    CompleteLine content start line := by
  obtain ⟨rest, hdrop⟩ := h.drop
  have hstart : start ≤ content.length := (Nat.le_add_right ..).trans hlt.le
  refine ⟨(lineStart_append hstart more).symm.trans h.first, ?_, h.clean⟩
  rw [List.drop_append_of_le_length hstart] at hdrop
  refine ⟨(content.drop start).drop (line.length + 1), ?_⟩
  have htake : (content.drop start).take (line.length + 1) = line ++ [newline] := by
    have hle : line.length + 1 ≤ (content.drop start).length := by
      rw [List.length_drop]
      omega
    have hsame : (content.drop start ++ more).take (line.length + 1) =
        (content.drop start).take (line.length + 1) := List.take_append_of_le_length hle
    rw [← hsame, hdrop, List.take_length_add_append]
    rfl
  calc content.drop start
    _ = (content.drop start).take (line.length + 1) ++
        (content.drop start).drop (line.length + 1) := (List.take_append_drop ..).symm
    _ = _ := by
      rw [htake, List.append_assoc]
      rfl

/-- A complete line that ends behind a line start begins behind it. -/
theorem CompleteLine.start_ge {content line : Bytes} {start base : ℕ}
    (h : CompleteLine content start line) (hbase : lineStart content base = base)
    (hle : base ≤ start + line.length) : base ≤ start := by
  by_contra hlt
  obtain ⟨i, rfl⟩ : ∃ i, base = i + 1 := ⟨base - 1, by omega⟩
  obtain ⟨rest, hdrop⟩ := h.drop
  have := newline_ne_of_drop hdrop h.clean (by omega) (newline_of_lineStart hbase)
  omega

def EndsLine (content : Bytes) : Prop := lineStart content content.length = content.length

namespace World
variable (crates : Crates)

def leaves (w : World) (wall : ℤ) : Option Path :=
  match w.phase with
  | .decided latest _ =>
    if latest = w.reader.currentFile ∨ w.reader.shouldSwitch wall = false then none
    else w.reader.currentFile
  | _ => none

def scanPath (w : World) : Option Path :=
  match w.phase with
  | .scanning path _ _ => some path
  | _ => none

def openPath (w : World) : Option Path :=
  match w.phase with
  | .opened path _ => some path
  | _ => none

/-- The files can be read, the first attach finds the last line terminated, and a file is left
for another with no line in it that is complete and unread. -/
def Undisturbed (w : World) : Event → Prop
  | .switchFile wall scanned _ _ => scanned = true ∧ ∀ path ∈ w.leaves wall,
      (w.takes wall).isSome = true ∧ newline ∉ (w.files path).drop w.reader.fileOffset
  | .scanRead ok _ _ => ok = true ∧ ∀ path ∈ w.scanPath, EndsLine (w.files path)
  | .openFile ok => ok = true
  | .readFile ok _ => ok = true ∧
      ∀ path ∈ w.openPath, isUtf8 ((w.files path).drop w.reader.fileOffset) = true
  | _ => True

/-- The line is an assistant record with this text. -/
def Records (line : Bytes) (text : Text) : Prop :=
  ∃ turnId, extractAssistantTextWithTurn crates (trim (fromUtf8Lossy line)) = some (text, turnId)

/-- A read that sees new bytes delivers every line they complete, and a file is left only when
all that was completed in it has been delivered. -/
structure LosesNothing (w : World) (e : Event) : Prop where
  reads : ∀ path fileLen ok modified, w.phase = .opened path fileLen → e = .readFile ok modified →
    w.reader.fileOffset < fileLen →
      ((claudeReader crates).next w e).reader.fileOffset = (w.files path).length ∧
      ∃ ds, ((claudeReader crates).next w e).reader.delivered = w.reader.delivered ++ ds ∧
        ∀ start line text, CompleteLine (w.files path) start line →
          w.reader.fileOffset ≤ start + line.length → Records crates line text →
          ∃ d ∈ ds, d.record.file = path ∧ d.lineAt = start ∧ d.record.text = text ∧
            d.toSink = w.reader.hasSink ∧ d.toBuffer = w.reader.hasDest
  rotates : ∀ path, w.reader.currentFile = some path →
    ((claudeReader crates).next w e).reader.currentFile ≠ some path →
    ∀ start line text, CompleteLine (w.files path) start line →
      w.attachedAt ≤ start + line.length → Records crates line text →
      ∃ d ∈ w.reader.delivered, d.record.file = path ∧ d.lineAt = start ∧ d.record.text = text

/-- The reader stands at the start of a line, and what ended before it has been delivered. -/
structure CaughtUp (w : World) : Prop where
  stands : ∀ path, w.reader.currentFile = some path →
    Stands (w.files path) w.reader.fileOffset w.reader.lineRemainder ∧
    lineStart (w.files path) (w.reader.fileOffset - w.reader.lineRemainder.length) =
      w.reader.fileOffset - w.reader.lineRemainder.length
  covered : ∀ path, w.reader.currentFile = some path → ∀ start line text,
    CompleteLine (w.files path) start line → w.attachedAt ≤ start + line.length →
    start + line.length < w.reader.fileOffset → Records crates line text →
    ∃ d ∈ w.reader.delivered, d.record.file = path ∧ d.lineAt = start ∧ d.record.text = text
  opened : ∀ path fileLen, w.phase = .opened path fileLen →
    w.reader.currentFile = some path ∧ w.reader.fileOffset ≤ fileLen
  scanning : ∀ path pinned initialLen, w.phase = .scanning path pinned initialLen →
    w.reader.currentFile = none ∧ initialLen ≤ (w.files path).length

variable {crates} {w : World}

theorem CaughtUp.new (files : Path → Bytes) (hasSink hasDest : Bool) (attachTime : ℤ)
    (pinId : Option String) :
    (World.new files (.new hasSink hasDest attachTime pinId)).CaughtUp crates where
  stands _ h := nomatch h
  covered _ h := nomatch h
  opened _ _ h := nomatch h
  scanning _ _ _ h := nomatch h

theorem CaughtUp.append (h : w.CaughtUp crates) (path : Path) (bytes : Bytes) :
    ({ w with files := Function.update w.files path (w.files path ++ bytes) } : World).CaughtUp
      crates := by
  have hgrow : ∀ p, ∃ more, Function.update w.files path (w.files path ++ bytes) p =
      w.files p ++ more := w.files_append path bytes
  refine ⟨fun p hp => ?_, fun p hp start line text hline hat hlt hrec => ?_, h.opened,
    fun p pinned initialLen hs => ⟨(h.scanning p pinned initialLen hs).1, ?_⟩⟩
  · obtain ⟨more, hmore⟩ := hgrow p
    obtain ⟨hstands, hfirst⟩ := h.stands p hp
    dsimp only
    rw [hmore]
    refine ⟨hstands.grow more, ?_⟩
    rw [lineStart_append ((Nat.sub_le ..).trans hstands.inside), hfirst]
  · obtain ⟨more, hmore⟩ := hgrow p
    dsimp only at hline
    rw [hmore] at hline
    exact h.covered p hp start line text
      (hline.of_append (Nat.lt_of_lt_of_le hlt (h.stands p hp).1.inside)) hat hlt hrec
  · obtain ⟨more, hmore⟩ := hgrow p
    show initialLen ≤ (Function.update w.files path (w.files path ++ bytes) p).length
    rw [hmore, List.length_append]
    exact Nat.le_add_right_of_le (h.scanning p pinned initialLen hs).2

/-- A change of the reader that touches neither its place nor its deliveries. -/
theorem CaughtUp.aside (h : w.CaughtUp crates) {r : ClaudeReader} {phase : Phase}
    (hdel : r.delivered = w.reader.delivered) (hcur : r.currentFile = w.reader.currentFile)
    (hoff : r.fileOffset = w.reader.fileOffset) (hrem : r.lineRemainder = w.reader.lineRemainder)
    (hopened : ∀ path fileLen, phase = .opened path fileLen →
      w.reader.currentFile = some path ∧ w.reader.fileOffset ≤ fileLen)
    (hscanning : ∀ path pinned initialLen, phase = .scanning path pinned initialLen →
      w.reader.currentFile = none ∧ initialLen ≤ (w.files path).length) :
    ({ w with reader := r, phase := phase } : World).CaughtUp crates where
  stands path hp := by
    dsimp only at hp ⊢
    rw [hoff, hrem]
    exact h.stands path (hcur ▸ hp)
  covered path hp := by
    dsimp only at hp ⊢
    rw [hoff, hdel]
    exact h.covered path (hcur ▸ hp)
  opened path fileLen hp := by
    dsimp only at hp ⊢
    rw [hcur, hoff]
    exact hopened path fileLen hp
  scanning path pinned initialLen hp := by
    dsimp only at hp ⊢
    rw [hcur]
    exact hscanning path pinned initialLen hp

/-- A file is taken up at the start of a line. -/
theorem CaughtUp.follow {r : ClaudeReader} {latest : Option Path} {modified : Option ℤ}
    (hnew : ∀ path, latest = some path → r.fileOffset ≤ (w.files path).length ∧
      lineStart (w.files path) r.fileOffset = r.fileOffset) :
    (w.follow r latest modified).CaughtUp crates where
  stands path hp := ⟨stands_nil (hnew path hp).1, (hnew path hp).2⟩
  covered _ _ _ _ _ _ hat hlt := absurd hat hlt.not_ge
  opened _ _ hp := nomatch hp
  scanning _ _ _ hp := nomatch hp

theorem CaughtUp.switchFile (h : w.CaughtUp crates) (wall : ℤ) (measured : Bool)
    (modified : Option ℤ) : (w.switchFile wall true measured modified).CaughtUp crates := by
  unfold World.switchFile
  cases hphase : w.phase with
  | decided latest pinned =>
    dsimp only
    by_cases hstay : latest = w.reader.currentFile ∨ w.reader.shouldSwitch wall = false
    · rw [if_pos hstay]
      exact h.aside rfl rfl rfl rfl nofun nofun
    · rw [if_neg hstay]
      cases hcur : w.reader.currentFile with
      | some current => exact .follow fun path _ => ⟨Nat.zero_le _, rfl⟩
      | none =>
        cases latest with
        | none => exact .follow fun path _ => ⟨Nat.zero_le _, rfl⟩
        | some path =>
          refine h.aside rfl rfl rfl rfl nofun fun path' pinned' initialLen hp => ?_
          cases hp
          exact ⟨hcur, le_rfl⟩
  | _ => exact h

theorem CaughtUp.scanRead (h : w.CaughtUp crates) (measured : Bool) (modified : Option ℤ)
    (ha : ∀ path ∈ w.scanPath, EndsLine (w.files path)) :
    (w.scanRead crates true measured modified).CaughtUp crates := by
  unfold World.scanRead
  cases hphase : w.phase with
  | scanning path pinned initialLen =>
    dsimp only
    rw [if_pos rfl, firstAttachScan_eq]
    refine .follow fun path' hp => ?_
    cases hp
    have hend : (readPreambleForRace crates w.reader.attachTime initialLen (w.files path)).2 =
        (w.files path).length :=
      readPreambleForRace_offset (h.scanning path pinned initialLen hphase).2
    dsimp only
    rw [hend]
    refine ⟨le_rfl, ha path ?_⟩
    rw [scanPath, hphase]
    rfl
  | _ => exact h

theorem CaughtUp.openFile (h : w.CaughtUp crates) (ok : Bool) :
    (w.openFile ok).CaughtUp crates := by
  unfold World.openFile
  split
  · rename_i path hphase hcur
    split_ifs
    · refine h.aside rfl rfl rfl rfl (fun path' fileLen hp => ?_) nofun
      cases hp
      exact ⟨hcur, (h.stands path hcur).1.inside⟩
    · exact h.aside rfl rfl rfl rfl nofun nofun
  · exact h.aside rfl rfl rfl rfl nofun nofun
  · exact h

/-- The lines a read finds where there is something new, and where it leaves the reader. -/
theorem readNewLinesWithStarts_eq {content remainder : Bytes} {fileLen offset : ℕ}
    (hlt : offset < fileLen) (hutf : isUtf8 (content.drop offset) = true) :
    readNewLinesWithStarts fileLen (some content) offset remainder =
      (some ((linesFrom (offset - remainder.length) []
            (remainder ++ content.drop offset)).1.filterMap
          fun line => if trim (fromUtf8Lossy line.2) = [] then none
            else some (line.1, trim (fromUtf8Lossy line.2))),
        offset + (content.drop offset).length,
        (linesFrom (offset - remainder.length) [] (remainder ++ content.drop offset)).2.2) := by
  unfold readNewLinesWithStarts
  rw [if_neg hlt.not_gt, if_neg hlt.not_ge]
  dsimp only
  rw [if_pos hutf]

theorem not_records_blank {line : Bytes} {text : Text} (h : trim (fromUtf8Lossy line) = []) :
    ¬ Records crates line text := by
  rintro ⟨turnId, hrec⟩
  rw [h] at hrec
  cases hrec

/-- From the start of a line, a read finds every record whose line it completes. -/
theorem mem_readNewLines {content line remainder : Bytes} {start offset : ℕ} {text : Text}
    (hstands : Stands content offset remainder)
    (hfirst : lineStart content (offset - remainder.length) = offset - remainder.length)
    (hline : CompleteLine content start line) (hat : offset ≤ start + line.length)
    (hrec : Records crates line text) :
    (start, trim (fromUtf8Lossy line)) ∈
      (linesFrom (offset - remainder.length) [] (remainder ++ content.drop offset)).1.filterMap
        fun line => if trim (fromUtf8Lossy line.2) = [] then none
          else some (line.1, trim (fromUtf8Lossy line.2)) := by
  have hge := hline.start_ge hfirst ((Nat.sub_le ..).trans hat)
  have hmem := mem_linesFrom hline _ [] _ hstands.joins nofun hge
  exact List.mem_filterMap.mpr ⟨(start, line), hmem, if_neg fun h => not_records_blank h hrec⟩

theorem lineStart_after {content remainder : Bytes} {offset : ℕ}
    (h : Stands content offset remainder)
    (hfirst : lineStart content (offset - remainder.length) = offset - remainder.length) :
    lineStart content (offset + (content.drop offset).length -
        (linesFrom (offset - remainder.length) [] (remainder ++ content.drop offset)).2.2.length) =
      offset + (content.drop offset).length -
        (linesFrom (offset - remainder.length) []
          (remainder ++ content.drop offset)).2.2.length := by
  have hspec := linesFrom_spec (offset - remainder.length) [] (remainder ++ content.drop offset)
    h.joins
  obtain ⟨htail, -⟩ := linesFrom_tail (offset - remainder.length) []
    (remainder ++ content.drop offset) h.joins hfirst nofun
  have htop := linesFrom_tail_le (offset - remainder.length) []
    (remainder ++ content.drop offset) h.joins ((Nat.sub_le ..).trans h.inside)
  generalize linesFrom (offset - remainder.length) [] (remainder ++ content.drop offset) = found
    at hspec htail htop
  have hbase : offset + (content.drop offset).length - found.2.2.length = found.2.1 := by
    have hinside := h.inside
    rw [← hspec.2.2.2, List.length_drop, List.length_drop]
    omega
  rw [hbase]
  exact htail

variable (crates) in
/-- A read of everything that is new. -/
structure ReadsAll (w w' : World) (path : Path) : Prop where
  moved : w'.reader.fileOffset = (w.files path).length
  delivers : ∃ ds, w'.reader.delivered = w.reader.delivered ++ ds ∧
    ∀ start line text, CompleteLine (w.files path) start line →
      w.reader.fileOffset ≤ start + line.length → Records crates line text →
      ∃ d ∈ ds, d.record.file = path ∧ d.lineAt = start ∧ d.record.text = text ∧
        d.toSink = w.reader.hasSink ∧ d.toBuffer = w.reader.hasDest

theorem CaughtUp.readOn (h : w.CaughtUp crates) {path : Path} {newLines : List (ℕ × Text)}
    {remainder : Bytes} (pending : Bool) (origin : RecordOrigin) (modified : Option ℤ)
    (hcur : w.reader.currentFile = some path)
    (hstands : Stands (w.files path) (w.files path).length remainder)
    (hfirst : lineStart (w.files path) ((w.files path).length - remainder.length) =
      (w.files path).length - remainder.length)
    (hmem : ∀ start line text, CompleteLine (w.files path) start line →
      w.reader.fileOffset ≤ start + line.length → Records crates line text →
      (start, trim (fromUtf8Lossy line)) ∈ newLines) :
    let started : ClaudeReader := { w.reader with
      fileOffset := (w.files path).length
      lineRemainder := remainder
      rotationBackfillPending := pending }
    let read : World := { w with
      reader := { started.captureLiveLines crates newLines path origin with
        currentFileMtime := modified }
      phase := .idle }
    read.CaughtUp crates ∧ read.reader.currentFile = some path ∧ ReadsAll crates w read path := by
  intro started read
  have hadds := started.adds_captureLiveLines crates newLines path origin
  have hcur' : read.reader.currentFile = some path := hadds.currentFile.trans hcur
  have hoff : read.reader.fileOffset = (w.files path).length := hadds.fileOffset
  have hrem : read.reader.lineRemainder = remainder := hadds.lineRemainder
  obtain ⟨ds, hds, hall⟩ := started.delivers_captureLiveLines crates newLines path origin
  have hreads : ReadsAll crates w read path := by
    refine ⟨hoff, ds, hds, fun start line text hline hat hrec => ?_⟩
    obtain ⟨turnId, hturn⟩ := hrec
    exact hall _ (hmem start line text hline hat ⟨turnId, hturn⟩) text turnId hturn
  refine ⟨⟨fun p hp => ?_, fun p hp start line text hline hat hlt hrec => ?_, nofun, nofun⟩, hcur',
    hreads⟩
  · cases hcur'.symm.trans hp
    rw [hoff, hrem]
    exact ⟨hstands, hfirst⟩
  · cases hcur'.symm.trans hp
    rcases Nat.lt_or_ge (start + line.length) w.reader.fileOffset with hold | hnew
    · obtain ⟨d, hd, hmatch⟩ := h.covered path hcur start line text hline hat hold hrec
      exact ⟨d, hds ▸ List.mem_append_left ds hd, hmatch⟩
    · obtain ⟨ds', hds', hall'⟩ := hreads.delivers
      obtain ⟨d, hd, hfile, hat', htext, -⟩ := hall' start line text hline hnew hrec
      exact ⟨d, hds' ▸ List.mem_append_right _ hd, hfile, hat', htext⟩

theorem CaughtUp.readFile (h : w.CaughtUp crates) {path : Path} {fileLen : ℕ}
    (hphase : w.phase = .opened path fileLen) (modified : Option ℤ)
    (hutf : isUtf8 ((w.files path).drop w.reader.fileOffset) = true) :
    (w.readFile crates true modified).CaughtUp crates ∧
      (w.readFile crates true modified).reader.currentFile = some path ∧
      (w.reader.fileOffset < fileLen →
        ReadsAll crates w (w.readFile crates true modified) path) := by
  obtain ⟨hcur, hlen⟩ := h.opened path fileLen hphase
  obtain ⟨hstands, hfirst⟩ := h.stands path hcur
  unfold World.readFile
  rw [hphase]
  dsimp only
  unfold ClaudeReader.readNewLines
  rw [if_pos rfl]
  rcases Nat.eq_or_lt_of_le hlen with heq | hlt
  · have hnone : readNewLinesWithStarts fileLen (some (w.files path)) w.reader.fileOffset
        w.reader.lineRemainder = (some [], w.reader.fileOffset, w.reader.lineRemainder) := by
      unfold readNewLinesWithStarts
      rw [if_neg hlen.not_gt, if_pos heq.ge]
    rw [hnone]
    exact ⟨h.aside rfl rfl rfl rfl nofun nofun, hcur, fun hlt => absurd heq hlt.ne⟩
  · have hafter := lineStart_after hstands hfirst
    have hstands' := (readsOn_linesFrom hstands).stands
    have hend : w.reader.fileOffset + ((w.files path).drop w.reader.fileOffset).length =
        (w.files path).length := by
      rw [List.length_drop]
      exact Nat.add_sub_cancel' hstands.inside
    rw [readNewLinesWithStarts_eq hlt hutf]
    rw [hend] at hafter hstands' ⊢
    obtain ⟨hcaught, hcur', hreads⟩ := h.readOn _ _ modified hcur hstands' hafter
      fun start line text hline => mem_readNewLines hstands hfirst hline
    exact ⟨hcaught, hcur', fun _ => hreads⟩

theorem newline_mem_of_terminated {content line : Bytes} {start offset : ℕ}
    (h : CompleteLine content start line) (hat : offset ≤ start + line.length) :
    newline ∈ content.drop offset := by
  refine List.mem_of_getElem? (i := start + line.length - offset) ?_
  rw [List.getElem?_drop, Nat.add_sub_cancel' hat]
  exact h.terminated

theorem currentFile_switchFile {wall : ℤ} {scanned measured : Bool} {modified : Option ℤ}
    {path : Path} (hcur : w.reader.currentFile = some path)
    (hleft : (w.switchFile wall scanned measured modified).reader.currentFile ≠ some path) :
    w.leaves wall = some path := by
  unfold World.switchFile at hleft
  unfold leaves
  cases hphase : w.phase with
  | decided latest pinned =>
    rw [hphase] at hleft
    dsimp only at hleft ⊢
    by_cases hstay : latest = w.reader.currentFile ∨ w.reader.shouldSwitch wall = false
    · rw [if_pos hstay] at hleft
      exact absurd hcur hleft
    · rw [if_neg hstay]
      exact hcur
  | _ =>
    rw [hphase] at hleft
    exact absurd hcur hleft

theorem CaughtUp.rotates (h : w.CaughtUp crates) {wall : ℤ} {scanned measured : Bool}
    {modified : Option ℤ} {path : Path} (hcur : w.reader.currentFile = some path)
    (hleft : (w.switchFile wall scanned measured modified).reader.currentFile ≠ some path)
    (ha : w.Undisturbed (.switchFile wall scanned measured modified))
    {start : ℕ} {line : Bytes} {text : Text} (hline : CompleteLine (w.files path) start line)
    (hat : w.attachedAt ≤ start + line.length) (hrec : Records crates line text) :
    ∃ d ∈ w.reader.delivered, d.record.file = path ∧ d.lineAt = start ∧ d.record.text = text := by
  have hleaves := currentFile_switchFile hcur hleft
  have hread : start + line.length < w.reader.fileOffset := by
    by_contra hge
    exact (ha.2 path hleaves).2 (newline_mem_of_terminated hline (Nat.le_of_not_lt hge))
  exact h.covered path hcur start line text hline hat hread hrec

theorem CaughtUp.step (h : w.CaughtUp crates) (e : Event) (ha : w.Undisturbed e) :
    ((claudeReader crates).next w e).CaughtUp crates ∧ LosesNothing crates w e := by
  have hstays : ∀ e, ((claudeReader crates).next w e).reader.currentFile = w.reader.currentFile →
      (∀ ok modified, e ≠ .readFile ok modified) → LosesNothing crates w e :=
    fun e hsame hother => ⟨fun path fileLen ok modified _ he => absurd he (hother ok modified),
      fun path hcur hleft => absurd (hsame.trans hcur) hleft⟩
  cases e with
  | append path bytes => exact ⟨h.append path bytes, hstays _ rfl nofun⟩
  | onDestChange attaching =>
    show (if w.phase = .idle then _ else w : World).CaughtUp crates ∧ _
    refine ⟨?_, hstays _ ?_ nofun⟩
    · split_ifs
      · exact h.aside rfl rfl rfl rfl h.opened h.scanning
      · exact h
    · show (if w.phase = .idle then _ else w : World).reader.currentFile = _
      split_ifs <;> rfl
  | attachTarget entries pinnedEntries now =>
    have hkept := w.reader.attachTarget_kept entries pinnedEntries now
    show (World.step crates w (.attachTarget entries pinnedEntries now)).1.CaughtUp crates ∧ _
    refine ⟨?_, hstays _ ?_ nofun⟩
    · unfold World.step
      dsimp only
      split_ifs
      · exact h.aside hkept.1 hkept.2.1 hkept.2.2.1 hkept.2.2.2 nofun nofun
      · exact h
    · show (World.step crates w (.attachTarget entries pinnedEntries now)).1.reader.currentFile = _
      unfold World.step
      dsimp only
      split_ifs
      · exact hkept.2.1
      · rfl
  | switchFile wall scanned measured modified =>
    obtain rfl := ha.1
    exact ⟨h.switchFile wall measured modified, nofun,
      fun path hcur hleft start line text => h.rotates hcur hleft ha⟩
  | scanRead ok measured modified =>
    obtain ⟨rfl, hends⟩ := ha
    refine ⟨h.scanRead measured modified hends, nofun, fun path hcur hleft => absurd ?_ hleft⟩
    show (w.scanRead crates true measured modified).reader.currentFile = _
    unfold World.scanRead
    cases hphase : w.phase with
    | scanning path' pinned initialLen =>
      cases hcur.symm.trans (h.scanning path' pinned initialLen hphase).1
    | _ => exact hcur
  | openFile ok =>
    refine ⟨h.openFile ok, hstays _ ?_ nofun⟩
    show (w.openFile ok).reader.currentFile = _
    unfold World.openFile
    split
    · split_ifs <;> rfl
    · rfl
    · rfl
  | readFile ok modified =>
    obtain ⟨rfl, hutf⟩ := ha
    cases hphase : w.phase with
    | opened path fileLen =>
      obtain ⟨hcaught, hcur', hreads⟩ := h.readFile hphase modified
        (hutf path (by rw [openPath, hphase]; rfl))
      refine ⟨hcaught, fun path' fileLen' ok' modified' hp he hlt => ?_,
        fun path' hcur hleft => absurd ?_ hleft⟩
      · cases hphase.symm.trans hp
        exact ⟨(hreads hlt).moved, (hreads hlt).delivers⟩
      · cases (h.opened path fileLen hphase).1.symm.trans hcur
        exact hcur'
    | _ =>
      have hsame : (claudeReader crates).next w (.readFile true modified) = w := by
        show w.readFile crates true modified = w
        unfold World.readFile
        rw [hphase]
      refine ⟨hsame.symm ▸ h, fun path fileLen ok' modified' hp => ?_, fun path hcur hleft =>
        absurd (hsame.symm ▸ hcur) hleft⟩
      cases hphase.symm.trans hp

instance (w : World) : ∀ e, Decidable (w.Undisturbed e)
  | .switchFile wall scanned _ _ => inferInstanceAs (Decidable (scanned = true ∧
      ∀ path ∈ w.leaves wall,
        (w.takes wall).isSome = true ∧ newline ∉ (w.files path).drop w.reader.fileOffset))
  | .scanRead ok _ _ => inferInstanceAs (Decidable (ok = true ∧
      ∀ path ∈ w.scanPath, lineStart (w.files path) (w.files path).length = (w.files path).length))
  | .openFile ok => inferInstanceAs (Decidable (ok = true))
  | .readFile ok _ => inferInstanceAs (Decidable (ok = true ∧
      ∀ path ∈ w.openPath, isUtf8 ((w.files path).drop w.reader.fileOffset) = true))
  | .append _ _ | .onDestChange _ | .attachTarget _ _ _ => isTrue trivial

end World

/-- In a run that is never disturbed, every poll that sees a record's line complete delivers it,
and no file is left before its records are delivered. -/
theorem losesNothing_run (crates : Crates) (files : Path → Bytes) (hasSink hasDest : Bool)
    (attachTime : ℤ) (pinId : Option String) (es : List Event)
    (h : (claudeReader crates).Along World.Undisturbed
      (.new files (.new hasSink hasDest attachTime pinId)) es) :
    (claudeReader crates).Along (World.LosesNothing crates)
      (.new files (.new hasSink hasDest attachTime pinId)) es :=
  (Machine.Along.and_inv (P := World.CaughtUp crates) (fun _ e hw ha => (hw.step e ha).1)
    (.new files hasSink hasDest attachTime pinId) h).mono fun _ e hw => (hw.1.step e hw.2).2

theorem losesNothing_movedOn :
    (claudeReader doneCrates).Along World.Undisturbed
        (.new (fun _ => []) (.new true true 0 none)) movedOn ∧
      (claudeReader doneCrates).Along (World.LosesNothing doneCrates)
        (.new (fun _ => []) (.new true true 0 none)) movedOn :=
  have h : (claudeReader doneCrates).Along World.Undisturbed
      (.new (fun _ => []) (.new true true 0 none)) movedOn := by decide +kernel
  ⟨h, losesNothing_run doneCrates (fun _ => []) true true 0 none movedOn h⟩

def doneBytes : Bytes := doneLine.toUTF8.toList

/-- The answer is half written when its transcript is attached. -/
def halfWritten : Path → Bytes
  | "A" => doneBytes.take 20
  | _ => []

/-- The rest is written, and the next poll opens the file. -/
def writtenUp : World :=
  (claudeReader doneCrates).run (.new halfWritten (.new true true 0 none))
    (pollOf "A" 0 ++ [.append "A" (doneBytes.drop 20 ++ [newline])] ++
      (pollOf "A" (1 * second)).dropLast)

theorem losesAnswer_halfWritten :
    ¬ (claudeReader doneCrates).Along (World.LosesNothing doneCrates)
      (.new halfWritten (.new true true 0 none))
      (pollOf "A" 0 ++ [.append "A" (doneBytes.drop 20 ++ [newline])] ++
        (pollOf "A" (1 * second)).dropLast ++ [.readFile true (some (1 * second))]) := by
  intro h
  have hread : World.LosesNothing doneCrates writtenUp (.readFile true (some (1 * second))) :=
    (((claudeReader doneCrates).along_append _ _ _ _).mp h).2.1
  have hphase : writtenUp.phase = .opened "A" (doneBytes.length + 1) := by decide +kernel
  have hfile : writtenUp.files "A" = doneBytes ++ [newline] := by decide +kernel
  have hoffset : writtenUp.reader.fileOffset = 20 := by decide +kernel
  have hlen : 20 < doneBytes.length := by decide +kernel
  have hnone : ((claudeReader doneCrates).next writtenUp
      (.readFile true (some (1 * second)))).reader.delivered = [] := by decide +kernel
  obtain ⟨-, ds, hds, hall⟩ := hread.reads "A" _ true _ hphase rfl (by omega)
  have hline : CompleteLine (writtenUp.files "A") 0 doneBytes :=
    ⟨rfl, ⟨[], hfile⟩, by decide +kernel⟩
  have hrec : World.Records doneCrates doneBytes "done".toList := ⟨none, by decide +kernel⟩
  obtain ⟨d, hd, -⟩ := hall 0 doneBytes _ hline (by omega) hrec
  rw [hnone] at hds
  exact absurd hd (by rw [(List.append_eq_nil_iff.mp hds.symm).2]; exact List.not_mem_nil)

end AgentsCommander.Transcript
