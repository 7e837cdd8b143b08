import AgentsCommander.Transcript.Reader

/-! What a read or a scan adds to the deliveries, and where their lines lie. A record is delivered
once as long as no file is taken up again. -/
namespace AgentsCommander.Transcript
open Foundation

theorem Before.within {content : Bytes} {a b : ℕ} (h : Before content a b) :
    Before content a content.length := by
  obtain ⟨i, hai, -, hn⟩ := h
  exact ⟨i, hai, (List.getElem?_eq_some_iff.mp hn).1, hn⟩

theorem map_fst_filterMap {α β : Type} {f : ℕ × α → Option (ℕ × β)}
    (hf : ∀ a b, f a = some b → b.1 = a.1) (l : List (ℕ × α)) :
    ((l.filterMap f).map (·.1)).Sublist (l.map (·.1)) := by
  induction l with
  | nil => exact .slnil
  | cons a l ih =>
    cases h : f a with
    | none =>
      rw [List.filterMap_cons_none h]
      exact ih.cons _
    | some b =>
      rw [List.filterMap_cons_some h, List.map_cons, List.map_cons, hf a b h]
      exact ih.cons_cons _

/-- The deliveries are added at these starts, and nothing but them and their number changes. -/
structure Adds (file : Path) (starts : List ℕ) (r r' : ClaudeReader) : Prop where
  new : ∃ ds, r'.delivered = r.delivered ++ ds ∧
    (∀ d ∈ ds, d.record.file = file ∧ d.toSink = r.hasSink ∧ d.toBuffer = r.hasDest) ∧
    (ds.map (·.lineAt)).Sublist starts
  frame : r' = { r with readerSeq := r'.readerSeq, delivered := r'.delivered }

namespace Adds
variable {file : Path} {starts : List ℕ} {r r' : ClaudeReader}

theorem refl (r : ClaudeReader) : Adds file [] r r :=
  ⟨⟨[], (List.append_nil _).symm, nofun, .slnil⟩, rfl⟩

theorem fileOffset (h : Adds file starts r r') : r'.fileOffset = r.fileOffset :=
  (congrArg ClaudeReader.fileOffset h.frame :)

theorem lineRemainder (h : Adds file starts r r') : r'.lineRemainder = r.lineRemainder :=
  (congrArg ClaudeReader.lineRemainder h.frame :)

theorem currentFile (h : Adds file starts r r') : r'.currentFile = r.currentFile :=
  (congrArg ClaudeReader.currentFile h.frame :)

theorem hasSink (h : Adds file starts r r') : r'.hasSink = r.hasSink :=
  (congrArg ClaudeReader.hasSink h.frame :)

theorem hasDest (h : Adds file starts r r') : r'.hasDest = r.hasDest :=
  (congrArg ClaudeReader.hasDest h.frame :)

theorem deliver (r : ClaudeReader) (text : Text) (turnId : Option Text) (recordStart : Option ℕ)
    (origin : RecordOrigin) (file : Path) (lineAt : ℕ) :
    Adds file [lineAt] r (r.deliver text turnId recordStart origin file lineAt) where
  new := ⟨[_], rfl, fun d hd => by rw [List.mem_singleton.mp hd]; exact ⟨rfl, rfl, rfl⟩,
    List.Sublist.refl _⟩
  frame := rfl

theorem trans {more : List ℕ} {r'' : ClaudeReader} (h : Adds file starts r r')
    (h' : Adds file more r' r'') : Adds file (starts ++ more) r r'' := by
  obtain ⟨ds, hds, hfile, hsub⟩ := h.new
  obtain ⟨es, hes, hfile', hsub'⟩ := h'.new
  refine ⟨⟨ds ++ es, ?_, fun d hd => ?_, ?_⟩, ?_⟩
  · rw [hes, hds, List.append_assoc]
  · rcases List.mem_append.mp hd with hd | hd
    · exact hfile d hd
    · rw [← h.hasSink, ← h.hasDest]
      exact hfile' d hd
  · rw [List.map_append]
    exact hsub.append hsub'
  · exact h'.frame.trans (congrArg (fun x : ClaudeReader =>
      { x with readerSeq := r''.readerSeq, delivered := r''.delivered }) h.frame)

theorem mem (h : Adds file starts r r') {d : Delivery} (hd : d ∈ r'.delivered) :
    d ∈ r.delivered ∨ d.record.file = file ∧ d.lineAt ∈ starts ∧
      d.heard = (r.hasSink || r.hasDest) := by
  obtain ⟨ds, hds, hfile, hsub⟩ := h.new
  rw [hds] at hd
  rcases List.mem_append.mp hd with hd | hd
  · exact Or.inl hd
  · refine Or.inr ⟨(hfile d hd).1, hsub.subset (List.mem_map_of_mem hd), ?_⟩
    rw [Delivery.heard, (hfile d hd).2.1, (hfile d hd).2.2]

theorem skip (h : Adds file starts r r') (start : ℕ) : Adds file (starts ++ [start]) r r' := by
  obtain ⟨ds, hds, hfile, hsub⟩ := h.new
  exact ⟨⟨ds, hds, hfile, hsub.trans (List.sublist_append_left starts _)⟩, h.frame⟩

end Adds

namespace ClaudeReader
variable (crates : Crates) (r : ClaudeReader)

theorem adds_captureLiveLines (newLines : List (ℕ × Text)) (file : Path) (origin : RecordOrigin) :
    Adds file (newLines.map (·.1)) r (r.captureLiveLines crates newLines file origin) := by
  induction newLines generalizing r with
  | nil => exact .refl r
  | cons line rest ih =>
    rw [captureLiveLines, List.foldl_cons, List.map_cons]
    cases h : extractAssistantTextWithTurn crates line.2 with
    | none =>
      have hskip := (Adds.refl r : Adds file [] r r).skip line.1
      exact hskip.trans (ih r)
    | some found =>
      exact (Adds.deliver r found.1 found.2 (some line.1) origin file line.1).trans (ih _)

/-- Every record among the lines is delivered. -/
theorem delivers_captureLiveLines (newLines : List (ℕ × Text)) (file : Path)
    (origin : RecordOrigin) :
    ∃ ds, (r.captureLiveLines crates newLines file origin).delivered = r.delivered ++ ds ∧
      ∀ line ∈ newLines, ∀ text turnId,
        extractAssistantTextWithTurn crates line.2 = some (text, turnId) →
        ∃ d ∈ ds, d.record.file = file ∧ d.lineAt = line.1 ∧ d.record.text = text ∧
          d.toSink = r.hasSink ∧ d.toBuffer = r.hasDest := by
  induction newLines generalizing r with
  | nil => exact ⟨[], (List.append_nil _).symm, nofun⟩
  | cons first rest ih =>
    rw [captureLiveLines, List.foldl_cons]
    cases hf : extractAssistantTextWithTurn crates first.2 with
    | none =>
      obtain ⟨ds, hds, hall⟩ := ih r
      refine ⟨ds, hds, fun line hline text turnId h => ?_⟩
      rcases List.mem_cons.mp hline with rfl | hline
      · cases hf.symm.trans h
      · exact hall line hline text turnId h
    | some found =>
      obtain ⟨ds, hds, hall⟩ :=
        ih (r.deliver found.1 found.2 (some first.1) origin file first.1)
      refine ⟨_ :: ds, hds.trans (List.append_assoc ..), fun line hline text turnId h => ?_⟩
      rcases List.mem_cons.mp hline with rfl | hline
      · cases hf.symm.trans h
        exact ⟨_, List.mem_cons_self, rfl, rfl, rfl, rfl, rfl⟩
      · obtain ⟨d, hd, hmatch⟩ := hall line hline text turnId h
        exact ⟨d, List.mem_cons_of_mem _ hd, hmatch⟩

theorem adds_capturePreambleBodies (bodies : List (ℕ × Text)) (file : Path)
    (origin : RecordOrigin) :
    Adds file (bodies.map (·.1)) r (r.capturePreambleBodies bodies file origin) := by
  induction bodies generalizing r with
  | nil => exact .refl r
  | cons body rest ih =>
    exact (Adds.deliver r body.2 none none origin file body.1).trans (ih _)

end ClaudeReader

theorem windowLines_spec (start : ℕ) (content : Bytes) :
    ((windowLines start content).1.map (·.1)).Pairwise (Before content) ∧
      ∀ s ∈ (windowLines start content).1.map (·.1), Before content s content.length := by
  have hspec : ∀ start bytes, content.drop start = [] ++ bytes →
      ((linesFrom start [] bytes).1.map (·.1)).Pairwise (Before content) ∧
        ∀ s ∈ (linesFrom start [] bytes).1.map (·.1), Before content s content.length := by
    intro start bytes h
    obtain ⟨hmem, hpair, -, -⟩ := linesFrom_spec start [] bytes h
    refine ⟨List.pairwise_map.mpr hpair, fun s hs => ?_⟩
    obtain ⟨l, hl, rfl⟩ := List.mem_map.mp hs
    exact (hmem l hl).2.within
  unfold windowLines
  dsimp only
  split_ifs with hstart
  · exact hspec 0 _ (by rw [hstart]; rfl)
  · split
    · rename_i i _
      exact hspec _ _ (by rw [List.nil_append, List.drop_drop, Nat.add_assoc])
    · exact ⟨.nil, nofun⟩

theorem acceptPreamble_start {crates : Crates} {attachTime : ℤ} {start : ℕ} {line : Text}
    {found : ℕ × Text} (h : acceptPreamble crates attachTime start line = some found) :
    found.1 = start := by
  obtain ⟨x, -, hx⟩ := Option.bind_eq_some_iff.mp h
  split_ifs at hx
  exact (congrArg Prod.fst (Option.some.inj hx)).symm

theorem linesFrom_tail_le {content : Bytes} (start : ℕ) (line bytes : Bytes)
    (h : content.drop start = line ++ bytes) (hstart : start ≤ content.length) :
    (linesFrom start line bytes).2.1 ≤ content.length := by
  induction bytes generalizing start line with
  | nil => exact hstart
  | cons b rest ih =>
    rw [linesFrom]
    split_ifs with hb
    · have hlen := congrArg List.length h
      simp only [List.length_drop, List.length_append, List.length_cons] at hlen
      refine ih (start + line.length + 1) [] ?_ (by omega)
      rw [Nat.add_assoc, ← List.drop_drop, h]
      simp
    · exact ih start (line ++ [b]) (by rw [h]; simp) hstart

/-- The reader stands in the file, with the start of the unfinished line in its remainder. -/
structure Stands (content : Bytes) (offset : ℕ) (remainder : Bytes) : Prop where
  kept : remainder.length ≤ offset
  inside : offset ≤ content.length
  joins : content.drop (offset - remainder.length) = remainder ++ content.drop offset

theorem Stands.grow {content : Bytes} {offset : ℕ} {remainder : Bytes}
    (h : Stands content offset remainder) (more : Bytes) :
    Stands (content ++ more) offset remainder where
  kept := h.kept
  inside := h.inside.trans (by rw [List.length_append]; exact Nat.le_add_right ..)
  joins := by
    have hbase : offset - remainder.length ≤ content.length := (Nat.sub_le ..).trans h.inside
    rw [List.drop_append_of_le_length hbase, List.drop_append_of_le_length h.inside, h.joins,
      List.append_assoc]

theorem stands_nil {content : Bytes} {offset : ℕ} (h : offset ≤ content.length) :
    Stands content offset [] := ⟨Nat.zero_le _, h, rfl⟩

/-- What a read does from where the reader stands. -/
structure ReadsOn (content : Bytes) (offset : ℕ) (remainder : Bytes) (starts : List ℕ)
    (offset' : ℕ) (remainder' : Bytes) : Prop where
  stands : Stands content offset' remainder'
  onward : offset - remainder.length ≤ offset' - remainder'.length
  apart : starts.Pairwise (Before content)
  between : ∀ start ∈ starts, offset - remainder.length ≤ start ∧
    Before content start (offset' - remainder'.length)

theorem readsOn_of_stands {content : Bytes} {offset : ℕ} {remainder : Bytes}
    (h : Stands content offset remainder) : ReadsOn content offset remainder [] offset remainder :=
  ⟨h, le_rfl, .nil, nofun⟩

theorem readsOn_linesFrom {content : Bytes} {offset : ℕ} {remainder : Bytes}
    (h : Stands content offset remainder) :
    ReadsOn content offset remainder
      ((linesFrom (offset - remainder.length) [] (remainder ++ content.drop offset)).1.map (·.1))
      (offset + (content.drop offset).length)
      (linesFrom (offset - remainder.length) [] (remainder ++ content.drop offset)).2.2 := by
  obtain ⟨hmem, hpair, hle, htail⟩ :=
    linesFrom_spec (offset - remainder.length) [] (remainder ++ content.drop offset) h.joins
  have htop := linesFrom_tail_le (offset - remainder.length) []
    (remainder ++ content.drop offset) h.joins ((Nat.sub_le ..).trans h.inside)
  generalize linesFrom (offset - remainder.length) [] (remainder ++ content.drop offset) = found
    at hmem hpair hle htail htop
  have hend : offset + (content.drop offset).length = content.length := by
    rw [List.length_drop]
    exact Nat.add_sub_cancel' h.inside
  have hbase : content.length - found.2.2.length = found.2.1 := by
    rw [← htail, List.length_drop]
    omega
  rw [hend]
  refine ⟨⟨?_, le_rfl, ?_⟩, ?_, List.pairwise_map.mpr hpair, fun start hstart => ?_⟩
  · rw [← htail, List.length_drop]
    exact Nat.sub_le ..
  · rw [hbase, htail, List.drop_length, List.append_nil]
  · rw [hbase]
    exact hle
  · obtain ⟨l, hl, rfl⟩ := List.mem_map.mp hstart
    rw [hbase]
    exact hmem l hl

theorem ReadsOn.sublist {content : Bytes} {offset offset' : ℕ} {remainder remainder' : Bytes}
    {starts fewer : List ℕ} (h : ReadsOn content offset remainder starts offset' remainder')
    (hs : fewer.Sublist starts) : ReadsOn content offset remainder fewer offset' remainder' :=
  ⟨h.stands, h.onward, h.apart.sublist hs, fun start hstart => h.between start (hs.subset hstart)⟩

theorem readsOn_read {content : Bytes} {fileLen offset : ℕ} {remainder : Bytes}
    (h : Stands content offset remainder) (hlen : offset ≤ fileLen) {read : Option Bytes}
    (hread : ∀ c, read = some c → c = content) :
    ReadsOn content offset remainder
      (((readNewLinesWithStarts fileLen read offset remainder).1.getD []).map (·.1))
      (readNewLinesWithStarts fileLen read offset remainder).2.1
      (readNewLinesWithStarts fileLen read offset remainder).2.2 := by
  unfold readNewLinesWithStarts
  rw [if_neg hlen.not_gt]
  split_ifs
  · exact readsOn_of_stands h
  · cases read with
    | none => exact readsOn_of_stands h
    | some c =>
      obtain rfl := hread c rfl
      dsimp only
      split_ifs
      · refine (readsOn_linesFrom h).sublist (map_fst_filterMap ?_ _)
        intro line found hf
        split_ifs at hf
        exact (congrArg Prod.fst (Option.some.inj hf)).symm
      · exact readsOn_of_stands h

/-- Deciding on a file changes neither the reader's place nor its deliveries. -/
theorem ClaudeReader.attachTarget_kept (r : ClaudeReader)
    (entries pinnedEntries : Option (List DirEntry)) (now : ℤ) :
    (r.attachTarget entries pinnedEntries now).1.delivered = r.delivered ∧
      (r.attachTarget entries pinnedEntries now).1.currentFile = r.currentFile ∧
      (r.attachTarget entries pinnedEntries now).1.fileOffset = r.fileOffset ∧
      (r.attachTarget entries pinnedEntries now).1.lineRemainder = r.lineRemainder := by
  unfold attachTarget
  dsimp only
  split_ifs
  · split <;> exact ⟨rfl, rfl, rfl, rfl⟩
  · split <;> exact ⟨rfl, rfl, rfl, rfl⟩
  · exact ⟨rfl, rfl, rfl, rfl⟩

namespace World
variable (crates : Crates)

/-- Two deliveries that are heard are not of the same line. -/
def Apart (files : Path → Bytes) (d d' : Delivery) : Prop :=
  d.heard = true → d'.heard = true → d.record.file = d'.record.file →
    Before (files d.record.file) d.lineAt d'.lineAt

/-- Nothing of the file has been heard. -/
def Unheard (w : World) (path : Path) : Prop :=
  ∀ d ∈ w.reader.delivered, d.heard = true → d.record.file ≠ path

/-- The file this step is about to take up. -/
def takes (w : World) (wall : ℤ) : Option Path :=
  match w.phase with
  | .decided latest _ =>
    if latest = w.reader.currentFile ∨ w.reader.shouldSwitch wall = false then none else latest
  | _ => none

/-- What the scan that is under way takes of an unterminated last line. -/
def scanTail (w : World) : Option (ℕ × Text) :=
  match w.phase with
  | .scanning path _ initialLen =>
    preambleTail crates w.reader.attachTime initialLen (w.files path)
  | _ => none

/-- A file is taken up before anything of it has been heard, and the scan takes nothing from an
unterminated line. -/
def TakesUpAnew (w : World) : Event → Prop
  | .switchFile wall _ _ _ => ∀ path ∈ w.takes wall, w.Unheard path
  | .scanRead true _ _ => (w.reader.hasSink || w.reader.hasDest) = true → w.scanTail crates = none
  | _ => True

instance (w : World) (path : Path) : Decidable (w.Unheard path) :=
  inferInstanceAs (Decidable (∀ d ∈ w.reader.delivered, d.heard = true → d.record.file ≠ path))

instance (w : World) : ∀ e, Decidable (TakesUpAnew crates w e)
  | .switchFile wall _ _ _ => inferInstanceAs (Decidable (∀ path ∈ w.takes wall, w.Unheard path))
  | .scanRead true _ _ => inferInstanceAs
      (Decidable ((w.reader.hasSink || w.reader.hasDest) = true → w.scanTail crates = none))
  | .scanRead false _ _ | .append _ _ | .onDestChange _ | .attachTarget _ _ _ | .openFile _
  | .readFile _ _ => isTrue trivial

/-- The places in the files where the deliveries were found. -/
def places (w : World) (ds : List Delivery) : List (Path × ℕ) :=
  ds.map fun d => (d.record.file, lineStart (w.files d.record.file) d.lineAt)

/-- Every record is put at most once into the sink, and at most once into the buffer. -/
structure DeliversOnce (w : World) : Prop where
  sink : (w.places (w.reader.delivered.filter (·.toSink))).Nodup
  buffer : (w.places (w.reader.delivered.filter (·.toBuffer))).Nodup

structure Ordered (w : World) : Prop where
  order : w.reader.delivered.Pairwise (Apart w.files)
  frontier : ∀ path, w.reader.currentFile = some path → ∀ d ∈ w.reader.delivered,
    d.heard = true → d.record.file = path →
      Before (w.files path) d.lineAt (w.reader.fileOffset - w.reader.lineRemainder.length)
  stands : ∀ path, w.reader.currentFile = some path →
    Stands (w.files path) w.reader.fileOffset w.reader.lineRemainder
  opened : ∀ path fileLen, w.phase = .opened path fileLen →
    w.reader.currentFile = some path ∧ w.reader.fileOffset ≤ fileLen
  scanning : ∀ path pinned initialLen, w.phase = .scanning path pinned initialLen →
    w.Unheard path ∧ initialLen ≤ (w.files path).length

variable {crates} {w : World}

theorem Ordered.deliversOnce (h : w.Ordered) : w.DeliversOnce := by
  have hplaces : ∀ p : Delivery → Bool, (∀ d, p d = true → d.heard = true) →
      (w.places (w.reader.delivered.filter p)).Nodup := by
    intro p hp
    unfold places
    rw [List.Nodup, List.pairwise_map]
    have hsub := h.order.sublist (List.filter_sublist (p := p))
    refine hsub.imp_of_mem fun {d d'} hd hd' hapart heq => ?_
    obtain ⟨hfile, hline⟩ := Prod.ext_iff.mp heq
    dsimp only at hfile hline
    have hbefore := hapart (hp d (List.mem_filter.mp hd).2) (hp d' (List.mem_filter.mp hd').2) hfile
    rw [← hfile] at hline
    exact absurd hline hbefore.lineStart_lt.ne
  exact ⟨hplaces _ fun d hd => by rw [Delivery.heard, hd]; rfl,
    hplaces _ fun d hd => by rw [Delivery.heard, hd, Bool.or_true]⟩

theorem Ordered.new (files : Path → Bytes) (hasSink hasDest : Bool) (attachTime : ℤ)
    (pinId : Option String) :
    (World.new files (.new hasSink hasDest attachTime pinId)).Ordered where
  order := .nil
  frontier _ h := nomatch h
  stands _ h := nomatch h
  opened _ _ h := nomatch h
  scanning _ _ _ h := nomatch h

theorem files_append (w : World) (path : Path) (bytes : Bytes) (p : Path) :
    ∃ more, Function.update w.files path (w.files path ++ bytes) p = w.files p ++ more := by
  by_cases hp : p = path
  · rw [hp, Function.update_self]
    exact ⟨bytes, rfl⟩
  · rw [Function.update_of_ne hp]
    exact ⟨[], (List.append_nil _).symm⟩

theorem Ordered.append (h : w.Ordered) (path : Path) (bytes : Bytes) :
    ({ w with files := Function.update w.files path (w.files path ++ bytes) } : World).Ordered := by
  have hgrow := w.files_append path bytes
  have hbefore : ∀ p a b, Before (w.files p) a b →
      Before (Function.update w.files path (w.files path ++ bytes) p) a b := by
    intro p a b hb
    obtain ⟨more, hmore⟩ := hgrow p
    rw [hmore]
    exact hb.grow more
  refine ⟨h.order.imp fun hapart hd hd' heq => hbefore _ _ _ (hapart hd hd' heq),
    fun p hp d hd hh hf => hbefore _ _ _ (h.frontier p hp d hd hh hf), fun p hp => ?_, h.opened,
    fun p pinned initialLen hs => ⟨(h.scanning p pinned initialLen hs).1, ?_⟩⟩
  · obtain ⟨more, hmore⟩ := hgrow p
    show Stands (Function.update w.files path (w.files path ++ bytes) p) _ _
    rw [hmore]
    exact (h.stands p hp).grow more
  · obtain ⟨more, hmore⟩ := hgrow p
    show initialLen ≤ (Function.update w.files path (w.files path ++ bytes) p).length
    rw [hmore, List.length_append]
    exact Nat.le_add_right_of_le (h.scanning p pinned initialLen hs).2

/-- A change of the reader that touches neither its place nor its deliveries. -/
theorem Ordered.aside (h : w.Ordered) {r : ClaudeReader} {phase : Phase}
    (hdel : r.delivered = w.reader.delivered) (hcur : r.currentFile = w.reader.currentFile)
    (hoff : r.fileOffset = w.reader.fileOffset) (hrem : r.lineRemainder = w.reader.lineRemainder)
    (hopened : ∀ path fileLen, phase = .opened path fileLen →
      w.reader.currentFile = some path ∧ w.reader.fileOffset ≤ fileLen)
    (hscanning : ∀ path pinned initialLen, phase = .scanning path pinned initialLen →
      w.Unheard path ∧ initialLen ≤ (w.files path).length) :
    ({ w with reader := r, phase := phase } : World).Ordered where
  order := hdel.symm ▸ h.order
  frontier path hp d hd := by
    dsimp only at hp hd ⊢
    rw [hdel] at hd
    rw [hoff, hrem]
    exact h.frontier path (hcur ▸ hp) d hd
  stands path hp := by
    dsimp only at hp ⊢
    rw [hoff, hrem]
    exact h.stands path (hcur ▸ hp)
  opened path fileLen hp := by
    dsimp only at hp ⊢
    rw [hcur, hoff]
    exact hopened path fileLen hp
  scanning path pinned initialLen hp := by
    obtain ⟨hun, hle⟩ := hscanning path pinned initialLen hp
    refine ⟨fun d hd => hun d ?_, hle⟩
    exact hdel ▸ hd

/-- A file of which nothing has been heard is taken up, or none. -/
theorem Ordered.follow (h : w.Ordered) {r : ClaudeReader} {latest : Option Path}
    {modified : Option ℤ} (hdel : r.delivered = w.reader.delivered)
    (hnew : ∀ path, latest = some path →
      w.Unheard path ∧ r.fileOffset ≤ (w.files path).length) :
    (w.follow r latest modified).Ordered where
  order := hdel.symm ▸ h.order
  frontier path hp d hd hh hf := by
    have hd' : d ∈ w.reader.delivered := hdel ▸ hd
    exact absurd hf ((hnew path hp).1 d hd' hh)
  stands path hp := stands_nil (hnew path hp).2
  opened _ _ hp := nomatch hp
  scanning _ _ _ hp := nomatch hp

theorem length_skipTo (w : World) (path : Path) (measured : Bool) :
    (w.skipTo path measured).fileOffset ≤ (w.files path).length := by
  unfold skipTo
  dsimp only
  split_ifs
  · exact le_rfl
  · exact Nat.zero_le _

theorem Ordered.switchFile (h : w.Ordered) (wall : ℤ) (scanned measured : Bool)
    (modified : Option ℤ) (ha : ∀ path, w.takes wall = some path → w.Unheard path) :
    (w.switchFile wall scanned measured modified).Ordered := by
  unfold takes at ha
  unfold World.switchFile
  cases hphase : w.phase with
  | decided latest pinned =>
    rw [hphase] at ha
    dsimp only at ha ⊢
    by_cases hstay : latest = w.reader.currentFile ∨ w.reader.shouldSwitch wall = false
    · rw [if_pos hstay]
      exact h.aside rfl rfl rfl rfl nofun nofun
    · rw [if_neg hstay] at ha ⊢
      cases hcur : w.reader.currentFile with
      | some current =>
        exact h.follow (r := { w.reader with fileOffset := 0, rotationBackfillPending := true })
          rfl fun path hp => ⟨ha path hp, Nat.zero_le _⟩
      | none =>
        cases latest with
        | none =>
          exact h.follow (r := { w.reader with fileOffset := 0 }) rfl fun _ hp => nomatch hp
        | some path =>
          dsimp only
          split_ifs
          · refine h.aside rfl rfl rfl rfl nofun fun path' pinned' initialLen hp => ?_
            cases hp
            exact ⟨ha path rfl, le_rfl⟩
          · refine h.follow rfl fun path' hp => ?_
            cases hp
            exact ⟨ha path rfl, w.length_skipTo path measured⟩
  | _ => exact h

/-- New deliveries of a file, the first of it that are heard, or behind all that were. -/
theorem pairwise_adds {r r' : ClaudeReader} {files : Path → Bytes} {path : Path}
    {starts : List ℕ} (h : Adds path starts r r') (horder : r.delivered.Pairwise (Apart files))
    (hapart : (r.hasSink || r.hasDest) = true → starts.Pairwise (Before (files path)))
    (hold : ∀ d ∈ r.delivered, d.heard = true → d.record.file = path →
      ∀ start ∈ starts, Before (files path) d.lineAt start) :
    r'.delivered.Pairwise (Apart files) := by
  obtain ⟨ds, hds, hfile, hsub⟩ := h.new
  rw [hds, List.pairwise_append]
  refine ⟨horder, ?_, fun d hd d' hd' hh hh' heq => ?_⟩
  · by_cases hheard : (r.hasSink || r.hasDest) = true
    · have hpair := List.pairwise_map.mp ((hapart hheard).sublist hsub)
      refine hpair.imp_of_mem fun {d d'} hd _ hb _ _ _ => ?_
      rw [(hfile d hd).1]
      exact hb
    · refine List.pairwise_of_forall_mem_list fun d hd d' _ hh => ?_
      rw [Delivery.heard, (hfile d hd).2.1, (hfile d hd).2.2] at hh
      exact absurd hh hheard
  · have hpath := heq.trans (hfile d' hd').1
    rw [hpath]
    exact hold d hd hh hpath d'.lineAt (hsub.subset (List.mem_map_of_mem hd'))

theorem readPreambleForRace_spec {attachTime : ℤ} {initialLen : ℕ} {content : Bytes}
    (htail : preambleTail crates attachTime initialLen content = none) :
    ((readPreambleForRace crates attachTime initialLen content).1.map (·.1)).Pairwise
        (Before content) ∧
      ∀ s ∈ (readPreambleForRace crates attachTime initialLen content).1.map (·.1),
        Before content s content.length := by
  obtain ⟨hpair, hwithin⟩ := windowLines_spec (initialLen - preambleMaxBytes) content
  have hsub : ((readPreambleForRace crates attachTime initialLen content).1.map (·.1)).Sublist
      ((preambleLines initialLen content).1.map (·.1)) := by
    rw [readPreambleForRace, htail, Option.toList_none, List.append_nil]
    exact map_fst_filterMap (fun _ _ hf => acceptPreamble_start hf) _
  exact ⟨hpair.sublist hsub, fun s hs => hwithin s (hsub.subset hs)⟩

theorem readPreambleForRace_offset {attachTime : ℤ} {initialLen : ℕ} {content : Bytes}
    (h : initialLen ≤ content.length) :
    (readPreambleForRace crates attachTime initialLen content).2 = content.length := by
  show initialLen - preambleMaxBytes + (content.drop (initialLen - preambleMaxBytes)).length = _
  rw [List.length_drop]
  exact Nat.add_sub_cancel' ((Nat.sub_le ..).trans h)

theorem Ordered.scanned (h : w.Ordered) {r r' : ClaudeReader} {path : Path} {starts : List ℕ}
    {modified : Option ℤ} (hadds : Adds path starts w.reader r) (hun : w.Unheard path)
    (hpair : (w.reader.hasSink || w.reader.hasDest) = true →
      starts.Pairwise (Before (w.files path)) ∧
        ∀ s ∈ starts, Before (w.files path) s (w.files path).length)
    (hdel : r'.delivered = r.delivered) (hoff : r'.fileOffset = (w.files path).length) :
    (w.follow r' (some path) modified).Ordered where
  order := by
    show r'.delivered.Pairwise (Apart w.files)
    rw [hdel]
    exact pairwise_adds hadds h.order (fun hh => (hpair hh).1)
      fun d hd hh hf => absurd hf (hun d hd hh)
  frontier p hp d hd hh hf := by
    cases hp
    show Before (w.files path) d.lineAt r'.fileOffset
    rw [hoff]
    rcases hadds.mem (hdel ▸ hd : d ∈ r.delivered) with hd | ⟨-, hs, hheard⟩
    · exact absurd hf (hun d hd hh)
    · exact (hpair (hheard ▸ hh)).2 d.lineAt hs
  stands p hp := by
    cases hp
    exact stands_nil hoff.le
  opened _ _ hp := nomatch hp
  scanning _ _ _ hp := nomatch hp

theorem firstAttachScan_eq (r : ClaudeReader) (path : Path) (pinned : Bool) (initialLen : ℕ)
    (content : Bytes) : r.firstAttachScan crates path pinned initialLen content =
      { r.capturePreambleBodies (readPreambleForRace crates r.attachTime initialLen content).1 path
          (if pinned then .live else .preamble) with
        fileOffset := (readPreambleForRace crates r.attachTime initialLen content).2 } := by
  unfold ClaudeReader.firstAttachScan
  generalize readPreambleForRace crates r.attachTime initialLen content = found
  obtain ⟨bodies, fileLen⟩ := found
  rfl

theorem Ordered.found (h : w.Ordered) {path : Path} {modified : Option ℤ} (pinned : Bool)
    (hun : w.Unheard path) (found : List (ℕ × Text) × ℕ)
    (hspec : (w.reader.hasSink || w.reader.hasDest) = true →
      (found.1.map (·.1)).Pairwise (Before (w.files path)) ∧
        ∀ s ∈ found.1.map (·.1), Before (w.files path) s (w.files path).length)
    (hend : found.2 = (w.files path).length) :
    (w.follow { w.reader.capturePreambleBodies found.1 path
        (if pinned then .live else .preamble) with fileOffset := found.2 }
      (some path) modified).Ordered :=
  h.scanned (ClaudeReader.adds_capturePreambleBodies w.reader found.1 path _) hun hspec rfl hend

theorem Ordered.scanRead (h : w.Ordered) (ok measured : Bool) (modified : Option ℤ)
    (ha : TakesUpAnew crates w (.scanRead ok measured modified)) :
    (w.scanRead crates ok measured modified).Ordered := by
  unfold World.scanRead
  cases hphase : w.phase with
  | scanning path pinned initialLen =>
    obtain ⟨hun, hlen⟩ := h.scanning path pinned initialLen hphase
    cases ok with
    | false =>
      refine h.follow rfl fun path' hp => ?_
      cases hp
      exact ⟨hun, w.length_skipTo path measured⟩
    | true =>
      dsimp only
      rw [if_pos rfl, firstAttachScan_eq]
      refine h.found pinned hun _ (fun hheard => ?_) (readPreambleForRace_offset hlen)
      have htail := ha hheard
      rw [scanTail, hphase] at htail
      exact readPreambleForRace_spec htail
  | _ => exact h

theorem Ordered.openFile (h : w.Ordered) (ok : Bool) : (w.openFile ok).Ordered := by
  unfold World.openFile
  split
  · rename_i path hphase hcur
    split_ifs
    · refine h.aside rfl rfl rfl rfl (fun path' fileLen hp => ?_) nofun
      cases hp
      exact ⟨hcur, (h.stands path hcur).inside⟩
    · exact h.aside rfl rfl rfl rfl nofun nofun
  · exact h.aside rfl rfl rfl rfl nofun nofun
  · exact h

theorem Ordered.readOn (h : w.Ordered) {r r₁ r' : ClaudeReader} {path : Path} {starts : List ℕ}
    (hcur : w.reader.currentFile = some path) (hadds : Adds path starts r r₁)
    (hdel : r.delivered = w.reader.delivered) (hdel' : r'.delivered = r₁.delivered)
    (hreads : ReadsOn (w.files path) w.reader.fileOffset w.reader.lineRemainder starts
      r'.fileOffset r'.lineRemainder) (hcur' : r'.currentFile = some path) :
    ({ w with reader := r', phase := .idle } : World).Ordered where
  order := by
    show r'.delivered.Pairwise (Apart w.files)
    rw [hdel']
    refine pairwise_adds hadds (hdel ▸ h.order) (fun _ => hreads.apart) fun d hd hh hf s hs => ?_
    have hold := h.frontier path hcur d (hdel ▸ hd) hh hf
    exact hold.mono le_rfl (hreads.between s hs).1
  frontier p hp d hd hh hf := by
    cases hcur'.symm.trans hp
    rcases hadds.mem (hdel' ▸ hd : d ∈ r₁.delivered) with hd | ⟨-, hs, -⟩
    · exact (h.frontier path hcur d (hdel ▸ hd) hh hf).mono le_rfl hreads.onward
    · exact (hreads.between d.lineAt hs).2
  stands p hp := by
    cases hcur'.symm.trans hp
    exact hreads.stands
  opened _ _ hp := nomatch hp
  scanning _ _ _ hp := nomatch hp

theorem Ordered.readFile (h : w.Ordered) (ok : Bool) (modified : Option ℤ) :
    (w.readFile crates ok modified).Ordered := by
  unfold World.readFile
  cases hphase : w.phase with
  | opened path fileLen =>
    obtain ⟨hcur, hlen⟩ := h.opened path fileLen hphase
    have hread : ∀ c, (if ok then some (w.files path) else none) = some c → c = w.files path := by
      intro c hc
      split_ifs at hc
      exact (Option.some.inj hc).symm
    have hreads := readsOn_read (h.stands path hcur) hlen hread
    show Ordered { w with
      reader := w.reader.readNewLines crates path fileLen
        (if ok then some (w.files path) else none) modified
      phase := .idle }
    unfold ClaudeReader.readNewLines
    generalize readNewLinesWithStarts fileLen (if ok then some (w.files path) else none)
      w.reader.fileOffset w.reader.lineRemainder = found at hreads
    obtain ⟨newLines, offset, remainder⟩ := found
    dsimp only at hreads ⊢
    cases newLines with
    | none => exact h.readOn hcur (.refl w.reader) rfl rfl hreads hcur
    | some newLines =>
      have hadds := ClaudeReader.adds_captureLiveLines crates
        { w.reader with
          fileOffset := offset
          lineRemainder := remainder
          rotationBackfillPending := w.reader.rotationBackfillPending && newLines.isEmpty }
        newLines path
        (if w.reader.rotationBackfillPending && !newLines.isEmpty then .rotationBackfill else .live)
      refine h.readOn hcur hadds rfl rfl ?_ (hadds.currentFile.trans hcur)
      rw [Option.getD_some] at hreads
      show ReadsOn _ _ _ _ (ClaudeReader.captureLiveLines ..).fileOffset
        (ClaudeReader.captureLiveLines ..).lineRemainder
      rw [hadds.fileOffset, hadds.lineRemainder]
      exact hreads
  | _ => exact h

theorem Ordered.step (h : w.Ordered) (e : Event) (ha : TakesUpAnew crates w e) :
    ((claudeReader crates).next w e).Ordered := by
  cases e with
  | append path bytes => exact h.append path bytes
  | onDestChange attaching =>
    show (if w.phase = .idle then _ else w : World).Ordered
    split_ifs
    · exact h.aside rfl rfl rfl rfl h.opened h.scanning
    · exact h
  | attachTarget entries pinnedEntries now =>
    show (World.step crates w (.attachTarget entries pinnedEntries now)).1.Ordered
    unfold World.step
    dsimp only
    split_ifs
    · have hkept := w.reader.attachTarget_kept entries pinnedEntries now
      exact h.aside hkept.1 hkept.2.1 hkept.2.2.1 hkept.2.2.2 nofun nofun
    · exact h
  | switchFile wall scanned measured modified => exact h.switchFile wall scanned measured modified ha
  | scanRead ok measured modified => exact h.scanRead ok measured modified ha
  | openFile ok => exact h.openFile ok
  | readFile ok modified => exact h.readFile ok modified

end World

/-- In a run that takes every file up anew, whatever is appended and wherever reads fail, no
record is delivered twice. -/
theorem deliversOnce_run (crates : Crates) (files : Path → Bytes) (hasSink hasDest : Bool)
    (attachTime : ℤ) (pinId : Option String) (es : List Event)
    (h : (claudeReader crates).Along (World.TakesUpAnew crates)
      (.new files (.new hasSink hasDest attachTime pinId)) es) :
    (claudeReader crates).Always World.DeliversOnce
      (.new files (.new hasSink hasDest attachTime pinId)) es := by
  have hordered : (claudeReader crates).Always World.Ordered
      (.new files (.new hasSink hasDest attachTime pinId)) es :=
    Machine.always_of_along (P := World.Ordered) (fun w e hw ha => hw.step e ha)
      (.new files hasSink hasDest attachTime pinId) h
  rw [Machine.always_iff] at hordered ⊢
  exact fun pre hpre => (hordered pre hpre).deliversOnce

/-- The answer `done`, as a line of the transcript. -/
def doneLine : String := "\x7b\"type\":\"assistant\",\"message\":\x7b\"content\":\"done\"\x7d\x7d"

/-- JSON, of that line alone. -/
def doneCrates : Crates where
  fromStr text :=
    if text = doneLine.toList then
      some (.object [("type".toList, .string "assistant".toList),
        ("message".toList, .object [("content".toList, .string "done".toList)])])
    else none
  parseFromRfc3339 _ := none

def newestFirst (path : Path) (modified : ℤ) : Option (List DirEntry) :=
  some [⟨path, path, some "jsonl", some modified, true⟩]

/-- One poll in which the file is the newest. -/
def pollOf (path : Path) (now : ℤ) : List Event :=
  [.attachTarget (newestFirst path now) none now, .switchFile now true true (some now),
    .scanRead true true (some now), .openFile true, .readFile true (some now)]

/-- The answer is read, and another transcript becomes the newest. -/
def movedOn : List Event :=
  pollOf "A" 0 ++ [.append "A" (doneLine.toUTF8.toList ++ [newline])] ++ pollOf "A" (1 * second) ++
    pollOf "B" (10 * second)

theorem deliversOnce_movedOn :
    (claudeReader doneCrates).Along (World.TakesUpAnew doneCrates)
        (.new (fun _ => []) (.new true true 0 none)) movedOn ∧
      (claudeReader doneCrates).Always World.DeliversOnce
        (.new (fun _ => []) (.new true true 0 none)) movedOn :=
  have h : (claudeReader doneCrates).Along (World.TakesUpAnew doneCrates)
      (.new (fun _ => []) (.new true true 0 none)) movedOn := by decide +kernel
  ⟨h, deliversOnce_run doneCrates (fun _ => []) true true 0 none movedOn h⟩

/-- The first transcript becomes the newest again, and is read from its start. -/
theorem deliversTwice_movedBack :
    ¬ ((claudeReader doneCrates).run (.new (fun _ => []) (.new true true 0 none))
      (movedOn ++ pollOf "A" (20 * second))).DeliversOnce := by
  intro h
  exact absurd h.sink (by decide +kernel)

end AgentsCommander.Transcript
