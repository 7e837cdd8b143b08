import AgentsCommander.Transcript.Reader
import AgentsCommander.Transcript.Utf8
import AgentsCommander.Capture.Room
import AgentsCommander.Capture.RoomSteps

/-! Heads rebuilt from the lines of a read, the reader's own epochs, and the rule both observers of
a file apply to its entry. Under appends heads of one growing file are prefixes of one text, so no
observation of it advances an epoch, and a replaced file advances it once. -/
namespace AgentsCommander.Capture
open Foundation
open Transcript (Bytes Text joinLines acceptedLines readNewLinesWithStarts)

def observedPrefixCap : ℕ := 4096

def observationPrefix (bytes : Bytes) : Bytes := bytes.take observedPrefixCap

/-- Only a read from the start has seen the head, and only lines that begin inside the cap
are part of it. -/
def headFromLines (lines : List (ℕ × Text)) (readStart : ℕ) : Bytes :=
  if 0 < readStart then []
  else observationPrefix (joinLines (lines.takeWhile fun line => line.1 < observedPrefixCap))

def FileObservation.new (len : ℕ) (head : Bytes) : FileObservation := ⟨len, head, head.length⟩

structure ReaderAttachment where
  epoch : ℕ
  observedPath : String
  observedLen : ℕ
  observedPrefix : Bytes
  deriving DecidableEq, Repr

/-- A reader's own epochs, for its lifetime. -/
structure ReaderObservations where
  files : String → Option (ℕ × FileObservation)

namespace ReaderObservations

def default : ReaderObservations := ⟨fun _ => none⟩

def observe (r : ReaderObservations) (path : String) (len : ℕ) (head : Bytes) :
    ReaderObservations × ReaderAttachment :=
  let current := FileObservation.new len head
  let found := (r.files path).getD (0, current)
  let entry :=
    if (classifyObservation found.2 current).advancesEpoch then (found.1 + 1, current)
    else (found.1, extendObservation found.2 current)
  (⟨Function.update r.files path (some entry)⟩, ⟨entry.1, path, entry.2.len, entry.2.head⟩)

def entry (r : ReaderObservations) (path : String) : Option EpochEntry :=
  (r.files path).map fun found => ⟨found.1, found.2⟩

end ReaderObservations

/-- What one call of a reader's observer is given. -/
structure ReaderCall where
  path : String
  len : ℕ
  head : Bytes

def reader : Machine ReaderObservations ReaderCall ReaderAttachment :=
  ⟨fun r call => r.observe call.path call.len call.head⟩

/-- The epoch of a path that was never observed is zero. -/
def epochOf (entry : Option EpochEntry) : ℕ := (entry.map (·.epoch)).getD 0

/-- What becomes of the entry of a file that is observed. -/
def sighted : Option EpochEntry → FileObservation → EpochEntry
  | none, current => ⟨0, current⟩
  | some entry, current =>
    if (classifyObservation entry.observation current).advancesEpoch then
      ⟨entry.epoch + 1, current⟩
    else ⟨entry.epoch, extendObservation entry.observation current⟩

def watched (entry : Option EpochEntry) (seen : List FileObservation) : Option EpochEntry :=
  seen.foldl (fun entry current => some (sighted entry current)) entry

/-- A call of `read_new_lines_with_starts`: `sized` is the file when it was measured, `content`
when it was read. -/
structure FileRead where
  start : ℕ
  remainder : Bytes
  sized : Bytes
  content : Bytes

/-- What a reader tells its observer after the read, unless the read failed. -/
def FileRead.observation (r : FileRead) : Option FileObservation :=
  let (lines, offset, _) :=
    readNewLinesWithStarts r.sized.length (some r.content) r.start r.remainder
  lines.map fun lines => .new offset (headFromLines lines r.start)

/-- The read is of the file that grows to this transcript. -/
structure FileRead.Of (transcript : Bytes) (r : FileRead) : Prop where
  grows : r.sized <+: r.content
  content : r.content <+: transcript
  fresh : r.start = 0 → r.remainder = []

/-- Observations of a file that grows to this transcript: reads from anywhere, scans at a
reader's first attach, and what the records of a reader carry on. -/
inductive Sees (transcript : Bytes) : FileObservation → Prop
  | read (r : FileRead) (hr : r.Of transcript) (o : FileObservation)
      (ho : r.observation = some o) : Sees transcript o
  | scanned (content : Bytes) (h : content <+: transcript) :
      Sees transcript (.new content.length [])
  | attached (seen : List FileObservation) (hseen : ∀ o ∈ seen, Sees transcript o)
      (hordered : seen.Pairwise (·.len ≤ ·.len)) (entry : EpochEntry)
      (hentry : watched none seen = some entry) :
      Sees transcript (.new entry.observation.len entry.observation.head)

/-- Observations of the file in the order of its length. -/
structure InOrder (transcript : Bytes) (seen : List FileObservation) : Prop where
  sees : ∀ o ∈ seen, Sees transcript o
  ordered : seen.Pairwise (·.len ≤ ·.len)

def sightings (path : String) (es : List RoomEvent) : List FileObservation :=
  es.filterMap fun
    | .observe p o => if p = path then some o else none
    | _ => none

def callSightings (path : String) (calls : List ReaderCall) : List FileObservation :=
  calls.filterMap fun call => if call.path = path then some (.new call.len call.head) else none

theorem classifyObservation_self (o : FileObservation) : classifyObservation o o = .append := by
  unfold classifyObservation
  rw [if_neg (lt_irrefl _)]
  exact if_neg fun h => h.2 rfl

theorem extendObservation_self (o : FileObservation) : extendObservation o o = o :=
  if_neg (lt_irrefl _)

namespace RoomState

theorem epochs_observe (room : RoomState) (path : String) (o : FileObservation) :
    (room.observe path o).1.epochs =
      Function.update room.epochs path (some (sighted (room.epochs path) o)) := by
  unfold observe sighted
  cases room.epochs path with
  | none => rfl
  | some entry =>
    dsimp only
    split_ifs <;> rfl

theorem answer_observe (room : RoomState) (path : String) (o : FileObservation) :
    (room.observe path o).2 = (sighted (room.epochs path) o).epoch := by
  unfold observe sighted
  cases room.epochs path with
  | none => rfl
  | some entry =>
    dsimp only
    split_ifs <;> rfl

@[simp] theorem epochs_reconcile (m : RoomState) (disk : PersistedRoomState) :
    (m.reconcile disk).epochs = m.epochs := by
  unfold reconcile
  split_ifs <;> rfl

@[simp] theorem epochs_mark (m : RoomState) (sessionId : String) (key : ConsumptionKey)
    (routable : Bool) : (m.mark sessionId key routable).epochs = m.epochs := by
  unfold mark spend remember raiseWatermark
  cases key.recordStart <;> cases routable <;> rfl

@[simp] theorem epochs_reserve (m : RoomState) (disk : PersistedRoomState) (sessionId : String)
    (key : ConsumptionKey) (kind : EffectKind) (routable : Bool) :
    (m.reserve disk sessionId key kind routable).1.epochs = m.epochs := by
  unfold reserve
  dsimp only
  split_ifs <;> simp

end RoomState

namespace ReaderObservations

theorem entry_observe (r : ReaderObservations) (path : String) (len : ℕ) (head : Bytes) :
    (r.observe path len head).1.entry =
      Function.update r.entry path (some (sighted (r.entry path) (.new len head))) := by
  funext p
  unfold entry observe sighted
  by_cases hp : p = path
  · subst hp
    simp only [Function.update_self, Option.map_some]
    cases r.files p with
    | none =>
      simp [classifyObservation_self, extendObservation_self, ObservationVerdict.advancesEpoch]
    | some found =>
      simp only [Option.getD_some, Option.map_some]
      split_ifs <;> rfl
  · simp only [Function.update_of_ne hp]

theorem answer_observe (r : ReaderObservations) (path : String) (len : ℕ) (head : Bytes) :
    let entry := sighted (r.entry path) (.new len head)
    (r.observe path len head).2 =
      ⟨entry.epoch, path, entry.observation.len, entry.observation.head⟩ := by
  unfold entry observe sighted
  cases r.files path with
  | none =>
    simp [classifyObservation_self, extendObservation_self, ObservationVerdict.advancesEpoch]
  | some found =>
    simp only [Option.getD_some, Option.map_some]
    split_ifs <;> rfl

end ReaderObservations

section
variable {text : Bytes}

/-- An observation whose head is a prefix of this text, no longer than the file. -/
structure FileObservation.Of (text : Bytes) (o : FileObservation) : Prop where
  whole : o.prefixLen = o.head.length
  head : o.head <+: text
  covered : o.head.length ≤ o.len

theorem take_eq_take_of_heads {a b : Bytes} (ha : a <+: text) (hb : b <+: text) {n : ℕ}
    (hna : n ≤ a.length) (hnb : n ≤ b.length) : a.take n = b.take n := by
  rw [List.prefix_iff_eq_take.mp ha, List.prefix_iff_eq_take.mp hb, List.take_take,
    List.take_take, Nat.min_eq_left hna, Nat.min_eq_left hnb]

namespace FileObservation.Of

theorem classify {stored current : FileObservation} (hs : stored.Of text) (hc : current.Of text)
    (hlen : stored.len ≤ current.len) : classifyObservation stored current = .append := by
  unfold classifyObservation
  rw [if_neg (Nat.not_lt.mpr hlen)]
  refine if_neg fun h => h.2 (take_eq_take_of_heads hs.head hc.head ?_ ?_)
  · exact (Nat.min_le_left _ _).trans (Nat.min_le_right _ _)
  · exact Nat.min_le_right _ _

theorem extend {stored current : FileObservation} (hs : stored.Of text) (hc : current.Of text)
    (hlen : stored.len ≤ current.len) : (extendObservation stored current).Of text := by
  unfold extendObservation
  split_ifs
  · exact ⟨hc.whole, hc.head, hc.covered⟩
  · exact ⟨hs.whole, hs.head, hs.covered.trans hlen⟩

end FileObservation.Of

theorem len_extendObservation (stored current : FileObservation) :
    (extendObservation stored current).len = current.len := by
  unfold extendObservation
  split_ifs <;> rfl

theorem sighted_append {entry : EpochEntry} {o : FileObservation}
    (h : classifyObservation entry.observation o = .append) :
    sighted (some entry) o = ⟨entry.epoch, extendObservation entry.observation o⟩ :=
  if_neg (by rw [h]; exact Bool.false_ne_true)

theorem sighted_advance {entry : EpochEntry} {o : FileObservation}
    (h : (classifyObservation entry.observation o).advancesEpoch = true) :
    sighted (some entry) o = ⟨entry.epoch + 1, o⟩ := if_pos h

theorem eq_append {v : ObservationVerdict} (h : ¬ v.advancesEpoch = true) : v = .append := by
  cases v with
  | append => rfl
  | _ => exact absurd rfl h

/-- The entry has this epoch, and remembers no more of the file than this length. -/
def Steady (text : Bytes) (epoch bound : ℕ) : Option EpochEntry → Prop
  | none => epoch = 0
  | some entry =>
    entry.epoch = epoch ∧ entry.observation.Of text ∧ entry.observation.len ≤ bound

namespace Steady
variable {epoch bound : ℕ} {entry : Option EpochEntry}

theorem epochOf_eq (h : Steady text epoch bound entry) : epochOf entry = epoch := by
  cases entry with
  | none => exact Eq.symm h
  | some entry => exact h.1

theorem mono (h : Steady text epoch bound entry) {bound' : ℕ} (hle : bound ≤ bound') :
    Steady text epoch bound' entry := by
  cases entry with
  | none => exact h
  | some entry => exact ⟨h.1, h.2.1, h.2.2.trans hle⟩

theorem sighted (h : Steady text epoch bound entry) {o : FileObservation} (ho : o.Of text)
    (hle : bound ≤ o.len) : Steady text epoch o.len (some (Capture.sighted entry o)) := by
  cases entry with
  | none => exact ⟨Eq.symm h, ho, le_rfl⟩
  | some entry =>
    obtain ⟨he, hof, hlen⟩ := h
    have hclass := hof.classify ho (hlen.trans hle)
    rw [sighted_append hclass]
    exact ⟨he, hof.extend ho (hlen.trans hle), (len_extendObservation _ _).le⟩

theorem watched {seen : List FileObservation} (h : Steady text epoch bound entry)
    (hof : ∀ o ∈ seen, o.Of text) (hordered : seen.Pairwise (·.len ≤ ·.len))
    (hbound : ∀ o ∈ seen, bound ≤ o.len) : ∃ bound', Steady text epoch bound'
      (Capture.watched entry seen) := by
  induction seen generalizing entry bound with
  | nil => exact ⟨bound, h⟩
  | cons o seen ih =>
    obtain ⟨hfirst, hrest⟩ := List.pairwise_cons.mp hordered
    exact ih (h.sighted (hof o List.mem_cons_self) (hbound o List.mem_cons_self))
      (fun p hp => hof p (List.mem_cons_of_mem o hp)) hrest hfirst

end Steady

theorem epochOf_le_sighted (entry : Option EpochEntry) (o : FileObservation) :
    epochOf entry ≤ (sighted entry o).epoch := by
  cases entry with
  | none => exact le_rfl
  | some entry =>
    by_cases h : (classifyObservation entry.observation o).advancesEpoch = true
    · rw [sighted_advance h]
      exact Nat.le_succ _
    · rw [sighted_append (eq_append h)]
      exact le_rfl

theorem epochOf_le_watched (entry : Option EpochEntry) (seen : List FileObservation) :
    epochOf entry ≤ epochOf (watched entry seen) := by
  induction seen generalizing entry with
  | nil => exact le_rfl
  | cons o seen ih => exact (epochOf_le_sighted entry o).trans (ih (some (sighted entry o)))

/-- A head that agrees with a longer one, within what the file holds, is a prefix of it. -/
theorem prefix_of_classify {stored current : FileObservation}
    (hwhole : stored.prefixLen = stored.head.length) (hc : current.Of text)
    (hshort : stored.head.length ≤ current.head.length)
    (hclass : classifyObservation stored current = .append) : stored.head <+: current.head := by
  have hlen : stored.head.length ≤ current.len := hshort.trans hc.covered
  have hshared : min (min (min (min stored.prefixLen current.prefixLen) current.len)
      stored.head.length) current.head.length = stored.head.length := by
    rw [hwhole, hc.whole]
    omega
  rcases Nat.eq_zero_or_pos stored.head.length with hzero | hpos
  · rw [List.eq_nil_of_length_eq_zero hzero]
    exact List.nil_prefix
  · by_contra hdiff
    rw [List.prefix_iff_eq_take] at hdiff
    unfold classifyObservation at hclass
    dsimp only at hclass
    rw [hshared, List.take_length] at hclass
    split_ifs at hclass with htrunc hsame
    exact hsame ⟨hpos, hdiff⟩

/-- The head and the length are those of an old file, or it has grown since. -/
structure Since (old stored : FileObservation) : Prop where
  head : stored.head = old.head
  prefixLen : stored.prefixLen = old.prefixLen
  grown : old.len ≤ stored.len

theorem Since.classify {old stored current : FileObservation} (h : Since old stored)
    (hlen : stored = old ∨ stored.len ≤ current.len) :
    classifyObservation stored current = classifyObservation old current := by
  rcases hlen with rfl | hlen
  · rfl
  · unfold classifyObservation
    rw [h.head, h.prefixLen, if_neg (Nat.not_lt.mpr hlen),
      if_neg (Nat.not_lt.mpr (h.grown.trans hlen))]

theorem epochOf_watched_of {epoch : ℕ} {stored : FileObservation} {seen : List FileObservation}
    (hs : stored.Of text) (hof : ∀ o ∈ seen, o.Of text)
    (hordered : seen.Pairwise (·.len ≤ ·.len)) (hbound : ∀ o ∈ seen, stored.len ≤ o.len) :
    epochOf (watched (some ⟨epoch, stored⟩) seen) = epoch := by
  have hsteady : Steady text epoch stored.len (some ⟨epoch, stored⟩) := ⟨rfl, hs, le_rfl⟩
  obtain ⟨bound', h⟩ := hsteady.watched hof hordered hbound
  exact h.epochOf_eq

/-- Observations of a new file, against what is left of the entry of the old one. -/
theorem epochOf_watched_since {epoch : ℕ} {old stored : FileObservation}
    {seen : List FileObservation} (hold : old.prefixLen = old.head.length)
    (hcovered : old.head.length ≤ old.len) (hsince : Since old stored)
    (hof : ∀ o ∈ seen, o.Of text) (hordered : seen.Pairwise (·.len ≤ ·.len))
    (hbound : stored = old ∨ ∀ o ∈ seen, stored.len ≤ o.len) :
    epochOf (watched (some ⟨epoch, stored⟩) seen) =
      epoch + (seen.any fun o => (classifyObservation old o).advancesEpoch).toNat := by
  induction seen generalizing stored with
  | nil => rfl
  | cons o seen ih =>
    obtain ⟨hfirst, hrest⟩ := List.pairwise_cons.mp hordered
    have ho := hof o List.mem_cons_self
    have hothers : ∀ p ∈ seen, p.Of text := fun p hp => hof p (List.mem_cons_of_mem o hp)
    have hclass := hsince.classify (hbound.imp_right fun h => h o List.mem_cons_self)
    rw [List.any_cons, ← hclass]
    change epochOf (watched (some (sighted (some ⟨epoch, stored⟩) o)) seen) = _
    by_cases hadv : (classifyObservation stored o).advancesEpoch = true
    · rw [sighted_advance hadv, hadv, Bool.true_or]
      exact epochOf_watched_of ho hothers hrest hfirst
    · have happend := eq_append hadv
      have hlen : stored.len ≤ o.len := by
        by_contra hlt
        unfold classifyObservation at happend
        rw [if_pos (Nat.not_le.mp hlt)] at happend
        cases happend
      rw [sighted_append happend, Bool.eq_false_of_not_eq_true hadv, Bool.false_or]
      dsimp only
      by_cases hlong : stored.prefixLen < o.prefixLen
      · have hext : extendObservation stored o = o := if_pos hlong
        rw [hext, epochOf_watched_of ho hothers hrest hfirst]
        have hshort : old.head.length ≤ o.head.length := by
          rw [← hold, ← ho.whole, ← hsince.prefixLen]
          exact hlong.le
        have hstarts := prefix_of_classify hold ho hshort (hclass ▸ happend)
        have holdOf : old.Of text := ⟨hold, hstarts.trans ho.head, hcovered⟩
        have hnone : (seen.any fun p => (classifyObservation old p).advancesEpoch) = false := by
          refine List.any_eq_false.mpr fun p hp => ?_
          have hle := (hsince.grown.trans hlen).trans (hfirst p hp)
          rw [holdOf.classify (hothers p hp) hle]
          exact Bool.false_ne_true
        rw [hnone]
        rfl
      · have hext : extendObservation stored o = ⟨o.len, stored.head, stored.prefixLen⟩ :=
          if_neg hlong
        rw [hext]
        exact ih ⟨hsince.head, hsince.prefixLen, hsince.grown.trans hlen⟩ hothers hrest
          (Or.inr hfirst)

end

/-- The head of everything the file grows to. -/
def headOf (transcript : Bytes) : Bytes := headFromLines (acceptedLines transcript) 0

theorem takeWhile_prefix_takeWhile {α : Type*} {p : α → Bool} {a b : List α} (h : a <+: b) :
    a.takeWhile p <+: b.takeWhile p := by
  obtain ⟨more, rfl⟩ := h
  rw [List.takeWhile_append]
  split_ifs with hall
  · rw [List.Sublist.eq_of_length (List.takeWhile_sublist p) hall]
    exact List.prefix_append _ _
  · exact List.prefix_refl _

theorem headOf_prefix {content transcript : Bytes} (h : content <+: transcript) :
    headOf content <+: headOf transcript := by
  have hlines := takeWhile_prefix_takeWhile (p := fun line => decide (line.1 < observedPrefixCap))
    (Transcript.acceptedLines_prefix h)
  obtain ⟨more, hmore⟩ := hlines
  unfold headOf headFromLines observationPrefix
  rw [if_neg (lt_irrefl 0), ← hmore]
  refine List.IsPrefix.take ?_ _
  unfold joinLines
  rw [List.flatMap_append]
  exact List.prefix_append _ _

theorem length_headOf_le {content : Bytes} (h : Transcript.isUtf8 content = true) :
    (headOf content).length ≤ content.length := by
  have hjoin := Transcript.length_joinLines_le 0 [] content h
  unfold headOf headFromLines observationPrefix
  rw [if_neg (lt_irrefl 0)]
  refine (List.length_take_le' _ _).trans (le_trans ?_ hjoin)
  have hsub : (acceptedLines content).takeWhile (fun line => decide (line.1 < observedPrefixCap))
      <+: acceptedLines content := List.takeWhile_prefix _
  obtain ⟨more, hmore⟩ := hsub
  change _ ≤ (joinLines (acceptedLines content)).length
  conv_rhs => rw [← hmore]
  unfold joinLines
  rw [List.flatMap_append, List.length_append]
  exact Nat.le_add_right _ _

theorem of_nil {text : Bytes} (len : ℕ) : (FileObservation.new len []).Of text :=
  ⟨rfl, List.nil_prefix, Nat.zero_le _⟩

theorem headFromLines_nil (start : ℕ) : headFromLines [] start = [] := by
  unfold headFromLines
  split_ifs <;> rfl

/-- A read finds nothing new, or everything from where it starts. -/
theorem readNewLinesWithStarts_cases {fileLen offset next : ℕ} {content remainder rest : Bytes}
    {lines : List (ℕ × Text)} (h : readNewLinesWithStarts fileLen (some content) offset remainder =
      (some lines, next, rest)) :
    lines = [] ∨ (Transcript.isUtf8 (content.drop offset) = true ∧
      lines = (Transcript.linesFrom (offset - remainder.length) []
        (remainder ++ content.drop offset)).1.filterMap Transcript.acceptLine ∧
      next = offset + (content.drop offset).length) := by
  unfold readNewLinesWithStarts at h
  by_cases hshrunk : fileLen < offset
  · rw [if_pos hshrunk] at h
    exact Or.inl (Option.some.inj (congrArg Prod.fst h)).symm
  rw [if_neg hshrunk] at h
  by_cases hsame : fileLen ≤ offset
  · rw [if_pos hsame] at h
    exact Or.inl (Option.some.inj (congrArg Prod.fst h)).symm
  rw [if_neg hsame] at h
  dsimp only at h
  by_cases hutf : Transcript.isUtf8 (content.drop offset) = true
  · rw [if_pos hutf] at h
    exact Or.inr ⟨hutf, (Option.some.inj (congrArg Prod.fst h)).symm,
      (congrArg (fun out => out.2.1) h).symm⟩
  · rw [if_neg hutf] at h
    cases congrArg Prod.fst h

theorem FileRead.Of.observation {transcript : Bytes} {r : FileRead} (hr : r.Of transcript)
    {o : FileObservation} (ho : r.observation = some o) : o.Of (headOf transcript) := by
  unfold FileRead.observation at ho
  obtain ⟨lines, offset, rest, hread⟩ : ∃ lines offset rest,
      readNewLinesWithStarts r.sized.length (some r.content) r.start r.remainder =
        (lines, offset, rest) := ⟨_, _, _, rfl⟩
  rw [hread] at ho
  obtain ⟨lines, rfl, rfl⟩ := Option.map_eq_some_iff.mp ho
  rcases readNewLinesWithStarts_cases hread with rfl | ⟨hutf, rfl, rfl⟩
  · rw [headFromLines_nil]
    exact of_nil offset
  rcases Nat.eq_zero_or_pos r.start with hstart | hpos
  · rw [hstart, List.drop_zero] at hutf
    rw [hstart, hr.fresh hstart, List.drop_zero, Nat.zero_add]
    exact ⟨rfl, headOf_prefix hr.content, length_headOf_le hutf⟩
  · unfold headFromLines
    rw [if_pos hpos]
    exact of_nil _

theorem Sees.of {transcript : Bytes} {o : FileObservation} (h : Sees transcript o) :
    o.Of (headOf transcript) := by
  induction h with
  | read r hr o ho => exact hr.observation ho
  | scanned content h => exact of_nil _
  | attached seen hseen hordered entry hentry ih =>
    have hnew : Steady (headOf transcript) 0 0 none := rfl
    obtain ⟨bound', h⟩ := hnew.watched ih hordered fun o _ => Nat.zero_le _
    rw [hentry] at h
    exact ⟨rfl, h.2.1.head, h.2.1.covered⟩

end AgentsCommander.Capture
