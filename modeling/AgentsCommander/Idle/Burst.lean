import AgentsCommander.Idle.Detector
import AgentsCommander.Foundation.Machine
import AgentsCommander.Idle.Alternation

/-! The burst filter by itself: one session's output, its input, and what the chunks of a burst come
to by their history. Every chunk comes to what its history says, and the clocks are stamped for the
chunks that count. -/
namespace AgentsCommander.Idle
open Foundation
open IdleDetector (BurstVerdict)

namespace World

/-- A program by itself, all of whose readings of the clock are the same. -/
def exec {α : Type} (now : Instant) : IdleProgram α → World → World
  | .done _, w => w
  | .act o k, w =>
    let answered := act 0 o ⟨now, true⟩ w
    exec now (k answered.1) answered.2

theorem exec_act {α : Type} (now : Instant) (o : Act) (k : o.Res → IdleProgram α) (w : World) :
    exec now (.act o k) w =
      exec now (k (act 0 o ⟨now, true⟩ w).1) (act 0 o ⟨now, true⟩ w).2 := rfl

/-- Two programs of which the second starts where the first ends, whatever it answers. -/
theorem exec_bind {α β : Type} (now : Instant) (p : IdleProgram α) (q : IdleProgram β) (w : World) :
    exec now (p >>= fun _ => q) w = exec now q (exec now p w) := by
  induction p generalizing w with
  | done a => rfl
  | act o k ih => exact ih _ _

end World

inductive BurstEvent where
  | output (id : Uuid) (byteCount : ℕ) (printable : Bool) (delay : Duration)
  | touchSilence (id : Uuid)
  | recordResize (id : Uuid)
  | recordControlWrite (id : Uuid)
  | evaluateTick
  | advance (elapsed : Duration)
  deriving DecidableEq, Repr

/-- The detector and the clock. The clocks are stamped `delay` after the chunk is read. -/
def burstStep (s : World × Instant) : BurstEvent → World × Instant
  | .output id byteCount printable delay =>
    (s.1.exec (s.2 + delay) (recordOutputAt id byteCount printable s.2), s.2 + delay)
  | .touchSilence id => (s.1.exec s.2 (touchSilence id), s.2)
  | .recordResize id => (s.1.exec s.2 (recordResize id), s.2)
  | .recordControlWrite id => (s.1.exec s.2 (recordControlWriteActivity id), s.2)
  | .evaluateTick => (s.1.exec s.2 (evaluateTick none false), s.2)
  | .advance elapsed => (s.1, s.2 + elapsed)

/-- A session registered at the start. -/
def registered (id : Uuid) (tuning : IdleTuning) : World × Instant :=
  (World.new.exec 0 (registerSession id tuning), 0)

structure Chunk where
  at_ : Instant
  bytes : ℕ
  printable : Bool
  deriving DecidableEq, Repr

/-- What happens to the silence clock of a session: a touch, or a chunk, what it came to, and when
the clock was stamped if it counted. -/
inductive Mark where
  | touch (at_ : Instant)
  | chunk (chunk : Chunk) (verdict : IdleDetector.BurstVerdict) (stamp : Instant)
  deriving DecidableEq, Repr

namespace Mark
open IdleDetector (BurstVerdict)

/-- The chunks that a chunk read now follows without too long a gap, newest first. -/
def near (window : Duration) (now : Instant) : List Chunk → List Chunk
  | [] => []
  | c :: cs => if now - c.at_ > window then [] else c :: cs

/-- The burst the marks end with, newest first. Input does not end it. -/
def burstOf (window : Duration) : List Mark → List Chunk
  | [] => []
  | .touch _ :: log => burstOf window log
  | .chunk c verdict _ :: log =>
    if verdict = .pending then c :: near window c.at_ (burstOf window log) else []

/-- When the silence clock was last touched. -/
def lastTouch (first : Instant) : List Mark → Instant
  | [] => first
  | .touch now :: _ => now
  | .chunk _ verdict stamp :: log => if verdict = .pending then lastTouch first log else stamp

def total (burst : List Chunk) : ℕ := (burst.map (·.bytes)).sum

def showsAny (burst : List Chunk) : Bool := burst.any (·.printable)

/-- When the burst of a chunk opened. -/
def opened (c : Chunk) (burst : List Chunk) : Instant := ((burst.getLast?).getD c).at_

/-- A chunk counts when the clock is fresh. Otherwise its burst counts, with the sum of its bytes,
once that reaches the limit or the burst spans the window. -/
def verdict (tuning : IdleTuning) (first : Instant) (log : List Mark) (c : Chunk) : BurstVerdict :=
  let burst := near tuning.burstWindow c.at_ (burstOf tuning.burstWindow log)
  if c.at_ - lastTouch first log < tuning.burstPriorSilence then .countsNow
  else if tuning.burstMaxBytes ≤ total (c :: burst) ∨
      tuning.burstWindow ≤ c.at_ - opened c burst then
    .confirmed (total (c :: burst)) (showsAny (c :: burst))
  else .pending

end Mark

/-- Whether the activity clock is due a stamp. -/
def IdleDetector.BurstVerdict.shows : IdleDetector.BurstVerdict → Bool → Bool
  | .countsNow, printable => printable
  | .confirmed _ sawPrintable, _ => sawPrintable
  | .pending, _ => false

namespace IdleDetector
variable (d : IdleDetector) (id : Uuid) (now : Instant)

/-- A resize repaints the prompt for a while. -/
def inGrace : Bool :=
  ((d.resizeGrace.lookup id).map (now - ·)).any
    (· < ((d.tuning.lookup id).getD .default).resizeGrace)

/-- What `record_activity_with_bytes` leaves of the detector. -/
def noteActivity : IdleDetector := if d.inGrace id now then d else (d.stamp id now).2

/-- What counting a chunk leaves of the detector. -/
def noteCount (printable : Bool) : IdleDetector :=
  let touched := { d with silence := d.silence.insert id now }
  if printable then touched.noteActivity id now else touched

def silenceAgeAt (readAt : Instant) : Duration :=
  ((d.silence.lookup id).bind (checkedDurationSince readAt)).getD 0

/-- What `record_output_at` leaves of the detector while the filter is on. -/
def noteOutput (byteCount : ℕ) (printable : Bool) (readAt : Instant) (tuning : IdleTuning) :
    IdleDetector :=
  let weighed := d.burstSection id byteCount printable readAt tuning (d.silenceAgeAt id readAt)
  if weighed.1 = .pending then weighed.2
  else weighed.2.noteCount id now (weighed.1.shows printable)

end IdleDetector

namespace World
variable {w : World} {id : Uuid} {now : Instant}

theorem detector_exec_stamp :
    (w.exec now (do
      let wasIdle : Bool ← call (.stamp id)
      if wasIdle then call (.onBusy id) else pure ())).detector = (w.detector.stamp id now).2 := by
  show (exec now (if (w.detector.stamp id now).1 then call (.onBusy id) else pure ())
    ((w.change fun _ => (w.detector.stamp id now).2).owe 0 id
      (w.detector.stamp id now).1)).detector = _
  cases (w.detector.stamp id now).1 with
  | true => rfl
  | false => rfl

theorem detector_exec_recordActivityWithBytes :
    (w.exec now (recordActivityWithBytes id)).detector = w.detector.noteActivity id now := by
  have hexec : w.exec now (recordActivityWithBytes id) =
      w.exec now (if w.detector.inGrace id now then pure () else do
        let wasIdle : Bool ← call (.stamp id)
        if wasIdle then call (.onBusy id) else pure ()) := rfl
  rw [hexec, IdleDetector.noteActivity]
  split_ifs
  · rfl
  · exact detector_exec_stamp

theorem detector_exec_countOutput (printable : Bool) :
    (w.exec now (countOutput id printable)).detector = w.detector.noteCount id now printable := by
  have hexec : w.exec now (countOutput id printable) = exec now
      (if printable then recordActivityWithBytes id else pure ())
      (w.change fun d => { d with silence := d.silence.insert id now }) := rfl
  rw [hexec, IdleDetector.noteCount]
  cases printable with
  | true => exact detector_exec_recordActivityWithBytes
  | false => rfl

/-- What becomes of a chunk once it is weighed. -/
def afterVerdict (id : Uuid) (printable : Bool) : BurstVerdict → IdleProgram Unit
  | .countsNow => countOutput id printable
  | .confirmed _ sawPrintable => countOutput id sawPrintable
  | .pending => pure ()

theorem recordOutputAt_eq (id : Uuid) (byteCount : ℕ) (printable : Bool) (readAt : Instant) :
    recordOutputAt id byteCount printable readAt = (do
      let found : Option IdleTuning ← call (.readTuning id)
      let tuning := found.getD .default
      if tuning.burstMaxBytes = 0 || tuning.burstWindow = 0 then countOutput id printable
      else
        let stamp : Option Instant ← call (.readSilence id)
        let silenceAge := (stamp.bind (checkedDurationSince readAt)).getD 0
        let verdict ← call (.burst id byteCount printable readAt tuning silenceAge)
        afterVerdict id printable verdict) := by
  refine congrArg (Program.act _) (funext fun found => ?_)
  refine congrArg (ite _ _) ?_
  refine congrArg (Program.act _) (funext fun stamp => ?_)
  refine congrArg (Program.act _) (funext fun verdict => ?_)
  change BurstVerdict at verdict
  cases verdict <;> rfl

theorem detector_exec_afterVerdict (printable : Bool) (verdict : BurstVerdict) :
    (w.exec now (afterVerdict id printable verdict)).detector =
      if verdict = .pending then w.detector
      else w.detector.noteCount id now (verdict.shows printable) := by
  cases verdict with
  | countsNow => exact detector_exec_countOutput printable
  | confirmed bytes sawPrintable => exact detector_exec_countOutput sawPrintable
  | pending => rfl

theorem detector_exec_recordOutputAt (byteCount : ℕ) (printable : Bool) (readAt : Instant) :
    (w.exec now (recordOutputAt id byteCount printable readAt)).detector =
      let tuning := (w.detector.tuning.lookup id).getD .default
      if tuning.burstMaxBytes = 0 || tuning.burstWindow = 0 then
        w.detector.noteCount id now printable
      else w.detector.noteOutput id now byteCount printable readAt tuning := by
  have hexec : w.exec now (recordOutputAt id byteCount printable readAt) =
      let found := (w.detector.tuning.lookup id).getD .default
      exec now (if found.burstMaxBytes = 0 || found.burstWindow = 0 then countOutput id printable
        else do
          let stamp : Option Instant ← call (.readSilence id)
          let silenceAge := (stamp.bind (checkedDurationSince readAt)).getD 0
          let verdict ← call (.burst id byteCount printable readAt found silenceAge)
          afterVerdict id printable verdict) w := by
    rw [recordOutputAt_eq]
    rfl
  rw [hexec]
  dsimp only
  split_ifs
  · exact detector_exec_countOutput printable
  · exact detector_exec_afterVerdict printable _

end World

namespace IdleDetector
variable {d : IdleDetector} {id : Uuid} {now : Instant}

@[simp] theorem tuning_noteActivity : (d.noteActivity id now).tuning = d.tuning := by
  unfold noteActivity
  split_ifs <;> rfl

@[simp] theorem silence_noteActivity : (d.noteActivity id now).silence = d.silence := by
  unfold noteActivity
  split_ifs <;> rfl

@[simp] theorem burst_noteActivity : (d.noteActivity id now).burst = d.burst := by
  unfold noteActivity
  split_ifs <;> rfl

theorem timestamps_noteActivity (other : Uuid) :
    (d.noteActivity id now).timestamps.lookup other =
      if other = id ∧ d.inGrace id now = false then some now else d.timestamps.lookup other := by
  unfold noteActivity
  split_ifs with hgrace ho ho
  · exact nomatch hgrace.symm.trans ho.2
  · rfl
  · exact (Assoc.lookup_insert_eq _ _ _ _).trans (if_pos ho.1)
  · refine (Assoc.lookup_insert_eq _ _ _ _).trans (if_neg fun he => ho ⟨he, ?_⟩)
    exact Bool.not_eq_true _ ▸ hgrace

@[simp] theorem tuning_noteCount (printable : Bool) :
    (d.noteCount id now printable).tuning = d.tuning := by
  unfold noteCount
  split_ifs
  · exact tuning_noteActivity
  · rfl

@[simp] theorem burst_noteCount (printable : Bool) :
    (d.noteCount id now printable).burst = d.burst := by
  unfold noteCount
  split_ifs
  · exact burst_noteActivity
  · rfl

theorem silence_noteCount (printable : Bool) (other : Uuid) :
    (d.noteCount id now printable).silence.lookup other =
      if other = id then some now else d.silence.lookup other := by
  unfold noteCount
  rw [← Assoc.lookup_insert_eq]
  split_ifs
  · rw [silence_noteActivity]
  · rfl

theorem timestamps_noteCount (printable : Bool) (other : Uuid) :
    (d.noteCount id now printable).timestamps.lookup other =
      if other = id ∧ printable = true ∧ d.inGrace id now = false then some now
      else d.timestamps.lookup other := by
  unfold noteCount
  cases printable with
  | true =>
    rw [if_pos rfl, timestamps_noteActivity]
    have hgrace : inGrace { d with silence := d.silence.insert id now } id now =
      d.inGrace id now := rfl
    simp only [hgrace, true_and]
  | false => simp

end IdleDetector

namespace Mark
open IdleDetector (weighBurst openBurst)

/-- The candidate that stands for a burst. -/
def pendingOf : List Chunk → Option PendingBurst
  | [] => none
  | c :: cs => some ⟨opened c cs, c.at_, total (c :: cs), showsAny (c :: cs)⟩

variable {tuning : IdleTuning} {age : Duration}

/-- What a chunk comes to under the lock, and the candidate it leaves. -/
def settle (pending : Option PendingBurst) (c : Chunk) (tuning : IdleTuning) (age : Duration) :
    Option PendingBurst × BurstVerdict :=
  let found := pending.elim (none, none) fun p =>
    weighBurst p c.bytes c.printable c.at_ tuning age
  match found.2 with
  | some verdict => (found.1, verdict)
  | none => openBurst c.bytes c.printable c.at_ tuning age

theorem settle_none (hwindow : tuning.burstWindow ≠ 0) (c : Chunk) :
    settle none c tuning age =
      if age < tuning.burstPriorSilence then (none, .countsNow)
      else if tuning.burstMaxBytes ≤ total [c] ∨ tuning.burstWindow ≤ c.at_ - opened c [] then
        (none, .confirmed (total [c]) (showsAny [c]))
      else (pendingOf [c], .pending) := by
  have hspan : ¬ tuning.burstWindow ≤ c.at_ - opened c [] := by
    show ¬ tuning.burstWindow ≤ c.at_ - c.at_
    rw [Nat.sub_self]
    exact fun h => hwindow (Nat.le_zero.mp h)
  simp only [settle, Option.elim_none, openBurst, hspan, or_false]
  simp [total, showsAny, pendingOf, opened]

theorem opened_cons (c last : Chunk) (burst : List Chunk) :
    opened c (last :: burst) = opened last burst := by
  rw [opened, List.getLast?_cons]
  rfl

theorem total_cons (c : Chunk) (burst : List Chunk) :
    total (c :: burst) = total burst + c.bytes := by
  rw [total, List.map_cons, List.sum_cons, Nat.add_comm]
  rfl

theorem showsAny_cons (c : Chunk) (burst : List Chunk) :
    showsAny (c :: burst) = (showsAny burst || c.printable) := Bool.or_comm _ _

theorem settle_some (c last : Chunk) (burst : List Chunk) :
    settle (pendingOf (last :: burst)) c tuning age =
      if c.at_ - last.at_ > tuning.burstWindow then settle none c tuning age
      else if age < tuning.burstPriorSilence then (none, .countsNow)
      else if tuning.burstMaxBytes ≤ total (c :: last :: burst) ∨
          tuning.burstWindow ≤ c.at_ - opened c (last :: burst) then
        (none, .confirmed (total (c :: last :: burst)) (showsAny (c :: last :: burst)))
      else (pendingOf (c :: last :: burst), .pending) := by
  have hgrown : pendingOf (c :: last :: burst) =
      some ⟨opened last burst, c.at_, total (last :: burst) + c.bytes,
        showsAny (last :: burst) || c.printable⟩ := by
    rw [pendingOf, opened_cons, total_cons, showsAny_cons]
  rw [hgrown, opened_cons, total_cons c, showsAny_cons c]
  simp only [settle, pendingOf, Option.elim_some, weighBurst, Option.elim_none, Bool.or_eq_true,
    decide_eq_true_eq, ge_iff_le]
  split_ifs <;> rfl

/-- A chunk and the burst before it, weighed at the age of the silence. -/
theorem settle_near (hwindow : tuning.burstWindow ≠ 0) (c : Chunk) (burst : List Chunk) :
    settle (pendingOf burst) c tuning age =
      let old := near tuning.burstWindow c.at_ burst
      if age < tuning.burstPriorSilence then (none, .countsNow)
      else if tuning.burstMaxBytes ≤ total (c :: old) ∨
          tuning.burstWindow ≤ c.at_ - opened c old then
        (none, .confirmed (total (c :: old)) (showsAny (c :: old)))
      else (pendingOf (c :: old), .pending) := by
  cases burst with
  | nil => exact settle_none hwindow c
  | cons last burst =>
    rw [settle_some, settle_none hwindow]
    dsimp only
    rw [near]
    split_ifs <;> rfl

/-- The lock does to a chunk what its history says. -/
theorem settle_eq (hwindow : tuning.burstWindow ≠ 0) (first : Instant) (log : List Mark) (c : Chunk)
    (stamp : Instant) :
    settle (pendingOf (burstOf tuning.burstWindow log)) c tuning (c.at_ - lastTouch first log) =
      (pendingOf (burstOf tuning.burstWindow (.chunk c (verdict tuning first log c) stamp :: log)),
        verdict tuning first log c) := by
  rw [settle_near hwindow, burstOf, verdict]
  dsimp only
  by_cases hfresh : c.at_ - lastTouch first log < tuning.burstPriorSilence
  · rw [if_pos hfresh, if_pos hfresh]
    rfl
  · rw [if_neg hfresh, if_neg hfresh]
    split_ifs <;> first | rfl | contradiction

end Mark

namespace IdleDetector
open Mark
variable {d : IdleDetector} {id other : Uuid} {now : Instant}

theorem burstSection_eq (d : IdleDetector) (id : Uuid) (c : Chunk) (tuning : IdleTuning)
    (age : Duration) :
    d.burstSection id c.bytes c.printable c.at_ tuning age =
      ((settle (d.burst.lookup id) c tuning age).2, { d with
        burst := (settle (d.burst.lookup id) c tuning age).1.elim (d.burst.erase id)
          (d.burst.insert id) }) := rfl

theorem lookup_settled (pending : Option PendingBurst) (j : Uuid) :
    (pending.elim (d.burst.erase id) (d.burst.insert id)).lookup j =
      if j = id then pending else d.burst.lookup j := by
  cases pending with
  | none => exact Assoc.lookup_erase_eq _ _ _
  | some p => exact Assoc.lookup_insert_eq _ _ _ _

/-- Nothing of a session has changed that the filter looks at. -/
structure Apart (id : Uuid) (d d' : IdleDetector) : Prop where
  tuning : d'.tuning.lookup id = d.tuning.lookup id
  silence : d'.silence.lookup id = d.silence.lookup id
  burst : d'.burst.lookup id = d.burst.lookup id

theorem Apart.refl (id : Uuid) (d : IdleDetector) : Apart id d d := ⟨rfl, rfl, rfl⟩

theorem apart_noteActivity : Apart other d (d.noteActivity id now) := by
  refine ⟨?_, ?_, ?_⟩
  · rw [tuning_noteActivity]
  · rw [silence_noteActivity]
  · rw [burst_noteActivity]

theorem Apart.trans {d' d'' : IdleDetector} (h : Apart id d d') (h' : Apart id d' d'') :
    Apart id d d'' :=
  ⟨h'.tuning.trans h.tuning, h'.silence.trans h.silence, h'.burst.trans h.burst⟩

theorem apart_noteCount (h : other ≠ id) (printable : Bool) :
    Apart other d (d.noteCount id now printable) := by
  refine ⟨?_, ?_, ?_⟩
  · rw [tuning_noteCount]
  · rw [silence_noteCount, if_neg h]
  · rw [burst_noteCount]

theorem apart_noteOutput (h : other ≠ id) (byteCount : ℕ) (printable : Bool) (readAt : Instant)
    (tuning : IdleTuning) :
    Apart other d (d.noteOutput id now byteCount printable readAt tuning) := by
  have hsection : Apart other d (d.burstSection id byteCount printable readAt tuning
      (d.silenceAgeAt id readAt)).2 :=
    ⟨rfl, rfl, (lookup_settled _ other).trans (if_neg h)⟩
  unfold noteOutput
  dsimp only
  split_ifs
  · exact hsection
  · exact hsection.trans (apart_noteCount h _)

/-- The tables of a session say what its marks say. -/
structure Follows (d : IdleDetector) (id : Uuid) (tuning : IdleTuning) (log : List Mark) :
    Prop where
  tuned : d.tuning.lookup id = some tuning
  silence : d.silence.lookup id = some (lastTouch 0 log)
  burst : d.burst.lookup id = pendingOf (burstOf tuning.burstWindow log)

theorem Follows.apart {tuning : IdleTuning} {log : List Mark} {d' : IdleDetector}
    (h : d.Follows id tuning log) (hapart : Apart id d d') : d'.Follows id tuning log :=
  ⟨hapart.tuning.trans h.tuned, hapart.silence.trans h.silence, hapart.burst.trans h.burst⟩

theorem Follows.age {tuning : IdleTuning} {log : List Mark} (h : d.Follows id tuning log)
    (readAt : Instant) : d.silenceAgeAt id readAt = readAt - lastTouch 0 log := by
  unfold silenceAgeAt checkedDurationSince
  rw [h.silence]
  by_cases hle : lastTouch 0 log ≤ readAt
  · simp [hle]
  · simp [hle, Nat.sub_eq_zero_of_le (Nat.le_of_not_le hle)]

/-- What the code makes of a chunk. -/
def weigh (d : IdleDetector) (id : Uuid) (c : Chunk) (tuning : IdleTuning) : BurstVerdict :=
  (d.burstSection id c.bytes c.printable c.at_ tuning (d.silenceAgeAt id c.at_)).1

/-- The detector with the candidate a chunk leaves. -/
def weighed (d : IdleDetector) (id : Uuid) (c : Chunk) (tuning : IdleTuning) : IdleDetector :=
  (d.burstSection id c.bytes c.printable c.at_ tuning (d.silenceAgeAt id c.at_)).2

theorem noteOutput_eq (d : IdleDetector) (id : Uuid) (c : Chunk) (tuning : IdleTuning)
    (stamp : Instant) :
    d.noteOutput id stamp c.bytes c.printable c.at_ tuning =
      if d.weigh id c tuning = .pending then d.weighed id c tuning
      else (d.weighed id c tuning).noteCount id stamp ((d.weigh id c tuning).shows c.printable) :=
  rfl

theorem Follows.weigh {tuning : IdleTuning} {log : List Mark} (h : d.Follows id tuning log)
    (hwindow : tuning.burstWindow ≠ 0) (c : Chunk) :
    d.weigh id c tuning = verdict tuning 0 log c := by
  rw [IdleDetector.weigh, burstSection_eq, h.burst, h.age, settle_eq hwindow 0 log c 0]

/-- A chunk comes to what its history says, and so do the clocks after it. -/
theorem Follows.output {tuning : IdleTuning} {log : List Mark} (h : d.Follows id tuning log)
    (hwindow : tuning.burstWindow ≠ 0) (c : Chunk) (stamp : Instant) :
    (d.noteOutput id stamp c.bytes c.printable c.at_ tuning).Follows id tuning
      (.chunk c (verdict tuning 0 log c) stamp :: log) := by
  have hburst : (d.weighed id c tuning).burst.lookup id =
      pendingOf (burstOf tuning.burstWindow (.chunk c (verdict tuning 0 log c) stamp :: log)) := by
    rw [weighed, burstSection_eq, h.burst, h.age, settle_eq hwindow 0 log c stamp, lookup_settled,
      if_pos rfl]
  rw [noteOutput_eq, h.weigh hwindow]
  split_ifs with hpending
  · refine ⟨h.tuned, ?_, hburst⟩
    rw [lastTouch, if_pos hpending]
    exact h.silence
  · refine ⟨?_, ?_, ?_⟩
    · rw [tuning_noteCount]
      exact h.tuned
    · rw [silence_noteCount, if_pos rfl, lastTouch, if_neg hpending]
    · rw [burst_noteCount]
      exact hburst

/-- The clocks of a session after one of its chunks: the silence clock is stamped if the chunk
counts, and the activity clock if it shows anything then, unless a resize explains it. -/
def Clocked (d d' : IdleDetector) (id : Uuid) (verdict : BurstVerdict) (printable : Bool)
    (stamp : Instant) : Prop :=
  d'.silence.lookup id = (if verdict = .pending then d.silence.lookup id else some stamp) ∧
    d'.timestamps.lookup id =
      if verdict.shows printable = true ∧ d.inGrace id stamp = false then some stamp
      else d.timestamps.lookup id

theorem clocked_noteOutput (d : IdleDetector) (id : Uuid) (c : Chunk) (tuning : IdleTuning)
    (stamp : Instant) :
    Clocked d (d.noteOutput id stamp c.bytes c.printable c.at_ tuning) id (d.weigh id c tuning)
      c.printable stamp := by
  rw [noteOutput_eq]
  by_cases hpending : d.weigh id c tuning = .pending
  · rw [if_pos hpending, hpending]
    exact ⟨rfl, (if_neg fun h => Bool.false_ne_true h.1).symm⟩
  · rw [if_neg hpending]
    refine ⟨?_, ?_⟩
    · rw [silence_noteCount, if_pos rfl, if_neg hpending]
    · rw [timestamps_noteCount]
      simp only [true_and]
      rfl

end IdleDetector

/-- The detector and the clock, event by event. -/
def bursts : Machine (World × Instant) BurstEvent Unit := ⟨fun s e => (burstStep s e, ())⟩

/-- The marks of a session after an event. -/
def marked (id : Uuid) (tuning : IdleTuning) (log : List Mark) (s : World × Instant) :
    BurstEvent → List Mark
  | .output j byteCount printable delay =>
    if id = j then
      .chunk ⟨s.2, byteCount, printable⟩
        (s.1.detector.weigh id ⟨s.2, byteCount, printable⟩ tuning) (s.2 + delay) :: log
    else log
  | .touchSilence j => if id = j then .touch s.2 :: log else log
  | _ => log

/-- The detector and the clock with the marks of one session. -/
def markedBursts (id : Uuid) (tuning : IdleTuning) :
    Machine ((World × Instant) × List Mark) BurstEvent Unit :=
  bursts.trace fun log s e _ => marked id tuning log s e

/-- A chunk of the session comes to what the marks say, and the clocks follow. -/
def Weighed (id : Uuid) (tuning : IdleTuning) (s : (World × Instant) × List Mark)
    (e : BurstEvent) : Prop :=
  ∀ byteCount printable delay, e = .output id byteCount printable delay →
    IdleDetector.Clocked s.1.1.detector (bursts.next s.1 e).1.detector id
      (Mark.verdict tuning 0 s.2 ⟨s.1.2, byteCount, printable⟩) printable (s.1.2 + delay)

section run
variable {id : Uuid} {tuning : IdleTuning}

theorem follows_registered : (registered id tuning).1.detector.Follows id tuning [] := by
  refine ⟨?_, ?_, rfl⟩
  · exact (Assoc.lookup_insert_eq _ _ _ _).trans (if_pos rfl)
  · exact (Assoc.lookup_insert_eq _ _ _ _).trans (if_pos rfl)

theorem detector_output (hbytes : tuning.burstMaxBytes ≠ 0) (hwindow : tuning.burstWindow ≠ 0)
    {s : World × Instant} (h : s.1.detector.tuning.lookup id = some tuning) (byteCount : ℕ)
    (printable : Bool) (delay : Duration) :
    (burstStep s (.output id byteCount printable delay)).1.detector =
      s.1.detector.noteOutput id (s.2 + delay) byteCount printable s.2 tuning := by
  refine World.detector_exec_recordOutputAt byteCount printable s.2 |>.trans ?_
  rw [h]
  exact if_neg (by simp [hbytes, hwindow])

theorem follows_next (hbytes : tuning.burstMaxBytes ≠ 0) (hwindow : tuning.burstWindow ≠ 0)
    {s : World × Instant} {log : List Mark} (h : s.1.detector.Follows id tuning log)
    (e : BurstEvent) :
    (burstStep s e).1.detector.Follows id tuning (marked id tuning log s e) := by
  cases e with
  | output j byteCount printable delay =>
    rw [marked]
    split_ifs with hj
    · subst hj
      rw [detector_output hbytes hwindow h.tuned, h.weigh hwindow]
      exact h.output hwindow ⟨s.2, byteCount, printable⟩ (s.2 + delay)
    · have hexec : (burstStep s (.output j byteCount printable delay)).1.detector = _ :=
        World.detector_exec_recordOutputAt byteCount printable s.2
      rw [hexec]
      dsimp only
      split_ifs
      · exact h.apart (IdleDetector.apart_noteCount hj printable)
      · exact h.apart (IdleDetector.apart_noteOutput hj byteCount printable s.2 _)
  | touchSilence j =>
    rw [marked]
    have hlookup : ∀ other, ((burstStep s (.touchSilence j)).1.detector.silence.lookup other) =
        if other = j then some s.2 else s.1.detector.silence.lookup other :=
      fun other => Assoc.lookup_insert_eq _ _ _ _
    split_ifs with hj
    · exact ⟨h.tuned, (hlookup id).trans (if_pos hj), h.burst⟩
    · exact ⟨h.tuned, ((hlookup id).trans (if_neg hj)).trans h.silence, h.burst⟩
  | recordResize j => exact h.apart ⟨rfl, rfl, rfl⟩
  | recordControlWrite j =>
    have hexec : (burstStep s (.recordControlWrite j)).1.detector = _ :=
      World.detector_exec_recordActivityWithBytes
    rw [hexec]
    refine h.apart (IdleDetector.Apart.trans ?_ IdleDetector.apart_noteActivity)
    show IdleDetector.Apart id s.1.detector (if _ then _ else _)
    split_ifs
    · exact ⟨rfl, rfl, rfl⟩
    · exact .refl id _
  | evaluateTick =>
    have hexec : (burstStep s .evaluateTick).1.detector =
        s.1.detector.tick s.1.detector.tuning s.2 := tick_detector _ _ _
    rw [hexec]
    exact h.apart ⟨rfl, rfl, rfl⟩
  | advance elapsed => exact h

/-- In every run, every chunk of the session comes to what its history says: it counts when the
silence was broken less than `burst_prior_silence` ago, and otherwise with its whole burst, once
that reaches `burst_max_bytes` or spans `burst_window` without a longer gap. -/
theorem weighed_run (hbytes : tuning.burstMaxBytes ≠ 0) (hwindow : tuning.burstWindow ≠ 0)
    (events : List BurstEvent) :
    (markedBursts id tuning).Along (Weighed id tuning) (registered id tuning, []) events := by
  have hinv := (Machine.along_true (M := markedBursts id tuning) (registered id tuning, []) events)
    |>.and_inv (P := fun s => s.1.1.detector.Follows id tuning s.2)
      (fun s e h _ => follows_next hbytes hwindow h e) follows_registered
  refine hinv.mono fun s e h byteCount printable delay he => ?_
  subst he
  have hclocked := IdleDetector.clocked_noteOutput s.1.1.detector id
    ⟨s.1.2, byteCount, printable⟩ tuning (s.1.2 + delay)
  rw [h.1.weigh hwindow] at hclocked
  have hnext : (bursts.next s.1 (.output id byteCount printable delay)).1.detector =
      s.1.1.detector.noteOutput id (s.1.2 + delay) byteCount printable s.1.2 tuning :=
    detector_output hbytes hwindow h.1.tuned byteCount printable delay
  rw [hnext]
  exact hclocked

end run

def burstTuning : IdleTuning :=
  { IdleTuning.default with
    burstMaxBytes := 1024, burstWindow := 10 * 10 ^ 9, burstPriorSilence := 5 * 10 ^ 9 }

/-- A burst that reaches the limit with its third chunk. -/
theorem weighed_run_confirmed :
    (markedBursts 1 burstTuning).Along (Weighed 1 burstTuning) (registered 1 burstTuning, [])
      [.advance (60 * 10 ^ 9), .output 1 500 true 0, .advance (10 ^ 9), .output 1 500 false 0,
        .advance (10 ^ 9), .output 1 24 false 0] :=
  weighed_run (by decide) (by decide) _

/-- A touch between the chunks of a burst is no help once it is as old as the prior silence. -/
theorem touched_chunk_pending : ¬ ∀ tuning events elapsed byteCount,
    tuning.burstMaxBytes ≠ 0 → tuning.burstWindow ≠ 0 →
      let s := bursts.run (registered 1 tuning) (events ++ [.touchSilence 1, .advance elapsed])
      (bursts.next s (.output 1 byteCount true 0)).1.detector.timestamps.lookup 1 = some s.2 :=
  fun h => absurd (h burstTuning [.advance (60 * 10 ^ 9), .output 1 10 true 0, .advance (10 ^ 9)]
    (6 * 10 ^ 9) 10 (by decide) (by decide)) (by decide +kernel)

end AgentsCommander.Idle
