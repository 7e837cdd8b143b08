import AgentsCommander.Typing.Chunks
import AgentsCommander.Foundation.Machine
import Mathlib.Data.Finset.Basic
import Mathlib.Data.Finset.Card

/-! The typing hold of a session: the window a key opens, the manual padlock, and the messages
deferred meanwhile. The clock and the setting are kept beside the tracker. The padlock follows from
what was done since the last release. -/
namespace AgentsCommander.Typing
open Foundation

structure TypingHoldSnapshot where
  closed : Bool
  heldCount : ℕ
  deriving DecidableEq, Repr

structure TypingHoldSession where
  lastQualifyingKey : Option Instant := none
  manualClosedAt : Option Instant := none
  releaseGeneration : UInt64 := 0
  suppressedGeneration : Option UInt64 := none
  heldMessageIds : Finset String := ∅
  deriving DecidableEq

/-- `u32::MAX`. -/
def countMax : ℕ := 2 ^ 32 - 1

def heldCount (ids : Finset String) : ℕ := min ids.card countMax

namespace TypingHoldSession

def naturalWindowActive (s : TypingHoldSession) (window : Duration) (now : Instant) : Bool :=
  if s.suppressedGeneration = some s.releaseGeneration then false
  else s.lastQualifyingKey.any fun last => now - last ≤ window

def manualWindowActive (s : TypingHoldSession) (window : Duration) (now : Instant) : Bool :=
  s.manualClosedAt.any fun closedAt => now - closedAt ≤ window * 2

def effectiveClosed (s : TypingHoldSession) (window : Duration) (now : Instant) : Bool :=
  s.manualWindowActive window now || s.naturalWindowActive window now

def snapshot (s : TypingHoldSession) (window : Duration) (now : Instant) : TypingHoldSnapshot :=
  ⟨s.effectiveClosed window now, heldCount s.heldMessageIds⟩

def noteQualifyingKey (s : TypingHoldSession) (now : Instant) : TypingHoldSession :=
  { s with lastQualifyingKey := some now, suppressedGeneration := none }

def toggleManual (s : TypingHoldSession) (window : Duration) (now : Instant) : TypingHoldSession :=
  if s.effectiveClosed window now then
    { s with
      manualClosedAt := none
      releaseGeneration := s.releaseGeneration + 1
      suppressedGeneration := some (s.releaseGeneration + 1) }
  else { s with manualClosedAt := some now }

end TypingHoldSession

structure TypingHoldTracker where
  sessions : AList fun _ : Uuid => TypingHoldSession

namespace TypingHoldTracker

def default : TypingHoldTracker := ⟨∅⟩

/-- `entry(id).or_default()`. -/
def entry (t : TypingHoldTracker) (id : Uuid) : TypingHoldSession := (t.sessions.lookup id).getD {}

def put (t : TypingHoldTracker) (id : Uuid) (s : TypingHoldSession) : TypingHoldTracker :=
  ⟨t.sessions.insert id s⟩

def snapshot (t : TypingHoldTracker) (id : Uuid) (window : Duration) (now : Instant) :
    TypingHoldSnapshot :=
  match t.sessions.lookup id with
  | some session => session.snapshot window now
  | none => ⟨false, 0⟩

def noteQualifyingKey (t : TypingHoldTracker) (id : Uuid) (now : Instant) : TypingHoldTracker :=
  t.put id ((t.entry id).noteQualifyingKey now)

def toggleManual (t : TypingHoldTracker) (id : Uuid) (window : Duration) (now : Instant) :
    TypingHoldSnapshot × TypingHoldTracker :=
  let session := (t.entry id).toggleManual window now
  (session.snapshot window now, t.put id session)

def recordHeldMessage (t : TypingHoldTracker) (id : Uuid) (messageId : String) :
    TypingHoldTracker :=
  t.put id { t.entry id with heldMessageIds := insert messageId (t.entry id).heldMessageIds }

def clearHeldMessage (t : TypingHoldTracker) (id : Uuid) (messageId : String) :
    TypingHoldTracker :=
  match t.sessions.lookup id with
  | some session =>
    t.put id { session with heldMessageIds := session.heldMessageIds.erase messageId }
  | none => t

def reset (t : TypingHoldTracker) (id : Uuid) : TypingHoldTracker := ⟨t.sessions.erase id⟩

@[simp] theorem entry_put (t : TypingHoldTracker) (id other : Uuid) (s : TypingHoldSession) :
    (t.put id s).entry other = if other = id then s else t.entry other := by
  unfold entry put
  rw [Assoc.lookup_insert_eq]
  split_ifs <;> rfl

@[simp] theorem entry_reset (t : TypingHoldTracker) (id other : Uuid) :
    (t.reset id).entry other = if other = id then {} else t.entry other := by
  unfold entry reset
  rw [Assoc.lookup_erase_eq]
  split_ifs <;> rfl

theorem entry_clearHeldMessage (t : TypingHoldTracker) (id other : Uuid) (messageId : String) :
    (t.clearHeldMessage id messageId).entry other =
      if other = id then
        { t.entry id with heldMessageIds := (t.entry id).heldMessageIds.erase messageId }
      else t.entry other := by
  unfold clearHeldMessage
  cases hs : t.sessions.lookup id with
  | some session =>
    rw [entry_put]
    unfold entry
    rw [hs]
    rfl
  | none =>
    split_ifs with ho
    · subst ho
      unfold entry
      rw [hs]
      rfl
    · rfl

theorem snapshot_eq (t : TypingHoldTracker) (id : Uuid) (window : Duration) (now : Instant) :
    t.snapshot id window now = (t.entry id).snapshot window now := by
  unfold snapshot entry
  cases t.sessions.lookup id <;> rfl

end TypingHoldTracker

/-- The tracker, the clock, and the `typing_hold_seconds` in force. -/
structure HoldDesk where
  tracker : TypingHoldTracker
  now : Instant
  window : Duration

inductive HoldEvent where
  | noteQualifyingKey (id : Uuid)
  | toggleManual (id : Uuid)
  | recordHeldMessage (id : Uuid) (messageId : String)
  | clearHeldMessage (id : Uuid) (messageId : String)
  | reset (id : Uuid)
  | advance (elapsed : Duration)
  | setWindow (window : Duration)
  deriving DecidableEq, Repr

namespace HoldDesk

def new (window : Duration) : HoldDesk := ⟨.default, 0, window⟩

/-- The padlock as the desk shows it. -/
def snapshot (s : HoldDesk) (id : Uuid) : TypingHoldSnapshot :=
  s.tracker.snapshot id s.window s.now

def closed (s : HoldDesk) (id : Uuid) : Bool := (s.snapshot id).closed

/-- The answer to a click is the padlock it leaves. -/
def step (s : HoldDesk) : HoldEvent → HoldDesk × Option TypingHoldSnapshot
  | .noteQualifyingKey id => ({ s with tracker := s.tracker.noteQualifyingKey id s.now }, none)
  | .toggleManual id =>
    let toggled := s.tracker.toggleManual id s.window s.now
    ({ s with tracker := toggled.2 }, some toggled.1)
  | .recordHeldMessage id messageId =>
    ({ s with tracker := s.tracker.recordHeldMessage id messageId }, none)
  | .clearHeldMessage id messageId =>
    ({ s with tracker := s.tracker.clearHeldMessage id messageId }, none)
  | .reset id => ({ s with tracker := s.tracker.reset id }, none)
  | .advance elapsed => ({ s with now := s.now + elapsed }, none)
  | .setWindow window => ({ s with window := window }, none)

def desk : Machine HoldDesk HoldEvent (Option TypingHoldSnapshot) := ⟨step⟩

end HoldDesk

/-- What is done to the hold of one session. -/
inductive Deed where
  | key
  | close
  | release
  | record (messageId : String)
  | clear (messageId : String)
  deriving DecidableEq, Repr

/-- The deeds since the last reset with their times, newest first. -/
abbrev Log := List (Instant × Deed)

namespace Log

def sinceRelease (log : Log) : Log := log.takeWhile (·.2 ≠ .release)

/-- A key within the window, or a manual close within twice the window, since the last release. -/
def Shut (log : Log) (window : Duration) (now : Instant) : Prop :=
  (∃ e ∈ log.sinceRelease, e.2 = .key ∧ now - e.1 ≤ window) ∨
    ∃ e ∈ log.sinceRelease, e.2 = .close ∧ now - e.1 ≤ window * 2

/-- The message was recorded, and not cleared since. -/
def Outstanding (log : Log) (messageId : String) : Prop :=
  (log.find? fun e => e.2 = .record messageId ∨ e.2 = .clear messageId).map (·.2) =
    some (.record messageId)

/-- When the deed was last done since the last release. -/
def latest (log : Log) (deed : Deed) : Option Instant :=
  (log.sinceRelease.find? (·.2 = deed)).map (·.1)

@[simp] theorem latest_release (log : Log) (deed : Deed) (now : Instant) :
    latest ((now, .release) :: log) deed = none := rfl

theorem latest_cons {log : Log} {deed : Deed} {now : Instant} (other : Deed)
    (h : deed ≠ .release) :
    latest ((now, deed) :: log) other = if deed = other then some now else latest log other := by
  unfold latest sinceRelease
  rw [List.takeWhile_cons_of_pos (by simpa using h), List.find?_cons]
  split_ifs with hd
  · simp [hd]
  · simp [hd]

/-- The deeds are in the order of their times, none later than now. -/
def Timed (log : Log) (now : Instant) : Prop :=
  log.Pairwise (fun e f => f.1 ≤ e.1) ∧ ∀ e ∈ log, e.1 ≤ now

theorem Timed.cons {log : Log} {now : Instant} (h : log.Timed now) (deed : Deed) :
    Timed ((now, deed) :: log) now :=
  ⟨List.pairwise_cons.mpr ⟨h.2, h.1⟩, List.forall_mem_cons.mpr ⟨le_rfl, h.2⟩⟩

theorem Timed.mono {log : Log} {now later : Instant} (h : log.Timed now) (hle : now ≤ later) :
    log.Timed later := ⟨h.1, fun e he => (h.2 e he).trans hle⟩

theorem timed_nil (now : Instant) : Timed [] now := ⟨List.Pairwise.nil, fun _ he => nomatch he⟩

/-- Among ordered deeds, the newest of a kind is the only one that has to be looked at. -/
theorem exists_recent_iff {log : Log} (h : log.Pairwise fun e f => f.1 ≤ e.1) (deed : Deed)
    (age : Duration) (now : Instant) :
    (∃ e ∈ log, e.2 = deed ∧ now - e.1 ≤ age) ↔
      ((log.find? (·.2 = deed)).map (·.1)).any (fun last => now - last ≤ age) = true := by
  induction log with
  | nil => simp
  | cons e log ih =>
    obtain ⟨hfirst, hrest⟩ := List.pairwise_cons.mp h
    rw [List.find?_cons]
    by_cases he : e.2 = deed
    · simp only [he, decide_true, Option.map_some, Option.any_some, decide_eq_true_eq]
      constructor
      · rintro ⟨f, hf, -, hage⟩
        rcases List.mem_cons.mp hf with rfl | hf
        · exact hage
        · exact (Nat.sub_le_sub_left (hfirst f hf) now).trans hage
      · exact fun hage => ⟨e, List.mem_cons_self, he, hage⟩
    · simp only [he, decide_false]
      rw [← ih hrest]
      constructor
      · rintro ⟨f, hf, hd, hage⟩
        rcases List.mem_cons.mp hf with rfl | hf
        · exact absurd hd he
        · exact ⟨f, hf, hd, hage⟩
      · rintro ⟨f, hf, hrecent⟩
        exact ⟨f, List.mem_cons_of_mem _ hf, hrecent⟩

theorem Timed.recent_iff {log : Log} {now : Instant} (h : log.Timed now) (deed : Deed)
    (age : Duration) :
    (∃ e ∈ log.sinceRelease, e.2 = deed ∧ now - e.1 ≤ age) ↔
      (log.latest deed).any (fun last => now - last ≤ age) = true :=
  exists_recent_iff (h.1.sublist (List.takeWhile_sublist _)) deed age now

end Log

namespace TypingHoldSession

/-- The key whose window counts: the last one, unless a release has suppressed it. -/
def liveKey (s : TypingHoldSession) : Option Instant :=
  if s.suppressedGeneration = some s.releaseGeneration then none else s.lastQualifyingKey

theorem naturalWindowActive_eq (s : TypingHoldSession) (window : Duration) (now : Instant) :
    s.naturalWindowActive window now = s.liveKey.any fun last => now - last ≤ window := by
  unfold naturalWindowActive liveKey
  split_ifs <;> rfl

/-- Neither a window nor a manual close is open. -/
def Released (s : TypingHoldSession) : Prop := s.manualClosedAt = none ∧ s.liveKey = none

theorem Released.open {s : TypingHoldSession} (h : s.Released) (window : Duration)
    (now : Instant) : s.effectiveClosed window now = false := by
  rw [effectiveClosed, naturalWindowActive_eq, manualWindowActive, h.1, h.2]
  rfl

theorem toggleManual_of_closed {s : TypingHoldSession} {window : Duration} {now : Instant}
    (h : s.effectiveClosed window now = true) : (s.toggleManual window now).Released := by
  rw [toggleManual, if_pos h]
  exact ⟨rfl, if_pos rfl⟩

/-- A click flips the padlock. -/
theorem effectiveClosed_toggleManual (s : TypingHoldSession) (window : Duration) (now : Instant) :
    (s.toggleManual window now).effectiveClosed window now = !s.effectiveClosed window now := by
  cases h : s.effectiveClosed window now with
  | true => exact (toggleManual_of_closed h).open window now
  | false =>
    rw [toggleManual, if_neg (h ▸ Bool.false_ne_true)]
    simp [effectiveClosed, manualWindowActive]

theorem effectiveClosed_noteQualifyingKey (s : TypingHoldSession) (window : Duration)
    (now : Instant) : (s.noteQualifyingKey now).effectiveClosed window now = true := by
  simp [effectiveClosed, naturalWindowActive, noteQualifyingKey]

/-- The fields of a session say what its log says. -/
structure Follows (s : TypingHoldSession) (log : Log) (now : Instant) : Prop where
  timed : log.Timed now
  key : s.liveKey = log.latest .key
  close : s.manualClosedAt = log.latest .close
  held : ∀ messageId, messageId ∈ s.heldMessageIds ↔ log.Outstanding messageId

theorem Follows.closed_iff {s : TypingHoldSession} {log : Log} {now : Instant}
    (h : s.Follows log now) (window : Duration) :
    s.effectiveClosed window now = true ↔ log.Shut window now := by
  rw [effectiveClosed, Bool.or_eq_true, manualWindowActive, naturalWindowActive_eq, h.key, h.close,
    Log.Shut, h.timed.recent_iff, h.timed.recent_iff, or_comm]

theorem follows_nil (now : Instant) : Follows {} [] now :=
  ⟨Log.timed_nil now, rfl, rfl, fun messageId => by simp [Log.Outstanding]⟩

theorem Follows.later {s : TypingHoldSession} {log : Log} {now later : Instant}
    (h : s.Follows log now) (hle : now ≤ later) : s.Follows log later :=
  { h with timed := h.timed.mono hle }

theorem Follows.noteQualifyingKey {s : TypingHoldSession} {log : Log} {now : Instant}
    (h : s.Follows log now) : (s.noteQualifyingKey now).Follows ((now, .key) :: log) now where
  timed := h.timed.cons .key
  key := by simp [liveKey, TypingHoldSession.noteQualifyingKey, Log.latest_cons]
  close := h.close.trans (by simp [Log.latest_cons])
  held messageId := (h.held messageId).trans (by simp [Log.Outstanding])

theorem Follows.toggleManual {s : TypingHoldSession} {log : Log} {now : Instant}
    (h : s.Follows log now) (window : Duration) :
    (s.toggleManual window now).Follows
      ((now, if s.effectiveClosed window now then .release else .close) :: log) now := by
  cases hc : s.effectiveClosed window now with
  | true =>
    have hreleased := toggleManual_of_closed hc
    rw [if_pos rfl]
    refine ⟨h.timed.cons _, hreleased.2, hreleased.1, fun messageId => ?_⟩
    rw [TypingHoldSession.toggleManual, if_pos hc]
    exact (h.held messageId).trans (by simp [Log.Outstanding])
  | false =>
    rw [if_neg Bool.false_ne_true, TypingHoldSession.toggleManual, hc,
      if_neg Bool.false_ne_true]
    refine ⟨h.timed.cons _, h.key.trans ?_, ?_, fun messageId => ?_⟩
    · simp [Log.latest_cons]
    · simp [Log.latest_cons]
    · exact (h.held messageId).trans (by simp [Log.Outstanding])

theorem Follows.recordHeldMessage {s : TypingHoldSession} {log : Log} {now : Instant}
    (h : s.Follows log now) (messageId : String) :
    Follows { s with heldMessageIds := insert messageId s.heldMessageIds }
      ((now, .record messageId) :: log) now where
  timed := h.timed.cons _
  key := h.key.trans (by simp [Log.latest_cons])
  close := h.close.trans (by simp [Log.latest_cons])
  held other := by
    by_cases ho : messageId = other
    · simp [Log.Outstanding, ho]
    · simp [Log.Outstanding, ho, Ne.symm ho, h.held]

theorem Follows.clearHeldMessage {s : TypingHoldSession} {log : Log} {now : Instant}
    (h : s.Follows log now) (messageId : String) :
    Follows { s with heldMessageIds := s.heldMessageIds.erase messageId }
      ((now, .clear messageId) :: log) now where
  timed := h.timed.cons _
  key := h.key.trans (by simp [Log.latest_cons])
  close := h.close.trans (by simp [Log.latest_cons])
  held other := by
    by_cases ho : messageId = other
    · simp [Log.Outstanding, ho]
    · simp [Log.Outstanding, ho, Ne.symm ho, h.held]

end TypingHoldSession

namespace HoldDesk

/-- What an event does to the hold of a session. -/
def deed (s : HoldDesk) (id : Uuid) : HoldEvent → Option Deed
  | .noteQualifyingKey j => if id = j then some .key else none
  | .toggleManual j => if id = j then some (if s.closed id then .release else .close) else none
  | .recordHeldMessage j messageId => if id = j then some (.record messageId) else none
  | .clearHeldMessage j messageId => if id = j then some (.clear messageId) else none
  | _ => none

/-- The log of every session. -/
def chronicle (logs : Uuid → Log) (s : HoldDesk) (e : HoldEvent) (id : Uuid) : Log :=
  if e = .reset id then []
  else match s.deed id e with
    | some d => (s.now, d) :: logs id
    | none => logs id

/-- The desk with the logs of its sessions kept beside it. -/
def chronicled : Machine (HoldDesk × (Uuid → Log)) HoldEvent (Option TypingHoldSnapshot) :=
  desk.trace fun logs s e _ => chronicle logs s e

theorem closed_eq (s : HoldDesk) (id : Uuid) :
    s.closed id = (s.tracker.entry id).effectiveClosed s.window s.now := by
  unfold closed snapshot
  rw [TypingHoldTracker.snapshot_eq]
  rfl

theorem heldCount_eq (s : HoldDesk) (id : Uuid) :
    (s.snapshot id).heldCount = heldCount (s.tracker.entry id).heldMessageIds := by
  unfold snapshot
  rw [TypingHoldTracker.snapshot_eq]
  rfl

theorem chronicle_of_ne {logs : Uuid → Log} {s : HoldDesk} {e : HoldEvent} {id : Uuid}
    (hreset : e ≠ .reset id) (hdeed : s.deed id e = none) : chronicle logs s e id = logs id := by
  rw [chronicle, if_neg hreset, hdeed]

theorem chronicle_of_deed {logs : Uuid → Log} {s : HoldDesk} {e : HoldEvent} {id : Uuid} {d : Deed}
    (hreset : e ≠ .reset id) (hdeed : s.deed id e = some d) :
    chronicle logs s e id = (s.now, d) :: logs id := by
  rw [chronicle, if_neg hreset, hdeed]

/-- The fields of every session say what its log says. -/
def Follows (s : HoldDesk) (logs : Uuid → Log) : Prop :=
  ∀ id, (s.tracker.entry id).Follows (logs id) s.now

theorem follows_new (window : Duration) : (new window).Follows fun _ => [] :=
  fun _ => TypingHoldSession.follows_nil 0

theorem Follows.put {s : HoldDesk} {logs : Uuid → Log} (h : s.Follows logs) {e : HoldEvent}
    {j : Uuid} {session : TypingHoldSession} {d : Deed}
    (hnext : desk.next s e = { s with tracker := s.tracker.put j session })
    (hreset : ∀ id, e ≠ .reset id) (hdeed : s.deed j e = some d)
    (hother : ∀ id, id ≠ j → s.deed id e = none)
    (hsession : session.Follows ((s.now, d) :: logs j) s.now) :
    (desk.next s e).Follows (chronicle logs s e) := by
  intro id
  rw [hnext]
  show ((s.tracker.put j session).entry id).Follows _ s.now
  rw [TypingHoldTracker.entry_put]
  split_ifs with hid
  · rw [hid, chronicle_of_deed (hreset j) hdeed]
    exact hsession
  · rw [chronicle_of_ne (hreset id) (hother id hid)]
    exact h id

theorem Follows.next {s : HoldDesk} {logs : Uuid → Log} (h : s.Follows logs) (e : HoldEvent) :
    (desk.next s e).Follows (chronicle logs s e) := by
  cases e with
  | noteQualifyingKey j =>
    exact h.put rfl (fun _ => nofun) (if_pos rfl) (fun id hid => if_neg hid)
      (h j).noteQualifyingKey
  | toggleManual j =>
    refine h.put rfl (fun _ => nofun) (if_pos rfl) (fun id hid => if_neg hid) ?_
    rw [closed_eq]
    exact (h j).toggleManual s.window
  | recordHeldMessage j messageId =>
    exact h.put rfl (fun _ => nofun) (if_pos rfl) (fun id hid => if_neg hid)
      ((h j).recordHeldMessage messageId)
  | clearHeldMessage j messageId =>
    intro id
    show ((s.tracker.clearHeldMessage j messageId).entry id).Follows _ s.now
    rw [TypingHoldTracker.entry_clearHeldMessage]
    split_ifs with hid
    · rw [hid, chronicle_of_deed (e := .clearHeldMessage j messageId) nofun (if_pos rfl)]
      exact (h j).clearHeldMessage messageId
    · rw [chronicle_of_ne (e := .clearHeldMessage j messageId) nofun (if_neg hid)]
      exact h id
  | reset j =>
    intro id
    show ((s.tracker.reset j).entry id).Follows _ s.now
    rw [TypingHoldTracker.entry_reset]
    split_ifs with hid
    · rw [hid, chronicle, if_pos rfl]
      exact TypingHoldSession.follows_nil s.now
    · rw [chronicle_of_ne (fun he => hid (HoldEvent.reset.inj he).symm) rfl]
      exact h id
  | advance elapsed => exact fun id => (h id).later (Nat.le_add_right _ _)
  | setWindow window => exact h

theorem follows_run (window : Duration) (events : List HoldEvent) :
    (chronicled.run (new window, fun _ => []) events).1.Follows
      (chronicled.run (new window, fun _ => []) events).2 :=
  Machine.run_inv_free (M := chronicled) (P := fun s => s.1.Follows s.2) (fun _ e h => h.next e)
    (follows_new window) events

/-- A key or a click on the padlock of the session. -/
def Touches (id : Uuid) (e : HoldEvent) : Prop := e = .noteQualifyingKey id ∨ e = .toggleManual id

theorem released_next {s : HoldDesk} {id : Uuid} {e : HoldEvent}
    (h : (s.tracker.entry id).Released) (he : ¬ Touches id e) :
    ((desk.next s e).tracker.entry id).Released := by
  cases e with
  | noteQualifyingKey j =>
    have hid : id ≠ j := fun hid => he (hid ▸ .inl rfl)
    show ((s.tracker.put j _).entry id).Released
    rwa [TypingHoldTracker.entry_put, if_neg hid]
  | toggleManual j =>
    have hid : id ≠ j := fun hid => he (hid ▸ .inr rfl)
    show ((s.tracker.put j _).entry id).Released
    rwa [TypingHoldTracker.entry_put, if_neg hid]
  | recordHeldMessage j messageId =>
    show ((s.tracker.put j _).entry id).Released
    rw [TypingHoldTracker.entry_put]
    split_ifs with hid
    · exact hid ▸ h
    · exact h
  | clearHeldMessage j messageId =>
    show ((s.tracker.clearHeldMessage j messageId).entry id).Released
    rw [TypingHoldTracker.entry_clearHeldMessage]
    split_ifs with hid
    · exact hid ▸ h
    · exact h
  | reset j =>
    show ((s.tracker.reset j).entry id).Released
    rw [TypingHoldTracker.entry_reset]
    split_ifs with hid
    · exact ⟨rfl, rfl⟩
    · exact h
  | advance elapsed => exact h
  | setWindow window => exact h

theorem released_run {s : HoldDesk} {id : Uuid} {events : List HoldEvent}
    (h : (s.tracker.entry id).Released) (he : ∀ e ∈ events, ¬ Touches id e) :
    ((desk.run s events).tracker.entry id).Released := by
  have halong : desk.Along (fun _ e => ¬ Touches id e) s events :=
    Machine.along_of_forall (fun e hm _ => he e hm) s
  exact Machine.run_inv (P := fun s => (s.tracker.entry id).Released)
    (fun _ _ h he => released_next h he) h halong

theorem entry_toggleManual (s : HoldDesk) (id : Uuid) :
    (desk.next s (.toggleManual id)).tracker.entry id =
      (s.tracker.entry id).toggleManual s.window s.now := by
  show ((s.tracker.put id _).entry id) = _
  rw [TypingHoldTracker.entry_put, if_pos rfl]

theorem closed_toggleManual (s : HoldDesk) (id : Uuid) :
    (desk.next s (.toggleManual id)).closed id = !s.closed id := by
  rw [closed_eq, closed_eq, entry_toggleManual]
  exact (s.tracker.entry id).effectiveClosed_toggleManual s.window s.now

theorem closed_noteQualifyingKey (s : HoldDesk) (id : Uuid) :
    (desk.next s (.noteQualifyingKey id)).closed id = true := by
  rw [closed_eq]
  show ((s.tracker.put id _).entry id).effectiveClosed s.window s.now = true
  rw [TypingHoldTracker.entry_put, if_pos rfl]
  exact (s.tracker.entry id).effectiveClosed_noteQualifyingKey s.window s.now

/-- In every run the padlock is shut for what was done since the last release, a click flips it, a
release holds until the next key or click and no longer, and the count is that of the messages
recorded and not cleared. -/
theorem hold_run (window : Duration) (events : List HoldEvent) (id : Uuid) :
    let s := chronicled.run (new window, fun _ => []) events
    (s.1.closed id = true ↔ (s.2 id).Shut s.1.window s.1.now) ∧
    (desk.next s.1 (.toggleManual id)).closed id = !s.1.closed id ∧
    (s.1.closed id = true → ∀ later, (∀ e ∈ later, ¬ Touches id e) →
      let t := desk.run (desk.next s.1 (.toggleManual id)) later
      t.closed id = false ∧ (desk.next t (.noteQualifyingKey id)).closed id = true) ∧
    ∃ held : Finset String, (∀ messageId, messageId ∈ held ↔ (s.2 id).Outstanding messageId) ∧
      (s.1.snapshot id).heldCount = min held.card countMax := by
  intro s
  have hfollows := follows_run window events id
  refine ⟨?_, closed_toggleManual s.1 id, fun hclosed later hlater => ?_, ?_⟩
  · rw [closed_eq]
    exact hfollows.closed_iff _
  · have hnow : ((desk.next s.1 (.toggleManual id)).tracker.entry id).Released := by
      rw [entry_toggleManual]
      exact TypingHoldSession.toggleManual_of_closed (closed_eq s.1 id ▸ hclosed)
    have hreleased := released_run hnow hlater
    refine ⟨?_, closed_noteQualifyingKey _ id⟩
    rw [closed_eq]
    exact hreleased.open _ _
  · exact ⟨_, hfollows.held, heldCount_eq s.1 id⟩

/-- A key, a release in its window, and a wait within it. -/
theorem hold_run_release : (desk.run (desk.next (chronicled.run (new 5, fun _ => [])
    [.noteQualifyingKey 1, .advance 2]).1 (.toggleManual 1)) [.advance 1]).closed 1 = false :=
  ((hold_run 5 [.noteQualifyingKey 1, .advance 2] 1).2.2.1 (by decide) [.advance 1]
    (by simp [Touches])).1

/-- The sessions with a message recorded and not cleared. -/
def heldSessions (s : HoldDesk) : Finset Uuid :=
  (s.tracker.sessions.keys.filter fun id => (s.tracker.entry id).heldMessageIds ≠ ∅).toFinset

/-- The count is of messages: two of them held for one session. -/
theorem heldCount_ne_sessions : ¬ ∀ window events id,
    ((desk.run (new window) events).snapshot id).heldCount =
      (desk.run (new window) events).heldSessions.card := fun h =>
  absurd (h 0 [.recordHeldMessage 1 "a", .recordHeldMessage 1 "b"] 1) (by decide)

end HoldDesk
end AgentsCommander.Typing
