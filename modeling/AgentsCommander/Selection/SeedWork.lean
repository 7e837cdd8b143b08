import AgentsCommander.Foundation.Assoc
import AgentsCommander.Foundation.Machine
import Mathlib.Tactic.Common

/-! The tracker of blocking seed work, its workers and those who wait for it to come to rest: what
one step does to an id, and what it leaves alone. -/
namespace AgentsCommander.Selection
open Foundation

inductive BlockingSeedWorkState where
  | queued (abort : Option ℕ)
  | started
  deriving DecidableEq, Repr

namespace BlockingSeedWorkState

def isQueued : BlockingSeedWorkState → Bool
  | .queued _ => true
  | .started => false

def abort : BlockingSeedWorkState → Option ℕ
  | .queued abort => abort
  | .started => none

end BlockingSeedWorkState

structure BlockingSeedTrackerState where
  accepting : Bool
  nextId : ℕ
  work : AList fun _ : ℕ => BlockingSeedWorkState

def u64Max : ℕ := 2 ^ 64 - 1

namespace BlockingSeedTrackerState
variable (state : BlockingSeedTrackerState)

def new : BlockingSeedTrackerState := ⟨true, 1, ∅⟩

def isEmpty : Bool := state.work.keys.isEmpty

/-- `running`: the phase that was loaded is `Running`. -/
def register (running : Bool) : BlockingSeedTrackerState × Option ℕ :=
  if !state.accepting || !running then (state, none)
  else if state.nextId = u64Max then ({ state with accepting := false }, none)
  else
    ({ state with
        nextId := state.nextId + 1
        work := state.work.insert state.nextId (.queued none) },
      some state.nextId)

/-- The handle is aborted at once if the id has left. -/
def attachAbort (id abort : ℕ) : BlockingSeedTrackerState × Bool :=
  match state.work.lookup id with
  | some (.queued _) =>
    ({ state with work := Assoc.adjust state.work id fun _ => .queued (some abort) }, false)
  | some .started => (state, false)
  | none => (state, true)

def begin (id : ℕ) : BlockingSeedTrackerState × Bool :=
  match state.work.lookup id with
  | some (.queued _) => ({ state with work := Assoc.adjust state.work id fun _ => .started }, true)
  | some .started | none => (state, false)

def cancelWaiter (id : ℕ) : BlockingSeedTrackerState × Option ℕ :=
  match state.work.lookup id with
  | some (.queued abort) => ({ state with work := state.work.erase id }, abort)
  | some .started | none => (state, none)

def completeStarted (id : ℕ) : BlockingSeedTrackerState :=
  { state with work := state.work.erase id }

def queuedIds : List ℕ :=
  (state.work.keys.mergeSort).filter fun id => (state.work.lookup id).any (·.isQueued)

def sealTracker : BlockingSeedTrackerState × List ℕ :=
  ({ state with
      accepting := false
      work := Assoc.keep state.work fun _ work => !work.isQueued },
    state.queuedIds.filterMap fun id => (state.work.lookup id).bind (·.abort))

end BlockingSeedTrackerState

/-- Where a call of `wait_quiescent_until` stands. -/
inductive WaitPhase where
  /-- At the top of the loop, or not called yet. -/
  | looping
  /-- The future was made when that many notifications had been sent. -/
  | notified (since : ℕ)
  /-- The map was not empty: asleep until a notification or the deadline. -/
  | parked (since : ℕ)
  | expired
  | returned (quiescent : Bool)
  deriving DecidableEq, Repr

structure SeedWorld where
  state : BlockingSeedTrackerState
  /-- The completion guards of the workers that began. -/
  guards : List ℕ
  notifications : ℕ
  /-- Sections that found the map empty and have yet to notify. -/
  owed : ℕ
  waiters : ℕ → WaitPhase

inductive SeedEvent where
  | register (running : Bool)
  | attachAbort (id abort : ℕ)
  | begin (id : ℕ)
  /-- The await guard is dropped while armed. -/
  | cancelWaiter (id : ℕ)
  /-- A completion guard is dropped. -/
  | completeStarted (id : ℕ)
  | sealTracker
  | notifyWaiters
  | makeNotified (waiter : ℕ)
  | check (waiter : ℕ)
  | wake (waiter : ℕ)
  | expire (waiter : ℕ)
  | lastCheck (waiter : ℕ)
  /-- The wait is dropped. -/
  | dropWait (waiter : ℕ)
  deriving DecidableEq, Repr

inductive SeedAnswer where
  | done
  | unavailable
  | registered (id : ℕ)
  | attached
  | aborted (abort : ℕ)
  | began (granted : Bool)
  | canceled (abort : Option ℕ)
  | sealed (aborts : List ℕ)
  | quiescent (answer : Bool)
  deriving DecidableEq, Repr

namespace SeedWorld
variable (w : SeedWorld)

def new : SeedWorld := ⟨.new, [], 0, 0, fun _ => .looping⟩

/-- The section ends, and owes a notification if it leaves the map empty. -/
def settle (state : BlockingSeedTrackerState) : SeedWorld :=
  { w with state, owed := w.owed + state.isEmpty.toNat }

def setWaiter (waiter : ℕ) (phase : WaitPhase) : SeedWorld :=
  { w with waiters := Function.update w.waiters waiter phase }

def register (running : Bool) : SeedWorld × SeedAnswer :=
  let (state, id) := w.state.register running
  ({ w with state }, id.elim .unavailable .registered)

def attachAbort (id abort : ℕ) : SeedWorld × SeedAnswer :=
  let (state, abortNow) := w.state.attachAbort id abort
  ({ w with state }, if abortNow then .aborted abort else .attached)

def begin (id : ℕ) : SeedWorld × SeedAnswer :=
  let (state, granted) := w.state.begin id
  ({ w with state, guards := if granted then id :: w.guards else w.guards }, .began granted)

def completeStarted (id : ℕ) : SeedWorld :=
  if id ∈ w.guards then
    { w with guards := w.guards.erase id }.settle (w.state.completeStarted id)
  else w

def check (waiter : ℕ) : SeedWorld × SeedAnswer :=
  match w.waiters waiter with
  | .notified since =>
    if w.state.isEmpty then (w.setWaiter waiter (.returned true), .quiescent true)
    else (w.setWaiter waiter (.parked since), .done)
  | _ => (w, .done)

def lastCheck (waiter : ℕ) : SeedWorld × SeedAnswer :=
  match w.waiters waiter with
  | .expired => (w.setWaiter waiter (.returned w.state.isEmpty), .quiescent w.state.isEmpty)
  | _ => (w, .done)

def wake (waiter : ℕ) : SeedWorld :=
  match w.waiters waiter with
  | .parked since => if since < w.notifications then w.setWaiter waiter .looping else w
  | _ => w

def expire (waiter : ℕ) : SeedWorld :=
  match w.waiters waiter with
  | .parked _ => w.setWaiter waiter .expired
  | _ => w

def makeNotified (waiter : ℕ) : SeedWorld :=
  match w.waiters waiter with
  | .looping => w.setWaiter waiter (.notified w.notifications)
  | _ => w

def notifyWaiters : SeedWorld :=
  if w.owed = 0 then w else { w with notifications := w.notifications + 1, owed := w.owed - 1 }

def step : SeedEvent → SeedWorld × SeedAnswer
  | .register running => w.register running
  | .attachAbort id abort => w.attachAbort id abort
  | .begin id => w.begin id
  | .cancelWaiter id =>
    (w.settle (w.state.cancelWaiter id).1, .canceled (w.state.cancelWaiter id).2)
  | .completeStarted id => (w.completeStarted id, .done)
  | .sealTracker => (w.settle w.state.sealTracker.1, .sealed w.state.sealTracker.2)
  | .notifyWaiters => (w.notifyWaiters, .done)
  | .makeNotified waiter => (w.makeNotified waiter, .done)
  | .check waiter => w.check waiter
  | .wake waiter => (w.wake waiter, .done)
  | .expire waiter => (w.expire waiter, .done)
  | .lastCheck waiter => w.lastCheck waiter
  | .dropWait waiter => (w.setWaiter waiter .looping, .done)

end SeedWorld

def seedTracker : Machine SeedWorld SeedEvent SeedAnswer := ⟨SeedWorld.step⟩

namespace BlockingSeedTrackerState
variable (state : BlockingSeedTrackerState)

variable {state} in
theorem isEmpty_iff : state.isEmpty = true ↔ ∀ id, state.work.lookup id = none := by
  rw [isEmpty, List.isEmpty_iff]
  constructor
  · intro h id
    rw [AList.lookup_eq_none, AList.mem_keys, h]
    exact List.not_mem_nil
  · intro h
    rw [List.eq_nil_iff_forall_not_mem]
    exact fun id hid => AList.lookup_eq_none.mp (h id) (AList.mem_keys.mpr hid)

theorem frame_attachAbort (id abort : ℕ) :
    (state.attachAbort id abort).1.nextId = state.nextId ∧
      (state.attachAbort id abort).1.accepting = state.accepting := by
  unfold attachAbort
  split <;> exact ⟨rfl, rfl⟩

theorem frame_begin (id : ℕ) : (state.begin id).1.nextId = state.nextId ∧
    (state.begin id).1.accepting = state.accepting := by
  unfold begin
  split <;> exact ⟨rfl, rfl⟩

theorem frame_cancelWaiter (id : ℕ) : (state.cancelWaiter id).1.nextId = state.nextId ∧
    (state.cancelWaiter id).1.accepting = state.accepting := by
  unfold cancelWaiter
  split <;> exact ⟨rfl, rfl⟩

end BlockingSeedTrackerState

/-- The events that change nothing in the map. -/
def SeedEvent.outside : SeedEvent → Bool
  | .notifyWaiters | .makeNotified _ | .check _ | .wake _ | .expire _ | .lastCheck _
  | .dropWait _ => true
  | _ => false

/-- What a step does under one id. -/
inductive Passage (w : SeedWorld) (e : SeedEvent) (id : ℕ) :
    Option BlockingSeedWorkState → Option BlockingSeedWorkState → Prop
  | kept (work : Option BlockingSeedWorkState) : Passage w e id work work
  | registered (running : Bool) (h : e = .register running) (hid : id = w.state.nextId)
      (ha : seedTracker.answer w e = .registered id) (before : Option BlockingSeedWorkState) :
      Passage w e id before (some (.queued none))
  | attached (abort : ℕ) (h : e = .attachAbort id abort) (before : Option ℕ) :
      Passage w e id (some (.queued before)) (some (.queued (some abort)))
  | began (h : e = .begin id) (ha : seedTracker.answer w e = .began true) (abort : Option ℕ) :
      Passage w e id (some (.queued abort)) (some .started)
  | canceled (h : e = .cancelWaiter id) (abort : Option ℕ) :
      Passage w e id (some (.queued abort)) none
  | completed (h : e = .completeStarted id) (hg : id ∈ w.guards)
      (work : Option BlockingSeedWorkState) : Passage w e id work none
  | sealed (h : e = .sealTracker) (abort : Option ℕ) : Passage w e id (some (.queued abort)) none

namespace SeedWorld
variable {w : SeedWorld}

theorem passage_register (running : Bool) (id : ℕ) : Passage w (.register running) id
    (w.state.work.lookup id) ((w.register running).1.state.work.lookup id) := by
  by_cases hr : (!w.state.accepting || !running) = true
  · rw [register, BlockingSeedTrackerState.register, if_pos hr]
    exact .kept _
  · by_cases hx : w.state.nextId = u64Max
    · rw [register, BlockingSeedTrackerState.register, if_neg hr, if_pos hx]
      exact .kept _
    · have hstep : w.register running =
          ({ w with state := { w.state with
              nextId := w.state.nextId + 1
              work := w.state.work.insert w.state.nextId (.queued none) } },
            .registered w.state.nextId) := by
        rw [register, BlockingSeedTrackerState.register, if_neg hr, if_neg hx]
        rfl
      have ha : seedTracker.answer w (.register running) = .registered w.state.nextId :=
        congrArg Prod.snd hstep
      rw [hstep]
      dsimp only
      rw [Assoc.lookup_insert_eq]
      split_ifs with hid
      · exact .registered running rfl hid (hid ▸ ha) _
      · exact .kept _

theorem passage_attachAbort (id' abort id : ℕ) : Passage w (.attachAbort id' abort) id
    (w.state.work.lookup id) ((w.state.attachAbort id' abort).1.work.lookup id) := by
  unfold BlockingSeedTrackerState.attachAbort
  split
  · rename_i before h
    dsimp only
    rw [Assoc.lookup_adjust]
    split_ifs with hid
    · rw [hid, h]
      exact .attached abort rfl before
    · exact .kept _
  · exact .kept _
  · exact .kept _

theorem passage_begin (id' id : ℕ) : Passage w (.begin id') id
    (w.state.work.lookup id) ((w.begin id').1.state.work.lookup id) := by
  cases h : w.state.work.lookup id' with
  | none =>
    rw [begin, BlockingSeedTrackerState.begin, h]
    exact .kept _
  | some work =>
    cases work with
    | started =>
      rw [begin, BlockingSeedTrackerState.begin, h]
      exact .kept _
    | queued abort =>
      have ha : seedTracker.answer w (.begin id') = .began true := by
        show (w.begin id').2 = _
        rw [begin, BlockingSeedTrackerState.begin, h]
      rw [begin, BlockingSeedTrackerState.begin, h]
      dsimp only
      rw [Assoc.lookup_adjust]
      split_ifs with hid
      · rw [hid, h]
        exact .began rfl ha abort
      · exact .kept _

theorem passage_cancelWaiter (id' id : ℕ) : Passage w (.cancelWaiter id') id
    (w.state.work.lookup id) ((w.state.cancelWaiter id').1.work.lookup id) := by
  unfold BlockingSeedTrackerState.cancelWaiter
  split
  · rename_i abort h
    dsimp only
    rw [Assoc.lookup_erase_eq]
    split_ifs with hid
    · rw [hid, h]
      exact .canceled rfl abort
    · exact .kept _
  · exact .kept _
  · exact .kept _

theorem passage_completeStarted (id' id : ℕ) : Passage w (.completeStarted id') id
    (w.state.work.lookup id) ((w.completeStarted id').state.work.lookup id) := by
  unfold completeStarted
  split_ifs with hg
  · show Passage w _ id _ ((w.state.work.erase id').lookup id)
    rw [Assoc.lookup_erase_eq]
    split_ifs with hid
    · exact .completed (hid ▸ rfl) (hid ▸ hg) _
    · exact .kept _
  · exact .kept _

theorem passage_sealTracker (id : ℕ) : Passage w .sealTracker id
    (w.state.work.lookup id) (w.state.sealTracker.1.work.lookup id) := by
  show Passage w _ id _ ((Assoc.keep w.state.work _).lookup id)
  rw [Assoc.lookup_keep]
  cases w.state.work.lookup id with
  | none => exact .kept _
  | some work =>
    cases work with
    | queued abort => exact .sealed rfl abort
    | started => exact .kept _

/-- A waiter moves and nothing else does. -/
theorem waits_makeNotified (w : SeedWorld) (waiter : ℕ) :
    ∃ waiters, w.makeNotified waiter = { w with waiters } := by
  unfold makeNotified
  split <;> exact ⟨_, rfl⟩

theorem waits_check (w : SeedWorld) (waiter : ℕ) :
    ∃ waiters, (w.check waiter).1 = { w with waiters } := by
  unfold check
  split
  · split_ifs <;> exact ⟨_, rfl⟩
  · exact ⟨_, rfl⟩

theorem waits_wake (w : SeedWorld) (waiter : ℕ) :
    ∃ waiters, w.wake waiter = { w with waiters } := by
  unfold wake
  split
  · split_ifs <;> exact ⟨_, rfl⟩
  · exact ⟨_, rfl⟩

theorem waits_expire (w : SeedWorld) (waiter : ℕ) :
    ∃ waiters, w.expire waiter = { w with waiters } := by
  unfold expire
  split <;> exact ⟨_, rfl⟩

theorem waits_lastCheck (w : SeedWorld) (waiter : ℕ) :
    ∃ waiters, (w.lastCheck waiter).1 = { w with waiters } := by
  unfold lastCheck
  split <;> exact ⟨_, rfl⟩

theorem notifies_notifyWaiters (w : SeedWorld) :
    ∃ notifications owed, w.notifyWaiters = { w with notifications, owed } := by
  unfold notifyWaiters
  split_ifs <;> exact ⟨_, _, rfl⟩

theorem frame_of_outside (w : SeedWorld) (e : SeedEvent) (h : e.outside = true) :
    (seedTracker.next w e).state = w.state ∧ (seedTracker.next w e).guards = w.guards ∧
      ∀ id, seedTracker.answer w e ≠ .registered id := by
  have hwaits : ∀ w' : SeedWorld, (∃ waiters, w' = { w with waiters }) →
      w'.state = w.state ∧ w'.guards = w.guards := by
    rintro _ ⟨_, rfl⟩
    exact ⟨rfl, rfl⟩
  cases e with
  | notifyWaiters =>
    obtain ⟨_, _, hn⟩ := w.notifies_notifyWaiters
    have hnext : seedTracker.next w .notifyWaiters = _ := hn
    rw [hnext]
    exact ⟨rfl, rfl, nofun⟩
  | makeNotified waiter =>
    exact ⟨(hwaits _ (w.waits_makeNotified waiter)).1, (hwaits _ (w.waits_makeNotified waiter)).2, nofun⟩
  | check waiter =>
    refine ⟨(hwaits _ (w.waits_check waiter)).1, (hwaits _ (w.waits_check waiter)).2, ?_⟩
    show ∀ id, (w.check waiter).2 ≠ _
    unfold check
    split
    · split_ifs <;> exact nofun
    · exact nofun
  | wake waiter =>
    exact ⟨(hwaits _ (w.waits_wake waiter)).1, (hwaits _ (w.waits_wake waiter)).2, nofun⟩
  | expire waiter =>
    exact ⟨(hwaits _ (w.waits_expire waiter)).1, (hwaits _ (w.waits_expire waiter)).2, nofun⟩
  | lastCheck waiter =>
    refine ⟨(hwaits _ (w.waits_lastCheck waiter)).1, (hwaits _ (w.waits_lastCheck waiter)).2, ?_⟩
    show ∀ id, (w.lastCheck waiter).2 ≠ _
    unfold lastCheck
    split <;> exact nofun
  | dropWait waiter => exact ⟨rfl, rfl, nofun⟩
  | _ => cases h

theorem passage_of_state {w' : SeedWorld} (h : w'.state = w.state) (e : SeedEvent) (id : ℕ) :
    Passage w e id (w.state.work.lookup id) (w'.state.work.lookup id) := by
  rw [h]
  exact .kept _

theorem passage_step (w : SeedWorld) (e : SeedEvent) (id : ℕ) :
    Passage w e id (w.state.work.lookup id) ((seedTracker.next w e).state.work.lookup id) := by
  by_cases ho : e.outside = true
  · exact passage_of_state (w.frame_of_outside e ho).1 e id
  cases e with
  | register running => exact passage_register running id
  | attachAbort id' abort => exact passage_attachAbort id' abort id
  | begin id' => exact passage_begin id' id
  | cancelWaiter id' => exact passage_cancelWaiter id' id
  | completeStarted id' => exact passage_completeStarted id' id
  | sealTracker => exact passage_sealTracker id
  | _ => exact absurd rfl ho

/-- The ids only grow, and one by one as they are given out. -/
theorem nextId_step (w : SeedWorld) (e : SeedEvent) :
    (seedTracker.next w e).state.nextId = w.state.nextId ∧
      (∀ id, seedTracker.answer w e ≠ .registered id) ∨
    (seedTracker.next w e).state.nextId = w.state.nextId + 1 ∧
      seedTracker.answer w e = .registered w.state.nextId ∧ w.state.accepting = true := by
  by_cases ho : e.outside = true
  · obtain ⟨hstate, -, ha⟩ := w.frame_of_outside e ho
    exact Or.inl ⟨congrArg _ hstate, ha⟩
  cases e with
  | register running =>
    change (w.register running).1.state.nextId = _ ∧ (∀ id, (w.register running).2 ≠ _) ∨
      (w.register running).1.state.nextId = _ ∧ (w.register running).2 = _ ∧ _
    unfold register BlockingSeedTrackerState.register
    split_ifs with hr hx
    · exact Or.inl ⟨rfl, nofun⟩
    · exact Or.inl ⟨rfl, nofun⟩
    · refine Or.inr ⟨rfl, rfl, ?_⟩
      cases ha : w.state.accepting with
      | true => rfl
      | false => exact absurd (by rw [ha]; rfl) hr
  | attachAbort id abort =>
    refine Or.inl ⟨(w.state.frame_attachAbort id abort).1, fun id' => ?_⟩
    show (if (w.state.attachAbort id abort).2 then SeedAnswer.aborted abort else .attached) ≠ _
    split_ifs <;> exact nofun
  | begin id => exact Or.inl ⟨(w.state.frame_begin id).1, nofun⟩
  | cancelWaiter id => exact Or.inl ⟨(w.state.frame_cancelWaiter id).1, nofun⟩
  | completeStarted id =>
    refine Or.inl ⟨?_, nofun⟩
    show (w.completeStarted id).state.nextId = _
    unfold completeStarted
    split_ifs <;> rfl
  | sealTracker => exact Or.inl ⟨rfl, nofun⟩
  | _ => exact absurd rfl ho

/-- The tracker never accepts again. -/
theorem accepting_step (w : SeedWorld) (e : SeedEvent)
    (h : (seedTracker.next w e).state.accepting = true) : w.state.accepting = true := by
  by_cases ho : e.outside = true
  · rw [(w.frame_of_outside e ho).1] at h
    exact h
  cases e with
  | register running =>
    change (w.register running).1.state.accepting = true at h
    unfold register BlockingSeedTrackerState.register at h
    split_ifs at h
    · exact h
    · exact h
  | attachAbort id abort => exact (w.state.frame_attachAbort id abort).2.symm.trans h
  | begin id => exact (w.state.frame_begin id).2.symm.trans h
  | cancelWaiter id => exact (w.state.frame_cancelWaiter id).2.symm.trans h
  | completeStarted id =>
    change (w.completeStarted id).state.accepting = true at h
    unfold completeStarted at h
    split_ifs at h <;> exact h
  | sealTracker => cases h
  | _ => exact absurd rfl ho

end SeedWorld

end AgentsCommander.Selection
