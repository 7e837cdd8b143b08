import Mathlib.Tactic
import AgentsCommander.Capture.Room

/-! What one step of a room can do to its memory, to the file, and to the snapshots that
are on their way to the file. -/
namespace AgentsCommander.Capture
open Foundation

namespace Room

/-- The job carries this snapshot, waiting for the lock or under it. -/
def Holds (s : Room) (job : ℕ) (p : PersistedRoomState) : Prop :=
  (∃ stamp, s.jobs job = .snapped p stamp) ∨ ∃ stamp, s.lock = .flush job p stamp

/-- The commit under the lock carries this snapshot. -/
def Commits (s : Room) (effect : CommittedEffect) (p : PersistedRoomState) : Prop :=
  s.lock = .commit (.snapped effect p)

def Carries (s : Room) (p : PersistedRoomState) : Prop :=
  (∃ job, s.Holds job p) ∨ ∃ effect, s.Commits effect p

/-- The job named by the lock is writing. -/
def WellLocked (s : Room) : Prop :=
  ∀ job p stamp, s.lock = .flush job p stamp → s.jobs job = .writing

/-- The critical sections that change what is persisted. -/
inductive MemoryStep (s : Room) (e : RoomEvent) (m : RoomState) : Prop where
  | kept (h : m.toPersisted = s.memory.toPersisted)
  | observed (path : String) (observation : FileObservation) (he : e = .observe path observation)
      (h : m = (s.memory.observe path observation).1)
  | recharged (he : e = .recharge) (h : m = s.memory.rechargeInMemory)
  | reserved (now : ℕ) (slot : SlotState) (normalisePath : String → String)
      (he : e = .commitReserve now slot normalisePath) (call : CommitCall) (routable : Bool)
      (hlock : s.lock = .commit (.entered call))
      (hcheck : call.check now slot normalisePath = .ok routable)
      (h : m = (s.memory.reserve s.file call.pre.sessionId call.expectedKey call.pre.kind
        routable).1)
  | loaded (he : e = .restart) (h : m = .load s.file)

variable {s : Room} {e : RoomEvent}

theorem memory_next : MemoryStep s e (room.next s e).memory := by
  cases e with
  | observe path observation => exact .observed path observation rfl rfl
  | recharge => exact .recharged rfl rfl
  | restart => exact .loaded rfl rfl
  | commitReserve now slot normalisePath =>
    simp only [room, Machine.next, step, commitReserve]
    split
    · rename_i call hlock
      split
      · exact .kept rfl
      · rename_i routable hcheck
        split <;> exact .reserved now slot normalisePath rfl call routable hlock hcheck rfl
    · exact .kept rfl
  | _ =>
    refine .kept ?_
    simp only [room, Machine.next, step, scheduleFlush, spawn, callFlush, flushBegin, flushLock,
      flushWrite, flushEnd, commitEnter, commitSnapshot, commitWrite, commitClear, commitReturn]
    repeat' split
    all_goals rfl

/-- The file is replaced only by a snapshot on its way to it. -/
theorem file_next :
    (room.next s e).file = s.file ∨
      (∃ job p stamp, e = .flushWrite none ∧ s.lock = .flush job p stamp ∧
        (room.next s e).file = p) ∨
      ∃ effect p, e = .commitWrite none ∧ s.Commits effect p ∧ (room.next s e).file = p := by
  cases e with
  | flushWrite error =>
    simp only [room, Machine.next, step, flushWrite]
    split
    · rename_i job p stamp hlock
      split
      · exact Or.inr (Or.inl ⟨job, p, stamp, rfl, hlock, rfl⟩)
      · exact Or.inl rfl
    · exact Or.inl rfl
  | commitWrite error =>
    simp only [room, Machine.next, step, commitWrite]
    split
    · rename_i effect p hlock
      split
      · exact Or.inr (Or.inr ⟨effect, p, rfl, hlock, rfl⟩)
      · exact Or.inl rfl
    · exact Or.inl rfl
  | _ =>
    refine Or.inl ?_
    simp only [room, Machine.next, step, scheduleFlush, spawn, callFlush, flushBegin, flushLock,
      flushEnd, commitEnter, commitReserve, commitSnapshot, commitClear, commitReturn, start]
    repeat' split
    all_goals rfl

theorem jobs_next {job : ℕ} {p : PersistedRoomState} {stamp : ℕ}
    (h : (room.next s e).jobs job = .snapped p stamp) :
    s.jobs job = .snapped p stamp ∨
      e = .flushBegin job ∧ s.jobs job = .pending ∧ p = s.memory.toPersisted := by
  have key : ∀ (j : ℕ) (phase : FlushPhase), (s.setJob j phase).jobs job = .snapped p stamp →
      s.jobs job = .snapped p stamp ∨ j = job ∧ phase = .snapped p stamp := by
    intro j phase hj
    by_cases hjob : job = j
    · subst hjob
      exact Or.inr ⟨rfl, by simpa [setJob] using hj⟩
    · exact Or.inl (by simpa [setJob, hjob] using hj)
  cases e with
  | flushBegin j =>
    simp only [room, Machine.next, step, flushBegin] at h
    split at h
    · rename_i hp
      split_ifs at h
      · rcases key _ _ h with h | ⟨rfl, he⟩
        · exact Or.inl h
        · exact Or.inr ⟨rfl, hp, (FlushPhase.snapped.inj he).1.symm⟩
      · rcases key _ _ h with h | ⟨-, he⟩
        · exact Or.inl h
        · cases he
    · exact Or.inl h
  | restart => cases h
  | _ =>
    refine Or.inl ?_
    simp only [room, Machine.next, step, scheduleFlush, spawn, callFlush, flushLock,
      flushWrite, flushEnd, commitEnter, commitReserve, commitSnapshot, commitWrite, commitClear,
      commitReturn] at h
    repeat' split at h
    all_goals first
      | exact h
      | exact (key _ _ h).resolve_right (fun he => by cases he.2)

theorem lock_next {job : ℕ} {p : PersistedRoomState} {stamp : ℕ}
    (h : (room.next s e).lock = .flush job p stamp) :
    s.lock = .flush job p stamp ∨
      s.jobs job = .snapped p stamp ∧ (room.next s e).jobs job = .writing := by
  cases e with
  | flushLock j attempt =>
    simp only [room, Machine.next, step, flushLock] at h ⊢
    split at h
    · rename_i hj
      split at h
      · cases h
        exact Or.inr ⟨hj, by simp [setJob]⟩
      all_goals exact Or.inl h
    · exact Or.inl h
  | restart => cases h
  | _ =>
    refine Or.inl ?_
    simp only [room, Machine.next, step, scheduleFlush, spawn, callFlush, flushBegin,
      flushWrite, flushEnd, commitEnter, commitReserve, commitSnapshot, commitWrite, commitClear,
      commitReturn] at h
    repeat' split at h
    all_goals first
      | exact h
      | cases h

theorem wellLocked_next (hs : s.WellLocked) : (room.next s e).WellLocked := by
  intro job p stamp h
  rcases lock_next h with hlock | ⟨-, hjob⟩
  · have hw := hs job p stamp hlock
    have key : ∀ (j : ℕ) (phase phase' : FlushPhase), s.jobs j = phase → phase ≠ .writing →
        (s.setJob j phase').jobs job = .writing := by
      rintro j _ phase' rfl hj
      have hne : job ≠ j := fun he => hj (he ▸ hw)
      simpa [setJob, hne] using hw
    cases e with
    | restart => cases h
    | _ =>
      simp only [room, Machine.next, step, scheduleFlush, spawn, callFlush, flushBegin, flushLock,
        flushWrite, flushEnd, commitEnter, commitReserve, commitSnapshot, commitWrite, commitClear,
        commitReturn] at h ⊢
      revert h
      repeat' split
      all_goals first
        | exact fun _ => hw
        | exact fun _ => key _ _ _ (by assumption) (by simp)
        | exact nofun
  · exact hjob

theorem holds_next {job : ℕ} {p : PersistedRoomState} (hs : s.WellLocked)
    (h : (room.next s e).Holds job p) :
    (s.Holds job p ∧ ¬ (e = .flushBegin job ∧ s.jobs job = .pending)) ∨
      (e = .flushBegin job ∧ s.jobs job = .pending ∧ p = s.memory.toPersisted) := by
  rcases h with ⟨stamp, h⟩ | ⟨stamp, h⟩
  · rcases jobs_next h with h | h
    · exact Or.inl ⟨Or.inl ⟨stamp, h⟩, fun hp => by simp [h] at hp⟩
    · exact Or.inr h
  · rcases lock_next h with h | ⟨h, -⟩
    · exact Or.inl ⟨Or.inr ⟨stamp, h⟩, fun hp => by simp [hs job p stamp h] at hp⟩
    · exact Or.inl ⟨Or.inl ⟨stamp, h⟩, fun hp => by simp [h] at hp⟩

theorem commits_next {effect : CommittedEffect} {p : PersistedRoomState}
    (h : (room.next s e).Commits effect p) :
    s.Commits effect p ∨
      e = .commitSnapshot ∧ s.lock = .commit (.reserved effect) ∧ p = s.memory.toPersisted := by
  unfold Commits at h ⊢
  cases e with
  | commitSnapshot =>
    simp only [room, Machine.next, step, commitSnapshot] at h
    split at h
    · rename_i hlock
      cases h
      exact Or.inr ⟨rfl, hlock, rfl⟩
    · exact Or.inl h
  | restart => cases h
  | _ =>
    refine Or.inl ?_
    simp only [room, Machine.next, step, scheduleFlush, spawn, callFlush, flushBegin, flushLock,
      flushWrite, flushEnd, commitEnter, commitReserve, commitWrite, commitClear,
      commitReturn] at h
    repeat' split at h
    all_goals first
      | exact h
      | cases h

theorem carries_next {p : PersistedRoomState} (hs : s.WellLocked)
    (h : (room.next s e).Carries p) : s.Carries p ∨ p = s.memory.toPersisted := by
  rcases h with ⟨job, h⟩ | ⟨effect, h⟩
  · rcases holds_next hs h with ⟨h, -⟩ | ⟨-, -, hp⟩
    · exact Or.inl (Or.inl ⟨job, h⟩)
    · exact Or.inr hp
  · rcases commits_next h with h | ⟨-, -, hp⟩
    · exact Or.inl (Or.inr ⟨effect, h⟩)
    · exact Or.inr hp

/-- What reaches the file was on its way to it. -/
theorem carries_of_file_next : (room.next s e).file = s.file ∨ s.Carries (room.next s e).file := by
  rcases file_next (s := s) (e := e) with h | ⟨job, p, stamp, -, hlock, hp⟩ | ⟨effect, p, -, h, hp⟩
  · exact Or.inl h
  · exact Or.inr (Or.inl ⟨job, Or.inr ⟨stamp, hp ▸ hlock⟩⟩)
  · exact Or.inr (Or.inr ⟨effect, hp ▸ h⟩)

theorem wellLocked_start (file : PersistedRoomState) : (start file).WellLocked :=
  fun _ _ _ h => by cases h

theorem not_carries_start {file p : PersistedRoomState} : ¬ (start file).Carries p := by
  rintro (⟨job, ⟨stamp, h⟩ | ⟨stamp, h⟩⟩ | ⟨effect, h⟩) <;> cases h

end Room
end AgentsCommander.Capture
