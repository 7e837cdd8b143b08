import AgentsCommander.Capture.DirtyLaw

/-! When `flush_scheduled` is released: three exits of a flush job leave it set. -/
namespace AgentsCommander.Capture
open Foundation

namespace RoomState

@[simp] theorem flushScheduled_observe (m : RoomState) (path : String)
    (observation : FileObservation) :
    (m.observe path observation).1.flushScheduled = m.flushScheduled := by
  unfold observe
  split
  · split_ifs <;> rfl
  · rfl

@[simp] theorem flushScheduled_reconcile (m : RoomState) (disk : PersistedRoomState) :
    (m.reconcile disk).flushScheduled = m.flushScheduled := by
  unfold reconcile
  split_ifs <;> rfl

@[simp] theorem flushScheduled_mark (m : RoomState) (sessionId : String) (key : ConsumptionKey)
    (routable : Bool) : (m.mark sessionId key routable).flushScheduled = m.flushScheduled := by
  unfold mark spend remember raiseWatermark
  cases key.recordStart <;> cases routable <;> rfl

@[simp] theorem flushScheduled_reserve (m : RoomState) (disk : PersistedRoomState)
    (sessionId : String) (key : ConsumptionKey) (kind : EffectKind) (routable : Bool) :
    (m.reserve disk sessionId key kind routable).1.flushScheduled = m.flushScheduled := by
  rcases m.reserve_cases disk sessionId key kind routable with ⟨reason, he⟩ | ⟨he, -⟩
  · rw [he, flushScheduled_reconcile]
  · rw [he, flushScheduled_mark, flushScheduled_reconcile]

end RoomState

namespace Room

/-- The flag is set only while some flush job is pending or running. -/
def Unwedged (s : Room) : Prop := s.memory.flushScheduled = true → ∃ job, s.jobs job ≠ .idle

/-- The flag is clear, or another flush job is pending or running. -/
def Spare (s : Room) (job : ℕ) : Prop :=
  s.memory.flushScheduled = true → ∃ other, other ≠ job ∧ s.jobs other ≠ .idle

/-- A job may end as clean, with the lock busy or with the lock unavailable only where
nobody waits for it to release the flag. -/
def Releasable (s : Room) : RoomEvent → Prop
  | .flushBegin job => s.jobs job = .pending → s.memory.dirty = false → s.Spare job
  | .flushLock job .busy | .flushLock job (.unavailable _) =>
    ∀ p stamp, s.jobs job = .snapped p stamp → s.Spare job
  | _ => True

variable {s : Room} {e : RoomEvent}

theorem unwedged_setJob {s' : Room} {job : ℕ} {phase : FlushPhase} (h : phase ≠ .idle)
    (hj : s'.jobs = (s.setJob job phase).jobs) : s'.Unwedged :=
  fun _ => ⟨job, by rw [hj]; simpa [setJob] using h⟩

theorem unwedged_setJob_idle {job : ℕ} : (s.setJob job .idle).Unwedged ↔ s.Spare job := by
  refine imp_congr_right fun _ => exists_congr fun other => ?_
  by_cases h : other = job
  · subst h
    simp [setJob]
  · simp [setJob, h]

theorem Unwedged.of_eq {s' : Room} (h : s.Unwedged)
    (hm : s'.memory.flushScheduled = s.memory.flushScheduled) (hj : s'.jobs = s.jobs) :
    s'.Unwedged := by
  unfold Unwedged
  rw [hm, hj]
  exact h

theorem unwedged_of_clear {s' : Room} (h : s'.memory.flushScheduled = false) : s'.Unwedged :=
  fun ht => by rw [h] at ht; cases ht

theorem unwedged_flushLock (hu : s.Unwedged) (job : ℕ) (attempt : LockAttempt) :
    (room.next s (.flushLock job attempt)).Unwedged ↔ s.Releasable (.flushLock job attempt) := by
  simp only [room, Machine.next, step, flushLock]
  cases hjob : s.jobs job with
  | snapped p stamp =>
    cases attempt with
    | held =>
      refine iff_of_true ?_ trivial
      cases s.lock with
      | free =>
        have hne : FlushPhase.writing ≠ .idle := by simp
        exact unwedged_setJob hne rfl
      | _ => exact hu
    | busy => exact unwedged_setJob_idle.trans ⟨fun h _ _ _ => h, fun h => h p stamp hjob⟩
    | unavailable error =>
      exact unwedged_setJob_idle.trans ⟨fun h _ _ _ => h, fun h => h p stamp hjob⟩
  | _ =>
    refine iff_of_true hu ?_
    cases attempt with
    | held => trivial
    | _ => exact fun p stamp h => by simp [hjob] at h

theorem unwedged_next (hu : s.Unwedged) : (room.next s e).Unwedged ↔ s.Releasable e := by
  cases e with
  | observe path observation =>
    exact iff_of_true (hu.of_eq (RoomState.flushScheduled_observe _ _ _) rfl) trivial
  | commitReserve now slot normalisePath =>
    refine iff_of_true ?_ trivial
    simp only [room, Machine.next, step, commitReserve]
    split
    · split
      · exact hu
      · split <;> exact hu.of_eq (RoomState.flushScheduled_reserve _ _ _ _ _ _) rfl
    · exact hu
  | restart => exact iff_of_true (unwedged_of_clear rfl) trivial
  | scheduleFlush job now =>
    refine iff_of_true ?_ trivial
    simp only [room, Machine.next, step, scheduleFlush]
    split
    · split_ifs
      · exact hu
      · exact unwedged_setJob (by simp) rfl
    · exact hu
  | spawn job runtime =>
    refine iff_of_true ?_ trivial
    simp only [room, Machine.next, step, spawn]
    split
    · split_ifs
      · exact unwedged_setJob (by simp) rfl
      · exact unwedged_of_clear rfl
    · exact hu
  | callFlush job =>
    refine iff_of_true ?_ trivial
    simp only [room, Machine.next, step, callFlush]
    split
    · exact unwedged_setJob (by simp) rfl
    · exact hu
  | flushBegin job =>
    simp only [room, Machine.next, step, flushBegin, Releasable]
    cases hjob : s.jobs job with
    | pending =>
      cases hd : s.memory.dirty with
      | true => exact iff_of_true (unwedged_setJob (by simp) rfl) fun _ h => by cases h
      | false => exact unwedged_setJob_idle.trans ⟨fun h _ _ => h, fun h => h rfl rfl⟩
    | _ => exact iff_of_true hu fun h => by cases h
  | flushLock job attempt => exact unwedged_flushLock hu job attempt
  | flushWrite error =>
    refine iff_of_true ?_ trivial
    simp only [room, Machine.next, step, flushWrite]
    split
    · split <;> exact unwedged_setJob (by simp) rfl
    · exact hu
  | flushEnd job now =>
    refine iff_of_true ?_ trivial
    simp only [room, Machine.next, step, flushEnd]
    split
    · exact unwedged_of_clear rfl
    · exact unwedged_of_clear rfl
    · exact hu
  | _ =>
    refine iff_of_true ?_ trivial
    simp only [room, Machine.next, step, commitEnter, commitSnapshot, commitWrite, commitClear,
      commitReturn]
    repeat' split
    all_goals exact hu.of_eq rfl rfl

end Room

/-- No state of a run is wedged exactly when every job that ends early may leave the flag. -/
theorem unwedged_iff_releasable (file : PersistedRoomState) (es : List RoomEvent) :
    room.Always Room.Unwedged (.start file) es ↔ room.Along Room.Releasable (.start file) es :=
  Machine.always_iff_along (Q := fun _ => True) (fun _ _ h => h)
    (fun _ _ _ hu => Room.unwedged_next hu) es trivial (Room.unwedged_of_clear rfl)

/-- The one scheduled job meets a busy lock. -/
def busyLock : List RoomEvent :=
  [.observe "a.jsonl" ⟨10, [], 0⟩, .scheduleFlush 0 0, .spawn 0 true, .flushBegin 0,
    .flushLock 0 .busy]

theorem not_unwedged_busyLock : ¬ room.Always Room.Unwedged (.start .default) busyLock := by
  intro h
  obtain ⟨job, hjob⟩ := (Machine.always_iff _ _ _).mp h _ List.prefix_rfl (by decide)
  by_cases hz : job = 0
  · subst hz
    exact hjob rfl
  · refine hjob ?_
    simp [room, busyLock, Machine.next, Room.step, Room.scheduleFlush, Room.spawn,
      Room.flushBegin, Room.flushLock, Room.setJob, Room.start, RoomState.observe, RoomState.load,
      PersistedRoomState.default]

end AgentsCommander.Capture
