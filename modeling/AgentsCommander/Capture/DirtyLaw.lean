import AgentsCommander.Capture.RoomSteps

/-! When the dirty flag tells the truth: the law holds throughout a run exactly when every
write and every clearing of the flag finds the memory it was taken from. -/
namespace AgentsCommander.Capture
open Foundation

namespace RoomState

/-- Only a loaded cut exists, and a load drops its sequence. -/
def Unsequenced (m : RoomState) : Prop := m.cut.map Cut.supersedeSequence = m.cut

theorem restored_toPersisted {m : RoomState} (h : m.Unsequenced) :
    m.toPersisted.restored = m.toPersisted := by
  unfold PersistedRoomState.restored toPersisted load
  simp only [PersistedRoomState.mk.injEq, PersistedRoomState.spends, Option.getD_some, true_and,
    budget]
  exact h

theorem unsequenced_load (p : PersistedRoomState) : (load p).Unsequenced := by
  unfold Unsequenced load
  cases p.cut <;> rfl

theorem cut_observe (m : RoomState) (path : String) (observation : FileObservation) :
    (m.observe path observation).1.cut = none ∨ (m.observe path observation).1.cut = m.cut := by
  unfold observe
  split
  · split_ifs
    · exact Or.inl rfl
    · exact Or.inr rfl
    · exact Or.inr rfl
  · exact Or.inr rfl

theorem unsequenced_observe {m : RoomState} (h : m.Unsequenced) (path : String)
    (observation : FileObservation) : (m.observe path observation).1.Unsequenced := by
  unfold Unsequenced
  rcases m.cut_observe path observation with hcut | hcut
  · rw [hcut]
    rfl
  · rw [hcut]
    exact h

theorem dirty_observe (m : RoomState) (path : String) (observation : FileObservation) :
    (m.observe path observation).1.dirty = true := by
  unfold observe
  split
  · split_ifs <;> rfl
  · rfl

@[simp] theorem cut_reconcile (m : RoomState) (disk : PersistedRoomState) :
    (m.reconcile disk).cut = m.cut := by
  unfold reconcile
  split_ifs <;> rfl

@[simp] theorem dirty_reconcile (m : RoomState) (disk : PersistedRoomState) :
    (m.reconcile disk).dirty = m.dirty := by
  unfold reconcile
  split_ifs <;> rfl

@[simp] theorem cut_mark (m : RoomState) (sessionId : String) (key : ConsumptionKey)
    (routable : Bool) : (m.mark sessionId key routable).cut = m.cut := by
  unfold mark spend remember raiseWatermark
  cases key.recordStart <;> cases routable <;> rfl

/-- A commit's critical section refuses after merging, or marks the merged room. -/
theorem reserve_cases (m : RoomState) (disk : PersistedRoomState) (sessionId : String)
    (key : ConsumptionKey) (kind : EffectKind) (routable : Bool) :
    (∃ reason, m.reserve disk sessionId key kind routable =
      (m.reconcile disk, .error reason)) ∨
    (m.reserve disk sessionId key kind routable =
        ((m.reconcile disk).mark sessionId key routable,
          .ok ⟨sessionId, key, ((m.reconcile disk).mark sessionId key routable).budget, kind,
            routable⟩) ∧
      (m.reconcile disk).wasConsumed sessionId key = false ∧
      (routable = true → (m.reconcile disk).budget ≠ 0)) := by
  unfold reserve
  dsimp only
  split_ifs with hc hb
  · exact Or.inl ⟨_, rfl⟩
  · exact Or.inl ⟨_, rfl⟩
  · exact Or.inr ⟨rfl, by simpa using hc, fun hr hz => hb ⟨hr, hz⟩⟩

theorem unsequenced_reserve {m : RoomState} (h : m.Unsequenced) (disk : PersistedRoomState)
    (sessionId : String) (key : ConsumptionKey) (kind : EffectKind) (routable : Bool) :
    (m.reserve disk sessionId key kind routable).1.Unsequenced := by
  unfold Unsequenced
  rcases m.reserve_cases disk sessionId key kind routable with ⟨reason, he⟩ | ⟨he, -⟩
  · rw [he, cut_reconcile]
    exact h
  · rw [he, cut_mark, cut_reconcile]
    exact h

theorem mergeRecent_self (recent : Option (List ConsumptionKey)) :
    mergeRecent recent recent = recent := by
  unfold mergeRecent
  split
  · rfl
  · rfl
  · rename_i keys _
    rw [Option.getD_some, Window.absorb_eq_self fun _ hk => hk]

theorem mergeMark_self (mark : Option ℕ) : mergeMark mark mark = mark := by
  unfold mergeMark
  cases mark with
  | none => rfl
  | some m => simp

/-- Merging the file the memory agrees with changes nothing. -/
theorem toPersisted_reconcile {m : RoomState} {disk : PersistedRoomState}
    (h : m.toPersisted = disk.restored) : (m.reconcile disk).toPersisted = m.toPersisted := by
  have hw : m.watermarks = disk.watermarks := congrArg PersistedRoomState.watermarks h
  have hr : m.recent = disk.recent := congrArg PersistedRoomState.recent h
  have hst : m.rechargeStamp = disk.rechargeStamp := congrArg PersistedRoomState.rechargeStamp h
  have hsp : m.spendsSinceRecharge = disk.spends :=
    Option.some.inj (congrArg PersistedRoomState.spendsSinceRecharge h)
  unfold reconcile
  rw [if_neg (by omega), if_pos hst]
  unfold toPersisted budget
  simp only [hsp, max_self, hw, hr, mergeMark_self, mergeRecent_self]

end RoomState

namespace Room

/-- Memory that differs from what the file would restore is dirty. -/
def DirtyLaw (s : Room) : Prop :=
  s.memory.toPersisted ≠ s.file.restored → s.memory.dirty = true

/-- A write lands the present memory, or memory that is dirty; the flag is cleared by a
flush whose stamp is still current, or by a commit, only when memory is in the file. -/
def Undisturbed (s : Room) : RoomEvent → Prop
  | .flushWrite none => ∀ job p stamp, s.lock = .flush job p stamp →
    s.memory.dirty = true ∨ s.memory.toPersisted = p
  | .commitWrite none => ∀ effect p, s.lock = .commit (.snapped effect p) →
    s.memory.dirty = true ∨ s.memory.toPersisted = p
  | .flushEnd job _ => s.jobs job = .wrote s.memory.rechargeStamp →
    s.memory.toPersisted = s.file.restored
  | .commitClear _ => ∀ effect, s.lock = .commit (.written effect) →
    s.memory.toPersisted = s.file.restored
  | _ => True

/-- Every snapshot on its way to the file restores to itself. -/
structure Settled (s : Room) : Prop where
  wellLocked : s.WellLocked
  memory : s.memory.Unsequenced
  carried : ∀ p, s.Carries p → p.restored = p

theorem settled_start (file : PersistedRoomState) : (start file).Settled :=
  ⟨wellLocked_start file, RoomState.unsequenced_load file, fun _ h => absurd h not_carries_start⟩

variable {s : Room} {e : RoomEvent}

theorem settled_next (h : s.Settled) : (room.next s e).Settled := by
  refine ⟨wellLocked_next h.wellLocked, ?_, fun p hp => ?_⟩
  · cases memory_next (s := s) (e := e) with
    | kept hm =>
      have hcut : (room.next s e).memory.cut = s.memory.cut := congrArg PersistedRoomState.cut hm
      unfold RoomState.Unsequenced
      rw [hcut]
      exact h.memory
    | observed path observation _ hm =>
      rw [hm]
      exact RoomState.unsequenced_observe h.memory path observation
    | recharged _ hm =>
      rw [hm]
      exact h.memory
    | reserved _ _ _ _ call routable _ _ hm =>
      rw [hm]
      exact RoomState.unsequenced_reserve h.memory _ _ _ _ _
    | loaded _ hm =>
      rw [hm]
      exact RoomState.unsequenced_load _
  · rcases carries_next h.wellLocked hp with hp | rfl
    · exact h.carried p hp
    · exact RoomState.restored_toPersisted h.memory

theorem dirtyLaw_iff : s.DirtyLaw ↔
    s.memory.dirty = true ∨ s.memory.toPersisted = s.file.restored := by
  unfold DirtyLaw
  by_cases h : s.memory.toPersisted = s.file.restored
  · exact iff_of_true (fun hn => absurd h hn) (Or.inr h)
  · exact ⟨fun hl => Or.inl (hl h), fun hd _ => hd.resolve_right h⟩

/-- The law looks at the memory and the file only. -/
theorem DirtyLaw.of_eq {s' : Room} (hl : s.DirtyLaw) (hd : s'.memory.dirty = s.memory.dirty)
    (hm : s'.memory.toPersisted = s.memory.toPersisted) (hf : s'.file = s.file) : s'.DirtyLaw := by
  unfold DirtyLaw
  rw [hd, hm, hf]
  exact hl

theorem dirtyLaw_commitReserve (hl : s.DirtyLaw) (now : ℕ) (slot : SlotState)
    (normalisePath : String → String) :
    (room.next s (.commitReserve now slot normalisePath)).DirtyLaw := by
  simp only [room, Machine.next, step, commitReserve]
  split
  · rename_i call hlock
    split
    · exact hl.of_eq rfl rfl rfl
    · rename_i routable hcheck
      rcases s.memory.reserve_cases s.file call.pre.sessionId call.expectedKey call.pre.kind
        routable with ⟨reason, he⟩ | ⟨he, -⟩
      · rw [he]
        refine dirtyLaw_iff.mpr ?_
        rcases dirtyLaw_iff.mp hl with hd | hm
        · exact Or.inl ((RoomState.dirty_reconcile _ _).trans hd)
        · exact Or.inr ((RoomState.toPersisted_reconcile hm).trans hm)
      · rw [he]
        exact fun _ => rfl
  · exact hl

theorem dirtyLaw_next (hs : s.Settled) (hl : s.DirtyLaw) :
    (room.next s e).DirtyLaw ↔ s.Undisturbed e := by
  cases e with
  | observe path observation => exact iff_of_true (fun _ => RoomState.dirty_observe _ _ _) trivial
  | recharge => exact iff_of_true (fun _ => rfl) trivial
  | restart => exact iff_of_true (fun hn => absurd rfl hn) trivial
  | commitReserve now slot normalisePath =>
    exact iff_of_true (dirtyLaw_commitReserve hl now slot normalisePath) trivial
  | flushWrite error =>
    simp only [room, Machine.next, step, flushWrite]
    cases error with
    | some error =>
      refine iff_of_true ?_ trivial
      split
      · exact hl.of_eq rfl rfl rfl
      · exact hl
    | none =>
      split
      · rename_i job p stamp hlock
        rw [dirtyLaw_iff]
        change s.memory.dirty = true ∨ s.memory.toPersisted = p.restored ↔ _
        rw [hs.carried p (Or.inl ⟨job, Or.inr ⟨stamp, hlock⟩⟩)]
        constructor
        · intro h job' p' stamp' hlock'
          cases hlock.symm.trans hlock'
          exact h
        · exact fun h => h job p stamp hlock
      · rename_i hn
        exact iff_of_true hl fun job p stamp hlock => absurd hlock (hn job p stamp)
  | commitWrite error =>
    simp only [room, Machine.next, step, commitWrite]
    cases error with
    | some error =>
      refine iff_of_true ?_ trivial
      split
      · exact hl.of_eq rfl rfl rfl
      · exact hl
    | none =>
      split
      · rename_i effect p hlock
        rw [dirtyLaw_iff]
        change s.memory.dirty = true ∨ s.memory.toPersisted = p.restored ↔ _
        rw [hs.carried p (Or.inr ⟨effect, hlock⟩)]
        constructor
        · intro h effect' p' hlock'
          cases hlock.symm.trans hlock'
          exact h
        · exact fun h => h effect p hlock
      · rename_i hn
        exact iff_of_true hl fun effect p hlock => absurd hlock (hn effect p)
  | flushEnd job now =>
    simp only [room, Machine.next, step, flushEnd, Undisturbed]
    split
    · rename_i stamp hjob
      rw [dirtyLaw_iff, hjob]
      change (if s.memory.rechargeStamp = stamp then false else s.memory.dirty) = true ∨
        s.memory.toPersisted = s.file.restored ↔ _
      split_ifs with hstamp
      · simp [hstamp]
      · refine iff_of_true (dirtyLaw_iff.mp hl) fun he => ?_
        exact absurd (FlushPhase.wrote.inj he).symm hstamp
    · rename_i error hjob
      exact iff_of_true (hl.of_eq rfl rfl rfl) fun he => by simp [hjob] at he
    · rename_i hn _
      exact iff_of_true hl fun he => absurd he (hn _)
  | commitClear now =>
    simp only [room, Machine.next, step, commitClear, Undisturbed]
    split
    · rename_i effect hlock
      rw [dirtyLaw_iff]
      change false = true ∨ s.memory.toPersisted = s.file.restored ↔ _
      simp [hlock]
    · rename_i hn
      exact iff_of_true hl fun effect hlock => absurd hlock (hn effect)
  | _ =>
    refine iff_of_true ?_ trivial
    simp only [room, Machine.next, step, scheduleFlush, spawn, callFlush, flushBegin, flushLock,
      commitEnter, commitSnapshot, commitReturn]
    repeat' split
    all_goals exact hl.of_eq rfl rfl rfl

end Room

/-- A second file is observed while a flush carries a snapshot that has only the first. -/
def observedInFlight : List RoomEvent :=
  [.observe "a.jsonl" ⟨10, [], 0⟩, .callFlush 0, .flushBegin 0, .flushLock 0 .held,
    .observe "b.jsonl" ⟨20, [], 0⟩, .flushWrite none, .flushEnd 0 0]

end AgentsCommander.Capture
