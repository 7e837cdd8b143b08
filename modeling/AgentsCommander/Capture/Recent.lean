import AgentsCommander.Capture.Budget

/-! The consumption evidence of one session: how a step moves the recent window in memory,
and what the file and the snapshots on their way to it know. -/
namespace AgentsCommander.Capture
open Foundation

/-- Session and key of a commit that has just reserved its effect. -/
def RoomReply.committed : RoomReply → Option (String × ConsumptionKey)
  | .reserved (.ok effect) => some (effect.sessionId, effect.key)
  | _ => none

/-- How many commits of a session reserved their effect. -/
def commitsOf (sessionId : String) (replies : List RoomReply) : ℕ :=
  replies.countP fun reply => reply.committed.any (·.1 = sessionId)

theorem commitsOf_committed {session : String} {key : ConsumptionKey} {reply : RoomReply}
    (h : reply.committed = some (session, key)) : commitsOf session [reply] = 1 := by
  simp [commitsOf, h]

theorem commitsOf_other {session : String} {reply : RoomReply}
    (h : ∀ key, reply.committed ≠ some (session, key)) : commitsOf session [reply] = 0 := by
  unfold commitsOf
  rw [List.countP_singleton]
  cases hc : reply.committed with
  | none => rfl
  | some c =>
    refine if_neg fun he => h c.2 ?_
    rw [hc, ← of_decide_eq_true he]

namespace RoomState

@[simp] theorem recentOf_toPersisted (m : RoomState) (sessionId : String) :
    m.toPersisted.recentOf sessionId = m.recentOf sessionId := rfl

@[simp] theorem recentOf_load (p : PersistedRoomState) (sessionId : String) :
    (load p).recentOf sessionId = p.recentOf sessionId := rfl

@[simp] theorem recentOf_observe (m : RoomState) (path : String) (observation : FileObservation)
    (sessionId : String) :
    (m.observe path observation).1.recentOf sessionId = m.recentOf sessionId := by
  unfold observe
  split
  · split_ifs <;> rfl
  · rfl

/-- Merging a file whose keys are all in memory leaves the window alone. -/
theorem recentOf_reconcile {m : RoomState} {disk : PersistedRoomState} {sessionId : String}
    (h : ∀ key ∈ disk.recentOf sessionId, key ∈ m.recentOf sessionId) :
    (m.reconcile disk).recentOf sessionId = m.recentOf sessionId := by
  have hrecent : (m.reconcile disk).recent sessionId =
      mergeRecent (m.recent sessionId) (disk.recent sessionId) := by
    unfold reconcile
    split_ifs <;> rfl
  unfold PersistedRoomState.recentOf at h
  unfold recentOf at h ⊢
  rw [hrecent]
  unfold mergeRecent
  split
  · rfl
  · rfl
  · rename_i keys hkeys
    rw [hkeys, Option.getD_some] at h
    rw [Option.getD_some, Window.absorb_eq_self h]

theorem recentOf_mark (m : RoomState) (sessionId : String) (key : ConsumptionKey)
    (routable : Bool) (session : String) :
    (m.mark sessionId key routable).recentOf session =
      if session = sessionId then Window.push recentCapacity (m.recentOf sessionId) key
      else m.recentOf session := by
  have hrecent : (m.mark sessionId key routable).recent =
      Function.update m.recent sessionId
        (some (Window.push recentCapacity (m.recentOf sessionId) key)) := by
    unfold mark spend remember raiseWatermark
    cases key.recordStart <;> cases routable <;> rfl
  unfold recentOf at hrecent ⊢
  rw [hrecent]
  split_ifs with hs
  · rw [hs, Function.update_self]
    rfl
  · rw [Function.update_of_ne hs]

end RoomState

namespace Room

/-- A commit that is about to merge the file finds all its keys in memory. -/
def Remembers (s : Room) : RoomEvent → Prop
  | .commitReserve .. => ∀ call, s.lock = .commit (.entered call) →
    ∀ sessionId, ∀ key ∈ s.file.recentOf sessionId, key ∈ s.memory.recentOf sessionId
  | _ => True

variable {s : Room} {e : RoomEvent}

/-- What the critical section of a commit leaves behind, when it merges nothing. -/
theorem commitReserve_next (now : ℕ) (slot : SlotState) (normalisePath : String → String)
    (hrem : s.Remembers (.commitReserve now slot normalisePath)) :
    ((room.answer s (.commitReserve now slot normalisePath)).committed = none ∧
      ∀ session, (room.next s (.commitReserve now slot normalisePath)).memory.recentOf session =
        s.memory.recentOf session) ∨
    ∃ call effect, s.lock = .commit (.entered call) ∧ effect.sessionId = call.pre.sessionId ∧
      effect.key = call.expectedKey ∧
      (room.answer s (.commitReserve now slot normalisePath)) = .reserved (.ok effect) ∧
      (room.next s (.commitReserve now slot normalisePath)).lock = .commit (.reserved effect) ∧
      effect.key ∉ s.memory.recentOf effect.sessionId ∧
      ∀ session, (room.next s (.commitReserve now slot normalisePath)).memory.recentOf session =
        if session = effect.sessionId then
          Window.push recentCapacity (s.memory.recentOf effect.sessionId) effect.key
        else s.memory.recentOf session := by
  simp only [room, Machine.next, Machine.answer, step, commitReserve]
  split
  · rename_i call hlock
    have hmerge := fun session => RoomState.recentOf_reconcile (hrem call hlock session)
    split
    · exact Or.inl ⟨rfl, fun _ => rfl⟩
    · rename_i routable hcheck
      rcases s.memory.reserve_cases s.file call.pre.sessionId call.expectedKey call.pre.kind
        routable with ⟨reason, he⟩ | ⟨he, hnew, -⟩
      · rw [he]
        exact Or.inl ⟨rfl, hmerge⟩
      · rw [he]
        refine Or.inr ⟨call, _, hlock, rfl, rfl, rfl, rfl, ?_, fun session => ?_⟩
        · rw [← hmerge]
          simpa [RoomState.wasConsumed] using hnew
        · change ((s.memory.reconcile s.file).mark _ _ _).recentOf session = _
          rw [RoomState.recentOf_mark, hmerge, hmerge]
  · exact Or.inl ⟨rfl, fun _ => rfl⟩

theorem committed_eq_none (he : ∀ now slot normalisePath, e ≠ .commitReserve now slot normalisePath) :
    (room.answer s e).committed = none := by
  cases e with
  | commitReserve now slot normalisePath => exact absurd rfl (he now slot normalisePath)
  | observe path observation => rfl
  | _ =>
    simp only [room, Machine.answer, step, scheduleFlush, spawn, callFlush, flushBegin, flushLock,
      flushWrite, flushEnd, commitEnter, commitSnapshot, commitWrite, commitClear, commitReturn]
    repeat' split
    all_goals rfl

/-- A window moves only by the commit that reserves in its session. -/
theorem recentOf_next (hrem : s.Remembers e) (hrs : e ≠ .restart) (session : String) :
    (∃ key, (room.answer s e).committed = some (session, key) ∧
      key ∉ s.memory.recentOf session ∧ (room.next s e).memory.recentOf session =
        Window.push recentCapacity (s.memory.recentOf session) key) ∨
    ((∀ key, (room.answer s e).committed ≠ some (session, key)) ∧
      (room.next s e).memory.recentOf session = s.memory.recentOf session) := by
  by_cases hc : ∃ now slot normalisePath, e = .commitReserve now slot normalisePath
  · obtain ⟨now, slot, normalisePath, rfl⟩ := hc
    rcases commitReserve_next now slot normalisePath hrem with
      ⟨hnone, hsame⟩ | ⟨call, effect, -, -, -, hans, -, hnew, hrecent⟩
    · exact Or.inr ⟨fun key => by rw [hnone]; simp, hsame session⟩
    · by_cases hs : session = effect.sessionId
      · subst hs
        refine Or.inl ⟨effect.key, by rw [hans]; rfl, hnew, ?_⟩
        rw [hrecent, if_pos rfl]
      · refine Or.inr ⟨fun key hk => ?_, by rw [hrecent, if_neg hs]⟩
        rw [hans] at hk
        exact hs (Prod.ext_iff.mp (Option.some.inj hk)).1.symm
  · have hnone : (room.answer s e).committed = none :=
      committed_eq_none fun now slot normalisePath he => hc ⟨now, slot, normalisePath, he⟩
    refine Or.inr ⟨fun key => by rw [hnone]; simp, ?_⟩
    cases memory_next (s := s) (e := e) with
    | kept hm =>
      rw [← RoomState.recentOf_toPersisted, hm, RoomState.recentOf_toPersisted]
    | observed path observation _ hm => rw [hm, RoomState.recentOf_observe]
    | recharged _ hm =>
      rw [hm]
      rfl
    | reserved now slot normalisePath he => exact absurd ⟨now, slot, normalisePath, he⟩ hc
    | loaded he _ => exact absurd he hrs

/-- Only the commit under the lock, in its critical section, reserves. -/
theorem entered_of_committed {c : String × ConsumptionKey}
    (h : (room.answer s e).committed = some c) : ∃ call, s.lock = .commit (.entered call) := by
  cases e with
  | commitReserve now slot normalisePath =>
    simp only [room, Machine.answer, step, commitReserve] at h
    split at h
    · rename_i call hlock
      exact ⟨call, hlock⟩
    · cases h
  | _ =>
    rw [committed_eq_none (by simp)] at h
    cases h

theorem reserved_next {effect : CommittedEffect}
    (h : (room.next s e).lock = .commit (.reserved effect)) :
    s.lock = .commit (.reserved effect) ∨ room.answer s e = .reserved (.ok effect) := by
  cases e with
  | commitReserve now slot normalisePath =>
    simp only [room, Machine.next, Machine.answer, step, commitReserve] at h ⊢
    split at h
    · rename_i call hlock
      split at h
      · cases h
      · rename_i routable hcheck
        rcases s.memory.reserve_cases s.file call.pre.sessionId call.expectedKey call.pre.kind
          routable with ⟨reason, he⟩ | ⟨he, -⟩
        · rw [he] at h
          cases h
        · rw [he] at h
          cases h
          right
          rw [he]
    · exact Or.inl h
  | restart => cases h
  | _ =>
    refine Or.inl ?_
    simp only [room, Machine.next, step, scheduleFlush, spawn, callFlush, flushBegin, flushLock,
      flushWrite, flushEnd, commitEnter, commitSnapshot, commitWrite, commitClear,
      commitReturn] at h
    repeat' split at h
    all_goals first
      | exact h
      | cases h

end Room

/-- While fewer than `recentCapacity` commits of its session came later, the key is there. -/
def PersistedRoomState.Recalls (session : String) (key : ConsumptionKey) (n : ℕ)
    (p : PersistedRoomState) : Prop :=
  n < recentCapacity → Window.Within key n (p.recentOf session)

theorem PersistedRoomState.Recalls.mono {session : String} {key : ConsumptionKey} {n m : ℕ}
    {p : PersistedRoomState} (h : p.Recalls session key n) (hnm : n ≤ m) :
    p.Recalls session key m :=
  fun hm => (h (lt_of_le_of_lt hnm hm)).mono hnm

namespace Room
variable {s : Room} {e : RoomEvent}

/-- Memory recalls a key through a step, one commit of its session at a time. -/
theorem recalls_memory_next {session : String} {key : ConsumptionKey} {n : ℕ}
    (h : s.memory.toPersisted.Recalls session key n) (hrem : s.Remembers e) (hrs : e ≠ .restart) :
    (room.next s e).memory.toPersisted.Recalls session key
      (n + commitsOf session [room.answer s e]) := by
  unfold PersistedRoomState.Recalls at h ⊢
  rw [RoomState.recentOf_toPersisted] at h ⊢
  rcases recentOf_next hrem hrs session with ⟨new, hc, -, hrecent⟩ | ⟨hc, hrecent⟩
  · rw [commitsOf_committed hc, hrecent]
    exact fun hn => (h (by omega)).push hn new
  · rw [commitsOf_other hc, hrecent]
    exact h

/-- A property of the memory, of the file and of the fresh snapshots on their way to it. -/
structure Tracked (P : PersistedRoomState → Prop) (fresh : ℕ → Prop) (filed : Prop) (s : Room) :
    Prop where
  wellLocked : s.WellLocked
  memory : P s.memory.toPersisted
  file : filed → P s.file
  jobs : ∀ job p, s.Holds job p → fresh job → P p
  commit : ∀ effect p, s.Commits effect p → P p

theorem Tracked.next {P P' : PersistedRoomState → Prop} {fresh fresh' : ℕ → Prop}
    {filed filed' : Prop} (h : s.Tracked P fresh filed) (hmono : ∀ p, P p → P' p)
    (hmem : P' (room.next s e).memory.toPersisted)
    (hfresh : ∀ job, ¬ (e = .flushBegin job ∧ s.jobs job = .pending) → fresh' job → fresh job)
    (hwrite : ∀ job p stamp, e = .flushWrite none → s.lock = .flush job p stamp → filed' →
      fresh job)
    (hfiled : filed' → filed ∨ (∃ job p stamp, e = .flushWrite none ∧ s.lock = .flush job p stamp) ∨
      ∃ effect p, e = .commitWrite none ∧ s.Commits effect p) :
    (room.next s e).Tracked P' fresh' filed' := by
  refine ⟨wellLocked_next h.wellLocked, hmem, fun hf => ?_, fun job p hp hj => ?_,
    fun effect p hp => ?_⟩
  · rcases hfiled hf with hold | ⟨job, p, stamp, rfl, hlock⟩ | ⟨effect, p, rfl, hlock⟩
    · rcases file_next (s := s) (e := e) with
        hsame | ⟨job, p, stamp, he, hlock, hp⟩ | ⟨effect, p, -, hp, hfile⟩
      · rw [hsame]
        exact hmono _ (h.file hold)
      · rw [hp]
        exact hmono _ (h.jobs job p (Or.inr ⟨stamp, hlock⟩) (hwrite job p stamp he hlock hf))
      · rw [hfile]
        exact hmono _ (h.commit effect p hp)
    · have hfile : (room.next s (.flushWrite none)).file = p := by
        simp only [room, Machine.next, step, flushWrite, hlock]
      rw [hfile]
      exact hmono _ (h.jobs job p (Or.inr ⟨stamp, hlock⟩) (hwrite job p stamp rfl hlock hf))
    · have hfile : (room.next s (.commitWrite none)).file = p := by
        unfold Commits at hlock
        simp only [room, Machine.next, step, commitWrite, hlock]
      rw [hfile]
      exact hmono _ (h.commit effect p hlock)
  · rcases holds_next h.wellLocked hp with ⟨hold, hn⟩ | ⟨rfl, -, rfl⟩
    · exact hmono _ (h.jobs job p hold (hfresh job hn hj))
    · exact hmono _ h.memory
  · rcases commits_next hp with hold | ⟨-, -, rfl⟩
    · exact hmono _ (h.commit effect p hold)
    · exact hmono _ h.memory

/-- A restart keeps of what is known what the file knows. -/
theorem tracked_start {P : PersistedRoomState → Prop} (fresh : ℕ → Prop) (filed : Prop)
    {file : PersistedRoomState} (hload : P file → P (RoomState.load file).toPersisted)
    (h : P file) : (start file).Tracked P fresh filed :=
  ⟨wellLocked_start file, hload h, fun _ => h,
    fun job _ hp _ => absurd (Or.inl ⟨job, hp⟩) not_carries_start,
    fun effect _ hp => absurd (Or.inr ⟨effect, hp⟩) not_carries_start⟩

end Room
end AgentsCommander.Capture
