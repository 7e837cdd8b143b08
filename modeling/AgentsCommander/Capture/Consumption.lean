import AgentsCommander.Capture.Evidence

/-! At most one consumption of a captured answer: the bounded window excludes a replay as
long as the key is still in it, and a restart as long as the file has seen every commit
that returned. -/
namespace AgentsCommander.Capture
open Foundation

/-- Counts a commit of the key that returned `Ok`. -/
def RoomReply.returns (session : String) (key : ConsumptionKey) : RoomReply → ℕ
  | .returned (.ok effect) => if effect.sessionId = session ∧ effect.key = key then 1 else 0
  | _ => 0

/-- How many commits have reserved: so far, when each job took its snapshot, when the
snapshot in the file was taken, and when the last `Ok` was returned; and, for a key whose
commit returned `Ok`, how many commits of its session have reserved since. -/
structure Ledger where
  reserves : ℕ
  snapAt : ℕ → ℕ
  fileAt : ℕ
  returnedAt : ℕ
  age : String → ConsumptionKey → Option ℕ

namespace Ledger

def start : Ledger := ⟨0, fun _ => 0, 0, 0, fun _ _ => none⟩

def reserve (g : Ledger) (session : String) : Ledger :=
  { g with
    reserves := g.reserves + 1
    age := fun s k => (g.age s k).map fun n => if s = session then n + 1 else n }

def settle (g : Ledger) (session : String) (key : ConsumptionKey) : Ledger :=
  { g with
    returnedAt := g.reserves
    age := fun s k => if s = session ∧ k = key then some 0 else g.age s k }

def record (g : Ledger) (s : Room) (e : RoomEvent) (reply : RoomReply) : Ledger :=
  match e with
  | .flushBegin job =>
    match s.jobs job with
    | .pending => { g with snapAt := Function.update g.snapAt job g.reserves }
    | _ => g
  | .flushWrite none =>
    match s.lock with
    | .flush job _ _ => { g with fileAt := g.snapAt job }
    | _ => g
  | .commitWrite none =>
    match s.lock with
    | .commit (.snapped _ _) => { g with fileAt := g.reserves }
    | _ => g
  | _ =>
    match reply with
    | .reserved (.ok effect) => g.reserve effect.sessionId
    | .returned (.ok effect) => g.settle effect.sessionId effect.key
    | _ => g

end Ledger

def ledger : Machine (Room × Ledger) RoomEvent RoomReply := room.trace Ledger.record

/-- A key that was consumed comes back within `recentCapacity` commits of its session, no
commit merges a key that memory has dropped, and the process restarts only when the file
has seen every commit that returned `Ok`. -/
def Unforgotten (x : Room × Ledger) : RoomEvent → Prop
  | .commitReserve now slot normalisePath =>
    x.1.Remembers (.commitReserve now slot normalisePath) ∧
      ∀ call, x.1.lock = .commit (.entered call) →
        ∀ n, x.2.age call.pre.sessionId call.expectedKey = some n → n < recentCapacity
  | .restart => x.2.returnedAt ≤ x.2.fileAt
  | _ => True

theorem Unforgotten.remembers {x : Room × Ledger} {e : RoomEvent} (h : Unforgotten x e) :
    x.1.Remembers e := by
  cases e with
  | commitReserve now slot normalisePath => exact h.1
  | _ => trivial

/-- The effect that the commit under the lock has reserved. -/
def Lock.effect : Lock → Option CommittedEffect
  | .commit (.reserved effect) | .commit (.snapped effect _) | .commit (.written effect)
  | .commit (.leaving (.ok effect)) => some effect
  | _ => none

namespace Room
variable {s : Room} {e : RoomEvent}

/-- An effect stays in the hand of its commit until it is returned. -/
theorem effect_next {effect : CommittedEffect} (h : (room.next s e).lock.effect = some effect) :
    (s.lock.effect = some effect ∧ (room.answer s e).committed = none) ∨
      (room.answer s e = .reserved (.ok effect) ∧
        (room.next s e).lock = .commit (.reserved effect)) := by
  cases e with
  | commitReserve now slot normalisePath =>
    simp only [room, Machine.next, Machine.answer, step, commitReserve] at h ⊢
    split at h
    · rename_i call hlock
      split at h
      · cases h
      · rename_i routable hcheck
        rcases s.memory.reserve_cases s.file call.pre.sessionId call.expectedKey call.pre.kind
          routable with ⟨reason, he⟩ | ⟨he, -⟩
        · rw [he] at h
          cases h
        · rw [he] at h ⊢
          cases h
          exact Or.inr ⟨rfl, rfl⟩
    · exact Or.inl ⟨h, rfl⟩
  | restart => cases h
  | _ =>
    refine Or.inl ⟨?_, committed_eq_none (by simp)⟩
    simp only [room, Machine.next, step, scheduleFlush, spawn, callFlush, flushBegin, flushLock,
      flushWrite, flushEnd, commitEnter, commitSnapshot, commitWrite, commitClear,
      commitReturn] at h
    repeat' split at h
    all_goals first
      | exact h
      | cases h <;> simp only [*, Lock.effect]

theorem returned_ok {effect : CommittedEffect} (h : room.answer s e = .returned (.ok effect)) :
    e = .commitReturn ∧ s.lock = .commit (.leaving (.ok effect)) := by
  cases e with
  | commitReturn =>
    simp only [room, Machine.answer, step, commitReturn] at h
    split at h
    · rename_i outcome hlock
      exact ⟨rfl, hlock.trans (by rw [RoomReply.returned.inj h])⟩
    · cases h
  | _ =>
    simp only [room, Machine.answer, step, scheduleFlush, spawn, callFlush, flushBegin, flushLock,
      flushWrite, flushEnd, commitEnter, commitReserve, commitSnapshot, commitWrite,
      commitClear] at h
    repeat' split at h
    all_goals cases h

end Room

variable {x : Room × Ledger} {e : RoomEvent}

theorem ledger_next_snd :
    (ledger.next x e).2 = x.2.record x.1 e (room.answer x.1 e) := rfl

/-- The ledger counts exactly the commits that reserve. -/
theorem reserves_next :
    (ledger.next x e).2.reserves =
      x.2.reserves + if (room.answer x.1 e).committed.isSome then 1 else 0 := by
  rw [ledger_next_snd]
  unfold Ledger.record
  split
  · rw [Room.committed_eq_none (by simp)]
    split <;> rfl
  · rw [Room.committed_eq_none (by simp)]
    split <;> rfl
  · rw [Room.committed_eq_none (by simp)]
    split <;> rfl
  · split
    · rename_i hans
      rw [hans]
      rfl
    · rename_i hans
      rw [hans]
      rfl
    · rename_i hok hret
      cases hans : room.answer x.1 e with
      | reserved outcome =>
        cases outcome with
        | error reason => rfl
        | ok effect => exact absurd hans (hok effect)
      | _ => rfl

/-- A job's mark moves only when it takes a snapshot. -/
theorem snapAt_next (job : ℕ) (h : ¬ (e = .flushBegin job ∧ x.1.jobs job = .pending)) :
    (ledger.next x e).2.snapAt job = x.2.snapAt job := by
  rw [ledger_next_snd]
  unfold Ledger.record
  split
  · rename_i j
    split
    · rename_i hj
      have hne : job ≠ j := by
        rintro rfl
        exact h ⟨rfl, hj⟩
      simp [hne]
    · rfl
  · split <;> rfl
  · split <;> rfl
  · split <;> rfl

theorem fileAt_next :
    (ledger.next x e).2.fileAt = x.2.fileAt ∨
      (∃ job p stamp, e = .flushWrite none ∧ x.1.lock = .flush job p stamp ∧
        (ledger.next x e).2.fileAt = x.2.snapAt job) ∨
      ∃ effect p, e = .commitWrite none ∧ x.1.Commits effect p ∧
        (ledger.next x e).2.fileAt = x.2.reserves := by
  rw [ledger_next_snd]
  unfold Ledger.record
  split
  · split <;> exact Or.inl rfl
  · split
    · rename_i job p stamp hlock
      exact Or.inr (Or.inl ⟨job, p, stamp, rfl, hlock, rfl⟩)
    · exact Or.inl rfl
  · split
    · rename_i effect p hlock
      exact Or.inr (Or.inr ⟨effect, p, rfl, hlock, rfl⟩)
    · exact Or.inl rfl
  · split <;> exact Or.inl rfl

/-- What is known of a consumed key once `r` commits had reserved: memory recalls it, and so
does every snapshot taken since. -/
def Known (session : String) (key : ConsumptionKey) (r n : ℕ) (x : Room × Ledger) : Prop :=
  x.1.Tracked (PersistedRoomState.Recalls session key n) (fun job => r ≤ x.2.snapAt job)
    (r ≤ x.2.fileAt)

theorem known_next {session : String} {key : ConsumptionKey} {r n : ℕ}
    (h : Known session key r n x) (hok : Unforgotten x e) (hrs : e ≠ .restart) :
    Known session key r (n + commitsOf session [room.answer x.1 e]) (ledger.next x e) := by
  refine Room.Tracked.next h (fun p hp => hp.mono (Nat.le_add_right _ _))
    (Room.recalls_memory_next h.memory hok.remembers hrs) (fun job hn hj => ?_)
    (fun job p stamp he hlock hf => ?_) fun hf => ?_
  · exact (snapAt_next job hn) ▸ hj
  · subst he
    rw [ledger_next_snd] at hf
    simpa only [Ledger.record, hlock] using hf
  · rcases fileAt_next (x := x) (e := e) with hs | ⟨job, p, stamp, he, hl, -⟩ | ⟨effect, p, he, hl, -⟩
    · exact Or.inl (hs ▸ hf)
    · exact Or.inr (Or.inl ⟨job, p, stamp, he, hl⟩)
    · exact Or.inr (Or.inr ⟨effect, p, he, hl⟩)

/-- The marks never run ahead, and the key of a commit in flight is known since its own
reservation. -/
structure Kept (x : Room × Ledger) : Prop where
  wellLocked : x.1.WellLocked
  snapAt : ∀ job, x.2.snapAt job ≤ x.2.reserves
  fileAt : x.2.fileAt ≤ x.2.reserves
  returnedAt : x.2.returnedAt ≤ x.2.reserves
  inFlight : ∀ effect, x.1.lock.effect = some effect →
    Known effect.sessionId effect.key x.2.reserves 0 x

theorem kept_start (file : PersistedRoomState) : Kept (.start file, .start) :=
  ⟨Room.wellLocked_start file, fun _ => le_rfl, le_rfl, le_rfl, fun _ h => by cases h⟩

theorem Room.reserved_ok {s : Room} {effect : CommittedEffect}
    (h : room.answer s e = .reserved (.ok effect)) :
    ∃ now slot normalisePath, e = .commitReserve now slot normalisePath := by
  by_contra hn
  have hnone : (room.answer s e).committed = none :=
    committed_eq_none fun now slot normalisePath he => hn ⟨now, slot, normalisePath, he⟩
  rw [h] at hnone
  cases hnone

theorem ledger_reserve {effect : CommittedEffect}
    (h : room.answer x.1 e = .reserved (.ok effect)) :
    (ledger.next x e).2 = x.2.reserve effect.sessionId := by
  obtain ⟨now, slot, normalisePath, rfl⟩ := Room.reserved_ok h
  rw [ledger_next_snd, h]
  rfl

theorem ledger_settle {effect : CommittedEffect}
    (h : room.answer x.1 e = .returned (.ok effect)) :
    (ledger.next x e).2 = x.2.settle effect.sessionId effect.key := by
  obtain ⟨rfl, -⟩ := Room.returned_ok h
  rw [ledger_next_snd, h]
  rfl

theorem ledger_other (hres : ∀ effect, room.answer x.1 e ≠ .reserved (.ok effect))
    (hret : ∀ effect, room.answer x.1 e ≠ .returned (.ok effect)) :
    (ledger.next x e).2.age = x.2.age ∧ (ledger.next x e).2.returnedAt = x.2.returnedAt := by
  rw [ledger_next_snd]
  unfold Ledger.record
  split
  · split <;> exact ⟨rfl, rfl⟩
  · split <;> exact ⟨rfl, rfl⟩
  · split <;> exact ⟨rfl, rfl⟩
  · split
    · rename_i effect hans
      exact absurd hans (hres effect)
    · rename_i effect hans
      exact absurd hans (hret effect)
    · exact ⟨rfl, rfl⟩

theorem reserves_le_next : x.2.reserves ≤ (ledger.next x e).2.reserves := by
  rw [reserves_next]
  exact Nat.le_add_right _ _

theorem returnedAt_next (h : Kept x) :
    x.2.returnedAt ≤ (ledger.next x e).2.returnedAt ∧
      (ledger.next x e).2.returnedAt ≤ x.2.reserves := by
  by_cases hres : ∃ effect, room.answer x.1 e = .reserved (.ok effect)
  · obtain ⟨effect, hans⟩ := hres
    rw [ledger_reserve hans]
    exact ⟨le_rfl, h.returnedAt⟩
  by_cases hret : ∃ effect, room.answer x.1 e = .returned (.ok effect)
  · obtain ⟨effect, hans⟩ := hret
    rw [ledger_settle hans]
    exact ⟨h.returnedAt, le_rfl⟩
  · rw [(ledger_other (not_exists.mp hres) (not_exists.mp hret)).2]
    exact ⟨le_rfl, h.returnedAt⟩

/-- A key is known from the moment its commit reserves. -/
theorem known_reserve {effect : CommittedEffect} (h : Kept x) (hok : Unforgotten x e)
    (hans : room.answer x.1 e = .reserved (.ok effect))
    (hlock : (room.next x.1 e).lock = .commit (.reserved effect)) :
    Known effect.sessionId effect.key (x.2.reserves + 1) 0 (ledger.next x e) := by
  obtain ⟨now, slot, normalisePath, rfl⟩ := Room.reserved_ok hans
  have hcommitted : (room.answer x.1 (.commitReserve now slot normalisePath)).committed =
      some (effect.sessionId, effect.key) := by
    rw [hans]
    rfl
  have hledger := ledger_reserve hans
  refine ⟨Room.wellLocked_next h.wellLocked, fun _ => ?_, fun hf => ?_, fun job p _ hj => ?_,
    fun effect' p hp => ?_⟩
  · rcases Room.recentOf_next hok.remembers (by simp) effect.sessionId with
      ⟨key, hc, -, hrecent⟩ | ⟨hc, -⟩
    · have hkey := (Prod.ext_iff.mp (Option.some.inj (hc.symm.trans hcommitted))).2
      dsimp only at hkey
      rw [hkey] at hrecent
      have hpush := Window.within_push_self recentCapacity (x.1.memory.recentOf effect.sessionId)
        effect.key
      rw [← hrecent] at hpush
      exact hpush
    · exact absurd hcommitted (hc _)
  · rw [hledger] at hf
    exact absurd (hf.trans h.fileAt) (Nat.not_succ_le_self _)
  · rw [hledger] at hj
    exact absurd (hj.trans (h.snapAt job)) (Nat.not_succ_le_self _)
  · have hcommit : (room.next x.1 (.commitReserve now slot normalisePath)).lock =
        .commit (.snapped effect' p) := hp
    rw [hlock] at hcommit
    cases hcommit

theorem kept_next (h : Kept x) (hok : Unforgotten x e) : Kept (ledger.next x e) := by
  have hle := reserves_le_next (x := x) (e := e)
  refine ⟨Room.wellLocked_next h.wellLocked, fun job => ?_, ?_,
    (returnedAt_next h).2.trans hle, fun effect heffect => ?_⟩
  · by_cases hb : e = .flushBegin job ∧ x.1.jobs job = .pending
    · obtain ⟨rfl, hjob⟩ := hb
      rw [ledger_next_snd]
      simp only [Ledger.record, hjob, Function.update_self, le_rfl]
    · rw [snapAt_next job hb]
      exact (h.snapAt job).trans hle
  · rcases fileAt_next (x := x) (e := e) with hf | ⟨job, _, _, _, _, hf⟩ | ⟨_, _, _, _, hf⟩
    · exact hf ▸ h.fileAt.trans hle
    · exact hf ▸ (h.snapAt job).trans hle
    · exact hf ▸ hle
  · rcases Room.effect_next heffect with ⟨hold, hnone⟩ | ⟨hans, hlock⟩
    · have hrs : e ≠ .restart := by
        rintro rfl
        cases heffect
      have hknown := known_next (h.inFlight effect hold) hok hrs
      rw [commitsOf_other fun key => by rw [hnone]; simp] at hknown
      rw [reserves_next, hnone]
      exact hknown
    · rw [reserves_next, hans]
      exact known_reserve h hok hans hlock

/-- The key was consumed, and everything a commit or a restart reads still says so. -/
structure Consumed (session : String) (key : ConsumptionKey) (x : Room × Ledger) : Prop where
  released : ∀ effect, x.1.lock.effect = some effect →
    ¬ (effect.sessionId = session ∧ effect.key = key)
  known : ∃ r n, r ≤ x.2.returnedAt ∧ x.2.age session key = some n ∧ Known session key r n x

theorem returns_eq_zero {session : String} {key : ConsumptionKey} {reply : RoomReply}
    (h : ∀ effect, reply = .returned (.ok effect) →
      ¬ (effect.sessionId = session ∧ effect.key = key)) : reply.returns session key = 0 := by
  unfold RoomReply.returns
  split
  · rename_i effect
    exact if_neg (h effect rfl)
  · rfl

theorem returns_le_one (session : String) (key : ConsumptionKey) (reply : RoomReply) :
    reply.returns session key ≤ 1 := by
  unfold RoomReply.returns
  split
  · split_ifs <;> omega
  · omega

theorem consumed_of_returns {session : String} {key : ConsumptionKey} (h : Kept x)
    (hok : Unforgotten x e) (hr : 0 < (room.answer x.1 e).returns session key) :
    Consumed session key (ledger.next x e) := by
  obtain ⟨effect, hans, rfl, rfl⟩ : ∃ effect, room.answer x.1 e = .returned (.ok effect) ∧
      effect.sessionId = session ∧ effect.key = key := by
    by_contra hn
    refine absurd (returns_eq_zero fun effect he hk => hn ⟨effect, he, hk⟩) hr.ne'
  have hcommits : commitsOf effect.sessionId [room.answer x.1 e] = 0 := by
    rw [hans]
    rfl
  have hledger := ledger_settle hans
  obtain ⟨rfl, hlock⟩ := Room.returned_ok hans
  have hknown := known_next (h.inFlight effect (by rw [hlock]; rfl)) hok (by simp)
  rw [hcommits] at hknown
  refine ⟨fun effect' heffect => ?_, x.2.reserves, 0, ?_, ?_, hknown⟩
  · have hfree : (room.next x.1 .commitReturn).lock = .free := by
      simp only [room, Machine.next, Room.step, Room.commitReturn, hlock]
    have hnone : (room.next x.1 .commitReturn).lock.effect = some effect' := heffect
    rw [hfree] at hnone
    cases hnone
  · rw [hledger]
    exact le_rfl
  · rw [hledger]
    exact if_pos ⟨rfl, rfl⟩

/-- A consumed key whose evidence is still there is refused. -/
theorem not_reserved_of_consumed {session : String} {key : ConsumptionKey} {effect : CommittedEffect}
    (hc : Consumed session key x) (hok : Unforgotten x e)
    (hans : room.answer x.1 e = .reserved (.ok effect)) :
    ¬ (effect.sessionId = session ∧ effect.key = key) := by
  rintro ⟨rfl, rfl⟩
  obtain ⟨now, slot, normalisePath, rfl⟩ := Room.reserved_ok hans
  obtain ⟨r, n, -, hage, hknown⟩ := hc.known
  rcases Room.commitReserve_next now slot normalisePath hok.1 with
    ⟨hnone, -⟩ | ⟨call, effect', hlock, hsession, hkey, hans', -, hnew, -⟩
  · rw [hans] at hnone
    cases hnone
  · cases Except.ok.inj (RoomReply.reserved.inj (hans.symm.trans hans'))
    have hn : n < recentCapacity := hok.2 call hlock n (by rw [← hsession, ← hkey]; exact hage)
    exact hnew (hknown.memory hn).mem

theorem age_next {session : String} {key : ConsumptionKey} {n : ℕ} (hc : Consumed session key x)
    (hage : x.2.age session key = some n) :
    (ledger.next x e).2.age session key =
      some (n + commitsOf session [room.answer x.1 e]) := by
  by_cases hres : ∃ effect, room.answer x.1 e = .reserved (.ok effect)
  · obtain ⟨effect, hans⟩ := hres
    rw [ledger_reserve hans, hans]
    simp only [Ledger.reserve, hage, Option.map_some]
    have hcommitted : (RoomReply.reserved (.ok effect)).committed =
        some (effect.sessionId, effect.key) := rfl
    split_ifs with hs
    · rw [commitsOf_committed (hs ▸ hcommitted)]
    · rw [commitsOf_other fun key hk =>
        hs (Prod.ext_iff.mp (Option.some.inj (hcommitted.symm.trans hk))).1.symm]
      rfl
  have hnone : commitsOf session [room.answer x.1 e] = 0 := by
    refine commitsOf_other fun key hk => ?_
    cases hans : room.answer x.1 e with
    | reserved outcome =>
      cases outcome with
      | ok effect => exact hres ⟨effect, hans⟩
      | error reason => simp [hans, RoomReply.committed] at hk
    | _ => simp [hans, RoomReply.committed] at hk
  rw [hnone, add_zero]
  by_cases hret : ∃ effect, room.answer x.1 e = .returned (.ok effect)
  · obtain ⟨effect, hans⟩ := hret
    obtain ⟨-, hlock⟩ := Room.returned_ok hans
    rw [ledger_settle hans]
    have hother := hc.released effect (by rw [hlock]; rfl)
    change (if session = effect.sessionId ∧ key = effect.key then _ else _) = _
    rw [if_neg fun he => hother ⟨he.1.symm, he.2.symm⟩]
    exact hage
  · rw [(ledger_other (not_exists.mp hres) (not_exists.mp hret)).1]
    exact hage

theorem consumed_next {session : String} {key : ConsumptionKey} (h : Kept x)
    (hok : Unforgotten x e) (hc : Consumed session key x) :
    (room.answer x.1 e).returns session key = 0 ∧ Consumed session key (ledger.next x e) := by
  refine ⟨returns_eq_zero fun effect hans => ?_, fun effect heffect => ?_, ?_⟩
  · obtain ⟨-, hlock⟩ := Room.returned_ok hans
    exact hc.released effect (by rw [hlock]; rfl)
  · rcases Room.effect_next heffect with ⟨hold, -⟩ | ⟨hans, -⟩
    · exact hc.released effect hold
    · exact not_reserved_of_consumed hc hok hans
  · obtain ⟨r, n, hr, hage, hknown⟩ := hc.known
    refine ⟨r, n + commitsOf session [room.answer x.1 e], hr.trans (returnedAt_next h).1,
      age_next hc hage, ?_⟩
    by_cases hrs : e = .restart
    · subst hrs
      have hfile := hknown.file (hr.trans hok)
      exact Room.tracked_start _ _ (fun hp => hp) hfile
    · exact known_next hknown hok hrs

/-- The same answer is offered again after a restart. -/
def committedAcrossRestart : List RoomEvent :=
  commitOf (answerRecord 0) .textToUser ++ .restart :: commitOf (answerRecord 0) .textToUser

/-- Sixty-five answers of one session, and then the first of them again. -/
def evictedAnswer : List RoomEvent :=
  ((List.range 65).map answerRecord ++ [answerRecord 0]).flatMap (commitOf · .textToUser)

end AgentsCommander.Capture
