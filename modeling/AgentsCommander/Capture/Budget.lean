import Mathlib.Data.Prod.Lex
import AgentsCommander.Capture.DirtyLaw

/-! The routing budget of one process: the pair of recharge stamp and spends never falls
behind a copy on disk, so within one recharge period every routable commit counts. -/
namespace AgentsCommander.Capture
open Foundation

namespace RoomState

@[simp] theorem rank_toPersisted (m : RoomState) : m.toPersisted.rank = m.rank := rfl

@[simp] theorem rank_load (p : PersistedRoomState) : (load p).rank = p.rank := rfl

@[simp] theorem rank_observe (m : RoomState) (path : String) (observation : FileObservation) :
    (m.observe path observation).1.rank = m.rank := by
  unfold observe
  split
  · split_ifs <;> rfl
  · rfl

/-- A recharge outranks everything before it. -/
theorem rank_rechargeInMemory (m : RoomState) : m.rank < m.rechargeInMemory.rank :=
  Prod.Lex.toLex_lt_toLex.mpr (Or.inl (Nat.lt_succ_self _))

/-- The budget merge is the lexicographic maximum. -/
theorem rank_reconcile (m : RoomState) (disk : PersistedRoomState) :
    (m.reconcile disk).rank = max m.rank disk.rank := by
  unfold reconcile
  split_ifs with hlt heq
  · exact (max_eq_right (Prod.Lex.toLex_le_toLex.mpr (Or.inl hlt))).symm
  · change toLex (m.rechargeStamp, max m.spendsSinceRecharge disk.spends) = _
    rcases le_total m.spendsSinceRecharge disk.spends with hle | hle
    · have hrank : m.rank ≤ disk.rank := Prod.Lex.toLex_le_toLex.mpr (Or.inr ⟨heq, hle⟩)
      rw [max_eq_right hle, max_eq_right hrank, heq]
      rfl
    · have hrank : disk.rank ≤ m.rank := Prod.Lex.toLex_le_toLex.mpr (Or.inr ⟨heq.symm, hle⟩)
      rw [max_eq_left hle, max_eq_left hrank]
      rfl
  · have hgt : disk.rechargeStamp < m.rechargeStamp := by omega
    exact (max_eq_left (Prod.Lex.toLex_le_toLex.mpr (Or.inl hgt))).symm

theorem rank_mark (m : RoomState) (sessionId : String) (key : ConsumptionKey) (routable : Bool) :
    (m.mark sessionId key routable).rank = toLex (m.rechargeStamp,
      if routable then min (m.spendsSinceRecharge + 1) u32Max else m.spendsSinceRecharge) := by
  unfold mark spend remember raiseWatermark
  cases key.recordStart <;> cases routable <;> rfl

/-- A commit against a file that is not ahead: a routable one finds budget left and spends
one unit, any other leaves the pair alone. -/
theorem rank_reserve {m : RoomState} {disk : PersistedRoomState} (hdisk : disk.rank ≤ m.rank)
    (sessionId : String) (key : ConsumptionKey) (kind : EffectKind) (routable : Bool) :
    ((∃ reason, (m.reserve disk sessionId key kind routable).2 = .error reason) ∧
      (m.reserve disk sessionId key kind routable).1.rank = m.rank) ∨
    (∃ effect, (m.reserve disk sessionId key kind routable).2 = .ok effect ∧
      effect.routable = routable ∧
      (routable = true → m.spendsSinceRecharge < budgetCap) ∧
      (m.reserve disk sessionId key kind routable).1.rank = toLex (m.rechargeStamp,
        if routable then m.spendsSinceRecharge + 1 else m.spendsSinceRecharge)) := by
  have hmerge : (m.reconcile disk).rank = m.rank := by rw [rank_reconcile, max_eq_left hdisk]
  have hpair := Prod.ext_iff.mp (congrArg ofLex hmerge)
  have hstamp : (m.reconcile disk).rechargeStamp = m.rechargeStamp := hpair.1
  have hspends : (m.reconcile disk).spendsSinceRecharge = m.spendsSinceRecharge := hpair.2
  rcases m.reserve_cases disk sessionId key kind routable with ⟨reason, he⟩ | ⟨he, -, hb⟩
  · rw [he]
    exact Or.inl ⟨⟨reason, rfl⟩, hmerge⟩
  · rw [he]
    refine Or.inr ⟨_, rfl, rfl, ?_⟩
    rw [rank_mark, hstamp, hspends]
    cases routable with
    | false => exact ⟨nofun, rfl⟩
    | true =>
      have hleft : m.spendsSinceRecharge < budgetCap := by
        have := hb rfl
        unfold budget at this
        rw [hspends] at this
        omega
      refine ⟨fun _ => hleft, ?_⟩
      have hsmall : m.spendsSinceRecharge + 1 ≤ u32Max := by
        unfold budgetCap at hleft
        unfold u32Max
        omega
      rw [if_pos rfl, if_pos rfl, min_eq_left hsmall]

end RoomState

namespace Room

/-- Memory is at least as far as the file and every snapshot on its way to it. -/
structure Ahead (s : Room) : Prop where
  wellLocked : s.WellLocked
  file : s.file.rank ≤ s.memory.rank
  carried : ∀ p, s.Carries p → p.rank ≤ s.memory.rank

variable {s : Room} {e : RoomEvent}

theorem ahead_start (file : PersistedRoomState) : (start file).Ahead :=
  ⟨wellLocked_start file, le_rfl, fun _ h => absurd h not_carries_start⟩

/-- Nothing but a restart takes the pair back. -/
theorem rank_le_next (h : s.Ahead) (he : e ≠ .restart) :
    s.memory.rank ≤ (room.next s e).memory.rank := by
  cases memory_next (s := s) (e := e) with
  | kept hm =>
    rw [← RoomState.rank_toPersisted, ← RoomState.rank_toPersisted, hm]
  | observed path observation _ hm =>
    rw [hm, RoomState.rank_observe]
  | recharged _ hm =>
    rw [hm]
    exact (RoomState.rank_rechargeInMemory _).le
  | reserved _ _ _ _ call routable _ _ hm =>
    rw [hm]
    rcases RoomState.rank_reserve h.file call.pre.sessionId call.expectedKey call.pre.kind
      routable with ⟨-, hr⟩ | ⟨_, _, _, _, hr⟩
    · exact hr.ge
    · rw [hr]
      refine Prod.Lex.toLex_le_toLex.mpr (Or.inr ⟨rfl, ?_⟩)
      dsimp only
      split_ifs <;> omega
  | loaded hr _ => exact absurd hr he

theorem ahead_next (h : s.Ahead) : (room.next s e).Ahead := by
  by_cases he : e = .restart
  · subst he
    exact ahead_start s.file
  have hle := rank_le_next h he
  refine ⟨wellLocked_next h.wellLocked, ?_, fun p hp => ?_⟩
  · rcases carries_of_file_next (s := s) (e := e) with hf | hf
    · rw [hf]
      exact h.file.trans hle
    · exact (h.carried _ hf).trans hle
  · rcases carries_next h.wellLocked hp with hp | rfl
    · exact (h.carried p hp).trans hle
    · exact hle

theorem ahead_run (file : PersistedRoomState) (es : List RoomEvent) :
    (room.run (.start file) es).Ahead :=
  Machine.run_inv_free (fun _ _ h => ahead_next h) (ahead_start file) es

end Room

/-- One for a routable commit that reserved its effect. -/
def RoomReply.routableCommits : RoomReply → ℕ
  | .reserved (.ok effect) => if effect.routable then 1 else 0
  | _ => 0

namespace Room
variable {s : Room} {e : RoomEvent}

/-- A step that is neither a recharge nor a restart spends what its reply says. -/
theorem spends_next (h : s.Ahead) (hre : e ≠ .recharge) (hrs : e ≠ .restart) :
    (room.next s e).memory.spendsSinceRecharge =
        s.memory.spendsSinceRecharge + (room.answer s e).routableCommits ∧
      ((room.answer s e).routableCommits ≠ 0 → s.memory.spendsSinceRecharge < budgetCap) := by
  have hkept : ∀ {m : RoomState}, m.rank = s.memory.rank →
      m.spendsSinceRecharge = s.memory.spendsSinceRecharge :=
    fun hm => congrArg (fun r => (ofLex r).2) hm
  have hnone : (0 : ℕ) ≠ 0 → s.memory.spendsSinceRecharge < budgetCap := fun h => absurd rfl h
  cases e with
  | recharge => exact absurd rfl hre
  | restart => exact absurd rfl hrs
  | observe path observation => exact ⟨hkept (RoomState.rank_observe _ _ _), hnone⟩
  | commitReserve now slot normalisePath =>
    simp only [room, Machine.next, Machine.answer, step, commitReserve]
    split
    · rename_i call hlock
      split
      · exact ⟨rfl, hnone⟩
      · rename_i routable hcheck
        rcases RoomState.rank_reserve h.file call.pre.sessionId call.expectedKey call.pre.kind
          routable with ⟨⟨reason, he⟩, hr⟩ | ⟨effect, he, hroute, hleft, hr⟩
        · rw [he]
          exact ⟨hkept hr, hnone⟩
        · rw [he]
          have hspends := congrArg (fun r => (ofLex r).2) hr
          refine ⟨hspends.trans ?_, fun hne => hleft ?_⟩
          · change (if routable then _ else _) = _ + if effect.routable then 1 else 0
            rw [hroute]
            split_ifs <;> rfl
          · by_contra hf
            refine hne ?_
            change (if effect.routable then 1 else 0) = 0
            rw [hroute, if_neg hf]
    · exact ⟨rfl, hnone⟩
  | _ =>
    simp only [room, Machine.next, Machine.answer, step, scheduleFlush, spawn, callFlush,
      flushBegin, flushLock, flushWrite, flushEnd, commitEnter, commitSnapshot, commitWrite,
      commitClear, commitReturn]
    repeat' split
    all_goals exact ⟨rfl, hnone⟩

/-- Over a stretch without a recharge, the counter grows by the routable commits in it. -/
theorem spends_run (h : s.Ahead) {seg : List RoomEvent}
    (hseg : ∀ e ∈ seg, e ≠ .recharge ∧ e ≠ .restart) :
    (room.run s seg).memory.spendsSinceRecharge = s.memory.spendsSinceRecharge +
        ((room.answers s seg).map RoomReply.routableCommits).sum ∧
      (((room.answers s seg).map RoomReply.routableCommits).sum ≠ 0 →
        (room.run s seg).memory.spendsSinceRecharge ≤ budgetCap) := by
  induction seg generalizing s with
  | nil => exact ⟨rfl, fun hne => absurd rfl hne⟩
  | cons e seg ih =>
    obtain ⟨hre, hrs⟩ := hseg e List.mem_cons_self
    obtain ⟨hstep, hleft⟩ := spends_next h hre hrs
    obtain ⟨hrun, hcap⟩ := ih (ahead_next h) fun f hf => hseg f (List.mem_cons_of_mem _ hf)
    simp only [Machine.run_cons, Machine.answers, List.map_cons, List.sum_cons]
    refine ⟨by rw [hrun, hstep, add_assoc], fun hne => ?_⟩
    by_cases hz : ((room.answers (room.next s e) seg).map RoomReply.routableCommits).sum = 0
    · rw [hrun, hz, hstep, add_zero]
      have hw : (room.answer s e).routableCommits ≤ 1 := by
        unfold RoomReply.routableCommits
        split
        · split_ifs <;> omega
        · omega
      have := hleft (by omega)
      omega
    · exact hcap hz

end Room

/-- The budget of a run that starts from any file. -/
structure RoutingBudget (file : PersistedRoomState) (es : List RoomEvent) : Prop where
  /-- Between two recharges at most `budgetCap` routable commits succeed. -/
  capped : ∀ pre seg post, es = pre ++ (seg ++ post) →
    (∀ e ∈ seg, e ≠ .recharge ∧ e ≠ .restart) →
    ((room.answers (room.run (.start file) pre) seg).map RoomReply.routableCommits).sum ≤ budgetCap
  /-- The counter never falls below the routable commits since a recharge. -/
  counted : ∀ pre seg post, es = pre ++ (seg ++ post) →
    (∀ e ∈ seg, e ≠ .recharge ∧ e ≠ .restart) →
    ((room.answers (room.run (.start file) pre) seg).map RoomReply.routableCommits).sum ≤
      (room.run (.start file) (pre ++ seg)).memory.spendsSinceRecharge
  /-- A text for the user and a baseline spend nothing. -/
  free : ∀ pre now slot normalisePath post,
    es = pre ++ .commitReserve now slot normalisePath :: post →
    ∀ call, (room.run (.start file) pre).lock = .commit (.entered call) →
    (call.pre.kind = .textToUser ∨ ∃ record, slot.value = .valid record ∧ isBaseline record) →
    (room.run (.start file)
        (pre ++ [.commitReserve now slot normalisePath])).memory.spendsSinceRecharge =
      (room.run (.start file) pre).memory.spendsSinceRecharge

/-- What a check answers about a text for the user or a baseline. -/
theorem check_not_routable {call : CommitCall} {now : ℕ} {slot : SlotState}
    {normalisePath : String → String} {routable : Bool}
    (h : call.check now slot normalisePath = .ok routable)
    (hfree : call.pre.kind = .textToUser ∨
      ∃ record, slot.value = .valid record ∧ isBaseline record) : routable = false := by
  unfold CommitCall.check at h
  split_ifs at h
  split at h
  · cases h
  · rename_i candidate hcandidate
    split_ifs at h
    rw [← Except.ok.inj h]
    rcases hfree with hkind | ⟨record, hvalue, hbase⟩
    · simp [hkind]
    · rw [hvalue] at hcandidate
      rw [← Option.some.inj hcandidate, hbase]
      simp

theorem Room.routableCommits_commitReserve {s : Room} (now : ℕ) {slot : SlotState}
    (normalisePath : String → String) {call : CommitCall}
    (hlock : s.lock = .commit (.entered call))
    (hfree : call.pre.kind = .textToUser ∨
      ∃ record, slot.value = .valid record ∧ isBaseline record) :
    (room.answer s (.commitReserve now slot normalisePath)).routableCommits = 0 := by
  simp only [room, Machine.answer, step, commitReserve, hlock]
  split
  · rfl
  · rename_i routable hcheck
    rw [check_not_routable hcheck hfree]
    rcases s.memory.reserve_cases s.file call.pre.sessionId call.expectedKey call.pre.kind false
      with ⟨reason, he⟩ | ⟨he, -⟩
    · rw [he]
      rfl
    · rw [he]
      rfl

end AgentsCommander.Capture
