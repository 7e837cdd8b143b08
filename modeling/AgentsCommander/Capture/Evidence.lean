import AgentsCommander.Capture.Recent

/-! Published consumption evidence: what a commit wrote stays in the file as long as no
flush writes a snapshot from before it and no commit merges keys that memory has dropped. -/
namespace AgentsCommander.Capture
open Foundation

/-- How many commits have published, and how many had when each job took its snapshot. -/
structure Publications where
  count : ℕ
  seen : ℕ → ℕ

namespace Publications

def start : Publications := ⟨0, fun _ => 0⟩

def record (g : Publications) (s : Room) (e : RoomEvent) : Publications :=
  match e with
  | .flushBegin job =>
    match s.jobs job with
    | .pending => { g with seen := Function.update g.seen job g.count }
    | _ => g
  | .commitWrite none =>
    match s.lock with
    | .commit (.snapped _ _) => { g with count := g.count + 1 }
    | _ => g
  | _ => g

end Publications

def publishing : Machine (Room × Publications) RoomEvent RoomReply :=
  room.trace fun g s e _ => g.record s e

/-- No commit has published since the snapshot that a flush writes, and a commit merges
no key that memory has dropped. -/
def Unstale (x : Room × Publications) (e : RoomEvent) : Prop :=
  (e = .flushWrite none → ∀ job p stamp, x.1.lock = .flush job p stamp →
    x.2.seen job = x.2.count) ∧ x.1.Remembers e

/-- After a commit has published, every content of the file has its key until
`recentCapacity` later commits of the session, and never a lower pair. -/
def EvidenceKept (file : PersistedRoomState) (es : List RoomEvent) : Prop :=
  ∀ pre mid post, es = pre ++ .commitWrite none :: (mid ++ post) → ∀ effect p,
    (room.run (.start file) pre).lock = .commit (.snapped effect p) →
    p.rank ≤ (room.run (.start file) (pre ++ .commitWrite none :: mid)).file.rank ∧
    (commitsOf effect.sessionId
        (room.answers (room.run (.start file) (pre ++ [.commitWrite none])) mid) < recentCapacity →
      effect.key ∈ (room.run (.start file)
        (pre ++ .commitWrite none :: mid)).file.recentOf effect.sessionId)

/-- The window of a commit in flight still has its key at the end. -/
structure InHand (s : Room) : Prop where
  reserved : ∀ effect, s.lock = .commit (.reserved effect) →
    Window.Within effect.key 0 (s.memory.recentOf effect.sessionId)
  snapped : ∀ effect p, s.lock = .commit (.snapped effect p) →
    Window.Within effect.key 0 (p.recentOf effect.sessionId) ∧
      p.recentOf effect.sessionId = s.memory.recentOf effect.sessionId

theorem inHand_start (file : PersistedRoomState) : InHand (.start file) := by
  refine ⟨fun effect hl => ?_, fun effect p hl => ?_⟩
  · cases hl
  · cases hl

theorem inHand_next {s : Room} {e : RoomEvent} (h : InHand s) (hrem : s.Remembers e) :
    InHand (room.next s e) := by
  by_cases hrs : e = .restart
  · subst hrs
    exact inHand_start _
  have hkept : (∀ call, s.lock ≠ .commit (.entered call)) → ∀ session,
      (room.next s e).memory.recentOf session = s.memory.recentOf session := by
    intro hlock session
    rcases Room.recentOf_next hrem hrs session with ⟨key, hc, -⟩ | ⟨-, hsame⟩
    · obtain ⟨call, hcall⟩ := Room.entered_of_committed hc
      exact absurd hcall (hlock call)
    · exact hsame
  refine ⟨fun effect hl => ?_, fun effect p hl => ?_⟩
  · rcases Room.reserved_next hl with hold | hans
    · rw [hkept (by simp [hold])]
      exact h.reserved effect hold
    · have hcommitted : (room.answer s e).committed = some (effect.sessionId, effect.key) := by
        rw [hans]
        rfl
      rcases Room.recentOf_next hrem hrs effect.sessionId with ⟨key, hc, -, hrecent⟩ | ⟨hc, -⟩
      · have hkey := (Prod.ext_iff.mp (Option.some.inj (hc.symm.trans hcommitted))).2
        dsimp only at hkey
        rw [hrecent, hkey]
        exact Window.within_push_self _ _ _
      · exact absurd hcommitted (hc _)
  · rcases Room.commits_next hl with hold | ⟨-, hold, rfl⟩
    · have hlock : s.lock = .commit (.snapped effect p) := hold
      rw [hkept (by simp [hlock])]
      exact h.snapped effect p hold
    · rw [hkept (by simp [hold]), RoomState.recentOf_toPersisted]
      exact ⟨h.reserved effect hold, rfl⟩

structure Sound (x : Room × Publications) : Prop where
  ahead : x.1.Ahead
  inHand : InHand x.1
  seen : ∀ job, x.2.seen job ≤ x.2.count

theorem sound_start (file : PersistedRoomState) : Sound (.start file, .start) :=
  ⟨Room.ahead_start file, inHand_start file, fun _ => le_rfl⟩

variable {x : Room × Publications} {e : RoomEvent}

theorem count_le_record : x.2.count ≤ (publishing.next x e).2.count := by
  change x.2.count ≤ (x.2.record x.1 e).count
  unfold Publications.record
  repeat' split
  all_goals simp

/-- A job's mark moves only when it takes a snapshot. -/
theorem seen_record (job : ℕ) :
    (publishing.next x e).2.seen job = x.2.seen job ∨
      (e = .flushBegin job ∧ x.1.jobs job = .pending ∧
        (publishing.next x e).2.seen job = x.2.count) := by
  change (x.2.record x.1 e).seen job = _ ∨ _ ∧ _ ∧
    (x.2.record x.1 e).seen job = _
  unfold Publications.record
  split
  · rename_i j
    split
    · rename_i hj
      by_cases hjob : job = j
      · subst hjob
        exact Or.inr ⟨rfl, hj, by simp⟩
      · exact Or.inl (by simp [hjob])
    · exact Or.inl rfl
  · split <;> exact Or.inl rfl
  · exact Or.inl rfl

theorem sound_next (h : Sound x) (hok : Unstale x e) : Sound (publishing.next x e) := by
  refine ⟨Room.ahead_next h.ahead, inHand_next h.inHand hok.2, fun job => ?_⟩
  rcases seen_record (x := x) (e := e) job with hs | ⟨-, -, hs⟩
  · rw [hs]
    exact (h.seen job).trans count_le_record
  · rw [hs]
    exact count_le_record

/-- What the file must know of a published commit, `n` commits of its session later. -/
def Published (r : ℕ ×ₗ ℕ) (session : String) (key : ConsumptionKey) (n : ℕ)
    (p : PersistedRoomState) : Prop :=
  r ≤ p.rank ∧ p.Recalls session key n

theorem tracked_published_next {r : ℕ ×ₗ ℕ} {session : String} {key : ConsumptionKey} {n mark : ℕ}
    (hx : Sound x) (hmark : mark ≤ x.2.count) (hok : Unstale x e)
    (h : x.1.Tracked (Published r session key n) (fun job => mark ≤ x.2.seen job) True) :
    (publishing.next x e).1.Tracked
      (Published r session key (n + commitsOf session [publishing.answer x e]))
      (fun job => mark ≤ (publishing.next x e).2.seen job) True := by
  have hmono : ∀ p, Published r session key n p →
      Published r session key (n + commitsOf session [publishing.answer x e]) p :=
    fun p hp => ⟨hp.1, hp.2.mono (Nat.le_add_right _ _)⟩
  by_cases hrs : e = .restart
  · subst hrs
    refine Room.tracked_start _ _ (fun hp => hp) (hmono _ (h.file trivial))
  refine Room.Tracked.next h hmono ⟨?_, Room.recalls_memory_next h.memory.2 hok.2 hrs⟩
    (fun job hn hj => ?_) (fun job p stamp he hlock _ => ?_) fun _ => Or.inl trivial
  · exact h.memory.1.trans (Room.rank_le_next hx.ahead hrs)
  · rcases seen_record (x := x) (e := e) job with hs | ⟨he, hp, -⟩
    · exact hs ▸ hj
    · exact absurd ⟨he, hp⟩ hn
  · rw [hok.1 he job p stamp hlock]
    exact hmark

theorem tracked_published_run {r : ℕ ×ₗ ℕ} {session : String} {key : ConsumptionKey} {mark : ℕ}
    {es : List RoomEvent} {n : ℕ} (hx : Sound x) (hmark : mark ≤ x.2.count)
    (hok : publishing.Along Unstale x es)
    (h : x.1.Tracked (Published r session key n) (fun job => mark ≤ x.2.seen job) True) :
    Published r session key (n + commitsOf session (publishing.answers x es))
      (publishing.run x es).1.file := by
  induction es generalizing x n with
  | nil => exact h.file trivial
  | cons e es ih =>
    have hstep := ih (sound_next hx hok.1) (hmark.trans count_le_record) hok.2
      (tracked_published_next hx hmark hok.1 h)
    have hcount : commitsOf session (publishing.answers x (e :: es)) =
        commitsOf session [publishing.answer x e] +
          commitsOf session (publishing.answers (publishing.next x e) es) := by
      rw [commitsOf, Machine.answers, ← List.singleton_append, List.countP_append]
      rfl
    rw [hcount, ← add_assoc]
    exact hstep

/-- The state a commit leaves when it has just published. -/
theorem tracked_commitWrite {effect : CommittedEffect} {p : PersistedRoomState} (hx : Sound x)
    (hlock : x.1.lock = .commit (.snapped effect p)) :
    (publishing.next x (.commitWrite none)).1.Tracked
        (Published p.rank effect.sessionId effect.key 0)
        (fun job => x.2.count + 1 ≤ (publishing.next x (.commitWrite none)).2.seen job) True ∧
      (publishing.next x (.commitWrite none)).2.count = x.2.count + 1 := by
  obtain ⟨hwithin, hrecent⟩ := hx.inHand.snapped effect p hlock
  have hcarried : p.rank ≤ x.1.memory.rank := hx.ahead.carried p (Or.inr ⟨effect, hlock⟩)
  have hseen : (publishing.next x (.commitWrite none)).2.seen = x.2.seen := by
    change (x.2.record x.1 (.commitWrite none)).seen = _
    simp only [Publications.record, hlock]
  have hstate : (publishing.next x (.commitWrite none)).1 =
      { x.1 with file := p, lock := .commit (.written effect) } := by
    change (room.next x.1 (.commitWrite none)) = _
    simp only [room, Machine.next, Room.step, Room.commitWrite, hlock]
  refine ⟨⟨Room.wellLocked_next hx.ahead.wellLocked, ?_, ?_, fun job p' _ hj => ?_,
    fun effect' p' hp => ?_⟩, ?_⟩
  · rw [hstate]
    refine ⟨hcarried, fun _ => ?_⟩
    rw [RoomState.recentOf_toPersisted, ← hrecent]
    exact hwithin
  · rw [hstate]
    exact fun _ => ⟨le_rfl, fun _ => hwithin⟩
  · rw [hseen] at hj
    have := hx.seen job
    omega
  · unfold Room.Commits at hp
    rw [hstate] at hp
    cases hp
  · change (x.2.record x.1 (.commitWrite none)).count = _
    simp only [Publications.record, hlock]

/-- The commit whose write is next. -/
def Lock.snappedEffect : Lock → Option CommittedEffect
  | .commit (.snapped effect _) => some effect
  | _ => none

theorem Lock.eq_of_snappedEffect (lock : Lock) (effect : CommittedEffect)
    (h : lock.snappedEffect = some effect) : ∃ p, lock = .commit (.snapped effect p) := by
  unfold snappedEffect at h
  split at h
  · rename_i effect' p
    cases h
    exact ⟨p, rfl⟩
  · cases h

/-- A live answer at an offset of one transcript. -/
def answerRecord (start : ℕ) : CapturedRecord :=
  ⟨"s-1", "a.jsonl", some start, Vector.replicate 32 7, .live⟩

/-- A commit of one captured answer, from entering to returning. -/
def commitOf (record : CapturedRecord) (kind : EffectKind) : List RoomEvent :=
  [.commitEnter ⟨0, .fromRecord id record 0, ⟨true, record.sessionId, true, true, true, 0, kind⟩⟩ 0
      .held,
    .commitReserve 0 ⟨0, .valid record⟩ id, .commitSnapshot, .commitWrite none, .commitClear 0,
    .commitReturn]

/-- A direct flush that writes at once. -/
def flushOf (job : ℕ) : List RoomEvent :=
  [.callFlush job, .flushBegin job, .flushLock job .held, .flushWrite none, .flushEnd job 0]

/-- A commit publishes between the snapshot of a flush and its write. -/
def flushAcrossCommit : List RoomEvent :=
  .observe "a.jsonl" ⟨10, [], 0⟩ :: (flushOf 0).take 2 ++ commitOf (answerRecord 0) .textToUser ++
    (flushOf 0).drop 2

end AgentsCommander.Capture
