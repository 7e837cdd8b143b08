import AgentsCommander.Purge.Batch

/-! What the worker, its observer and other purges keep of a batch. -/
namespace AgentsCommander.Purge
open Foundation

/-- The attempts that were announced, against the ids and the recorded results. -/
def WorkerStage.Course (ids attempts : List Uuid) (results : List (Uuid × TeardownOutcome))
    (phase : PurgePhase) : WorkerStage → Prop
  | .acquiring | .acquired | .notifyAcquired | .checkGrant | .awaitGrant =>
    attempts = [] ∧ results = []
  | .starting rest | .notifyRecorded rest =>
    attempts = results.map Prod.fst ∧ attempts ++ rest = ids
  | .notifyStarted sid rest | .attempting sid rest | .recording sid _ rest =>
    attempts = results.map Prod.fst ++ [sid] ∧ attempts ++ rest = ids ∧ phase = .started sid
  | .settling | .releasing | .stopping | .notifyStopped =>
    attempts = results.map Prod.fst ∧ attempts <+: ids
  | .leaving _ | .gone _ => attempts <+: ids ∧ (attempts = results.map Prod.fst ∨
    ∃ sid, attempts = results.map Prod.fst ++ [sid] ∧ phase = .started sid)

/-- No attempt can start any more. -/
def WorkerStage.done : WorkerStage → Bool
  | .settling | .releasing | .stopping | .notifyStopped | .leaving _ | .gone _ => true
  | _ => false

/-- The worker has the lease. -/
def WorkerStage.holds : WorkerStage → Bool
  | .acquiring | .stopping | .notifyStopped | .gone _ => false
  | _ => true

/-- What the attempt returned and the worker has not recorded yet. -/
def WorkerStage.unrecorded : WorkerStage → List (Uuid × TeardownOutcome)
  | .recording sid outcome _ => [(sid, outcome)]
  | _ => []

namespace Batch
variable {targets : PurgeTargets} {attemptBudget : Duration} {s : Batch}

def Course (targets : PurgeTargets) (s : Batch) : Prop :=
  s.worker.Course targets.ids s.attempts s.progress.results s.progress.phase

theorem Course.cases (h : s.Course targets) :
    s.attempts <+: targets.ids ∧ (s.attempts = s.progress.results.map Prod.fst ∨
      ∃ sid, s.attempts = s.progress.results.map Prod.fst ++ [sid] ∧
        s.progress.phase = .started sid) := by
  unfold Course at h
  cases hworker : s.worker <;> rw [hworker] at h
  case starting rest => exact ⟨⟨rest, h.2⟩, Or.inl h.1⟩
  case notifyRecorded rest => exact ⟨⟨rest, h.2⟩, Or.inl h.1⟩
  case notifyStarted sid rest => exact ⟨⟨rest, h.2.1⟩, Or.inr ⟨sid, h.1, h.2.2⟩⟩
  case attempting sid rest => exact ⟨⟨rest, h.2.1⟩, Or.inr ⟨sid, h.1, h.2.2⟩⟩
  case recording sid outcome rest => exact ⟨⟨rest, h.2.1⟩, Or.inr ⟨sid, h.1, h.2.2⟩⟩
  case settling => exact ⟨h.2, Or.inl h.1⟩
  case releasing => exact ⟨h.2, Or.inl h.1⟩
  case stopping => exact ⟨h.2, Or.inl h.1⟩
  case notifyStopped => exact ⟨h.2, Or.inl h.1⟩
  case leaving ok => exact h
  case gone ok => exact h
  all_goals
    rw [h.1, h.2]
    exact ⟨List.nil_prefix, Or.inl rfl⟩

theorem Course.workerStep (h : s.Course targets) (now : Instant) :
    (s.workerStep targets attemptBudget now).Course targets := by
  have hcases := h.cases
  have hfacts := h
  unfold Course at hfacts
  unfold Batch.workerStep
  split <;> rename_i hworker <;> rw [hworker] at hfacts
  · unfold acquire
    split_ifs
    · exact hcases
    · exact hfacts
    · exact h
  · unfold awaitsGrant
    split_ifs
    · exact hcases
    · exact hfacts
  · exact hfacts
  · unfold Batch.checkGrant Course
    dsimp only
    split_ifs
    · exact hcases
    · rw [hfacts.1, hfacts.2]
      exact ⟨rfl, rfl⟩
    · exact hfacts
  · unfold Batch.awaitGrant
    split_ifs
    · exact hcases
    · exact hfacts
    · exact h
  · exact ⟨hfacts.1, hcases.1⟩
  · unfold start
    split_ifs
    · exact ⟨hfacts.1, hcases.1⟩
    · refine ⟨congrArg (· ++ [_]) hfacts.1, ?_, rfl⟩
      exact (List.append_assoc ..).trans hfacts.2
  · exact hfacts
  · exact h
  · next sid outcome rest =>
    refine ⟨?_, hfacts.2.1⟩
    show _ = (s.progress.results ++ [(sid, outcome)]).map Prod.fst
    rw [List.map_append]
    exact hfacts.1
  · exact hfacts
  · exact hfacts
  · exact hfacts
  · exact hfacts
  · exact ⟨hfacts.2, Or.inl hfacts.1⟩
  · exact hfacts
  · exact h

theorem Course.outcome (h : s.Course targets) (outcome : TeardownOutcome) :
    (s.outcome outcome).Course targets := by
  have hfacts := h
  unfold Course at hfacts
  unfold Batch.outcome
  split
  · next hworker =>
    rw [hworker] at hfacts
    exact hfacts
  · exact h

theorem Course.unwind (h : s.Course targets) : s.unwind.Course targets := by
  unfold Batch.unwind
  split
  · exact h.cases
  · exact h

/-- Nothing that an attempt returned is lost. -/
def Recorded (s : Batch) : Prop := s.outcomes = s.progress.results ++ s.worker.unrecorded

theorem Recorded.keep {t : Batch} (h : s.Recorded) (houtcomes : t.outcomes = s.outcomes)
    (hresults : t.progress.results = s.progress.results)
    (hworker : t.worker.unrecorded = s.worker.unrecorded) : t.Recorded := by
  unfold Recorded
  rw [houtcomes, hresults, hworker]
  exact h

theorem Recorded.workerStep (h : s.Recorded) (now : Instant) :
    (s.workerStep targets attemptBudget now).Recorded := by
  unfold Batch.workerStep
  split <;> rename_i hworker
  · unfold acquire
    split_ifs
    · exact h.keep rfl rfl (by rw [hworker]; rfl)
    · exact h.keep rfl rfl (by rw [hworker]; rfl)
    · exact h
  · unfold awaitsGrant
    split_ifs <;> exact h.keep rfl rfl (by rw [hworker]; rfl)
  · exact h.keep rfl rfl (by rw [hworker]; rfl)
  · refine h.keep rfl rfl ?_
    unfold Batch.checkGrant
    dsimp only
    split_ifs <;> rw [hworker] <;> rfl
  · unfold Batch.awaitGrant
    split_ifs
    · exact h.keep rfl rfl (by rw [hworker]; rfl)
    · exact h.keep rfl rfl (by rw [hworker]; rfl)
    · exact h
  · exact h.keep rfl rfl (by rw [hworker]; rfl)
  · unfold start
    split_ifs <;> exact h.keep rfl rfl (by rw [hworker]; rfl)
  · exact h.keep rfl rfl (by rw [hworker]; rfl)
  · exact h
  · next sid outcome rest =>
    unfold Recorded at h
    rw [hworker] at h
    exact h.trans (List.append_nil _).symm
  all_goals first | exact h.keep rfl rfl (by rw [hworker]; rfl) | exact h

/-- What the observer and other purges leave to the worker. -/
structure Apart (s t : Batch) : Prop where
  worker : t.worker = s.worker
  outcomes : t.outcomes = s.outcomes
  attempts : t.attempts = s.attempts
  results : t.progress.results = s.progress.results
  phase : t.progress.phase = s.progress.phase
  started : t.progress.started = s.progress.started
  stop : s.progress.stop = true → t.progress.stop = true
  cancelled : s.cancelled = true → t.cancelled = true

theorem apart_look (now : Instant) : s.Apart (s.look now) := by
  unfold look
  split_ifs
  · exact ⟨rfl, rfl, rfl, rfl, rfl, rfl, id, id⟩
  · exact ⟨rfl, rfl, rfl, rfl, rfl, rfl, fun _ => rfl, id⟩
  · exact ⟨rfl, rfl, rfl, rfl, rfl, rfl, id, id⟩
  · exact ⟨rfl, rfl, rfl, rfl, rfl, rfl, id, id⟩

theorem apart_wakeUp (now deadline : Instant) (wake : Wake) :
    s.Apart (s.wakeUp now deadline wake) := by
  cases wake with
  | changed =>
    unfold wakeUp
    split_ifs <;> exact ⟨rfl, rfl, rfl, rfl, rfl, rfl, id, id⟩
  | deadline =>
    unfold wakeUp
    split_ifs <;> exact ⟨rfl, rfl, rfl, rfl, rfl, rfl, id, id⟩
  | worker =>
    unfold wakeUp
    dsimp only
    split <;> exact ⟨rfl, rfl, rfl, rfl, rfl, rfl, id, id⟩

theorem apart_observerStep (now : Instant) (wake : Wake) : s.Apart (s.observerStep now wake) := by
  unfold observerStep
  split
  · exact ⟨rfl, rfl, rfl, rfl, rfl, rfl, id, id⟩
  · exact apart_look now
  · exact ⟨rfl, rfl, rfl, rfl, rfl, rfl, id, fun _ => rfl⟩
  · split <;> exact ⟨rfl, rfl, rfl, rfl, rfl, rfl, id, id⟩
  · exact apart_wakeUp now _ wake
  · split_ifs <;> exact ⟨rfl, rfl, rfl, rfl, rfl, rfl, id, id⟩
  · exact ⟨rfl, rfl, rfl, rfl, rfl, rfl, fun _ => rfl, id⟩
  · exact ⟨rfl, rfl, rfl, rfl, rfl, rfl, id, fun _ => rfl⟩
  · split_ifs <;> exact ⟨rfl, rfl, rfl, rfl, rfl, rfl, id, id⟩
  · exact ⟨rfl, rfl, rfl, rfl, rfl, rfl, fun _ => rfl, id⟩
  · exact ⟨rfl, rfl, rfl, rfl, rfl, rfl, id, fun _ => rfl⟩
  · exact ⟨rfl, rfl, rfl, rfl, rfl, rfl, id, id⟩

theorem apart_dropObserver : s.Apart s.dropObserver := by
  unfold dropObserver
  split <;> exact ⟨rfl, rfl, rfl, rfl, rfl, rfl, id, id⟩

theorem Course.apart (h : s.Course targets) {t : Batch} (ha : s.Apart t) : t.Course targets := by
  unfold Course
  rw [ha.worker, ha.attempts, ha.results, ha.phase]
  exact h

end Batch

/-- The steps of the worker and its attempt; the others leave the worker alone. -/
def PurgeEvent.ofWorker : PurgeEvent → Bool
  | .worker _ | .outcome _ | .unwind => true
  | _ => false

namespace Batch
variable {targets : PurgeTargets} {attemptBudget : Duration} {s : Batch}

theorem apart_next {event : PurgeEvent} (h : event.ofWorker = false) :
    s.Apart ((purgeBatch targets attemptBudget).next s event) := by
  cases event with
  | worker now => cases h
  | outcome outcome => cases h
  | unwind => cases h
  | observer now wake => exact apart_observerStep now wake
  | dropObserver => exact apart_dropObserver
  | otherAcquire n sids fqns =>
    show s.Apart (if s.guard.lock = none then _ else s)
    split_ifs <;> exact ⟨rfl, rfl, rfl, rfl, rfl, rfl, id, id⟩
  | otherRelease n =>
    show s.Apart (if s.guard.lock = some (.other n) then _ else s)
    split_ifs <;> exact ⟨rfl, rfl, rfl, rfl, rfl, rfl, id, id⟩

theorem Course.next (h : s.Course targets) (event : PurgeEvent) :
    ((purgeBatch targets attemptBudget).next s event).Course targets := by
  cases event with
  | worker now => exact h.workerStep now
  | outcome outcome => exact h.outcome outcome
  | unwind => exact h.unwind
  | observer now wake => exact h.apart (apart_next rfl)
  | dropObserver => exact h.apart (apart_next rfl)
  | otherAcquire n sids fqns => exact h.apart (apart_next rfl)
  | otherRelease n => exact h.apart (apart_next rfl)

theorem Recorded.next (h : s.Recorded) (event : PurgeEvent) :
    ((purgeBatch targets attemptBudget).next s event).Recorded := by
  have hapart {t : Batch} (ha : s.Apart t) : t.Recorded :=
    h.keep ha.outcomes ha.results (congrArg WorkerStage.unrecorded ha.worker)
  cases event with
  | worker now => exact h.workerStep now
  | outcome outcome =>
    show (s.outcome outcome).Recorded
    unfold Batch.outcome
    split
    · next sid rest hworker =>
      unfold Recorded at h
      rw [hworker] at h
      exact congrArg (· ++ [(sid, outcome)]) (h.trans (List.append_nil _))
    · exact h
  | unwind =>
    show s.unwind.Recorded
    unfold Batch.unwind
    split
    · next hworker => exact h.keep rfl rfl (by rw [hworker]; rfl)
    · exact h
  | observer now wake => exact hapart (apart_next rfl)
  | dropObserver => exact hapart (apart_next rfl)
  | otherAcquire n sids fqns => exact hapart (apart_next rfl)
  | otherRelease n => exact hapart (apart_next rfl)

/-- What a step of the worker does to the stop and to what was announced. -/
structure Moved (s t : Batch) : Prop where
  stop : s.progress.stop = true → t.progress.stop = true
  cancelled : s.cancelled = true → t.cancelled = true
  results : s.progress.results <+: t.progress.results
  attempts : t.attempts = s.attempts ∨ s.progress.stop = false ∧ s.worker.done = false
  done : s.worker.done = true → t.worker.done = true
  started : (s.progress.started = false → s.attempts = []) →
    t.progress.started = false → t.attempts = []
  uncertain : (∀ r ∈ s.progress.results, r.2.isUncertain = true → s.progress.stop = true) →
    ∀ r ∈ t.progress.results, r.2.isUncertain = true → t.progress.stop = true

theorem Moved.same {t : Batch} (hprogress : t.progress.results = s.progress.results)
    (hstop : t.progress.stop = s.progress.stop) (hstarted : t.progress.started = s.progress.started)
    (hcancelled : t.cancelled = s.cancelled) (hattempts : t.attempts = s.attempts)
    (hdone : s.worker.done = true → t.worker.done = true) : s.Moved t where
  stop := hstop.trans
  cancelled := hcancelled.trans
  results := hprogress ▸ List.prefix_refl _
  attempts := Or.inl hattempts
  done := hdone
  started h ht := hattempts.trans (h (hstarted.symm.trans ht))
  uncertain h := by
    rw [hprogress, hstop]
    exact h

theorem Apart.moved {t : Batch} (h : s.Apart t) : s.Moved t where
  stop := h.stop
  cancelled := h.cancelled
  results := h.results ▸ List.prefix_refl _
  attempts := Or.inl h.attempts
  done := fun hdone => h.worker ▸ hdone
  started hs ht := h.attempts.trans (hs (h.started.symm.trans ht))
  uncertain hs r hr hu := h.stop (hs r (h.results ▸ hr) hu)

theorem moved_workerStep (now : Instant) : s.Moved (s.workerStep targets attemptBudget now) := by
  unfold workerStep
  split <;> rename_i hworker
  · unfold acquire
    split_ifs <;> exact .same rfl rfl rfl rfl rfl (by rw [hworker]; exact nofun)
  · unfold awaitsGrant
    split_ifs <;> exact .same rfl rfl rfl rfl rfl (by rw [hworker]; exact nofun)
  · exact .same rfl rfl rfl rfl rfl (by rw [hworker]; exact nofun)
  · exact .same rfl rfl rfl rfl rfl (by rw [hworker]; exact nofun)
  · unfold awaitGrant
    split_ifs <;> exact .same rfl rfl rfl rfl rfl (by rw [hworker]; exact nofun)
  · exact .same rfl rfl rfl rfl rfl (by rw [hworker]; exact nofun)
  · next sid rest =>
    unfold start
    split_ifs with hstop
    · exact .same rfl rfl rfl rfl rfl (by rw [hworker]; exact nofun)
    · have hstop := eq_false_of_ne_true hstop
      refine ⟨fun h => (nomatch hstop.symm.trans h), id, List.prefix_refl _,
        Or.inr ⟨hstop, by rw [hworker]; rfl⟩, by rw [hworker]; exact nofun, fun _ => nofun, ?_⟩
      exact fun h r hr hu => h r hr hu
  · exact .same rfl rfl rfl rfl rfl (by rw [hworker]; exact nofun)
  · exact .same rfl rfl rfl rfl rfl id
  · next sid outcome rest =>
    refine ⟨fun h => ?_, id, List.prefix_append _ _, Or.inl rfl, by rw [hworker]; exact nofun,
      id, fun h r hr hu => ?_⟩
    · show (_ || _ || _) = true
      rw [h, Bool.true_or, Bool.true_or]
    · show (_ || _ || _) = true
      rcases List.mem_append.mp hr with hold | hnew
      · rw [h r hold hu, Bool.true_or, Bool.true_or]
      · rw [List.mem_singleton.mp hnew] at hu
        rw [hu, Bool.or_true]
  · exact .same rfl rfl rfl rfl rfl (by rw [hworker]; exact nofun)
  · exact .same rfl rfl rfl rfl rfl fun _ => rfl
  · exact .same rfl rfl rfl rfl rfl fun _ => rfl
  · exact .same rfl rfl rfl rfl rfl fun _ => rfl
  · exact .same rfl rfl rfl rfl rfl fun _ => rfl
  · exact .same rfl rfl rfl rfl rfl fun _ => rfl
  · exact .same rfl rfl rfl rfl rfl id

theorem moved_next (event : PurgeEvent) :
    s.Moved ((purgeBatch targets attemptBudget).next s event) := by
  cases event with
  | worker now => exact moved_workerStep now
  | outcome outcome =>
    show s.Moved (s.outcome outcome)
    unfold Batch.outcome
    split
    · next hworker => exact .same rfl rfl rfl rfl rfl (by rw [hworker]; exact nofun)
    · exact .same rfl rfl rfl rfl rfl id
  | unwind =>
    show s.Moved s.unwind
    unfold Batch.unwind
    split
    · exact .same rfl rfl rfl rfl rfl fun _ => rfl
    · exact .same rfl rfl rfl rfl rfl id
  | observer now wake => exact (apart_next rfl).moved
  | dropObserver => exact (apart_next rfl).moved
  | otherAcquire n sids fqns => exact (apart_next rfl).moved
  | otherRelease n => exact (apart_next rfl).moved

/-- The guard is the batch's while its worker has the lease. -/
def Leased (targets : PurgeTargets) (s : Batch) : Prop :=
  if s.worker.holds then s.guard = .acquire .batch targets.sessionIds targets.fqns
  else s.guard.lock ≠ some .batch

theorem Leased.keep {t : Batch} (h : s.Leased targets) (hguard : t.guard = s.guard)
    (hholds : t.worker.holds = s.worker.holds) : t.Leased targets := by
  unfold Leased
  rw [hguard, hholds]
  exact h

theorem Leased.released {t : Batch} (hguard : t.guard = .release)
    (hholds : t.worker.holds = false) : t.Leased targets := by
  unfold Leased
  rw [hguard, hholds]
  exact nofun

/-- Others take and release the lease only while the worker does not have it. -/
theorem Leased.elsewhere {t : Batch} (h : s.Leased targets) (hs : s.guard.lock ≠ some .batch)
    (ht : t.guard.lock ≠ some .batch) (hworker : t.worker = s.worker) : t.Leased targets := by
  unfold Leased at h ⊢
  rw [hworker]
  split_ifs at h with hholds
  · exact absurd (congrArg PurgeGuard.lock h) hs
  · rw [if_neg hholds]
    exact ht

theorem guard_observerStep (now : Instant) (wake : Wake) :
    (s.observerStep now wake).guard = s.guard := by
  unfold observerStep
  split
  case h_2 =>
    unfold look
    split_ifs <;> rfl
  case h_5 =>
    unfold wakeUp
    split
    · split_ifs <;> rfl
    · split_ifs <;> rfl
    · split <;> rfl
  all_goals first | rfl | (split_ifs <;> rfl) | (split <;> rfl)

theorem guard_dropObserver : s.dropObserver.guard = s.guard := by
  unfold dropObserver
  split <;> rfl

theorem Leased.workerStep (h : s.Leased targets) (now : Instant) :
    (s.workerStep targets attemptBudget now).Leased targets := by
  unfold Batch.workerStep
  split <;> rename_i hworker
  · unfold acquire
    split_ifs
    · exact h.keep rfl (by rw [hworker]; rfl)
    · exact rfl
    · exact h
  · unfold awaitsGrant
    split_ifs <;> exact h.keep rfl (by rw [hworker]; rfl)
  · exact h.keep rfl (by rw [hworker]; rfl)
  · refine h.keep rfl ?_
    unfold Batch.checkGrant
    dsimp only
    split_ifs <;> rw [hworker] <;> rfl
  · unfold Batch.awaitGrant
    split_ifs
    · exact h.keep rfl (by rw [hworker]; rfl)
    · exact h.keep rfl (by rw [hworker]; rfl)
    · exact h
  · exact h.keep rfl (by rw [hworker]; rfl)
  · unfold start
    split_ifs <;> exact h.keep rfl (by rw [hworker]; rfl)
  · exact h.keep rfl (by rw [hworker]; rfl)
  · exact h
  · exact h.keep rfl (by rw [hworker]; rfl)
  · exact h.keep rfl (by rw [hworker]; rfl)
  · exact h.keep rfl (by rw [hworker]; rfl)
  · exact .released rfl rfl
  · exact h.keep rfl (by rw [hworker]; rfl)
  · exact h.keep rfl (by rw [hworker]; rfl)
  · exact .released rfl rfl
  · exact h

theorem Leased.next (h : s.Leased targets) (event : PurgeEvent) :
    ((purgeBatch targets attemptBudget).next s event).Leased targets := by
  cases event with
  | worker now => exact h.workerStep now
  | outcome outcome =>
    show (s.outcome outcome).Leased targets
    unfold Batch.outcome
    split
    · next hworker => exact h.keep rfl (by rw [hworker]; rfl)
    · exact h
  | unwind =>
    show s.unwind.Leased targets
    unfold Batch.unwind
    split
    · next hworker => exact h.keep rfl (by rw [hworker]; rfl)
    · exact h
  | observer now wake =>
    have hworker := (apart_observerStep (s := s) now wake).worker
    exact h.keep (guard_observerStep now wake) (congrArg WorkerStage.holds hworker)
  | dropObserver =>
    have hworker := (apart_dropObserver (s := s)).worker
    exact h.keep guard_dropObserver (congrArg WorkerStage.holds hworker)
  | otherAcquire n sids fqns =>
    show Leased targets (if s.guard.lock = none then _ else s)
    split_ifs with hfree
    · exact h.elsewhere (by rw [hfree]; exact nofun) nofun rfl
    · exact h
  | otherRelease n =>
    show Leased targets (if s.guard.lock = some (.other n) then _ else s)
    split_ifs with hother
    · exact h.elsewhere (by rw [hother]; exact nofun) nofun rfl
    · exact h

end Batch

end AgentsCommander.Purge
