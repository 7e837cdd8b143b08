import AgentsCommander.Purge.Laws

/-! What the observer reports of a batch, and that the two sides never wait for each other. A purge
batch is exclusive, ordered and honestly reported. -/
namespace AgentsCommander.Purge
open Foundation

/-- The lease is not granted yet, or no attempt has been announced. -/
def WorkerStage.early : WorkerStage → Bool
  | .acquiring | .acquired | .notifyAcquired | .checkGrant | .awaitGrant => true
  | _ => false

def WorkerStage.Phased (phase : PurgePhase) : WorkerStage → Prop
  | .notifyAcquired | .checkGrant | .awaitGrant => phase = .acquiredAwaitGrant
  | .notifyStopped | .gone _ => True
  | _ => phase ≠ .stopped

/-- The snapshot that the observer is going to return, or has returned. -/
def ObserverStage.taken : ObserverStage → Option PurgeSnapshot
  | .cancelling snapshot | .joining snapshot | .frozen snapshot => some snapshot
  | .guarding result | .parentLost result | .parentCancel result | .ended result => result
  | .unpolled | .looking | .waiting _ | .losing _ | .freezing => none

namespace Batch
variable {targets : PurgeTargets} {attemptBudget : Duration} {s : Batch}

/-- A snapshot that stays true of the batch. -/
structure Told (s : Batch) (snapshot : PurgeSnapshot) : Prop where
  closed : s.progress.stop = true ∨ s.worker.done = true
  results : snapshot.results <+: s.progress.results
  missing : ∀ sid ∈ s.attempts, sid ∈ snapshot.results.map Prod.fst ∨ snapshot.phase = .started sid
  silent : snapshot.started = false → s.attempts = []

theorem Told.moved {snapshot : PurgeSnapshot} (h : s.Told snapshot) {t : Batch}
    (hmoved : s.Moved t) : t.Told snapshot := by
  have hattempts : t.attempts = s.attempts := by
    rcases hmoved.attempts with heq | ⟨hstop, hdone⟩
    · exact heq
    · rcases h.closed with hclosed | hclosed
      · exact nomatch hstop.symm.trans hclosed
      · exact nomatch hdone.symm.trans hclosed
  refine ⟨h.closed.imp hmoved.stop hmoved.done, h.results.trans hmoved.results, ?_, ?_⟩
  · rw [hattempts]
    exact h.missing
  · rw [hattempts]
    exact h.silent

theorem told_progress (hcourse : s.Course targets)
    (hsilent : s.progress.started = false → s.attempts = [])
    (hclosed : s.progress.stop = true ∨ s.worker.done = true) : s.Told s.progress := by
  refine ⟨hclosed, List.prefix_refl _, fun sid hsid => ?_, hsilent⟩
  rcases hcourse.cases.2 with hall | ⟨last, hlast, hphase⟩
  · exact Or.inl (hall ▸ hsid)
  · rw [hlast] at hsid
    rcases List.mem_append.mp hsid with hold | hnew
    · exact Or.inl hold
    · rw [List.mem_singleton.mp hnew]
      exact Or.inr hphase

/-- The waits of the two sides, and the notifications that end them. -/
structure Wakeful (s : Batch) : Prop where
  phased : s.worker.Phased s.progress.phase
  joining : ∀ snapshot, s.observer = .joining snapshot →
    s.cancelled = true ∧ snapshot.started = false
  ended : ∀ result, s.observer = .ended result → s.cancelled = true ∨ s.worker.done = true
  granted : s.worker = .awaitGrant → s.progress.granted = true → s.grant = true
  deadline : s.worker.early = true → ∀ d, s.observer = .waiting d → s.progress.deadline = d
  changed : s.worker = .checkGrant ∨ s.worker = .awaitGrant → s.progress.granted = false →
    ∀ d, s.observer = .waiting d → s.changed = true

theorem Wakeful.done_of_stopped (h : s.Wakeful) (hstopped : s.progress.phase = .stopped) :
    s.worker.done = true := by
  have hphased := h.phased
  cases hworker : s.worker <;> rw [hworker, hstopped] at hphased <;>
    first | rfl | exact absurd rfl hphased | exact nomatch hphased

/-- A worker that has its lease and its grant, or none any more. -/
theorem Wakeful.late (h : s.Wakeful) {t : Batch} (hphased : t.worker.Phased t.progress.phase)
    (hcancelled : t.cancelled = s.cancelled) (hobserver : t.observer = s.observer)
    (hdone : s.worker.done = true → t.worker.done = true)
    (hearly : t.worker.early = false) : t.Wakeful where
  phased := hphased
  joining snapshot ht := (h.joining snapshot (hobserver.symm.trans ht)).imp_left hcancelled.trans
  ended result ht := (h.ended result (hobserver.symm.trans ht)).imp hcancelled.trans hdone
  granted ht := by rw [ht] at hearly; exact nomatch hearly
  deadline ht := nomatch hearly.symm.trans ht
  changed ht := by rcases ht with ht | ht <;> (rw [ht] at hearly; exact nomatch hearly)

theorem Wakeful.prior (h : s.Wakeful) {t : Batch} (hs : s.worker.early = true)
    (hphased : t.worker.Phased t.progress.phase) (hcancelled : t.cancelled = s.cancelled)
    (hobserver : t.observer = s.observer)
    (hdeadline : t.progress.deadline = s.progress.deadline)
    (hgranted : t.worker = .awaitGrant → t.progress.granted = true → t.grant = true)
    (hchanged : t.worker = .checkGrant ∨ t.worker = .awaitGrant → t.progress.granted = false →
      ∀ d, t.observer = .waiting d → t.changed = true) : t.Wakeful where
  phased := hphased
  joining snapshot ht := (h.joining snapshot (hobserver.symm.trans ht)).imp_left hcancelled.trans
  ended result ht := by
    rcases h.ended result (hobserver.symm.trans ht) with hc | hdone
    · exact Or.inl (hcancelled.trans hc)
    · cases hworker : s.worker <;> rw [hworker] at hs hdone <;> contradiction
  granted := hgranted
  deadline _ d ht := hdeadline.trans (h.deadline hs d (hobserver.symm.trans ht))
  changed := hchanged

theorem observer_workerStep (now : Instant) :
    (s.workerStep targets attemptBudget now).observer = s.observer := by
  unfold workerStep
  split <;> first | rfl | (unfold acquire; split_ifs <;> rfl) |
    (unfold awaitsGrant; split_ifs <;> rfl) | (unfold awaitGrant; split_ifs <;> rfl) |
    (unfold start; split_ifs <;> rfl)

theorem Wakeful.workerStep (h : s.Wakeful) (now : Instant) :
    (s.workerStep targets attemptBudget now).Wakeful := by
  have hphased := h.phased
  unfold Batch.workerStep
  split <;> rename_i hworker <;> rw [hworker] at hphased
  · unfold acquire
    split_ifs
    · exact h.late trivial rfl rfl (fun _ => rfl) rfl
    · exact h.prior (by rw [hworker]; rfl) hphased rfl rfl rfl nofun nofun
    · exact h
  · unfold awaitsGrant
    split_ifs
    · exact h.late hphased rfl rfl (fun _ => rfl) rfl
    · exact h.prior (by rw [hworker]; rfl) rfl rfl rfl rfl nofun nofun
  · exact h.prior (by rw [hworker]; rfl) hphased rfl rfl rfl nofun fun _ _ _ _ => rfl
  · have hstopped : s.progress.phase ≠ .stopped := hphased ▸ nofun
    unfold Batch.checkGrant
    split_ifs with hstop hgrant
    · exact h.late hstopped rfl rfl (fun _ => rfl) rfl
    · exact h.late hstopped rfl rfl (by rw [hworker]; exact nofun) rfl
    · exact h.prior (by rw [hworker]; rfl) hphased rfl rfl rfl
        (fun _ ht => absurd ht hgrant) fun _ => h.changed (Or.inl hworker)
  · have hstopped : s.progress.phase ≠ .stopped := hphased ▸ nofun
    unfold Batch.awaitGrant
    split_ifs with hcancelled hgrant
    · exact h.late hstopped rfl rfl (fun _ => rfl) rfl
    · exact h.prior (by rw [hworker]; rfl) hphased rfl rfl rfl nofun
        fun _ => h.changed (Or.inr hworker)
    · exact h
  · exact h.late hphased rfl rfl (fun _ => rfl) rfl
  · unfold start
    split_ifs
    · exact h.late hphased rfl rfl (fun _ => rfl) rfl
    · exact h.late nofun rfl rfl (by rw [hworker]; exact nofun) rfl
  · exact h.late hphased rfl rfl (by rw [hworker]; exact nofun) rfl
  · exact h
  · exact h.late hphased rfl rfl (by rw [hworker]; exact nofun) rfl
  · exact h.late hphased rfl rfl (by rw [hworker]; exact nofun) rfl
  · exact h.late nofun rfl rfl (fun _ => rfl) rfl
  · exact h.late hphased rfl rfl (fun _ => rfl) rfl
  · exact h.late trivial rfl rfl (fun _ => rfl) rfl
  · exact h.late trivial rfl rfl (fun _ => rfl) rfl
  · exact h.late trivial rfl rfl (fun _ => rfl) rfl
  · exact h

/-- A step of the observer does not move the worker. -/
theorem Wakeful.apart (h : s.Wakeful) {t : Batch} (hapart : s.Apart t)
    (hjoining : ∀ snapshot, t.observer = .joining snapshot →
      t.cancelled = true ∧ snapshot.started = false)
    (hended : ∀ result, t.observer = .ended result → t.cancelled = true ∨ s.worker.done = true)
    (hgranted : s.progress.granted = t.progress.granted ∧ s.grant = t.grant ∨ t.grant = true)
    (hwaiting : ∀ d, t.observer = .waiting d → t.progress.deadline = d ∧
      (s.worker = .checkGrant ∨ s.worker = .awaitGrant → t.progress.granted = true)) :
    t.Wakeful where
  phased := by
    rw [hapart.worker, hapart.phase]
    exact h.phased
  joining := hjoining
  ended := by
    rw [hapart.worker]
    exact hended
  granted hworker hgrant := by
    rcases hgranted with ⟨hprogress, hflag⟩ | hflag
    · exact hflag ▸ h.granted (hapart.worker ▸ hworker) (hprogress ▸ hgrant)
    · exact hflag
  deadline _ d hd := (hwaiting d hd).1
  changed hworker hfalse d hd := by
    rw [hapart.worker] at hworker
    exact nomatch hfalse.symm.trans ((hwaiting d hd).2 hworker)

theorem conclude_waiting {snapshot : PurgeSnapshot} {d : Instant}
    (h : conclude snapshot = .waiting d) : snapshot.deadline = d ∧ snapshot.stop = false := by
  unfold conclude at h
  split_ifs at h with hstop
  exact ⟨ObserverStage.waiting.inj h, eq_false_of_ne_true hstop⟩

theorem conclude_ne (snapshot : PurgeSnapshot) :
    (∀ r, conclude snapshot ≠ .joining r) ∧ ∀ r, conclude snapshot ≠ .ended r := by
  unfold conclude
  split_ifs <;> exact ⟨nofun, nofun⟩

/-- Where the observer neither waits nor has ended. -/
theorem Wakeful.onward (h : s.Wakeful) {t : Batch} (hapart : s.Apart t)
    (hgranted : s.progress.granted = t.progress.granted ∧ s.grant = t.grant)
    (hjoining : ∀ snapshot, t.observer ≠ .joining snapshot)
    (hended : ∀ result, t.observer ≠ .ended result)
    (hwaiting : ∀ d, t.observer ≠ .waiting d) : t.Wakeful :=
  h.apart hapart (fun r hr => absurd hr (hjoining r)) (fun r hr => absurd hr (hended r))
    (Or.inl hgranted) fun d hd => absurd hd (hwaiting d)

theorem Wakeful.look (h : s.Wakeful) (now : Instant) : (s.look now).Wakeful := by
  have hapart := apart_look (s := s) now
  unfold Batch.look at hapart ⊢
  split_ifs at hapart ⊢ with hstopped hlate hgrant
  · exact h.apart hapart nofun nofun (Or.inl ⟨rfl, rfl⟩) nofun
  · exact h.onward hapart ⟨rfl, rfl⟩ nofun nofun nofun
  · exact h.apart hapart (fun r hr => ((conclude_ne _).1 r hr).elim)
      (fun r hr => ((conclude_ne _).2 r hr).elim) (Or.inr rfl)
      fun d hd => ⟨(conclude_waiting hd).1, fun _ => rfl⟩
  · refine h.apart hapart (fun r hr => ((conclude_ne _).1 r hr).elim)
      (fun r hr => ((conclude_ne _).2 r hr).elim) (Or.inl ⟨rfl, rfl⟩)
      fun d hd => ⟨(conclude_waiting hd).1, fun hworker => ?_⟩
    have hphased := h.phased
    have hphase : s.progress.phase = .acquiredAwaitGrant := by
      rcases hworker with hw | hw <;> (rw [hw] at hphased; exact hphased)
    by_contra hfalse
    exact hgrant ⟨hphase, hfalse⟩

theorem Wakeful.wakeUp (h : s.Wakeful) (now deadline : Instant) (wake : Wake) :
    (s.wakeUp now deadline wake).Wakeful := by
  have hapart := apart_wakeUp (s := s) now deadline wake
  unfold Batch.wakeUp at hapart ⊢
  cases wake with
  | changed =>
    dsimp only at hapart ⊢
    split_ifs at hapart ⊢
    · exact h.onward hapart ⟨rfl, rfl⟩ nofun nofun nofun
    · exact h
  | deadline =>
    dsimp only at hapart ⊢
    split_ifs at hapart ⊢
    · exact h.onward hapart ⟨rfl, rfl⟩ nofun nofun nofun
    · exact h
  | worker =>
    dsimp only at hapart ⊢
    split at hapart <;> rename_i hworker
    · exact h.onward hapart ⟨rfl, rfl⟩ nofun nofun nofun
    · exact h

theorem Wakeful.observerStep (h : s.Wakeful) (now : Instant) (wake : Wake) :
    (s.observerStep now wake).Wakeful := by
  have hapart := apart_observerStep (s := s) now wake
  unfold Batch.observerStep at hapart ⊢
  split <;> rename_i hobserver <;> rw [hobserver] at hapart <;> dsimp only at hapart
  · exact h.onward hapart ⟨rfl, rfl⟩ nofun nofun nofun
  · exact h.look now
  · next snapshot =>
    refine h.apart hapart (fun r hr => ⟨rfl, ?_⟩) (fun r hr => ?_) (Or.inl ⟨rfl, rfl⟩)
      fun d hd => ?_
    · dsimp only at hr
      split_ifs at hr with hstarted
      exact ObserverStage.joining.inj hr ▸ eq_false_of_ne_true hstarted
    · dsimp only at hr
      split_ifs at hr
    · dsimp only at hd
      split_ifs at hd
  · split at hapart <;> rename_i hworker
    · exact h.onward hapart ⟨rfl, rfl⟩ nofun nofun nofun
    · exact h
  · exact h.wakeUp now _ wake
  · split_ifs at hapart ⊢ <;> exact h.onward hapart ⟨rfl, rfl⟩ nofun nofun nofun
  · exact h.onward hapart ⟨rfl, rfl⟩ nofun nofun nofun
  · exact h.onward hapart ⟨rfl, rfl⟩ nofun nofun nofun
  · split_ifs at hapart ⊢ with hstopped
    · exact h.apart hapart nofun (fun _ _ => Or.inr (h.done_of_stopped hstopped))
        (Or.inl ⟨rfl, rfl⟩) nofun
    · exact h.onward hapart ⟨rfl, rfl⟩ nofun nofun nofun
  · exact h.onward hapart ⟨rfl, rfl⟩ nofun nofun nofun
  · exact h.apart hapart nofun (fun _ _ => Or.inl rfl) (Or.inl ⟨rfl, rfl⟩) nofun
  · exact h

theorem Wakeful.next (h : s.Wakeful) (event : PurgeEvent) :
    ((purgeBatch targets attemptBudget).next s event).Wakeful := by
  cases event with
  | worker now => exact h.workerStep now
  | outcome outcome =>
    show (s.outcome outcome).Wakeful
    have hphased := h.phased
    unfold Batch.outcome
    split
    · next hworker =>
      rw [hworker] at hphased
      exact h.late hphased rfl rfl (by rw [hworker]; exact nofun) rfl
    · exact h
  | unwind =>
    show s.unwind.Wakeful
    have hphased := h.phased
    unfold Batch.unwind
    split
    · next hworker =>
      rw [hworker] at hphased
      exact h.late hphased rfl rfl (fun _ => rfl) rfl
    · exact h
  | observer now wake => exact h.observerStep now wake
  | dropObserver =>
    show s.dropObserver.Wakeful
    have hapart (t : Batch) (ht : t = { s with observer := .guarding none }) : t.Wakeful := by
      subst ht
      exact h.onward ⟨rfl, rfl, rfl, rfl, rfl, rfl, id, id⟩ ⟨rfl, rfl⟩ nofun nofun nofun
    unfold Batch.dropObserver
    split
    · exact hapart _ rfl
    · exact hapart _ rfl
    · exact hapart _ rfl
    · exact h
  | otherAcquire n sids fqns =>
    show Wakeful (if s.guard.lock = none then _ else s)
    split_ifs
    · exact ⟨h.phased, h.joining, h.ended, h.granted, h.deadline, h.changed⟩
    · exact h
  | otherRelease n =>
    show Wakeful (if s.guard.lock = some (.other n) then _ else s)
    split_ifs
    · exact ⟨h.phased, h.joining, h.ended, h.granted, h.deadline, h.changed⟩
    · exact h

theorem taken_conclude {snapshot r : PurgeSnapshot} (h : (conclude snapshot).taken = some r) :
    r = snapshot ∧ snapshot.stop = true := by
  unfold conclude at h
  split_ifs at h with hstop
  · exact ⟨(Option.some.inj h).symm, hstop⟩
  · exact nomatch h

/-- A snapshot is taken once, of the progress as it then is, and only when the batch is closed. -/
theorem taken_observerStep (h : s.Wakeful) (now : Instant) (wake : Wake) {r : PurgeSnapshot}
    (ht : (s.observerStep now wake).observer.taken = some r) :
    s.observer.taken = some r ∨ r = (s.observerStep now wake).progress ∧
      ((s.observerStep now wake).progress.stop = true ∨ s.worker.done = true) := by
  unfold Batch.observerStep at ht ⊢
  split at ht <;> rename_i hobserver
  · exact nomatch ht
  · unfold Batch.look at ht ⊢
    split_ifs at ht ⊢ with hstopped hlate hgrant
    · exact Or.inr ⟨(Option.some.inj ht).symm, Or.inr (h.done_of_stopped hstopped)⟩
    · exact Or.inr ⟨(taken_conclude ht).1, Or.inl rfl⟩
    · exact Or.inr ⟨(taken_conclude ht).1, Or.inl (taken_conclude ht).2⟩
    · exact Or.inr ⟨(taken_conclude ht).1, Or.inl (taken_conclude ht).2⟩
  · rw [hobserver]
    dsimp only at ht
    split_ifs at ht <;> exact Or.inl ht
  · rw [hobserver]
    split at ht
    · exact Or.inl ht
    · exact Or.inl (hobserver ▸ ht)
  · unfold Batch.wakeUp at ht
    split at ht
    · split_ifs at ht
      · exact nomatch ht
      · exact nomatch (hobserver ▸ ht)
    · split_ifs at ht
      · exact nomatch ht
      · exact nomatch (hobserver ▸ ht)
    · split at ht
      · exact nomatch ht
      · exact nomatch (hobserver ▸ ht)
  · split_ifs at ht ⊢ with hok
    · exact Or.inr ⟨(Option.some.inj ht).symm, Or.inr (h.done_of_stopped hok.2)⟩
    · exact nomatch ht
  · exact Or.inr ⟨(Option.some.inj ht).symm, Or.inl rfl⟩
  · rw [hobserver]
    exact Or.inl ht
  · rw [hobserver]
    split_ifs at ht <;> exact Or.inl ht
  · rw [hobserver]
    exact Or.inl ht
  · rw [hobserver]
    exact Or.inl ht
  · exact Or.inl (hobserver ▸ ht)

theorem taken_next (h : s.Wakeful) (event : PurgeEvent) {r : PurgeSnapshot}
    (ht : ((purgeBatch targets attemptBudget).next s event).observer.taken = some r) :
    s.observer.taken = some r ∨ r = ((purgeBatch targets attemptBudget).next s event).progress ∧
      (((purgeBatch targets attemptBudget).next s event).progress.stop = true ∨
        s.worker.done = true) := by
  cases event with
  | worker now => exact Or.inl ((congrArg _ (observer_workerStep now)).symm.trans ht)
  | outcome outcome =>
    change (s.outcome outcome).observer.taken = some r at ht
    unfold Batch.outcome at ht
    split at ht <;> exact Or.inl ht
  | unwind =>
    change s.unwind.observer.taken = some r at ht
    unfold Batch.unwind at ht
    split at ht <;> exact Or.inl ht
  | observer now wake => exact taken_observerStep h now wake ht
  | dropObserver =>
    change s.dropObserver.observer.taken = some r at ht
    unfold Batch.dropObserver at ht
    split at ht
    · exact nomatch ht
    · exact nomatch ht
    · exact nomatch ht
    · exact Or.inl ht
  | otherAcquire n sids fqns =>
    change (if s.guard.lock = none then _ else s : Batch).observer.taken = some r at ht
    split_ifs at ht <;> exact Or.inl ht
  | otherRelease n =>
    change (if s.guard.lock = some (.other n) then _ else s : Batch).observer.taken = some r at ht
    split_ifs at ht <;> exact Or.inl ht

/-- What holds of a batch at each of its steps. -/
structure Kept (targets : PurgeTargets) (s : Batch) : Prop where
  course : s.Course targets
  leased : s.Leased targets
  recorded : s.Recorded
  wakeful : s.Wakeful
  silent : s.progress.started = false → s.attempts = []
  uncertain : ∀ r ∈ s.progress.results, r.2.isUncertain = true → s.progress.stop = true
  told : ∀ snapshot, s.observer.taken = some snapshot → s.Told snapshot

theorem kept_spawned (deadline : Instant) : (spawned targets deadline).Kept targets where
  course := ⟨rfl, rfl⟩
  leased := nofun
  recorded := rfl
  wakeful := ⟨nofun, nofun, nofun, nofun, nofun, nofun⟩
  silent _ := rfl
  uncertain := nofun
  told := nofun

theorem Kept.next (h : s.Kept targets) (event : PurgeEvent) :
    ((purgeBatch targets attemptBudget).next s event).Kept targets := by
  have hmoved : s.Moved ((purgeBatch targets attemptBudget).next s event) := moved_next event
  have hcourse : ((purgeBatch targets attemptBudget).next s event).Course targets :=
    h.course.next event
  have hsilent := hmoved.started h.silent
  refine ⟨hcourse, h.leased.next event, h.recorded.next event, h.wakeful.next event, hsilent,
    hmoved.uncertain h.uncertain, fun snapshot htaken => ?_⟩
  rcases taken_next h.wakeful event htaken with hold | ⟨hnew, hclosed⟩
  · exact (h.told snapshot hold).moved hmoved
  · rw [hnew]
    exact told_progress hcourse hsilent (hclosed.imp id hmoved.done)

theorem kept_run (deadline : Instant) (es : List PurgeEvent) :
    ((purgeBatch targets attemptBudget).run (spawned targets deadline) es).Kept targets :=
  Machine.run_inv_free (P := Kept targets) (fun _ event h => h.next event)
    (kept_spawned deadline) es

end Batch

/-- The attempt that was announced and is not recorded. -/
def WorkerStage.attempt : WorkerStage → Option Uuid
  | .notifyStarted sid _ | .attempting sid _ | .recording sid _ _ => some sid
  | _ => none

namespace Batch
variable {targets : PurgeTargets} {attemptBudget : Duration} {s : Batch}

/-- The worker is at a wait that nothing has ended: behind another purge or without its grant. -/
def Asleep (s : Batch) : Prop :=
  match s.worker with
  | .acquiring => s.cancelled = false ∧ s.guard.lock ≠ none
  | .awaitGrant => s.cancelled = false ∧ s.grant = false
  | _ => False

/-- The observer will move: at the deadline of the batch, and on a change where a grant is due. -/
def Rouses (s : Batch) : Prop :=
  match s.observer with
  | .joining _ | .ended _ => False
  | .waiting deadline =>
    deadline = s.progress.deadline ∧ (s.worker = .awaitGrant → s.changed = true)
  | _ => True

structure Lawful (targets : PurgeTargets) (s : Batch) : Prop where
  ordered : s.attempts <+: targets.ids
  once : s.attempts.Nodup
  single : ∀ sid, s.worker.attempt = some sid →
    s.attempts = s.progress.results.map Prod.fst ++ [sid]
  blocked : s.worker.attempt ≠ none →
    (∀ sid ∈ targets.sessionIds, s.guard.blocksSession sid = true) ∧
      ∀ fqn ∈ targets.fqns, s.guard.blocksAgent fqn = true
  reported : ∀ snapshot, s.observer = .ended (some snapshot) →
    snapshot.results <+: s.outcomes ∧ snapshot.results.map Prod.fst <+: targets.ids ∧
      (∀ sid ∈ s.attempts, sid ∉ snapshot.results.map Prod.fst → snapshot.phase = .started sid) ∧
      (snapshot.started = false → s.attempts = [])
  idle : ∀ snapshot, s.observer = .joining snapshot → s.attempts = []
  awake : s.Asleep → s.Rouses

theorem Leased.blocks (h : s.Leased targets) (hholds : s.worker.holds = true) :
    (∀ sid ∈ targets.sessionIds, s.guard.blocksSession sid = true) ∧
      ∀ fqn ∈ targets.fqns, s.guard.blocksAgent fqn = true := by
  unfold Leased at h
  rw [if_pos hholds] at h
  rw [h]
  exact ⟨fun sid hsid => decide_eq_true hsid, fun fqn hfqn => decide_eq_true hfqn⟩

theorem Wakeful.rouses (h : s.Wakeful) (hasleep : s.Asleep) : s.Rouses := by
  have hearly : s.worker.early = true ∧ s.worker.done = false ∧ s.cancelled = false := by
    unfold Asleep at hasleep
    split at hasleep <;> rename_i hworker
    · rw [hworker]
      exact ⟨rfl, rfl, hasleep.1⟩
    · rw [hworker]
      exact ⟨rfl, rfl, hasleep.1⟩
    · exact hasleep.elim
  unfold Rouses
  split <;> rename_i hobserver
  · exact nomatch hearly.2.2.symm.trans (h.joining _ hobserver).1
  · rcases h.ended _ hobserver with hcancelled | hdone
    · exact nomatch hearly.2.2.symm.trans hcancelled
    · exact nomatch hearly.2.1.symm.trans hdone
  · refine ⟨(h.deadline hearly.1 _ hobserver).symm, fun hworker => ?_⟩
    have hgrant : s.grant = false := by
      unfold Asleep at hasleep
      rw [hworker] at hasleep
      exact hasleep.2
    refine h.changed (Or.inr hworker) (eq_false_of_ne_true fun hgranted => ?_) _ hobserver
    exact nomatch hgrant.symm.trans (h.granted hworker hgranted)
  · trivial

theorem Kept.lawful (h : s.Kept targets) : s.Lawful targets where
  ordered := h.course.cases.1
  once := h.course.cases.1.sublist.nodup targets.nodup
  single sid hsid := by
    have hcourse := h.course
    unfold Course at hcourse
    cases hworker : s.worker <;> rw [hworker] at hsid hcourse <;>
      first | exact Option.some.inj hsid ▸ hcourse.1 | exact nomatch hsid
  blocked hattempt := h.leased.blocks <| by
    cases hworker : s.worker <;> rw [hworker] at hattempt <;> first | rfl | exact absurd rfl hattempt
  reported snapshot hended := by
    have htold := h.told snapshot (by rw [hended]; rfl)
    have hresults : s.progress.results <+: s.outcomes := h.recorded ▸ List.prefix_append _ _
    refine ⟨htold.results.trans hresults, ?_, fun sid hsid hmissing => ?_, htold.silent⟩
    · have hmap : s.progress.results.map Prod.fst <+: targets.ids := by
        rcases h.course.cases.2 with hall | ⟨last, hlast, -⟩
        · exact hall ▸ h.course.cases.1
        · exact (hlast ▸ List.prefix_append _ _).trans h.course.cases.1
      exact (htold.results.map _).trans hmap
    · exact (htold.missing sid hsid).resolve_left hmissing
  idle snapshot hjoining :=
    (h.told snapshot (by rw [hjoining]; rfl)).silent (h.wakeful.joining snapshot hjoining).2
  awake := h.wakeful.rouses

/-- No further attempt will start: one that returned an uncertain outcome is being recorded. -/
def Shut (s : Batch) : Prop :=
  s.progress.stop = true ∨ s.worker.done = true ∨
    ∃ r ∈ s.worker.unrecorded, r.2.isUncertain = true

theorem Shut.moved (h : s.progress.stop = true ∨ s.worker.done = true) {t : Batch}
    (hmoved : s.Moved t) : t.Shut ∧ t.attempts = s.attempts := by
  refine ⟨h.imp hmoved.stop fun hdone => Or.inl (hmoved.done hdone), ?_⟩
  rcases hmoved.attempts with heq | ⟨hstop, hdone⟩
  · exact heq
  · rcases h with h | h
    · exact nomatch hstop.symm.trans h
    · exact nomatch hdone.symm.trans h

theorem Shut.next (h : s.Shut) (event : PurgeEvent) :
    ((purgeBatch targets attemptBudget).next s event).Shut ∧
      ((purgeBatch targets attemptBudget).next s event).attempts = s.attempts := by
  rcases h with hstop | hdone | ⟨r, hr, huncertain⟩
  · exact Shut.moved (Or.inl hstop) (moved_next event)
  · exact Shut.moved (Or.inr hdone) (moved_next event)
  · have hkeep {t : Batch} (ht : t.worker = s.worker ∧ t.attempts = s.attempts) :
        t.Shut ∧ t.attempts = s.attempts :=
      ⟨Or.inr (Or.inr ⟨r, ht.1 ▸ hr, huncertain⟩), ht.2⟩
    have hapart {t : Batch} (ha : s.Apart t) := hkeep ⟨ha.worker, ha.attempts⟩
    obtain ⟨sid, outcome, rest, hworker, rfl⟩ :
        ∃ sid outcome rest, s.worker = .recording sid outcome rest ∧ r = (sid, outcome) := by
      cases hworker : s.worker <;> rw [hworker] at hr <;>
        first | exact ⟨_, _, _, rfl, List.mem_singleton.mp hr⟩ | exact nomatch hr
    cases event with
    | worker now =>
      show (s.workerStep targets attemptBudget now).Shut ∧
        (s.workerStep targets attemptBudget now).attempts = s.attempts
      unfold Batch.workerStep
      rw [hworker]
      refine ⟨Or.inl ?_, rfl⟩
      show (_ || _ || outcome.isUncertain) = true
      rw [show outcome.isUncertain = true from huncertain, Bool.or_true]
    | outcome o =>
      show (s.outcome o).Shut ∧ (s.outcome o).attempts = s.attempts
      unfold Batch.outcome
      rw [hworker]
      exact hkeep ⟨rfl, rfl⟩
    | unwind =>
      show s.unwind.Shut ∧ s.unwind.attempts = s.attempts
      unfold Batch.unwind
      rw [hworker]
      exact hkeep ⟨rfl, rfl⟩
    | observer now wake => exact hapart (apart_next rfl)
    | dropObserver => exact hapart (apart_next rfl)
    | otherAcquire n sids fqns => exact hapart (apart_next rfl)
    | otherRelease n => exact hapart (apart_next rfl)

theorem Shut.run (h : s.Shut) (es : List PurgeEvent) :
    ((purgeBatch targets attemptBudget).run s es).attempts = s.attempts := by
  induction es generalizing s with
  | nil => rfl
  | cons event es ih =>
    have hnext : ((purgeBatch targets attemptBudget).next s event).Shut ∧
      ((purgeBatch targets attemptBudget).next s event).attempts = s.attempts := h.next event
    exact (ih hnext.1).trans hnext.2

/-- The stop is set, an attempt returned an uncertain outcome, or the observer returned. -/
def Closed (s : Batch) : Prop :=
  s.progress.stop = true ∨ (∃ r ∈ s.outcomes, r.2.isUncertain = true) ∨
    ∃ snapshot, s.observer = .ended (some snapshot)

theorem Kept.shut (h : s.Kept targets) (hclosed : s.Closed) : s.Shut := by
  rcases hclosed with hstop | ⟨r, hr, huncertain⟩ | ⟨snapshot, hended⟩
  · exact Or.inl hstop
  · rw [h.recorded] at hr
    rcases List.mem_append.mp hr with hold | hnew
    · exact Or.inl (h.uncertain r hold huncertain)
    · exact Or.inr (Or.inr ⟨r, hnew, huncertain⟩)
  · exact (h.told snapshot (by rw [hended]; rfl)).closed.imp id Or.inl

/-- Over every interleaving, and after it: nothing starts once the batch is closed. -/
theorem lawful_run (targets : PurgeTargets) (attemptBudget : Duration) (deadline : Instant)
    (es : List PurgeEvent) :
    let s := (purgeBatch targets attemptBudget).run (spawned targets deadline) es
    s.Lawful targets ∧ (s.Closed → ∀ fs : List PurgeEvent,
      ((purgeBatch targets attemptBudget).run s fs).attempts = s.attempts) := by
  have hkept : ((purgeBatch targets attemptBudget).run (spawned targets deadline) es).Kept targets :=
    kept_run deadline es
  exact ⟨hkept.lawful, fun hclosed fs => (hkept.shut hclosed).run fs⟩

theorem lawful_afterUncertain :
    let targets : PurgeTargets := ⟨[1, 2], [1, 2], ["ac/dev"], by decide⟩
    let s := (purgeBatch targets 10).run (spawned targets 30)
      [.worker 0, .worker 0, .worker 0, .observer 1 .changed, .observer 1 .changed, .worker 1,
        .worker 2, .worker 2, .outcome (.uncertain "lost" true)]
    (s.Lawful targets ∧ s.attempts = [1]) ∧
      ((purgeBatch targets 10).run s [.worker 3, .worker 3, .worker 3, .worker 4]).attempts =
        [1] := by
  intro targets s
  have h := lawful_run targets 10 30 [.worker 0, .worker 0, .worker 0, .observer 1 .changed,
    .observer 1 .changed, .worker 1, .worker 2, .worker 2, .outcome (.uncertain "lost" true)]
  have hattempts : s.attempts = [1] := by decide
  refine ⟨⟨h.1, hattempts⟩, (h.2 (Or.inr (Or.inl ?_)) _).trans hattempts⟩
  exact ⟨(1, .uncertain "lost" true), by decide, rfl⟩

end Batch

end AgentsCommander.Purge
