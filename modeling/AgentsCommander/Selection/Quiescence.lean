import AgentsCommander.Selection.SeedLaw

/-! Seed work comes to rest, and nobody who waits for it is left asleep. -/
namespace AgentsCommander.Selection
open Foundation

namespace SeedWorld
variable {w : SeedWorld} {e : SeedEvent} {id : ℕ}

/-- The id leaves the map in this step. -/
def departs (id : ℕ) (w : SeedWorld) (e : SeedEvent) : Bool :=
  w.present id && !(seedTracker.next w e).present id

def registers (id : ℕ) (w : SeedWorld) (e : SeedEvent) : Bool :=
  decide (seedTracker.answer w e = .registered id)

theorem balance_step (hc : w.Coherent) (e : SeedEvent) (id : ℕ) :
    (departs id w e).toNat + ((seedTracker.next w e).present id).toNat =
      (registers id w e).toNat + (w.present id).toNat := by
  by_cases hr : seedTracker.answer w e = .registered id
  · have hlook := lookup_of_registered hr
    have hfree : w.state.work.lookup id = none := by
      rcases nextId_step w e with ⟨-, hn⟩ | ⟨-, hn, -⟩
      · exact absurd hr (hn id)
      · rw [← SeedAnswer.registered.inj (hn.symm.trans hr)]
        exact hc.free
    simp only [departs, registers, present, hlook, hfree, hr, Option.isSome_none, Option.isSome_some,
      Bool.false_and, decide_true]
    rfl
  · have hp := passage_step w e id
    simp only [departs, registers, present, decide_eq_false hr]
    generalize w.state.work.lookup id = before at hp ⊢
    generalize (seedTracker.next w e).state.work.lookup id = after at hp ⊢
    cases hp with
    | registered running he hid hans => exact absurd hans hr
    | kept => cases before <;> rfl
    | completed he hg => cases before <;> rfl
    | _ => rfl

theorem balance_run (es : List SeedEvent) (id : ℕ) :
    seedTracker.tally (departs id) .new es + ((seedTracker.run .new es).present id).toNat =
      seedTracker.tally (registers id) .new es := by
  induction es using List.reverseRecOn with
  | nil => rfl
  | append_singleton es e ih =>
    have hstep := balance_step (coherent_run es) e id
    rw [Machine.tally_concat, Machine.tally_concat, Machine.run_concat]
    omega

theorem registers_run (es : List SeedEvent) (id : ℕ) : seedTracker.tally (registers id) .new es =
    (decide (0 < id ∧ id < (seedTracker.run .new es).state.nextId)).toNat := by
  induction es using List.reverseRecOn with
  | nil =>
    have hnone : ¬ (0 < id ∧ id < 1) := by omega
    exact (congrArg Bool.toNat (decide_eq_false hnone)).symm
  | append_singleton es e ih =>
    have hpos := (coherent_run es).pos
    rw [Machine.tally_concat, Machine.run_concat, ih, registers]
    rcases nextId_step (seedTracker.run .new es) e with ⟨hn, ha⟩ | ⟨hn, ha, -⟩
    · rw [hn, decide_eq_false (ha id)]
      rfl
    · rw [hn, ha]
      by_cases hid : id = (seedTracker.run .new es).state.nextId
      · subst hid
        simp [hpos]
      · have hne : SeedAnswer.registered (seedTracker.run .new es).state.nextId ≠ .registered id :=
          fun h => hid (SeedAnswer.registered.inj h).symm
        have hiff : (0 < id ∧ id < (seedTracker.run .new es).state.nextId + 1) ↔
            0 < id ∧ id < (seedTracker.run .new es).state.nextId := by omega
        rw [decide_eq_false hne, decide_eq_decide.mpr hiff]
        rfl

theorem drawn_of_registered {es : List SeedEvent}
    (h : .registered id ∈ seedTracker.answers .new es) :
    0 < id ∧ id < (seedTracker.run .new es).state.nextId := by
  induction es using List.reverseRecOn with
  | nil => cases h
  | append_singleton es e ih =>
    rw [Machine.answers_concat, List.mem_append, List.mem_singleton] at h
    rw [Machine.run_concat]
    rcases nextId_step (seedTracker.run .new es) e with ⟨hn, ha⟩ | ⟨hn, ha, -⟩
    · rw [hn]
      exact ih (h.resolve_right fun he => ha id he.symm)
    · rw [hn]
      rcases h with h | h
      · exact ⟨(ih h).1, Nat.lt_succ_of_lt (ih h).2⟩
      · rw [SeedAnswer.registered.inj (h.trans ha)]
        exact ⟨(coherent_run es).pos, Nat.lt_succ_self _⟩

/-- The ways out of the map. -/
theorem cause_of_departs (h : departs id w e = true) :
    e = .completeStarted id ∨ e = .cancelWaiter id ∨ e = .sealTracker := by
  have hp := passage_step w e id
  unfold departs present at h
  generalize w.state.work.lookup id = before at hp h
  generalize (seedTracker.next w e).state.work.lookup id = after at hp h
  cases hp with
  | kept => cases before <;> cases h
  | registered => cases before <;> cases h
  | canceled he => exact Or.inr (Or.inl he)
  | completed he => exact Or.inl he
  | sealed he => exact Or.inr (Or.inr he)
  | _ => cases h

/-- Who is asleep has a notification coming if the map is empty. -/
structure Rested (w : SeedWorld) : Prop where
  notified : ∀ waiter since, w.waiters waiter = .notified since → since ≤ w.notifications
  parked : ∀ waiter since, w.waiters waiter = .parked since → since ≤ w.notifications
  woken : w.state.isEmpty = true → w.owed = 0 → ∀ waiter since,
    w.waiters waiter = .parked since → since < w.notifications

theorem Rested.new : SeedWorld.new.Rested where
  notified _ _ h := by cases h
  parked _ _ h := by cases h
  woken _ _ _ _ h := by cases h

theorem Rested.setWaiter (h : w.Rested) (waiter : ℕ) {phase : WaitPhase}
    (hnotified : ∀ since, phase = .notified since → since ≤ w.notifications)
    (hparked : ∀ since, phase = .parked since →
      since ≤ w.notifications ∧ w.state.isEmpty = false) : (w.setWaiter waiter phase).Rested := by
  have hcases : ∀ other found, (w.setWaiter waiter phase).waiters other = found →
      phase = found ∨ w.waiters other = found := by
    intro other found hfound
    change Function.update w.waiters waiter phase other = found at hfound
    by_cases ho : other = waiter
    · rw [ho, Function.update_self] at hfound
      exact Or.inl hfound
    · rw [Function.update_of_ne ho] at hfound
      exact Or.inr hfound
  constructor
  · intro other since hw
    exact (hcases other _ hw).elim (hnotified since) (h.notified other since)
  · intro other since hw
    exact (hcases other _ hw).elim (fun hp => (hparked since hp).1) (h.parked other since)
  · intro he ho other since hw
    rcases hcases other _ hw with hp | hp
    · cases he.symm.trans (hparked since hp).2
    · exact h.woken he ho other since hp

/-- A section either leaves work in the map, or owes a notification, or found the map empty. -/
theorem Rested.section (h : w.Rested) {w' : SeedWorld} (hwaiters : w'.waiters = w.waiters)
    (hnot : w'.notifications = w.notifications)
    (howed : w'.state.isEmpty = true → w'.owed = 0 →
      w.state.isEmpty = true ∧ w.owed = 0) : w'.Rested where
  notified waiter since hw := hnot ▸ h.notified waiter since (hwaiters ▸ hw)
  parked waiter since hw := hnot ▸ h.parked waiter since (hwaiters ▸ hw)
  woken he ho waiter since hw :=
    hnot ▸ h.woken (howed he ho).1 (howed he ho).2 waiter since (hwaiters ▸ hw)

theorem Rested.settle (h : w.Rested) (state : BlockingSeedTrackerState) :
    (w.settle state).Rested := by
  refine h.section rfl rfl fun he ho => ?_
  change w.owed + state.isEmpty.toNat = 0 at ho
  rw [show state.isEmpty = true from he] at ho
  cases ho

/-- Only the sections that end with a notification can empty the map. -/
theorem isEmpty_of_next (hdep : ∀ id, departs id w e = false)
    (h : (seedTracker.next w e).state.isEmpty = true) : w.state.isEmpty = true := by
  rw [BlockingSeedTrackerState.isEmpty_iff] at h ⊢
  intro id
  have hd := hdep id
  unfold departs present at hd
  rw [h id] at hd
  cases hl : w.state.work.lookup id with
  | none => rfl
  | some work =>
    rw [hl] at hd
    cases hd

theorem Rested.notifyWaiters (h : w.Rested) : w.notifyWaiters.Rested := by
  unfold SeedWorld.notifyWaiters
  split_ifs with ho
  · exact h
  · constructor
    · exact fun waiter since hw => (h.notified waiter since hw).trans (Nat.le_succ _)
    · exact fun waiter since hw => (h.parked waiter since hw).trans (Nat.le_succ _)
    · exact fun _ _ waiter since hw => Nat.lt_succ_of_le (h.parked waiter since hw)

theorem Rested.check (h : w.Rested) (waiter : ℕ) : (w.check waiter).1.Rested := by
  unfold SeedWorld.check
  split
  · rename_i since hw
    split_ifs with he
    · exact h.setWaiter waiter nofun nofun
    · refine h.setWaiter waiter nofun fun since' hp => ?_
      cases hp
      exact ⟨h.notified waiter since hw, Bool.eq_false_iff.mpr he⟩
  · exact h

theorem Rested.step (h : w.Rested) (e : SeedEvent) : (seedTracker.next w e).Rested := by
  have hdep : e ≠ .sealTracker → (∀ id, e ≠ .completeStarted id) → (∀ id, e ≠ .cancelWaiter id) →
      ∀ id, departs id w e = false := by
    intro hs hd hk id
    by_contra hne
    rcases cause_of_departs (Bool.not_eq_false _ ▸ hne) with he | he | he
    · exact hd id he
    · exact hk id he
    · exact hs he
  cases e with
  | register running =>
    exact h.section rfl rfl fun he ho => ⟨isEmpty_of_next (hdep nofun nofun nofun) he, ho⟩
  | attachAbort id abort =>
    exact h.section rfl rfl fun he ho => ⟨isEmpty_of_next (hdep nofun nofun nofun) he, ho⟩
  | begin id =>
    exact h.section rfl rfl fun he ho => ⟨isEmpty_of_next (hdep nofun nofun nofun) he, ho⟩
  | cancelWaiter id => exact h.settle _
  | completeStarted id =>
    show (w.completeStarted id).Rested
    unfold completeStarted
    split_ifs
    · have hdropped : Rested { w with guards := w.guards.erase id } :=
        ⟨h.notified, h.parked, h.woken⟩
      exact hdropped.settle _
    · exact h
  | sealTracker => exact h.settle _
  | notifyWaiters => exact h.notifyWaiters
  | makeNotified waiter =>
    show (w.makeNotified waiter).Rested
    unfold makeNotified
    split
    · refine h.setWaiter waiter (fun since hp => ?_) nofun
      exact (WaitPhase.notified.inj hp).symm.le
    · exact h
  | check waiter => exact h.check waiter
  | wake waiter =>
    show (w.wake waiter).Rested
    unfold wake
    split
    · split_ifs
      · exact h.setWaiter waiter nofun nofun
      · exact h
    · exact h
  | expire waiter =>
    show (w.expire waiter).Rested
    unfold expire
    split
    · exact h.setWaiter waiter nofun nofun
    · exact h
  | lastCheck waiter =>
    show (w.lastCheck waiter).1.Rested
    unfold lastCheck
    split
    · exact h.setWaiter waiter nofun nofun
    · exact h
  | dropWait waiter => exact h.setWaiter waiter nofun nofun

theorem rested_run (es : List SeedEvent) : (seedTracker.run .new es).Rested :=
  Machine.run_inv_free (P := Rested) (fun _ e h => h.step e) .new es

theorem isEmpty_of_quiescent (ha : seedTracker.answer w e = .quiescent true) :
    w.state.isEmpty = true := by
  cases e with
  | check waiter =>
    change (w.check waiter).2 = _ at ha
    unfold check at ha
    split at ha
    · split_ifs at ha with he
      exact he
    · cases ha
  | lastCheck waiter =>
    change (w.lastCheck waiter).2 = _ at ha
    unfold lastCheck at ha
    split at ha
    · exact SeedAnswer.quiescent.inj ha
    · cases ha
  | attachAbort id abort =>
    change (if (w.state.attachAbort id abort).2 then SeedAnswer.aborted abort else .attached) =
      _ at ha
    split_ifs at ha
  | register running =>
    change (w.state.register running).2.elim SeedAnswer.unavailable SeedAnswer.registered = _ at ha
    cases hr : (w.state.register running).2 <;> rw [hr] at ha <;> cases ha
  | _ => cases ha

theorem Coherent.quiet (hc : w.Coherent) (he : w.state.isEmpty = true) : w.guards = [] := by
  rw [List.eq_nil_iff_forall_not_mem]
  intro id hid
  cases ((hc.guarded id).mp hid).symm.trans (BlockingSeedTrackerState.isEmpty_iff.mp he id)

theorem Coherent.emptied (hc : w.Coherent) (hs : w.Sealed) (hg : w.guards = []) :
    w.state.isEmpty = true := by
  rw [BlockingSeedTrackerState.isEmpty_iff]
  intro id
  cases hl : w.state.work.lookup id with
  | none => rfl
  | some work =>
    cases work with
    | queued abort => exact absurd hl (hs.unqueued id abort)
    | started =>
      have := (hc.guarded id).mpr hl
      rw [hg] at this
      cases this

end SeedWorld

open SeedWorld in
/-- Blocking seed work begins at most once, leaves once, and can be waited for. -/
structure QuiescenceLaw (es : List SeedEvent) : Prop where
  begins : ∀ id, seedTracker.answer (seedTracker.run .new es) (.begin id) = .began true →
    (∀ before after, es = before ++ .begin id :: after →
      seedTracker.answer (seedTracker.run .new before) (.begin id) ≠ .began true) ∧
    .sealTracker ∉ es ∧
    ∀ before after, es = before ++ .cancelWaiter id :: after →
      .registered id ∉ seedTracker.answers .new before
  leaves : ∀ id, .registered id ∈ seedTracker.answers .new es →
    seedTracker.tally (registers id) .new es = 1 ∧
      seedTracker.tally (departs id) .new es +
        ((seedTracker.run .new es).present id).toNat = 1
  causes : ∀ id e, departs id (seedTracker.run .new es) e = true →
    e = .completeStarted id ∨ e = .cancelWaiter id ∨ e = .sealTracker
  empties : .sealTracker ∈ es → (seedTracker.run .new es).guards = [] →
    (seedTracker.run .new es).state.isEmpty = true
  aborts : ∀ id abort, (seedTracker.run .new es).present id = false →
    seedTracker.answer (seedTracker.run .new es) (.attachAbort id abort) = .aborted abort
  quiet : ∀ e, seedTracker.answer (seedTracker.run .new es) e = .quiescent true →
    (seedTracker.run .new es).guards = []
  woken : (seedTracker.run .new es).state.isEmpty = true → (seedTracker.run .new es).owed = 0 →
    ∀ waiter since, (seedTracker.run .new es).waiters waiter = .parked since →
      since < (seedTracker.run .new es).notifications

theorem quiescenceLaw_run (es : List SeedEvent) : QuiescenceLaw es where
  begins id ha := by
    obtain ⟨abort, hq⟩ := SeedWorld.queued_of_began ha
    have hpast : ∀ before e after, es = before ++ e :: after →
        ¬ (seedTracker.next (seedTracker.run .new before) e).Past id := by
      rintro before e after rfl hpast
      rw [Machine.run_append, Machine.run_cons] at hq
      exact (hpast.run after).spent abort hq
    refine ⟨fun before after hes hb => ?_, fun hmem => ?_, fun before after hes hr => ?_⟩
    · exact hpast before _ after hes (SeedWorld.past_of_began (SeedWorld.coherent_run before) hb)
    · obtain ⟨before, after, rfl⟩ := List.append_of_mem hmem
      rw [Machine.run_append, Machine.run_cons] at hq
      exact ((SeedWorld.sealed_of_seal _).run after).unqueued id abort hq
    · exact hpast before _ after hes
        (SeedWorld.past_of_canceled (SeedWorld.drawn_of_registered hr).2)
  leaves id h := by
    have hone : seedTracker.tally (SeedWorld.registers id) .new es = 1 := by
      rw [SeedWorld.registers_run, decide_eq_true (SeedWorld.drawn_of_registered h)]
      rfl
    exact ⟨hone, (SeedWorld.balance_run es id).trans hone⟩
  causes _ _ h := SeedWorld.cause_of_departs h
  empties hmem hg := by
    refine (SeedWorld.coherent_run es).emptied ?_ hg
    obtain ⟨before, after, rfl⟩ := List.append_of_mem hmem
    rw [Machine.run_append, Machine.run_cons]
    exact (SeedWorld.sealed_of_seal _).run after
  aborts id abort h := by
    have hnone := Option.isSome_eq_false_iff.mp h
    show (if ((seedTracker.run .new es).state.attachAbort id abort).2 then SeedAnswer.aborted abort
      else .attached) = _
    rw [BlockingSeedTrackerState.attachAbort, Option.isNone_iff_eq_none.mp hnone]
    rfl
  quiet _ h := (SeedWorld.coherent_run es).quiet (SeedWorld.isEmpty_of_quiescent h)
  woken he ho := (SeedWorld.rested_run es).woken he ho

end AgentsCommander.Selection
