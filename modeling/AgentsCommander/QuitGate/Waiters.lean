import AgentsCommander.QuitGate.Safety

/-! A round's outcome stays in the slot for the task that waits for it, as long as no later
round ends first. -/
namespace AgentsCommander.QuitGate
open Foundation Relation QuitRound

/-- The epoch ended with the outcome. -/
def Recorded (s : System) (n : ℕ) (o : QuitOutcome) : Prop :=
  ∃ forced waited busy, .finished n o forced waited busy ∈ s.history

def Stage.Waiting (stage : Stage) : Prop :=
  stage = .unread ∨ ∃ d, stage = .parked d

/-- A task may read its outcome until it returns, and so may a forced quit that has the exit
still to claim; no task is left parked without its wakeup; and an exit is claimed, or will be
by a task that is still there. -/
structure OutcomeLaw (s : System) : Prop where
  readable : ∀ n o, Recorded s n o → (s.waiters n).isSome = true → s.inner.terminalFor n = some o
  claimable : ∀ n o, Recorded s n o → n ∈ s.forcing → .claimed n ∉ s.history →
    s.inner.terminalFor n = some o
  woken : ∀ n o w, Recorded s n o → s.waiters n = some w → w.stage.Waiting →
    w.notified = true ∨ 0 < s.notifies
  acted : ∀ n o, Recorded s n o → o.outcome = .exiting → .claimed n ∈ s.history ∨
    (s.waiters n).isSome = true ∨ n ∈ s.forcing ∨ .dropped n ∈ s.history

/-- The outcome in the slot is still to be read: by its task, or by the forced quit that is
to claim the exit. -/
def Held (s : System) : Prop :=
  ∃ x ∈ s.inner.terminal, (s.waiters x.1).isSome = true ∨
    x.1 ∈ s.forcing ∧ s.inner.exitClaimed = false

/-- A task that could not tell of its round finds it has ended in an exit that nobody else
is to claim. -/
def Unacted (s : System) (n : ℕ) : Prop :=
  (∃ w ∈ s.waiters n, w.stage = .unobserved) ∧
    (∃ o ∈ s.inner.terminalFor n, o.outcome = .exiting) ∧
    s.inner.exitClaimed = false ∧ n ∉ s.forcing

instance (s : System) : Decidable (Held s) :=
  inferInstanceAs (Decidable (∃ _ ∈ _, _))

instance (s : System) (n : ℕ) : Decidable (Unacted s n) :=
  inferInstanceAs (Decidable (_ ∧ _))

/-- No round ends while the slot's outcome is held, and no exit is left by a task that could
not tell of its round. -/
def ReadInTime (s : System) (e : Event) : Prop :=
  (s.Ends e → ¬ Held s) ∧
    match e with
    | .step n _ => ¬ Unacted s n
    | _ => True

instance (s : System) : ∀ e : Event, Decidable (ReadInTime s e)
  | .step n _ => inferInstanceAs (Decidable (_ ∧ ¬ Unacted s n))
  | .register _ | .unregister _ | .windowGone _ | .resolve .. | .progress .. | .quit .. | .claim _
  | .wake .. | .cancel _ | .notify | .tick _ => inferInstanceAs (Decidable (_ ∧ True))

theorem recorded_cons {s t : System} {x : Happened} (hh : t.history = x :: s.history)
    (hx : ∀ n o forced waited busy, x ≠ .finished n o forced waited busy) {n : ℕ}
    {o : QuitOutcome} : Recorded t n o ↔ Recorded s n o := by
  constructor
  · rintro ⟨forced, waited, busy, hm⟩
    rw [hh] at hm
    rcases List.mem_cons.mp hm with hm | hm
    · exact absurd hm.symm (hx n o forced waited busy)
    · exact ⟨forced, waited, busy, hm⟩
  · rintro ⟨forced, waited, busy, hm⟩
    refine ⟨forced, waited, busy, ?_⟩
    rw [hh]
    exact List.mem_cons_of_mem _ hm

theorem recorded_same {s t : System} (hh : t.history = s.history) {n : ℕ} {o : QuitOutcome} :
    Recorded t n o ↔ Recorded s n o := by
  unfold Recorded
  rw [hh]

def System.live (s : System) : Option ℕ := s.inner.round.map (·.epoch)

/-- What ties the tasks to the gate. -/
structure TaskInv (s : System) : Prop extends GateInv s where
  present_le : ∀ n w, s.waiters n = some w → n ≤ s.inner.nextEpoch
  decided : ∀ n w o, s.waiters n = some w → w.stage = .decided o → Recorded s n o
  unobserved : ∀ n w, s.waiters n = some w → w.stage = .unobserved → s.live ≠ some n
  flagged : ∀ n o, s.inner.terminal = some (n, o) → s.inner.exitClaimed = true →
    .claimed n ∈ s.history
  attended : ∀ n, s.live = some n → (s.waiters n).isSome = true ∨ .dropped n ∈ s.history

theorem update_eq_some {waiters : ℕ → Option Waiter} {n m : ℕ} {x : Option Waiter} {v : Waiter}
    (h : Function.update waiters n x m = some v) :
    m = n ∧ x = some v ∨ m ≠ n ∧ waiters m = some v := by
  by_cases hm : m = n
  · rw [hm, Function.update_self] at h
    exact .inl ⟨hm, h⟩
  · rw [Function.update_of_ne hm] at h
    exact .inr ⟨hm, h⟩

theorem isSome_update {waiters : ℕ → Option Waiter} {n : ℕ} (m : ℕ) (x : Waiter)
    (h : (waiters m).isSome = true) : (Function.update waiters n (some x) m).isSome = true := by
  by_cases hm : m = n
  · rw [hm, Function.update_self]
    rfl
  · rw [Function.update_of_ne hm]
    exact h

namespace TaskInv
variable {s t : System}

theorem unique (h : TaskInv s) {n : ℕ} {o o' : QuitOutcome} (ho : Recorded s n o)
    (ho' : Recorded s n o') : o = o' := by
  obtain ⟨forced, waited, busy, ho⟩ := ho
  obtain ⟨forced', waited', busy', ho'⟩ := ho'
  exact h.lawful.outcome_unique ho ho'

theorem unfinished (h : TaskInv s) {n : ℕ} (hn : s.live = some n) (o : QuitOutcome) :
    ¬ Recorded s n o := by
  rintro ⟨forced, waited, busy, hm⟩
  obtain ⟨r, hr, rfl⟩ := Option.map_eq_some_iff.mp hn
  exact h.live_unfinished r hr o forced waited busy hm

theorem recorded_le (h : TaskInv s) {n : ℕ} {o : QuitOutcome} (ho : Recorded s n o) :
    n ≤ s.inner.nextEpoch := by
  obtain ⟨forced, waited, busy, hm⟩ := ho
  exact h.finished_le n o forced waited busy hm

theorem init : TaskInv {} where
  toGateInv := GateInv.init
  present_le := by intro _ _ h; cases h
  decided := by intro _ _ _ h; cases h
  unobserved := by intro _ _ h; cases h
  flagged := by intro _ _ h; cases h
  attended := by intro _ h; cases h

/-- The tasks stay, and the live round, if any, is the same. -/
theorem kept (h : TaskInv s) (hg : GateInv t) (hh : ∀ x ∈ s.history, x ∈ t.history)
    (hw : t.waiters = s.waiters) (hl : t.live = s.live)
    (hn : s.inner.nextEpoch ≤ t.inner.nextEpoch)
    (hf : ∀ n o, t.inner.terminal = some (n, o) → t.inner.exitClaimed = true →
      .claimed n ∈ t.history) : TaskInv t where
  toGateInv := hg
  present_le n w hw' := (h.present_le n w (hw ▸ hw')).trans hn
  decided n w o hw' hs := by
    obtain ⟨forced, waited, busy, hm⟩ := h.decided n w o (hw ▸ hw') hs
    exact ⟨forced, waited, busy, hh _ hm⟩
  unobserved n w hw' hs := by
    rw [hl]
    exact h.unobserved n w (hw ▸ hw') hs
  flagged := hf
  attended n hn := by
    rw [hw]
    exact (h.attended n (hl ▸ hn)).imp id (hh _)

theorem withRound (h : TaskInv s) {r r' : QuitRound} (hg : GateInv (s.withRound r'))
    (hr : s.inner.round = some r) (he : r'.epoch = r.epoch) : TaskInv (s.withRound r') := by
  refine h.kept hg (fun _ hx => hx) rfl ?_ le_rfl h.flagged
  show some r'.epoch = s.inner.round.map (·.epoch)
  rw [hr, he]
  rfl

theorem install (h : TaskInv s) : TaskInv s.install where
  toGateInv := h.toGateInv.install
  present_le n w hw := by
    rcases update_eq_some hw with ⟨rfl, _⟩ | ⟨_, hw⟩
    · exact le_rfl
    · exact (h.present_le n w hw).trans (Nat.le_succ _)
  decided n w o hw hs := by
    rcases update_eq_some hw with ⟨rfl, hnew⟩ | ⟨_, hw⟩
    · cases hnew
      cases hs
    · obtain ⟨forced, waited, busy, hm⟩ := h.decided n w o hw hs
      exact ⟨forced, waited, busy, List.mem_cons_of_mem _ hm⟩
  unobserved n w hw hs := by
    rcases update_eq_some hw with ⟨rfl, hnew⟩ | ⟨hn, _⟩
    · cases hnew
      cases hs
    · intro hl
      exact hn (Option.some.inj hl).symm
  flagged n o ht hc := List.mem_cons_of_mem _ (h.flagged n o ht hc)
  attended n hn := by
    have hn : s.inner.nextEpoch + 1 = n := Option.some.inj hn
    left
    show (Function.update s.waiters (s.inner.nextEpoch + 1) _ n).isSome = true
    rw [hn, Function.update_self]
    rfl

theorem staged (h : TaskInv s) {n : ℕ} {w w' : Waiter} (hw : s.waiters n = some w)
    (hs : s.Staged n w w') (hg : GateInv (s.setWaiter n (some w'))) :
    TaskInv (s.setWaiter n (some w')) where
  toGateInv := hg
  present_le m v hv := by
    rcases update_eq_some hv with ⟨rfl, _⟩ | ⟨_, hv⟩
    · exact h.present_le m w hw
    · exact h.present_le m v hv
  decided m v o hv hst := by
    rcases update_eq_some hv with ⟨rfl, hnew⟩ | ⟨_, hv⟩
    · cases hnew
      exact h.shown m o (QuitGateInner.terminalFor_eq_some.mp (hs.decided o hst))
    · exact h.decided m v o hv hst
  unobserved m v hv hst := by
    rcases update_eq_some hv with ⟨rfl, hnew⟩ | ⟨_, hv⟩
    · cases hnew
      intro hl
      obtain ⟨r, hr, he⟩ := Option.map_eq_some_iff.mp hl
      cases (hs.unobserved hst).symm.trans (QuitGateInner.liveRound_eq_some.mpr ⟨hr, he⟩)
    · exact h.unobserved m v hv hst
  flagged := h.flagged
  attended m hm := (h.attended m hm).imp (isSome_update m w') id

theorem leave (h : TaskInv s) {n : ℕ} {x : Happened} (hg : GateInv ((s.setWaiter n none).say x))
    (hl : s.live = some n → x = .dropped n) : TaskInv ((s.setWaiter n none).say x) where
  toGateInv := hg
  present_le m v hv := by
    rcases update_eq_some hv with ⟨_, hnew⟩ | ⟨_, hv⟩
    · cases hnew
    · exact h.present_le m v hv
  decided m v o hv hst := by
    rcases update_eq_some hv with ⟨_, hnew⟩ | ⟨_, hv⟩
    · cases hnew
    · obtain ⟨forced, waited, busy, hf⟩ := h.decided m v o hv hst
      exact ⟨forced, waited, busy, List.mem_cons_of_mem _ hf⟩
  unobserved m v hv hst := by
    rcases update_eq_some hv with ⟨_, hnew⟩ | ⟨_, hv⟩
    · cases hnew
    · exact h.unobserved m v hv hst
  flagged m o ht hc := List.mem_cons_of_mem _ (h.flagged m o ht hc)
  attended m hm := by
    by_cases he : m = n
    · right
      rw [hl (he ▸ hm), he]
      exact List.mem_cons_self
    · have hupd : ((s.setWaiter n none).say x).waiters m = s.waiters m :=
        Function.update_of_ne he ..
      rw [hupd]
      exact (h.attended m hm).imp id (List.mem_cons_of_mem _)

theorem ended (h : TaskInv s) {r : QuitRound} {o : QuitOutcome} {forced : Bool}
    {busy : Finset Label} (he : s.Ending r o forced busy) :
    TaskInv (s.ended r.epoch o forced busy) where
  toGateInv := h.toGateInv.ended he
  present_le := h.present_le
  decided n w o hw hs := by
    obtain ⟨forced, waited, busy, hm⟩ := h.decided n w o hw hs
    exact ⟨forced, waited, busy, List.mem_cons_of_mem _ hm⟩
  unobserved := by intro _ _ _ _ h; cases h
  flagged := by intro _ _ _ h; cases h
  attended := by intro _ h; cases h

theorem quiet {s₀ : System} {e : Event} (h : TaskInv s) (hq : s₀.Quiet e s t) : TaskInv t := by
  have hg : GateInv t := h.toGateInv.quiet hq
  have hrefl : ∀ x ∈ s.history, x ∈ s.history := fun _ hx => hx
  cases hq with
  | enlisted _ labels => exact h.kept hg hrefl rfl rfl le_rfl h.flagged
  | numbered _ => exact h.kept hg hrefl rfl rfl (Nat.le_succ _) h.flagged
  | paused r label he hr hl => exact h.withRound hg hr (pause_epoch _ _)
  | resumed _ r label hr => exact h.withRound hg hr (resumeIfIdle_epoch _ _)
  | unasked _ r label hr hl => exact h.withRound hg hr (answered_epoch _ _ _)
  | consented _ r label hr =>
    refine h.kept hg (fun _ => List.mem_cons_of_mem _) rfl ?_ le_rfl
      fun n o ht hc => List.mem_cons_of_mem _ (h.flagged n o ht hc)
    show some (r.answered label s.now).epoch = s.inner.round.map (·.epoch)
    rw [hr, answered_epoch]
    rfl
  | woke _ => exact h.kept hg hrefl rfl rfl le_rfl h.flagged
  | installed _ hr => exact h.install
  | claimed _ n o ht ho hc =>
    refine h.kept hg (fun _ => List.mem_cons_of_mem _) rfl rfl le_rfl ?_
    intro m o' hm _
    cases (QuitGateInner.terminalFor_eq_some.mp ht).symm.trans hm
    exact List.mem_cons_self
  | staged _ n w w' hw hs => exact h.staged hw hs hg
  | surrendered n emitted w o he hw hs =>
    exact h.leave hg fun hl => absurd hl (h.unobserved n w hw hs)
  | returned _ n w o hw hs hc =>
    exact h.leave hg fun hl => absurd (h.decided n w o hw hs) (h.unfinished hl o)
  | dropped _ n w hw => exact h.leave hg fun _ => rfl
  | forced _ n ht => exact h.kept hg hrefl rfl rfl le_rfl h.flagged
  | unforced _ n hc => exact h.kept hg hrefl rfl rfl le_rfl h.flagged
  | notified _ =>
    unfold System.notify at hg ⊢
    split_ifs at hg ⊢
    · exact h
    · refine ⟨hg, ?_, ?_, ?_, h.flagged, ?_⟩
      · intro n w hw
        obtain ⟨v, hv, rfl⟩ := Option.map_eq_some_iff.mp hw
        exact h.present_le n v hv
      · intro n w o hw hs
        obtain ⟨v, hv, rfl⟩ := Option.map_eq_some_iff.mp hw
        exact h.decided n v o hv hs
      · intro n w hw hs
        obtain ⟨v, hv, rfl⟩ := Option.map_eq_some_iff.mp hw
        exact h.unobserved n v hv hs
      · intro n hn
        rw [Option.isSome_map]
        exact h.attended n hn
  | ticked _ elapsed => exact h.kept hg hrefl rfl rfl le_rfl h.flagged

end TaskInv

namespace OutcomeLaw
variable {s t : System}

theorem init : OutcomeLaw {} where
  readable := by rintro _ _ ⟨_, _, _, h⟩; cases h
  claimable := by rintro _ _ ⟨_, _, _, h⟩; cases h
  woken := by rintro _ _ _ ⟨_, _, _, h⟩; cases h
  acted := by rintro _ _ ⟨_, _, _, h⟩; cases h

/-- The same tasks with the same outcomes. -/
theorem kept (h : OutcomeLaw s) (hr : ∀ n o, Recorded t n o → Recorded s n o)
    (hh : ∀ x ∈ s.history, x ∈ t.history) (ht : t.inner.terminal = s.inner.terminal)
    (hw : t.waiters = s.waiters) (hf : t.forcing = s.forcing) (hn : s.notifies ≤ t.notifies) :
    OutcomeLaw t where
  readable n o ho hp := by
    unfold QuitGateInner.terminalFor
    rw [ht]
    exact h.readable n o (hr n o ho) (hw ▸ hp)
  claimable n o ho hm hc := by
    unfold QuitGateInner.terminalFor
    rw [ht]
    exact h.claimable n o (hr n o ho) (hf ▸ hm) fun hx => hc (hh _ hx)
  woken n o w ho hw' hs :=
    (h.woken n o w (hr n o ho) (hw ▸ hw') hs).imp id fun hlt => hlt.trans_le hn
  acted n o ho hex := by
    rw [hw, hf]
    rcases h.acted n o (hr n o ho) hex with hc | hp | hm | hd
    · exact .inl (hh _ hc)
    · exact .inr (.inl hp)
    · exact .inr (.inr (.inl hm))
    · exact .inr (.inr (.inr (hh _ hd)))

theorem same (h : OutcomeLaw s) (hh : t.history = s.history)
    (ht : t.inner.terminal = s.inner.terminal) (hw : t.waiters = s.waiters)
    (hf : t.forcing = s.forcing) (hn : s.notifies ≤ t.notifies) : OutcomeLaw t :=
  h.kept (fun _ _ => (recorded_same hh).mp) (fun _ hx => hh ▸ hx) ht hw hf hn

theorem said (h : OutcomeLaw s) {x : Happened} (hh : t.history = x :: s.history)
    (hx : ∀ n o forced waited busy, x ≠ .finished n o forced waited busy)
    (ht : t.inner.terminal = s.inner.terminal) (hw : t.waiters = s.waiters)
    (hf : t.forcing = s.forcing) (hn : s.notifies ≤ t.notifies) : OutcomeLaw t := by
  refine h.kept (fun _ _ => (recorded_cons hh hx).mp) ?_ ht hw hf hn
  intro y hy
  rw [hh]
  exact List.mem_cons_of_mem _ hy

theorem install (h : OutcomeLaw s) (hi : TaskInv s) : OutcomeLaw s.install := by
  have hrec {n : ℕ} {o : QuitOutcome} (ho : Recorded s.install n o) :
      Recorded s n o ∧ n ≠ s.inner.nextEpoch + 1 := by
    have ho := (recorded_cons (s := s) (t := s.install) rfl fun _ _ _ _ _ => nofun).mp ho
    have hle := hi.recorded_le ho
    exact ⟨ho, by omega⟩
  have hw {n : ℕ} (hn : n ≠ s.inner.nextEpoch + 1) : s.install.waiters n = s.waiters n :=
    Function.update_of_ne hn ..
  constructor
  · intro n o ho hp
    obtain ⟨ho, hn⟩ := hrec ho
    rw [hw hn] at hp
    exact h.readable n o ho hp
  · intro n o ho hm hc
    exact h.claimable n o (hrec ho).1 hm fun hx => hc (List.mem_cons_of_mem _ hx)
  · intro n o w ho hw' hs
    obtain ⟨ho, hn⟩ := hrec ho
    rw [hw hn] at hw'
    exact h.woken n o w ho hw' hs
  · intro n o ho hex
    obtain ⟨ho, hn⟩ := hrec ho
    rw [hw hn]
    rcases h.acted n o ho hex with hc | hp | hm | hd
    · exact .inl (List.mem_cons_of_mem _ hc)
    · exact .inr (.inl hp)
    · exact .inr (.inr (.inl hm))
    · exact .inr (.inr (.inr (List.mem_cons_of_mem _ hd)))

theorem staged (h : OutcomeLaw s) {n : ℕ} {w w' : Waiter} (hw : s.waiters n = some w)
    (hs : s.Staged n w w') : OutcomeLaw (s.setWaiter n (some w')) where
  readable m o ho hp := by
    apply h.readable m o ho
    obtain ⟨v, hv⟩ := Option.isSome_iff_exists.mp hp
    rcases update_eq_some hv with ⟨rfl, _⟩ | ⟨_, hv⟩
    · exact Option.isSome_of_eq_some hw
    · exact Option.isSome_of_eq_some hv
  claimable := h.claimable
  woken m o v ho hv hst := by
    rcases update_eq_some hv with ⟨rfl, hnew⟩ | ⟨_, hv⟩
    · cases hnew
      have hread := h.readable m o ho (Option.isSome_of_eq_some hw)
      rcases hst with hst | ⟨d, hst⟩
      · cases (hs.unread hst).symm.trans hread
      · rcases hs.notified with hn | hn
        · rw [hn]
          exact h.woken m o w ho hw (.inl (hs.parked d hst))
        · cases hst.symm.trans hn
    · exact h.woken m o v ho hv hst
  acted m o ho hex := (h.acted m o ho hex).imp id fun hr => hr.imp (isSome_update m w') id

/-- A task goes, when its exit is claimed or will be. -/
theorem leave (h : OutcomeLaw s) {n : ℕ} {x : Happened}
    (hx : ∀ n o forced waited busy, x ≠ .finished n o forced waited busy)
    (hl : ∀ o, Recorded s n o → o.outcome = .exiting → .claimed n ∈ s.history ∨ n ∈ s.forcing ∨
      x = .dropped n) : OutcomeLaw ((s.setWaiter n none).say x) := by
  have hrec {m : ℕ} {o : QuitOutcome} :
      Recorded ((s.setWaiter n none).say x) m o ↔ Recorded s m o :=
    recorded_cons (s := s) rfl hx
  constructor
  · intro m o ho hp
    apply h.readable m o (hrec.mp ho)
    obtain ⟨v, hv⟩ := Option.isSome_iff_exists.mp hp
    rcases update_eq_some hv with ⟨_, hnew⟩ | ⟨_, hv⟩
    · cases hnew
    · exact Option.isSome_of_eq_some hv
  · intro m o ho hm hc
    exact h.claimable m o (hrec.mp ho) hm fun hy => hc (List.mem_cons_of_mem _ hy)
  · intro m o v ho hv hst
    rcases update_eq_some hv with ⟨_, hnew⟩ | ⟨_, hv⟩
    · cases hnew
    · exact h.woken m o v (hrec.mp ho) hv hst
  · intro m o ho hex
    by_cases hm : m = n
    · rcases hl o (hm ▸ hrec.mp ho) hex with hc | hf | hd
      · exact .inl (List.mem_cons_of_mem _ (hm ▸ hc))
      · exact .inr (.inr (.inl (hm ▸ hf)))
      · rw [hd, hm]
        exact .inr (.inr (.inr List.mem_cons_self))
    · have hw : ((s.setWaiter n none).say x).waiters m = s.waiters m := Function.update_of_ne hm ..
      rw [hw]
      rcases h.acted m o (hrec.mp ho) hex with hc | hp | hf | hd
      · exact .inl (List.mem_cons_of_mem _ hc)
      · exact .inr (.inl hp)
      · exact .inr (.inr (.inl hf))
      · exact .inr (.inr (.inr (List.mem_cons_of_mem _ hd)))

theorem forced (h : OutcomeLaw s) (hi : TaskInv s) {n : ℕ}
    (ht : s.inner.terminal = some (n, .exiting n)) :
    OutcomeLaw { s with forcing := n :: s.forcing } where
  readable := h.readable
  claimable m o ho hm hc := by
    rcases List.mem_cons.mp hm with rfl | hm
    · have hsame := hi.unique ho (hi.shown m _ ht)
      rw [hsame]
      exact QuitGateInner.terminalFor_eq_some.mpr ht
    · exact h.claimable m o ho hm hc
  woken := h.woken
  acted m o ho hex := (h.acted m o ho hex).imp id fun hr => hr.imp id fun hf =>
    hf.imp (List.mem_cons_of_mem _) id

theorem unforced (h : OutcomeLaw s) (hi : TaskInv s) {n : ℕ}
    (hc : ∀ o, s.inner.terminalFor n = some o → o.outcome = .exiting →
      s.inner.exitClaimed = true) : OutcomeLaw { s with forcing := s.forcing.erase n } where
  readable := h.readable
  claimable m o ho hm hc := h.claimable m o ho (List.mem_of_mem_erase hm) hc
  woken := h.woken
  acted m o ho hex := by
    rcases h.acted m o ho hex with hcl | hp | hm | hd
    · exact .inl hcl
    · exact .inr (.inl hp)
    · by_cases he : m = n
      · left
        by_contra hcl
        have ht := h.claimable m o ho hm hcl
        have hflag := hc o (he ▸ ht) hex
        exact hcl (hi.flagged m o (QuitGateInner.terminalFor_eq_some.mp ht) hflag)
      · exact .inr (.inr (.inl ((List.mem_erase_of_ne he).mpr hm)))
    · exact .inr (.inr (.inr hd))

theorem notified (h : OutcomeLaw s) : OutcomeLaw s.notify := by
  unfold System.notify
  split_ifs
  · exact h
  · constructor
    · intro n o ho hp
      rw [Option.isSome_map] at hp
      exact h.readable n o ho hp
    · exact h.claimable
    · intro n o w ho hw _
      obtain ⟨v, _, rfl⟩ := Option.map_eq_some_iff.mp hw
      exact .inl rfl
    · intro n o ho hex
      rw [Option.isSome_map]
      exact h.acted n o ho hex

/-- A round ends while nobody holds the slot. -/
theorem ended (h : OutcomeLaw s) (hi : TaskInv s) (hh : ¬ Held s) {r : QuitRound} {o : QuitOutcome}
    {forced : Bool} {busy : Finset Label} (he : s.Ending r o forced busy) :
    OutcomeLaw (s.ended r.epoch o forced busy) := by
  have hlive : s.live = some r.epoch := by
    unfold System.live
    rw [he.live]
    rfl
  have hrec {n : ℕ} {o' : QuitOutcome} (ho : Recorded (s.ended r.epoch o forced busy) n o') :
      n = r.epoch ∧ o' = o ∨ Recorded s n o' := by
    obtain ⟨forced', waited, busy', hm⟩ := ho
    rcases List.mem_cons.mp hm with hm | hm
    · cases hm
      exact .inl ⟨rfl, rfl⟩
    · exact .inr ⟨forced', waited, busy', hm⟩
  have hnew : (s.ended r.epoch o forced busy).inner.terminalFor r.epoch = some o :=
    QuitGateInner.terminalFor_eq_some.mpr rfl
  constructor
  · intro n o' ho hp
    rcases hrec ho with ⟨rfl, rfl⟩ | ho
    · exact hnew
    · have ht := QuitGateInner.terminalFor_eq_some.mp (h.readable n o' ho hp)
      exact absurd ⟨(n, o'), ht, .inl hp⟩ hh
  · intro n o' ho hm hc
    rcases hrec ho with ⟨rfl, rfl⟩ | ho
    · exact hnew
    · have hc : .claimed n ∉ s.history := fun hx => hc (List.mem_cons_of_mem _ hx)
      have ht := QuitGateInner.terminalFor_eq_some.mp (h.claimable n o' ho hm hc)
      have hflag : s.inner.exitClaimed = false := by
        by_contra hf
        exact hc (hi.flagged n o' ht (Bool.not_eq_false _ ▸ hf))
      exact absurd ⟨(n, o'), ht, .inr ⟨hm, hflag⟩⟩ hh
  · intro n o' w _ _ _
    exact .inr (Nat.succ_pos _)
  · intro n o' ho hex
    rcases hrec ho with ⟨rfl, rfl⟩ | ho
    · rcases hi.attended r.epoch hlive with hp | hd
      · exact .inr (.inl hp)
      · exact .inr (.inr (.inr (List.mem_cons_of_mem _ hd)))
    · rcases h.acted n o' ho hex with hc | hp | hf | hd
      · exact .inl (List.mem_cons_of_mem _ hc)
      · exact .inr (.inl hp)
      · exact .inr (.inr (.inl hf))
      · exact .inr (.inr (.inr (List.mem_cons_of_mem _ hd)))

theorem quiet {s₀ : System} {e : Event} (h : OutcomeLaw s) (hi : TaskInv s)
    (ok : ∀ n emitted, e = .step n emitted → ¬ Unacted s₀ n) (hq : s₀.Quiet e s t) :
    OutcomeLaw t := by
  cases hq with
  | enlisted _ labels => exact h.same rfl rfl rfl rfl le_rfl
  | numbered _ => exact h.same rfl rfl rfl rfl le_rfl
  | paused r label he hr hl => exact h.same rfl rfl rfl rfl le_rfl
  | resumed _ r label hr => exact h.same rfl rfl rfl rfl le_rfl
  | unasked _ r label hr hl => exact h.same rfl rfl rfl rfl le_rfl
  | consented _ r label hr =>
    exact h.said rfl (fun _ _ _ _ _ => nofun) rfl rfl rfl le_rfl
  | woke _ => exact h.same rfl rfl rfl rfl (Nat.le_succ _)
  | installed _ hr => exact h.install hi
  | claimed _ n o ht ho hc => exact h.said rfl (fun _ _ _ _ _ => nofun) rfl rfl rfl le_rfl
  | staged _ n w w' hw hs => exact h.staged hw hs
  | surrendered n emitted w o he hw hs =>
    refine h.leave (fun _ _ _ _ _ => nofun) fun o ho hex => ?_
    have ht := h.readable n o ho (Option.isSome_of_eq_some hw)
    by_cases hf : n ∈ s.forcing
    · exact .inr (.inl hf)
    · left
      by_contra hc
      apply ok n emitted he
      refine ⟨⟨w, hw, hs⟩, ⟨o, ht, hex⟩, ?_, hf⟩
      by_contra hflag
      exact hc (hi.flagged n o (QuitGateInner.terminalFor_eq_some.mp ht)
        (Bool.not_eq_false _ ▸ hflag))
  | returned _ n w o hw hs hc =>
    refine h.leave (fun _ _ _ _ _ => nofun) fun o' ho hex => ?_
    have hsame := hi.unique ho (hi.decided n w o hw hs)
    have ht := h.readable n o' ho (Option.isSome_of_eq_some hw)
    rw [hsame] at ht hex
    exact .inl (hi.flagged n o (QuitGateInner.terminalFor_eq_some.mp ht) (hc hex ht))
  | dropped _ n w hw => exact h.leave (fun _ _ _ _ _ => nofun) fun _ _ _ => .inr (.inr rfl)
  | forced _ n ht => exact h.forced hi ht
  | unforced _ n hc => exact h.unforced hi hc
  | notified _ => exact h.notified
  | ticked _ elapsed => exact h.same rfl rfl rfl rfl le_rfl

theorem quiets {s₀ : System} {e : Event} (h : OutcomeLaw s) (hi : TaskInv s)
    (ok : ∀ n emitted, e = .step n emitted → ¬ Unacted s₀ n) (hq : s₀.Quiets e s t) :
    OutcomeLaw t ∧ TaskInv t := by
  induction hq with
  | refl => exact ⟨h, hi⟩
  | tail _ hq ih => exact ⟨ih.1.quiet ih.2 ok hq, ih.2.quiet hq⟩

theorem next {e : Event} (h : OutcomeLaw s) (hi : TaskInv s) (ok : ReadInTime s e) :
    OutcomeLaw (quitMachine.next s e) ∧ TaskInv (quitMachine.next s e) := by
  have hun : ∀ n emitted, e = .step n emitted → ¬ Unacted s n := by
    rintro n emitted rfl
    exact ok.2
  cases System.step_stepped hi.toGateInv.fresh e with
  | quiet _ hq => exact h.quiets hi hun hq
  | @ended he u r o forced busy pre ht hc hw hf hend post =>
    obtain ⟨hu, hiu⟩ := h.quiets hi hun pre
    have hheld : ¬ Held u := by
      unfold Held
      rw [ht, hc, hw, hf]
      exact ok.1 he
    exact (hu.ended hiu hheld hend).quiets (hiu.ended hend) hun post

end OutcomeLaw

/-- When no round ends before the last outcome is read, every outcome of a run is there for
its task, and every exit is claimed. -/
theorem outcomeLaw_run (es : List Event) (h : quitMachine.Along ReadInTime {} es) :
    quitMachine.Always OutcomeLaw {} es := by
  have hinv : quitMachine.Always (fun s => OutcomeLaw s ∧ TaskInv s) {} es :=
    Machine.always_of_along (fun _ _ hs ok => hs.1.next hs.2 ok)
      ⟨OutcomeLaw.init, TaskInv.init⟩ h
  rw [Machine.always_iff] at hinv ⊢
  exact fun pre hp => (hinv pre hp).1

/-- A round that asks nobody ends at once. -/
def soleRound (n : ℕ) : List Event :=
  [.quit quitGateMainLabel false none (some "attempt"), .step n true, .step n true, .step n true]

def readRound (n : ℕ) : List Event :=
  soleRound n ++ [.step n true, .step n true, .step n true]

theorem outcomeLaw_run_readRound : quitMachine.Along ReadInTime {} (readRound 1 ++ readRound 2) ∧
    quitMachine.Always OutcomeLaw {} (readRound 1 ++ readRound 2) := by
  have h : quitMachine.Along ReadInTime {} (readRound 1 ++ readRound 2) := by decide
  exact ⟨h, outcomeLaw_run _ h⟩

/-- Two rounds end one after the other, and the first one's task finds no outcome. -/
theorem not_outcomeLaw : ¬ ∀ es, quitMachine.Always OutcomeLaw {} es := by
  intro h
  have hlaw := (Machine.always_iff OutcomeLaw _ _).mp (h (soleRound 1 ++ soleRound 2)) _
    List.prefix_rfl
  have hread := hlaw.readable 1 (.exiting 1) ⟨false, 0, ∅, by decide⟩ (by decide)
  have hnone : (quitMachine.run {} (soleRound 1 ++ soleRound 2)).inner.terminalFor 1 = none := by
    decide
  cases hnone.symm.trans hread

end AgentsCommander.QuitGate
