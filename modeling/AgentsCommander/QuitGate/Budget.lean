import AgentsCommander.QuitGate.Safety

/-! The budget of a round: its clock runs while no window is busy, and a timeout has waited
it out. -/
namespace AgentsCommander.QuitGate
open Foundation Relation QuitRound

/-- The clock of the live round, and what a timeout has waited for. -/
structure BudgetLaw (s : System) : Prop where
  running : ∀ r, s.inner.round = some r → (r.deadline.isSome = true ↔ r.busy = ∅)
  busy_pending : ∀ r, s.inner.round = some r → r.busy ⊆ r.pending
  timeout_waited : ∀ n o forced waited busy, .finished n o forced waited busy ∈ s.history →
    o.reason = some .timeout → quitGateTimeout ≤ waited
  timeout_idle : ∀ n o forced waited busy, .finished n o forced waited busy ∈ s.history →
    o.reason = some .timeout → busy = ∅

/-- A busy report would be accepted after the task of its round has seen the deadline pass,
and before it has written the outcome. -/
def Late (s : System) (label : Label) (n : ℕ) : Prop :=
  (∃ w ∈ s.waiters n, w.stage = .expired) ∧ ∃ r ∈ s.inner.liveRound n, label ∈ r.pending

def ReportsInTime (s : System) : Event → Prop
  | .progress label n true => ¬ Late s label n
  | _ => True

instance (s : System) (label : Label) (n : ℕ) : Decidable (Late s label n) :=
  inferInstanceAs (Decidable (_ ∧ _))

instance (s : System) (e : Event) : Decidable (ReportsInTime s e) := by
  unfold ReportsInTime
  split <;> infer_instance

/-- The budget left to a round: what its clock shows, or what was put by. -/
structure Clocked (r : QuitRound) (now waited : ℕ) : Prop where
  running : r.deadline.isSome = true ↔ r.busy = ∅
  busy_pending : r.busy ⊆ r.pending
  due : ∀ d, r.deadline = some d → now + quitGateTimeout ≤ d + waited
  left : r.deadline = none → quitGateTimeout ≤ r.remaining + waited

namespace Clocked
variable {r : QuitRound} {now waited : ℕ}

theorem pause (h : Clocked r now waited) {label : Label} (hl : label ∈ r.pending) :
    Clocked ({ r with busy := insert label r.busy }.pause now) now waited := by
  have hne : insert label r.busy ≠ ∅ := Finset.insert_ne_empty _ _
  have hsub : insert label r.busy ⊆ r.pending := Finset.insert_subset hl h.busy_pending
  unfold QuitRound.pause
  split
  · rename_i d hd
    have hdue := h.due d hd
    refine ⟨⟨?_, ?_⟩, hsub, ?_, ?_⟩
    · intro hs
      cases hs
    · exact fun hb => absurd hb hne
    · intro _ hs
      cases hs
    · intro _
      show quitGateTimeout ≤ d - now + waited
      omega
  · rename_i hd
    have hd : r.deadline = none := hd
    refine ⟨⟨?_, ?_⟩, hsub, ?_, fun _ => h.left hd⟩
    · intro hs
      rw [show r.deadline = none from hd] at hs
      cases hs
    · exact fun hb => absurd hb hne
    · intro d hs
      cases hd.symm.trans hs

/-- The labels no longer awaited or no longer busy are taken away, and the clock goes on. -/
theorem resume {pending busy : Finset Label} (h : Clocked r now waited) (hb : busy ⊆ r.busy)
    (hp : busy ⊆ pending) :
    Clocked ({ r with pending := pending, busy := busy }.resumeIfIdle now) now waited := by
  unfold QuitRound.resumeIfIdle
  split_ifs with hc
  · have hleft := h.left hc.2
    refine ⟨⟨fun _ => hc.1, fun _ => rfl⟩, hp, ?_, ?_⟩
    · intro d hd
      cases hd
      show now + quitGateTimeout ≤ now + r.remaining + waited
      omega
    · intro hd
      cases hd
  · refine ⟨⟨?_, ?_⟩, hp, h.due, h.left⟩
    · intro hs
      have he := h.running.mp hs
      exact Finset.subset_empty.mp (he ▸ hb)
    · intro he
      by_contra hs
      exact hc ⟨he, Option.not_isSome_iff_eq_none.mp hs⟩

theorem answered (h : Clocked r now waited) (label : Label) :
    Clocked (r.answered label now) now waited :=
  h.resume (Finset.erase_subset _ _) (Finset.erase_subset_erase _ h.busy_pending)

theorem tick (h : Clocked r now waited) (elapsed : ℕ) :
    Clocked r (now + elapsed) (if r.deadline.isSome then waited + elapsed else waited) := by
  refine ⟨h.running, h.busy_pending, ?_, ?_⟩
  · intro d hd
    have hdue := h.due d hd
    rw [hd, Option.isSome_some, if_pos rfl]
    omega
  · intro hd
    rw [hd, Option.isSome_none, if_neg Bool.false_ne_true]
    exact h.left hd

end Clocked

structure BudgetInv (s : System) : Prop where
  clocked : ∀ r, s.inner.round = some r → Clocked r s.now s.waited
  expired : ∀ r w, s.inner.round = some r → s.waiters r.epoch = some w → w.stage = .expired →
    quitGateTimeout ≤ s.waited ∧ r.busy = ∅
  timeout : ∀ n o forced waited busy, .finished n o forced waited busy ∈ s.history →
    o.reason = some .timeout → quitGateTimeout ≤ waited ∧ busy = ∅

namespace BudgetInv
variable {s t : System}

theorem law (h : BudgetInv s) : BudgetLaw s where
  running r hr := (h.clocked r hr).running
  busy_pending r hr := (h.clocked r hr).busy_pending
  timeout_waited n o forced waited busy hm hre := (h.timeout n o forced waited busy hm hre).1
  timeout_idle n o forced waited busy hm hre := (h.timeout n o forced waited busy hm hre).2

theorem init : BudgetInv {} where
  clocked := by intro _ h; cases h
  expired := by intro _ _ h; cases h
  timeout := by intro _ _ _ _ _ h; cases h

/-- Neither the round's clock nor a task in its timeout is touched. -/
theorem kept (h : BudgetInv s) (hr : t.inner.round = s.inner.round) (hn : t.now = s.now)
    (hwd : t.waited = s.waited)
    (hw : ∀ n w, t.waiters n = some w → w.stage = .expired →
      ∃ w', s.waiters n = some w' ∧ w'.stage = .expired)
    (hh : ∀ n o forced waited busy, .finished n o forced waited busy ∈ t.history →
      .finished n o forced waited busy ∈ s.history) : BudgetInv t where
  clocked := by
    rw [hr, hn, hwd]
    exact h.clocked
  expired r w hr' hw' hs := by
    obtain ⟨w', hw', hs'⟩ := hw _ w hw' hs
    rw [hwd]
    exact h.expired r w' (hr.symm.trans hr') hw' hs'
  timeout n o forced waited busy hm := h.timeout n o forced waited busy (hh n o forced waited busy hm)

theorem withRound (h : BudgetInv s) {r r' : QuitRound} (hr : s.inner.round = some r)
    (he : r'.epoch = r.epoch) (hc : Clocked r' s.now s.waited)
    (hb : ∀ w, s.waiters r.epoch = some w → w.stage = .expired → r'.busy ⊆ r.busy) :
    BudgetInv (s.withRound r') where
  clocked q hq := by
    cases hq
    exact hc
  expired q w hq hw hs := by
    cases hq
    have hw : s.waiters r.epoch = some w := he ▸ hw
    obtain ⟨hwd, hbusy⟩ := h.expired r w hr hw hs
    exact ⟨hwd, Finset.subset_empty.mp (hbusy ▸ hb w hw hs)⟩
  timeout := h.timeout

theorem say (h : BudgetInv s) {x : Happened}
    (hx : ∀ n o forced waited busy, x ≠ .finished n o forced waited busy) :
    BudgetInv (s.say x) := by
  refine h.kept rfl rfl rfl (fun n w hw hs => ⟨w, hw, hs⟩) ?_
  intro n o forced waited busy hm
  rcases List.mem_cons.mp hm with hm | hm
  · exact absurd hm.symm (hx n o forced waited busy)
  · exact hm

theorem setWaiter (h : BudgetInv s) {n : ℕ} {w : Option Waiter}
    (hw : ∀ r w', s.inner.round = some r → r.epoch = n → w = some w' → w'.stage = .expired →
      quitGateTimeout ≤ s.waited ∧ r.busy = ∅) : BudgetInv (s.setWaiter n w) where
  clocked := h.clocked
  expired r w' hr hw' hs := by
    have hupd : Function.update s.waiters n w r.epoch = some w' := hw'
    by_cases he : r.epoch = n
    · rw [he, Function.update_self] at hupd
      exact hw r w' hr he hupd hs
    · rw [Function.update_of_ne he] at hupd
      exact h.expired r w' hr hupd hs
  timeout := h.timeout

theorem install (h : BudgetInv s) : BudgetInv s.install where
  clocked r hr := by
    cases hr
    refine ⟨⟨fun _ => rfl, fun _ => rfl⟩, Finset.empty_subset _, ?_, ?_⟩
    · intro d hd
      cases hd
      show s.now + quitGateTimeout ≤ s.now + quitGateTimeout + 0
      omega
    · intro hd
      cases hd
  expired r w hr hw hs := by
    cases hr
    have hnew : s.install.waiters s.newRound.epoch =
        some { stage := .installed, receivers := s.inner.registered } := Function.update_self ..
    cases hnew.symm.trans hw
    cases hs
  timeout n o forced waited busy hm hre := by
    rcases List.mem_cons.mp hm with hm | hm
    · cases hm
    · exact h.timeout n o forced waited busy hm hre

theorem ended (h : BudgetInv s) {r : QuitRound} {o : QuitOutcome} {forced : Bool}
    {busy : Finset Label} (he : s.Ending r o forced busy) :
    BudgetInv (s.ended r.epoch o forced busy) where
  clocked := by intro q hq; cases hq
  expired := by intro q w hq; cases hq
  timeout n o' forced' waited busy' hm hre := by
    rcases List.mem_cons.mp hm with hm | hm
    · cases hm
      obtain ⟨hb, w, hw, hs⟩ := he.expired hre
      rw [hb]
      exact h.expired r w he.live hw hs
    · exact h.timeout n o' forced' waited busy' hm hre

theorem expired_of_staged (h : BudgetInv s) {n : ℕ} {w w' : Waiter} (hs : s.Staged n w w')
    {r : QuitRound} (hr : s.inner.round = some r) (he : r.epoch = n) (hx : w'.stage = .expired) :
    quitGateTimeout ≤ s.waited ∧ r.busy = ∅ := by
  have hexp := hs.expired hx
  have hlive : s.inner.liveRound n = some r := QuitGateInner.liveRound_eq_some.mpr ⟨hr, he⟩
  unfold QuitGateInner.expired at hexp
  rw [hlive, Option.any_some, decide_eq_true_eq] at hexp
  obtain ⟨hb, hdue⟩ := hexp
  obtain ⟨d, hd, hle⟩ := (Option.any_eq_true _ _).mp hdue
  have hle : d ≤ s.now := of_decide_eq_true hle
  have hdue := (h.clocked r hr).due d hd
  refine ⟨?_, hb⟩
  omega

theorem quiet {s₀ : System} {e : Event} (h : BudgetInv s) (ok : ReportsInTime s₀ e)
    (hq : s₀.Quiet e s t) : BudgetInv t := by
  have hsame {u : System} (hw : u.waiters = s.waiters) :
      ∀ n w, u.waiters n = some w → w.stage = .expired →
        ∃ w', s.waiters n = some w' ∧ w'.stage = .expired :=
    fun n w hw' hs => ⟨w, (congrFun hw n).symm.trans hw', hs⟩
  have hnone {n : ℕ} : ∀ r w', s.inner.round = some r → r.epoch = n →
      (none : Option Waiter) = some w' → w'.stage = .expired →
      quitGateTimeout ≤ s.waited ∧ r.busy = ∅ := by
    intro _ _ _ _ hw
    cases hw
  cases hq with
  | enlisted _ labels => exact h.kept rfl rfl rfl (hsame rfl) fun _ _ _ _ _ hm => hm
  | numbered _ => exact h.kept rfl rfl rfl (hsame rfl) fun _ _ _ _ _ hm => hm
  | paused r label he hr hl =>
    refine h.withRound hr (pause_epoch _ _) ((h.clocked r hr).pause hl) ?_
    intro w hw hs
    have hlive : s.inner.liveRound r.epoch = some r := QuitGateInner.liveRound_eq_some.mpr ⟨hr, rfl⟩
    rw [he] at ok
    exact absurd ⟨⟨w, hw, hs⟩, r, hlive, hl⟩ ok
  | resumed _ r label hr =>
    refine h.withRound hr (resumeIfIdle_epoch _ _) ?_ ?_
    · exact (h.clocked r hr).resume (Finset.erase_subset _ _)
        ((Finset.erase_subset _ _).trans (h.clocked r hr).busy_pending)
    · intro w hw hs
      rw [resumeIfIdle_busy]
      exact Finset.erase_subset _ _
  | unasked _ r label hr hl =>
    refine h.withRound hr (answered_epoch _ _ _) ((h.clocked r hr).answered label) ?_
    intro w hw hs
    rw [answered_busy]
    exact Finset.erase_subset _ _
  | consented _ r label hr =>
    have hsay : BudgetInv (s.say (.consented r.epoch label)) := h.say fun _ _ _ _ _ => nofun
    refine hsay.withRound hr (answered_epoch _ _ _) ((h.clocked r hr).answered label) ?_
    intro w hw hs
    rw [answered_busy]
    exact Finset.erase_subset _ _
  | woke _ => exact h.kept rfl rfl rfl (hsame rfl) fun _ _ _ _ _ hm => hm
  | installed _ hr => exact h.install
  | claimed _ n o ht ho hc =>
    have hclaim : BudgetInv { s with inner := { s.inner with exitClaimed := true } } :=
      h.kept rfl rfl rfl (hsame rfl) fun _ _ _ _ _ hm => hm
    exact hclaim.say fun _ _ _ _ _ => nofun
  | staged _ n w w' hw hs =>
    refine h.setWaiter fun r w'' hr he hw' hx => ?_
    cases hw'
    exact h.expired_of_staged hs hr he hx
  | surrendered n emitted w o he hw hs =>
    exact (h.setWaiter hnone).say fun _ _ _ _ _ => nofun
  | returned _ n w o hw hs hc => exact (h.setWaiter hnone).say fun _ _ _ _ _ => nofun
  | dropped _ n w hw => exact (h.setWaiter hnone).say fun _ _ _ _ _ => nofun
  | forced _ n hf => exact h.kept rfl rfl rfl (hsame rfl) fun _ _ _ _ _ hm => hm
  | unforced _ n hc => exact h.kept rfl rfl rfl (hsame rfl) fun _ _ _ _ _ hm => hm
  | notified _ =>
    unfold System.notify
    split_ifs
    · exact h
    · refine h.kept rfl rfl rfl ?_ fun _ _ _ _ _ hm => hm
      intro n w hw hs
      obtain ⟨w', hw', rfl⟩ := Option.map_eq_some_iff.mp hw
      exact ⟨w', hw', hs⟩
  | ticked _ elapsed =>
    refine ⟨fun r hr => ?_, fun r w hr hw hs => ?_, h.timeout⟩
    · have hround : s.inner.round = some r := hr
      have hc := (h.clocked r hr).tick elapsed
      unfold System.tick
      rw [hround]
      exact hc
    · obtain ⟨hwd, hb⟩ := h.expired r w hr hw hs
      refine ⟨?_, hb⟩
      show quitGateTimeout ≤ if _ then s.waited + elapsed else s.waited
      split_ifs
      · exact hwd.trans (Nat.le_add_right _ _)
      · exact hwd

theorem quiets {s₀ : System} {e : Event} (h : BudgetInv s) (ok : ReportsInTime s₀ e)
    (hq : s₀.Quiets e s t) : BudgetInv t := by
  induction hq with
  | refl => exact h
  | tail _ hq ih => exact ih.quiet ok hq

theorem next (h : BudgetInv s) (hg : GateInv s) {e : Event} (ok : ReportsInTime s e) :
    BudgetInv (quitMachine.next s e) := by
  cases System.step_stepped hg.fresh e with
  | quiet _ hq => exact h.quiets ok hq
  | ended _ pre _ _ _ _ hend post => exact ((h.quiets ok pre).ended hend).quiets ok post

end BudgetInv

/-- When no busy report comes between the two sections of a timeout, every state of a run
keeps the budget. -/
theorem budgetLaw_run (es : List Event) (h : quitMachine.Along ReportsInTime {} es) :
    quitMachine.Always BudgetLaw {} es := by
  have hinv : quitMachine.Always (fun s => GateInv s ∧ BudgetInv s) {} es :=
    Machine.always_of_along (fun _ e hs ok => ⟨hs.1.next e, hs.2.next hs.1 ok⟩)
      ⟨GateInv.init, BudgetInv.init⟩ h
  rw [Machine.always_iff] at hinv ⊢
  exact fun pre hp => (hinv pre hp).2.law

/-- One window, and a round whose task waits for it. -/
def waiting : List Event :=
  [.register "a", .quit quitGateMainLabel false none (some "attempt"), .step 1 true, .step 1 true,
    .step 1 true, .step 1 true, .step 1 true, .step 1 true]

/-- The window is busy for a while, and the round is timed out when it no longer is. -/
def timedOut : List Event :=
  waiting ++ [.progress "a" 1 true, .tick 5, .progress "a" 1 false, .tick quitGateTimeout,
    .wake 1 .timer, .step 1 true]

/-- The window reports busy after the deadline was seen to pass. -/
def timedOutBusy : List Event :=
  waiting ++ [.tick quitGateTimeout, .wake 1 .timer, .progress "a" 1 true, .step 1 true]

theorem budgetLaw_run_timedOut : quitMachine.Along ReportsInTime {} timedOut ∧
    quitMachine.Always BudgetLaw {} timedOut := by
  have h : quitMachine.Along ReportsInTime {} timedOut := by decide
  exact ⟨h, budgetLaw_run _ h⟩

theorem timedOutBusy_finished : .finished 1 (.aborted 1 .timeout ∅ {"a"}) false quitGateTimeout
    {"a"} ∈ (quitMachine.run {} timedOutBusy).history := List.mem_cons_self

/-- A window that is busy when the outcome is written is timed out all the same. -/
theorem not_budgetLaw : ¬ ∀ es, quitMachine.Always BudgetLaw {} es := by
  intro h
  have hlaw := (Machine.always_iff BudgetLaw _ _).mp (h timedOutBusy) _ List.prefix_rfl
  have hidle := hlaw.timeout_idle _ _ _ _ _ timedOutBusy_finished rfl
  exact Finset.singleton_ne_empty "a" hidle

end AgentsCommander.QuitGate
