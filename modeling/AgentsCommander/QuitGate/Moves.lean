import AgentsCommander.QuitGate.Rounds

/-! What an event can do to the gate: at most one round ends, and the rest is a few small
changes before and after. -/
namespace AgentsCommander.QuitGate
open Foundation Relation

namespace QuitRound
variable (r : QuitRound) (label : Label) (now : ℕ)

@[simp] theorem pause_epoch : (r.pause now).epoch = r.epoch := by
  unfold pause
  split <;> rfl

@[simp] theorem pause_snapshot : (r.pause now).snapshot = r.snapshot := by
  unfold pause
  split <;> rfl

@[simp] theorem pause_pending : (r.pause now).pending = r.pending := by
  unfold pause
  split <;> rfl

@[simp] theorem resumeIfIdle_epoch : (r.resumeIfIdle now).epoch = r.epoch := by
  unfold resumeIfIdle
  split_ifs <;> rfl

@[simp] theorem resumeIfIdle_snapshot : (r.resumeIfIdle now).snapshot = r.snapshot := by
  unfold resumeIfIdle
  split_ifs <;> rfl

@[simp] theorem resumeIfIdle_pending : (r.resumeIfIdle now).pending = r.pending := by
  unfold resumeIfIdle
  split_ifs <;> rfl

@[simp] theorem resumeIfIdle_refusing : (r.resumeIfIdle now).refusing = r.refusing := by
  unfold resumeIfIdle
  split_ifs <;> rfl

@[simp] theorem resumeIfIdle_busy : (r.resumeIfIdle now).busy = r.busy := by
  unfold resumeIfIdle
  split_ifs <;> rfl

@[simp] theorem answered_epoch : (r.answered label now).epoch = r.epoch := resumeIfIdle_epoch _ now

@[simp] theorem answered_refusing : (r.answered label now).refusing = r.refusing :=
  resumeIfIdle_refusing _ now

@[simp] theorem answered_pending : (r.answered label now).pending = r.pending.erase label :=
  resumeIfIdle_pending _ now

@[simp] theorem answered_busy : (r.answered label now).busy = r.busy.erase label :=
  resumeIfIdle_busy _ now

end QuitRound

namespace QuitGateInner
open QuitRound

/-- A live round has no outcome yet. -/
def Fresh (g : QuitGateInner) : Prop :=
  ∀ r, g.round = some r → g.terminalFor r.epoch = none

def ended (g : QuitGateInner) (n : ℕ) (o : QuitOutcome) : QuitGateInner :=
  { g with terminal := some (n, o), exitClaimed := false, round := none }

def withRound (g : QuitGateInner) (r : QuitRound) : QuitGateInner := { g with round := some r }

def enlist (g : QuitGateInner) (labels : Finset Label) : QuitGateInner :=
  { g with registered := labels }

theorem liveRound_eq_some {g : QuitGateInner} {n : ℕ} {r : QuitRound} :
    g.liveRound n = some r ↔ g.round = some r ∧ r.epoch = n := by
  unfold liveRound
  rw [Option.filter_eq_some_iff, decide_eq_true_eq]

theorem terminalFor_eq_some {g : QuitGateInner} {n : ℕ} {o : QuitOutcome} :
    g.terminalFor n = some o ↔ g.terminal = some (n, o) := by
  unfold terminalFor
  split
  · rename_i e o' ht
    rw [ht]
    by_cases he : e = n
    · rw [if_pos he, he]
      simp
    · rw [if_neg he]
      simp [he]
  · rename_i ht
    rw [ht]
    simp

theorem finish_live {g : QuitGateInner} {r : QuitRound} {n : ℕ} (o : QuitOutcome)
    (hr : g.round = some r) (hn : r.epoch = n) (hf : g.terminalFor n = none) :
    g.finish n o = some (g.ended n o) := by
  have hlive : g.liveRound n = some r := liveRound_eq_some.mpr ⟨hr, hn⟩
  unfold finish
  rw [hf, hlive]
  rfl

theorem abortWith_live {g : QuitGateInner} {r : QuitRound} (o : QuitOutcome)
    (hr : g.round = some r) (hf : g.terminalFor r.epoch = none) :
    g.abortWith r o = some (g.ended r.epoch o, r.abortEffects o) := by
  unfold abortWith
  rw [finish_live o hr rfl hf]
  rfl

end QuitGateInner

namespace System
open QuitRound

/-- The live round has ended. -/
def ended (s : System) (n : ℕ) (o : QuitOutcome) (forced : Bool) (busy : Finset Label) : System :=
  { s with
    inner := s.inner.ended n o
    notifies := s.notifies + 1
    history := .finished n o forced s.waited busy :: s.history }

/-- When a round may end so. -/
structure Ending (s : System) (r : QuitRound) (o : QuitOutcome) (forced : Bool)
    (busy : Finset Label) : Prop where
  live : s.inner.round = some r
  settled : o.outcome = .exiting → forced = false → r.pending = ∅ ∧ r.refusing = ∅
  forced : forced = true → o = .exiting r.epoch
  expired : o.reason = some .timeout →
    busy = r.busy ∧ ∃ w, s.waiters r.epoch = some w ∧ w.stage = .expired

/-- The event ends the live round. -/
def Ends (s : System) : Event → Prop
  | .unregister label | .windowGone label => ∃ r ∈ s.inner.round, label ∈ r.pending
  | .resolve label n consent => ∃ r ∈ s.inner.liveRound n, label ∈ r.pending ∧
      (consent = true → r.pending.erase label = ∅ ∧ r.refusing = ∅)
  | .quit caller force n _ => caller = quitGateMainLabel ∧ force = true ∧
      (s.inner.liveRound (n.getD 0)).isSome = true
  | .step n emitted => ∃ w ∈ s.waiters n, ∃ r ∈ s.inner.liveRound n,
      w.stage = .installed ∧ emitted = false ∨
        w.stage = .asked ∧ r.pending = ∅ ∧ r.refusing = ∅ ∨ w.stage = .expired
  | .cancel n => ∃ w ∈ s.waiters n, (s.inner.liveRound n).isSome = true ∧ w.armed = true
  | _ => False

instance (s : System) (e : Event) : Decidable (Ends s e) := by
  unfold Ends
  split <;> infer_instance

/-- How a task may go on. -/
structure Staged (s : System) (n : ℕ) (w w' : Waiter) : Prop where
  unobserved : w'.stage = .unobserved → s.inner.liveRound n = none
  expired : w'.stage = .expired → s.inner.expired s.now n = true
  unread : w'.stage = .unread → s.inner.terminalFor n = none
  parked : ∀ d, w'.stage = .parked d → w.stage = .unread
  decided : ∀ o, w'.stage = .decided o → s.inner.terminalFor n = some o
  notified : w'.notified = w.notified ∨ w'.stage = .enrolled

def withRound (s : System) (r : QuitRound) : System :=
  { s with inner := s.inner.withRound r }

def enlist (s : System) (labels : Finset Label) : System := { s with inner := s.inner.enlist labels }

def newRound (s : System) : QuitRound where
  epoch := s.inner.nextEpoch + 1
  snapshot := s.inner.registered
  pending := s.inner.registered
  deadline := some (s.now + quitGateTimeout)

def install (s : System) : System :=
  { s with
    inner := { s.inner with nextEpoch := s.inner.nextEpoch + 1, round := some s.newRound }
    waited := 0
    waiters := Function.update s.waiters (s.inner.nextEpoch + 1)
      (some { stage := .installed, receivers := s.inner.registered })
    history := .installed (s.inner.nextEpoch + 1) s.inner.registered :: s.history }

/-- The small changes of an event that came in the first state. -/
inductive Quiet (s₀ : System) (e : Event) : System → System → Prop
  | enlisted (s : System) (labels : Finset Label) : Quiet s₀ e s (s.enlist labels)
  | numbered (s : System) :
      Quiet s₀ e s { s with inner := { s.inner with nextEpoch := s.inner.nextEpoch + 1 } }
  | paused (r : QuitRound) (label : Label) (he : e = .progress label r.epoch true)
      (hr : s₀.inner.round = some r) (hl : label ∈ r.pending) :
      Quiet s₀ e s₀ (s₀.withRound ({ r with busy := insert label r.busy }.pause s₀.now))
  | resumed (s : System) (r : QuitRound) (label : Label) (hr : s.inner.round = some r) :
      Quiet s₀ e s (s.withRound ({ r with busy := r.busy.erase label }.resumeIfIdle s.now))
  | unasked (s : System) (r : QuitRound) (label : Label) (hr : s.inner.round = some r)
      (hl : label ∉ r.pending) : Quiet s₀ e s (s.withRound (r.answered label s.now))
  | consented (s : System) (r : QuitRound) (label : Label) (hr : s.inner.round = some r) :
      Quiet s₀ e s ((s.say (.consented r.epoch label)).withRound (r.answered label s.now))
  | woke (s : System) : Quiet s₀ e s { s with notifies := s.notifies + 1 }
  | installed (s : System) (hr : s.inner.round = none) : Quiet s₀ e s s.install
  | claimed (s : System) (n : ℕ) (o : QuitOutcome) (ht : s.inner.terminalFor n = some o)
      (ho : o.outcome = .exiting) (hc : s.inner.exitClaimed = false) :
      Quiet s₀ e s (({ s with inner := { s.inner with exitClaimed := true } } : System).say
        (.claimed n))
  | staged (s : System) (n : ℕ) (w w' : Waiter) (hw : s.waiters n = some w)
      (hs : Staged s n w w') : Quiet s₀ e s (s.setWaiter n (some w'))
  | surrendered (n : ℕ) (emitted : Bool) (w : Waiter) (o : QuitOutcome) (he : e = .step n emitted)
      (hw : s₀.waiters n = some w) (hs : w.stage = .unobserved) :
      Quiet s₀ e s₀ ((s₀.setWaiter n none).say (.returned n o))
  | returned (s : System) (n : ℕ) (w : Waiter) (o : QuitOutcome) (hw : s.waiters n = some w)
      (hs : w.stage = .decided o)
      (hc : o.outcome = .exiting → s.inner.terminalFor n = some o → s.inner.exitClaimed = true) :
      Quiet s₀ e s ((s.setWaiter n none).say (.returned n o))
  | dropped (s : System) (n : ℕ) (w : Waiter) (hw : s.waiters n = some w) :
      Quiet s₀ e s (s.drop n)
  | forced (s : System) (n : ℕ) (ht : s.inner.terminal = some (n, .exiting n)) :
      Quiet s₀ e s { s with forcing := n :: s.forcing }
  | unforced (s : System) (n : ℕ) (hc : ∀ o, s.inner.terminalFor n = some o →
        o.outcome = .exiting → s.inner.exitClaimed = true) :
      Quiet s₀ e s { s with forcing := s.forcing.erase n }
  | notified (s : System) : Quiet s₀ e s s.notify
  | ticked (s : System) (elapsed : ℕ) : Quiet s₀ e s (s.tick elapsed)

abbrev Quiets (s₀ : System) (e : Event) : System → System → Prop := ReflTransGen (Quiet s₀ e)

/-- What an event can do. -/
inductive Stepped (s : System) (e : Event) (t : System) : Prop
  | quiet (hn : ¬ Ends s e) (h : Quiets s e s t)
  | ended (he : Ends s e) {u : System} {r : QuitRound} {o : QuitOutcome} {forced : Bool}
      {busy : Finset Label} (pre : Quiets s e s u) (ht : u.inner.terminal = s.inner.terminal)
      (hc : u.inner.exitClaimed = s.inner.exitClaimed) (hw : u.waiters = s.waiters)
      (hf : u.forcing = s.forcing) (hend : Ending u r o forced busy)
      (post : Quiets s e (u.ended r.epoch o forced busy) t)

theorem conclude_ended {s : System} {n : ℕ} (g : QuitGateInner) (o : QuitOutcome) (forced : Bool)
    (hf : s.inner.terminalFor n = none) : s.conclude (g.ended n o) forced =
      ({ s with inner := g } : System).ended n o forced
        ((s.inner.round.map (·.busy)).getD ∅) := by
  unfold conclude
  have hne : (g.ended n o).terminal ≠ s.inner.terminal := by
    intro h
    have ht : s.inner.terminalFor n = some o := QuitGateInner.terminalFor_eq_some.mpr h.symm
    cases hf.symm.trans ht
  show (if (g.ended n o).terminal = s.inner.terminal then _ else _) = _
  rw [if_neg hne]
  rfl

theorem abort_live {g : QuitGateInner} {r : QuitRound} (reason : QuitAbortReason)
    (hr : g.round = some r) (hf : g.terminalFor r.epoch = none) :
    ∃ o effects, g.abort r.epoch reason = some (g.ended r.epoch o, effects) ∧
      o.outcome = .aborted ∧ o.reason = some reason := by
  have hlive : g.liveRound r.epoch = some r := QuitGateInner.liveRound_eq_some.mpr ⟨hr, rfl⟩
  unfold QuitGateInner.abort
  rw [hlive, Option.bind_some]
  dsimp only
  rw [QuitGateInner.abortWith_live _ hr hf]
  exact ⟨_, _, rfl, rfl, rfl⟩

theorem abort_dead {g : QuitGateInner} {n : ℕ} (reason : QuitAbortReason)
    (hd : g.liveRound n = none) : g.abort n reason = none := by
  unfold QuitGateInner.abort
  rw [hd]
  rfl

/-- An abort ends the round when it is live, and else does nothing. -/
theorem aborted_cases {s : System} (hf : s.inner.Fresh) (n : ℕ) (reason : QuitAbortReason) :
    (s.inner.liveRound n = none ∧ (s.aborted (s.inner.abort n reason)).1 = s) ∨
    ∃ r o, s.inner.round = some r ∧ r.epoch = n ∧ o.outcome = .aborted ∧ o.reason = some reason ∧
      (s.aborted (s.inner.abort n reason)).1 = s.ended n o false r.busy := by
  rcases hl : s.inner.liveRound n with _ | r
  · exact .inl ⟨rfl, by rw [abort_dead reason hl]; rfl⟩
  · right
    obtain ⟨hr, rfl⟩ := QuitGateInner.liveRound_eq_some.mp hl
    obtain ⟨o, effects, ha, ho, hre⟩ := abort_live reason hr (hf r hr)
    refine ⟨r, o, hr, rfl, ho, hre, ?_⟩
    rw [ha]
    show s.conclude (s.inner.ended r.epoch o) false = _
    rw [conclude_ended _ _ _ (hf r hr), hr]
    rfl

theorem Ending.of_aborted {s : System} {r : QuitRound} {o : QuitOutcome} (hr : s.inner.round = some r)
    (ho : o.outcome = .aborted) (hre : o.reason ≠ some .timeout) (busy : Finset Label) :
    Ending s r o false busy where
  live := hr
  settled := by intro h; cases ho.symm.trans h
  forced := by intro h; cases h
  expired h := absurd h hre

theorem Stepped.kept {s : System} {e : Event} (hn : ¬ Ends s e) : Stepped s e s := .quiet hn .refl

theorem Stepped.one {s t : System} {e : Event} (hn : ¬ Ends s e) (h : Quiet s e s t) :
    Stepped s e t := .quiet hn (.single h)

theorem teardownGate_idle {g : QuitGateInner} (now : ℕ) (label : Label)
    (reason : QuitAbortReason) (hr : g.round = none) :
    g.teardownGate now label reason = (g.enlist (g.registered.erase label), none) := by
  unfold QuitGateInner.teardownGate
  dsimp only
  split
  · rfl
  · rename_i r h
    cases hr.symm.trans h

theorem teardownGate_answered {g : QuitGateInner} {r : QuitRound} (now : ℕ) {label : Label}
    (reason : QuitAbortReason) (hr : g.round = some r) (hl : label ∉ r.pending) :
    g.teardownGate now label reason =
      ((g.enlist (g.registered.erase label)).withRound (r.answered label now), none) := by
  unfold QuitGateInner.teardownGate
  dsimp only
  rw [hr]
  dsimp only
  rw [if_pos hl]
  rfl

theorem teardownGate_pending {g : QuitGateInner} {r : QuitRound} (now : ℕ) {label : Label}
    (reason : QuitAbortReason) (hr : g.round = some r) (hf : g.terminalFor r.epoch = none)
    (hl : label ∈ r.pending) : ∃ o effects, g.teardownGate now label reason =
      ((g.enlist (g.registered.erase label)).ended r.epoch o, some effects) ∧
      o.outcome = .aborted ∧ o.reason = some reason := by
  unfold QuitGateInner.teardownGate
  dsimp only
  rw [hr]
  dsimp only
  rw [if_neg (not_not_intro hl), QuitGateInner.abortWith_live _ rfl (by
    rw [answered_epoch]
    exact hf), answered_epoch]
  exact ⟨_, _, rfl, rfl, rfl⟩

theorem teardown_stepped {s : System} {e : Event} (hf : s.inner.Fresh) (label : Label)
    {reason : QuitAbortReason} (hre : reason ≠ .timeout)
    (he : Ends s e ↔ ∃ r, s.inner.round = some r ∧ label ∈ r.pending) :
    Stepped s e (s.teardown label reason).1 := by
  unfold teardown
  rcases hr : s.inner.round with _ | r
  · rw [teardownGate_idle _ _ _ hr]
    apply Stepped.one
    · rw [he, hr]
      rintro ⟨r, h, _⟩
      cases h
    · exact .enlisted s _
  · by_cases hl : label ∈ r.pending
    · obtain ⟨o, effects, ht, ho, hreason⟩ := teardownGate_pending s.now reason hr (hf r hr) hl
      have hne : o.reason ≠ some .timeout := by
        rw [hreason]
        intro h
        exact hre (Option.some.inj h)
      have hlive : (s.enlist (s.inner.registered.erase label)).inner.round = some r := hr
      rw [ht]
      dsimp only
      rw [conclude_ended _ _ _ (hf r hr)]
      have hq : Quiet s e s (s.enlist (s.inner.registered.erase label)) := .enlisted s _
      exact .ended (he.mpr ⟨r, hr, hl⟩) (.single hq) rfl rfl rfl rfl
        (Ending.of_aborted hlive ho hne _) .refl
    · have hlive : (s.enlist (s.inner.registered.erase label)).inner.round = some r := hr
      have hq : Quiet s e (s.enlist (s.inner.registered.erase label)) _ :=
        .unasked _ r label hlive hl
      rw [teardownGate_answered _ _ hr hl]
      refine .quiet ?_ ((ReflTransGen.single (.enlisted s _)).tail hq)
      rw [he]
      rintro ⟨r', h, hl'⟩
      rw [hr] at h
      exact hl (Option.some.inj h ▸ hl')

theorem finalizeConsent_live {g : QuitGateInner} {r : QuitRound} (hr : g.round = some r)
    (hf : g.terminalFor r.epoch = none) : g.finalizeConsent r.epoch =
      if r.pending = ∅ ∧ r.refusing = ∅ then some (g.ended r.epoch (.exiting r.epoch)) else none := by
  have hlive : g.liveRound r.epoch = some r := QuitGateInner.liveRound_eq_some.mpr ⟨hr, rfl⟩
  unfold QuitGateInner.finalizeConsent
  rw [hlive, Option.bind_some, QuitGateInner.finish_live _ hr rfl hf]

theorem Ending.of_settled {s : System} {r : QuitRound} (hr : s.inner.round = some r)
    (hs : r.pending = ∅ ∧ r.refusing = ∅) (busy : Finset Label) :
    Ending s r (.exiting r.epoch) false busy where
  live := hr
  settled _ _ := hs
  forced _ := rfl
  expired := by intro h; cases h

theorem Ending.of_forced {s : System} {r : QuitRound} (hr : s.inner.round = some r)
    (busy : Finset Label) : Ending s r (.exiting r.epoch) true busy where
  live := hr
  settled := by intro _ h; cases h
  forced _ := rfl
  expired := by intro h; cases h

theorem resolve_consent {g : QuitGateInner} {r : QuitRound} (now : ℕ) {label : Label}
    (hr : g.round = some r) (hf : g.terminalFor r.epoch = none) (hl : label ∈ r.pending) :
    g.resolve now label r.epoch true =
      if r.pending.erase label = ∅ ∧ r.refusing = ∅ then
        ((g.withRound (r.answered label now)).ended r.epoch (.exiting r.epoch), .consented true)
      else (g.withRound (r.answered label now), .consented false) := by
  have hlive : g.liveRound r.epoch = some r := QuitGateInner.liveRound_eq_some.mpr ⟨hr, rfl⟩
  have hfin := finalizeConsent_live (g := g.withRound (r.answered label now)) rfl (by
    rw [answered_epoch]
    exact hf)
  rw [answered_epoch, answered_pending, answered_refusing] at hfin
  unfold QuitGateInner.resolve
  rw [hlive]
  dsimp only
  rw [if_neg (not_not_intro hl), if_pos rfl]
  unfold QuitGateInner.withRound at hfin ⊢
  rw [hfin]
  by_cases hs : r.pending.erase label = ∅ ∧ r.refusing = ∅
  · rw [if_pos hs, if_pos hs]
  · rw [if_neg hs, if_neg hs]

theorem resolve_refusal {g : QuitGateInner} {r : QuitRound} (now : ℕ) {label : Label}
    (hr : g.round = some r) (hf : g.terminalFor r.epoch = none) (hl : label ∈ r.pending) :
    ∃ o effects, g.resolve now label r.epoch false =
      (g.ended r.epoch o, .refused (some effects)) ∧
      o.outcome = .aborted ∧ o.reason = some .refused := by
  have hlive : g.liveRound r.epoch = some r := QuitGateInner.liveRound_eq_some.mpr ⟨hr, rfl⟩
  unfold QuitGateInner.resolve
  rw [hlive]
  dsimp only
  rw [if_neg (not_not_intro hl), if_neg Bool.false_ne_true, QuitGateInner.abortWith_live _ rfl (by
    rw [answered_epoch]
    exact hf), answered_epoch]
  exact ⟨_, _, rfl, rfl, rfl⟩

theorem resolve_ignored {g : QuitGateInner} (now : ℕ) {label : Label} {n : ℕ}
    (consent : Bool) (h : ∀ r, g.liveRound n = some r → label ∉ r.pending) :
    g.resolve now label n consent = (g, .ignored) := by
  unfold QuitGateInner.resolve
  split
  · rfl
  · rename_i r hr
    rw [if_pos (h r hr)]

theorem resolve_stepped {s : System} (hf : s.inner.Fresh) (label : Label) (n : ℕ) (consent : Bool) :
    Stepped s (.resolve label n consent) (s.resolve label n consent).1 := by
  unfold resolve
  by_cases hlive : ∃ r, s.inner.liveRound n = some r ∧ label ∈ r.pending
  · obtain ⟨r, hlive, hl⟩ := hlive
    obtain ⟨hr, rfl⟩ := QuitGateInner.liveRound_eq_some.mp hlive
    cases consent with
    | false =>
      obtain ⟨o, effects, hres, ho, hre⟩ := resolve_refusal s.now hr (hf r hr) hl
      have hne : o.reason ≠ some .timeout := by
        rw [hre]
        intro h
        cases h
      rw [hres]
      dsimp only
      rw [conclude_ended _ _ _ (hf r hr)]
      exact .ended ⟨r, hlive, hl, fun h => absurd h Bool.false_ne_true⟩ .refl rfl rfl rfl rfl
        (Ending.of_aborted hr ho hne _) .refl
    | true =>
      have hq : Quiet s (.resolve label r.epoch true) s _ := .consented s r label hr
      rw [resolve_consent s.now hr (hf r hr) hl]
      by_cases hs : r.pending.erase label = ∅ ∧ r.refusing = ∅
      · rw [if_pos hs]
        dsimp only
        rw [conclude_ended (s := s.say (.consented r.epoch label)) _ _ _ (hf r hr)]
        have hend := Ending.of_settled
          (s := (s.say (.consented r.epoch label)).withRound (r.answered label s.now))
          (r := r.answered label s.now) rfl (by
            rw [answered_pending, answered_refusing]
            exact hs) (((s.say (.consented r.epoch label)).inner.round.map (·.busy)).getD ∅)
        refine .ended ⟨r, hlive, hl, fun _ => hs⟩ (.single hq) rfl rfl rfl rfl hend ?_
        rw [answered_epoch]
        exact .refl
      · rw [if_neg hs]
        refine .quiet ?_ ((ReflTransGen.single hq).tail (.woke _))
        rintro ⟨r', h, _, hs'⟩
        rw [hlive] at h
        cases Option.some.inj h
        exact hs (hs' rfl)
  · rw [resolve_ignored s.now consent fun r hr hl => hlive ⟨r, hr, hl⟩]
    apply Stepped.kept
    rintro ⟨r, hr, hl, _⟩
    exact hlive ⟨r, hr, hl⟩

theorem claim_cases (s : System) (n : ℕ) :
    (∃ o, s.inner.terminalFor n = some o ∧ o.outcome = .exiting ∧ s.inner.exitClaimed = false ∧
      s.claim n =
        ({ s with inner := { s.inner with exitClaimed := true } } : System).say (.claimed n)) ∨
    ((∀ o, s.inner.terminalFor n = some o → o.outcome = .exiting → s.inner.exitClaimed = true) ∧
      s.claim n = s) := by
  unfold claim QuitGateInner.tryClaimExit
  by_cases h : (s.inner.terminalFor n).any (·.outcome = .exiting) ∧ s.inner.exitClaimed = false
  · obtain ⟨o, ho, hex⟩ := (Option.any_eq_true _ _).mp h.1
    rw [if_pos h]
    exact .inl ⟨o, ho, of_decide_eq_true hex, h.2, rfl⟩
  · rw [if_neg h]
    refine .inr ⟨?_, rfl⟩
    intro o ho hex
    by_contra hc
    apply h
    exact ⟨(Option.any_eq_true _ _).mpr ⟨o, ho, decide_eq_true hex⟩, Bool.eq_false_iff.mpr hc⟩

/-- A claim settles whether the exit is claimed. -/
theorem claim_settled (s₀ : System) (e : Event) (s : System) (n : ℕ) : Quiets s₀ e s (s.claim n) ∧
    (∀ o, (s.claim n).inner.terminalFor n = some o → o.outcome = .exiting →
      (s.claim n).inner.exitClaimed = true) ∧
    (s.claim n).waiters = s.waiters ∧ (s.claim n).forcing = s.forcing := by
  rcases claim_cases s n with ⟨o, ho, hex, hc, heq⟩ | ⟨hc, heq⟩
  · rw [heq]
    exact ⟨.single (.claimed s n o ho hex hc), fun _ _ _ => rfl, rfl, rfl⟩
  · rw [heq]
    exact ⟨.refl, hc, rfl, rfl⟩

theorem forceFinish_live {g : QuitGateInner} {r : QuitRound} (hr : g.round = some r)
    (hf : g.terminalFor r.epoch = none) : g.forceFinish r.epoch =
      (({ g with nextEpoch := g.nextEpoch + 1 } : QuitGateInner).ended r.epoch
        (.exiting r.epoch), true) := by
  have hlive : g.liveRound r.epoch = some r := QuitGateInner.liveRound_eq_some.mpr ⟨hr, rfl⟩
  have hfin := QuitGateInner.finish_live (g := { g with nextEpoch := g.nextEpoch + 1 })
    (.exiting r.epoch) hr rfl hf
  unfold QuitGateInner.forceFinish
  rw [hlive]
  dsimp only
  rw [hfin]

theorem forced_stepped {s : System} (hf : s.inner.Fresh) (epoch : Option ℕ)
    (attemptId : Option String) :
    Stepped s (.quit quitGateMainLabel true epoch attemptId)
      (s.quit quitGateMainLabel true epoch attemptId).1 := by
  unfold quit
  rw [if_neg (not_not_intro rfl), if_pos rfl]
  dsimp only
  rcases hlive : s.inner.liveRound (epoch.getD 0) with _ | r
  · unfold QuitGateInner.forceFinish
    rw [hlive]
    apply Stepped.kept
    rintro ⟨_, _, h⟩
    rw [hlive] at h
    cases h
  · obtain ⟨hr, hn⟩ := QuitGateInner.liveRound_eq_some.mp hlive
    rw [← hn, forceFinish_live hr (hf r hr)]
    dsimp only
    rw [conclude_ended _ _ _ (hf r hr)]
    have hnum : (({ s with inner := { s.inner with nextEpoch := s.inner.nextEpoch + 1 } } :
      System)).inner.round = some r := hr
    exact .ended ⟨rfl, rfl, Option.isSome_of_eq_some hlive⟩ (.single (.numbered s)) rfl rfl rfl rfl
      (Ending.of_forced hnum _) (.single (.forced _ r.epoch rfl))

theorem quit_stepped {s : System} (hf : s.inner.Fresh) (caller : Label) (force : Bool)
    (epoch : Option ℕ) (attemptId : Option String) :
    Stepped s (.quit caller force epoch attemptId) (s.quit caller force epoch attemptId).1 := by
  by_cases hmain : caller = quitGateMainLabel
  · cases force with
    | true =>
      rw [hmain]
      exact forced_stepped hf epoch attemptId
    | false =>
      have hn : ¬ Ends s (.quit caller false epoch attemptId) := fun h => by cases h.2.1
      unfold quit
      rw [if_neg (not_not_intro hmain), if_neg Bool.false_ne_true]
      by_cases ha : (attemptId.getD "").isEmpty = true
      · rw [if_pos ha]
        exact .kept hn
      · rw [if_neg ha]
        unfold QuitGateInner.installQuitRound
        rcases hr : s.inner.round with _ | r
        · exact .one hn (.installed s hr)
        · exact .kept hn
  · unfold quit
    rw [if_pos hmain]
    exact .kept fun h => hmain h.1

theorem Staged.plain {s : System} {n : ℕ} {w w' : Waiter}
    (hs : w'.stage = .started ∨ w'.stage = .asked ∨ w'.stage = .looping)
    (hn : w'.notified = w.notified) : Staged s n w w' where
  unobserved h := by rcases hs with hs | hs | hs <;> cases hs.symm.trans h
  expired h := by rcases hs with hs | hs | hs <;> cases hs.symm.trans h
  unread h := by rcases hs with hs | hs | hs <;> cases hs.symm.trans h
  parked _ h := by rcases hs with hs | hs | hs <;> cases hs.symm.trans h
  decided _ h := by rcases hs with hs | hs | hs <;> cases hs.symm.trans h
  notified := .inl hn

/-- An abort by the task of the round, and the stage it goes on to. -/
theorem abort_stepped {s : System} (n : ℕ) {w : Waiter} {e : Event} (hf : s.inner.Fresh)
    (reason : QuitAbortReason) (he : Ends s e ↔ (s.inner.liveRound n).isSome = true)
    (hex : reason = .timeout → s.waiters n = some w ∧ w.stage = .expired) {t : System}
    (post : ∀ u : System, u.waiters = s.waiters → u.inner.liveRound n = none →
      (s.aborted (s.inner.abort n reason)).1 = u → Quiet s e u t) : Stepped s e t := by
  rcases aborted_cases hf n reason with ⟨hd, heq⟩ | ⟨r, o, hr, rfl, ho, hre, heq⟩
  · refine .one ?_ (post s rfl hd heq)
    rw [he, hd]
    exact Bool.false_ne_true
  · have hlive : s.inner.liveRound r.epoch = some r := QuitGateInner.liveRound_eq_some.mpr ⟨hr, rfl⟩
    refine .ended (he.mpr (Option.isSome_of_eq_some hlive)) .refl rfl rfl rfl rfl
      (r := r) (o := o) ⟨hr, ?_, ?_, ?_⟩ (.single (post _ rfl rfl heq))
    · intro h
      cases ho.symm.trans h
    · intro h
      cases h
    · intro h
      obtain ⟨hw, hs⟩ := hex (Option.some.inj (hre.symm.trans h))
      exact ⟨rfl, w, hw, hs⟩

theorem ends_step {s : System} {n : ℕ} {w : Waiter} (emitted : Bool) (hw : s.waiters n = some w) :
    Ends s (.step n emitted) ↔ ∃ r ∈ s.inner.liveRound n,
      w.stage = .installed ∧ emitted = false ∨
        w.stage = .asked ∧ r.pending = ∅ ∧ r.refusing = ∅ ∨ w.stage = .expired := by
  constructor
  · rintro ⟨w', hw', h⟩
    cases Option.some.inj (hw.symm.trans hw')
    exact h
  · intro h
    exact ⟨w, hw, h⟩

theorem asked_stepped {s : System} (hf : s.inner.Fresh) {n : ℕ} {w : Waiter} (emitted : Bool)
    (hw : s.waiters n = some w) (hs : w.stage = .asked) :
    Stepped s (.step n emitted) (s.stepWaiter n w emitted).1 := by
  have hstage (u : System) (hu : u.waiters = s.waiters) : Quiet s (.step n emitted) u
      (u.setWaiter n (some { w with stage := .looping })) :=
    .staged u n w _ ((congrFun hu n).trans hw) (.plain (.inr (.inr rfl)) rfl)
  unfold stepWaiter
  rw [hs]
  dsimp only
  rcases hlive : s.inner.liveRound n with _ | r
  · have hfin : s.inner.finalizeConsent n = none := by
      unfold QuitGateInner.finalizeConsent
      rw [hlive]
      rfl
    rw [hfin]
    refine .one ?_ (hstage s rfl)
    rw [ends_step emitted hw]
    rintro ⟨r, h, _⟩
    cases hlive.symm.trans h
  · obtain ⟨hr, rfl⟩ := QuitGateInner.liveRound_eq_some.mp hlive
    rw [finalizeConsent_live hr (hf r hr)]
    by_cases hset : r.pending = ∅ ∧ r.refusing = ∅
    · rw [if_pos hset]
      dsimp only
      rw [conclude_ended _ _ _ (hf r hr)]
      exact .ended ((ends_step emitted hw).mpr ⟨r, hlive, .inr (.inl ⟨hs, hset⟩)⟩) .refl rfl rfl
        rfl rfl (Ending.of_settled hr hset _) (.single (hstage _ rfl))
    · rw [if_neg hset]
      refine .one ?_ (hstage s rfl)
      rw [ends_step emitted hw]
      rintro ⟨r', h, ⟨h', _⟩ | ⟨_, h'⟩ | h'⟩
      · cases hs.symm.trans h'
      · cases Option.some.inj (hlive.symm.trans h)
        exact hset h'
      · cases hs.symm.trans h'

theorem decided_quiets {s : System} {n : ℕ} {w : Waiter} {o : QuitOutcome} {e : Event}
    (hw : s.waiters n = some w) (hs : w.stage = .decided o) (hn : ¬ Ends s e) :
    Stepped s e ((((if o.outcome = .exiting then s.claim n else s).setWaiter n none).say
      (.returned n o))) := by
  by_cases hex : o.outcome = .exiting
  · rw [if_pos hex]
    obtain ⟨hq, hc, hwait, _⟩ := claim_settled s e s n
    exact .quiet hn (hq.tail (.returned _ n w o ((congrFun hwait n).trans hw) hs
      fun h ht => hc o ht h))
  · rw [if_neg hex]
    exact .one hn (.returned s n w o hw hs fun h => absurd h hex)

theorem stepWaiter_stepped {s : System} (hf : s.inner.Fresh) {n : ℕ} {w : Waiter} (emitted : Bool)
    (hw : s.waiters n = some w) :
    Stepped s (.step n emitted) (s.stepWaiter n w emitted).1 := by
  have hquiet : w.stage ≠ .installed → w.stage ≠ .asked → w.stage ≠ .expired →
      ¬ Ends s (.step n emitted) := by
    rintro hi ha hx h
    obtain ⟨r, hr, ⟨h, _⟩ | ⟨h, _⟩ | h⟩ := (ends_step emitted hw).mp h
    · exact hi h
    · exact ha h
    · exact hx h
  rcases hs : w.stage with _ | _ | _ | _ | _ | _ | _ | d | _ | o
  case asked => exact asked_stepped hf emitted hw hs
  all_goals
    unfold stepWaiter
    rw [hs]
    dsimp only
    rw [hs] at hquiet
  case installed =>
    cases emitted with
    | true =>
      refine .one ?_ (.staged s n w _ hw (.plain (.inl rfl) rfl))
      rw [ends_step true hw]
      rintro ⟨r, hr, ⟨_, h⟩ | ⟨h, _⟩ | h⟩
      · cases h
      · cases hs.symm.trans h
      · cases hs.symm.trans h
    | false =>
      refine abort_stepped n hf .cancelled ?_ (w := w) ?_ ?_
      · rw [ends_step false hw, Option.isSome_iff_exists]
        exact ⟨fun ⟨r, hr, _⟩ => ⟨r, hr⟩, fun ⟨r, hr⟩ => ⟨r, hr, .inl ⟨hs, rfl⟩⟩⟩
      · intro h
        cases h
      · intro u hu hd heq
        rw [← heq] at hu hd ⊢
        refine .staged _ n w _ ((congrFun hu n).trans hw) ⟨fun _ => hd, ?_, ?_, ?_, ?_, .inl rfl⟩
        · exact Stage.noConfusion
        · exact Stage.noConfusion
        · exact fun _ => Stage.noConfusion
        · exact fun _ => Stage.noConfusion
  case expired =>
    refine abort_stepped n hf .timeout ?_ (w := w) (fun _ => ⟨hw, hs⟩) ?_
    · rw [ends_step emitted hw, Option.isSome_iff_exists]
      exact ⟨fun ⟨r, hr, _⟩ => ⟨r, hr⟩, fun ⟨r, hr⟩ => ⟨r, hr, .inr (.inr hs)⟩⟩
    · intro u hu _ heq
      rw [← heq] at hu ⊢
      exact .staged _ n w _ ((congrFun hu n).trans hw) (.plain (.inr (.inr rfl)) rfl)
  all_goals have hn := hquiet Stage.noConfusion Stage.noConfusion Stage.noConfusion
  case unobserved => exact .one hn (.surrendered n emitted w _ rfl hw hs)
  case started => exact .one hn (.staged s n w _ hw (.plain (.inr (.inl rfl)) rfl))
  case looping =>
    refine .one hn (.staged s n w _ hw ⟨?_, ?_, ?_, ?_, ?_, .inr rfl⟩)
    · exact Stage.noConfusion
    · exact Stage.noConfusion
    · exact Stage.noConfusion
    · exact fun _ => Stage.noConfusion
    · exact fun _ => Stage.noConfusion
  case enrolled =>
    split
    · rename_i o ho
      refine .one hn (.staged s n w _ hw ⟨?_, ?_, ?_, ?_, ?_, .inl rfl⟩)
      · exact Stage.noConfusion
      · exact Stage.noConfusion
      · exact Stage.noConfusion
      · exact fun _ => Stage.noConfusion
      · rintro o' h
        cases h
        exact ho
    · rename_i ho
      refine .one hn (.staged s n w _ hw ⟨?_, ?_, fun _ => ho, ?_, ?_, .inl rfl⟩)
      · exact Stage.noConfusion
      · exact Stage.noConfusion
      · exact fun _ => Stage.noConfusion
      · exact fun _ => Stage.noConfusion
  case unread =>
    refine .one hn (.staged s n w _ hw ⟨?_, ?_, ?_, fun _ _ => hs, ?_, .inl rfl⟩)
    · exact Stage.noConfusion
    · exact Stage.noConfusion
    · exact Stage.noConfusion
    · exact fun _ => Stage.noConfusion
  case parked => exact .kept hn
  case decided => exact decided_quiets hw hs hn

theorem wakeWaiter_stepped {s : System} {n : ℕ} {w : Waiter} (cause : Wake)
    (hw : s.waiters n = some w) : Stepped s (.wake n cause) (s.wakeWaiter n w cause) := by
  have hn : ¬ Ends s (.wake n cause) := id
  have hloop (w' : Waiter) (hs : w'.stage = .looping) (hn' : w'.notified = w.notified) :
      Quiet s (.wake n cause) s (s.setWaiter n (some w')) :=
    .staged s n w w' hw (.plain (.inr (.inr hs)) hn')
  unfold wakeWaiter
  split
  · split_ifs
    · exact .one hn (hloop _ rfl rfl)
    · exact .kept hn
  · split_ifs
    · exact .one hn (hloop _ rfl rfl)
    · exact .kept hn
  · split_ifs with hd hx
    · refine .one hn (.staged s n w _ hw ⟨?_, fun _ => hx, ?_, ?_, ?_, .inl rfl⟩)
      · exact Stage.noConfusion
      · exact Stage.noConfusion
      · exact fun _ => Stage.noConfusion
      · exact fun _ => Stage.noConfusion
    · exact .one hn (hloop _ rfl rfl)
    · exact .kept hn
  · exact .kept hn

theorem cancel_stepped {s : System} (hf : s.inner.Fresh) {n : ℕ} {w : Waiter}
    (hw : s.waiters n = some w) : Stepped s (.cancel n) (s.cancel n w).1 := by
  have he : Ends s (.cancel n) ↔ (s.inner.liveRound n).isSome = true ∧ w.armed = true := by
    constructor
    · rintro ⟨w', hw', h⟩
      cases Option.some.inj (hw.symm.trans hw')
      exact h
    · intro h
      exact ⟨w, hw, h⟩
  unfold cancel
  by_cases ha : w.armed = true
  · rw [if_pos ha]
    refine abort_stepped n hf .cancelled ?_ (w := w) ?_ ?_
    · rw [he]
      exact and_iff_left ha
    · intro h
      cases h
    · intro u hu _ heq
      rw [← heq] at hu ⊢
      exact .dropped _ n w ((congrFun hu n).trans hw)
  · rw [if_neg ha]
    refine .one ?_ (.dropped s n w hw)
    rw [he]
    exact fun h => ha h.2

theorem progress_stepped (s : System) (label : Label) (n : ℕ) (busy : Bool) :
    Stepped s (.progress label n busy) (quitMachine.next s (.progress label n busy)) := by
  have hn : ¬ Ends s (.progress label n busy) := id
  simp only [Machine.next, step]
  unfold QuitGateInner.progress
  rcases hlive : s.inner.liveRound n with _ | r
  · exact .kept hn
  · obtain ⟨hr, rfl⟩ := QuitGateInner.liveRound_eq_some.mp hlive
    rw [Option.bind_some]
    by_cases hl : label ∈ r.pending
    · rw [if_neg (not_not_intro hl)]
      cases busy with
      | true =>
        rw [if_pos rfl]
        exact .quiet hn ((ReflTransGen.single (.paused r label rfl hr hl)).tail (.woke _))
      | false =>
        rw [if_neg Bool.false_ne_true]
        exact .quiet hn ((ReflTransGen.single (.resumed s r label hr)).tail (.woke _))
    · rw [if_pos hl]
      exact .kept hn

theorem claimed_stepped (s : System) (n : ℕ) :
    Stepped s (.claim n) (quitMachine.next s (.claim n)) := by
  have hn : ¬ Ends s (.claim n) := id
  show Stepped s _ (if n ∈ s.forcing then
    (({ s.claim n with forcing := s.forcing.erase n } : System), Answer.outcome (.exiting n))
    else (s, .none)).1
  by_cases hf : n ∈ s.forcing
  · rw [if_pos hf]
    obtain ⟨hq, hc, _, hforcing⟩ := claim_settled s (.claim n) s n
    have hu : Quiet s (.claim n) (s.claim n) _ := .unforced (s.claim n) n hc
    rw [hforcing] at hu
    exact .quiet hn (hq.tail hu)
  · rw [if_neg hf]
    exact .kept hn

theorem register_stepped (s : System) (label : Label) :
    Stepped s (.register label) (quitMachine.next s (.register label)) := by
  have hn : ¬ Ends s (.register label) := id
  show Stepped s _ { s with inner := (s.inner.register label).1 }
  unfold QuitGateInner.register
  split
  · exact .kept hn
  · exact .one hn (.enlisted s (insert label s.inner.registered))

theorem step_stepped {s : System} (hf : s.inner.Fresh) (e : Event) :
    Stepped s e (quitMachine.next s e) := by
  cases e with
  | register label => exact register_stepped s label
  | unregister label => exact teardown_stepped hf label (by decide) Iff.rfl
  | windowGone label => exact teardown_stepped hf label (by decide) Iff.rfl
  | resolve label n consent => exact resolve_stepped hf label n consent
  | progress label n busy => exact progress_stepped s label n busy
  | quit caller force n attemptId => exact quit_stepped hf caller force n attemptId
  | claim n => exact claimed_stepped s n
  | step n emitted =>
    simp only [Machine.next, step]
    rcases hw : s.waiters n with _ | w
    · refine .kept ?_
      rintro ⟨w, h, _⟩
      cases hw.symm.trans h
    · exact stepWaiter_stepped hf emitted hw
  | wake n cause =>
    simp only [Machine.next, step]
    rcases hw : s.waiters n with _ | w
    · exact .kept id
    · exact wakeWaiter_stepped cause hw
  | cancel n =>
    simp only [Machine.next, step]
    rcases hw : s.waiters n with _ | w
    · refine .kept ?_
      rintro ⟨w, h, _⟩
      cases hw.symm.trans h
    · exact cancel_stepped hf hw
  | notify => exact .one id (.notified s)
  | tick elapsed => exact .one id (.ticked s elapsed)

end System
end AgentsCommander.QuitGate
