import AgentsCommander.QuitGate.Moves

/-! No exit without consent: one outcome for an epoch, one claim, and a label's own
answer before a round exits. -/
namespace AgentsCommander.QuitGate
open Foundation Relation QuitRound

/-- What may happen after the earlier happenings. -/
def Permitted (earlier : List Happened) : Happened → Prop
  | .installed n _ => ∀ snapshot, .installed n snapshot ∉ earlier
  | .finished n o forced _ _ =>
    (∀ o' forced' waited busy, .finished n o' forced' waited busy ∉ earlier) ∧
    (o.outcome = .exiting → forced = false → ∃ snapshot, .installed n snapshot ∈ earlier ∧
      ∀ l ∈ snapshot, .consented n l ∈ earlier)
  | .claimed n => .claimed n ∉ earlier ∧
    ∃ o forced waited busy, .finished n o forced waited busy ∈ earlier ∧ o.outcome = .exiting
  | _ => True

def Lawful (history : List Happened) : Prop :=
  ∀ h earlier, h :: earlier <:+ history → Permitted earlier h

theorem lawful_cons {h : Happened} {history : List Happened} (hp : Permitted history h)
    (hl : Lawful history) : Lawful (h :: history) := by
  intro h' earlier hs
  rcases List.suffix_cons_iff.mp hs with he | he
  · cases he
    exact hp
  · exact hl h' earlier he

theorem Lawful.permitted {history : List Happened} {h : Happened} (hl : Lawful history)
    (hm : h ∈ history) : ∃ earlier, earlier <:+ history ∧ Permitted earlier h := by
  obtain ⟨later, earlier, rfl⟩ := List.append_of_mem hm
  have hs : h :: earlier <:+ later ++ h :: earlier := List.suffix_append _ _
  exact ⟨earlier, (List.suffix_cons h earlier).trans hs, hl h earlier hs⟩

theorem Lawful.finished_of_claimed {history : List Happened} {n : ℕ} (hl : Lawful history)
    (hm : .claimed n ∈ history) :
    ∃ o forced waited busy, .finished n o forced waited busy ∈ history ∧ o.outcome = .exiting := by
  obtain ⟨earlier, hs, _, o, forced, waited, busy, hf, ho⟩ := hl.permitted hm
  exact ⟨o, forced, waited, busy, hs.mem hf, ho⟩

theorem Lawful.outcome_unique {history : List Happened} {n : ℕ} {o o' : QuitOutcome}
    {forced forced' : Bool} {waited waited' : ℕ} {busy busy' : Finset Label}
    (hl : Lawful history) (h : .finished n o forced waited busy ∈ history)
    (h' : .finished n o' forced' waited' busy' ∈ history) : o = o' := by
  induction history with
  | nil => cases h
  | cons x history ih =>
    have hp : Permitted history x := hl x history List.suffix_rfl
    have htail : Lawful history := fun y earlier hs => hl y earlier (hs.trans (List.suffix_cons ..))
    rcases List.mem_cons.mp h with h | h
    · rcases List.mem_cons.mp h' with h' | h'
      · cases h.trans h'.symm
        rfl
      · rw [← h] at hp
        exact absurd h' (hp.1 o' forced' waited' busy')
    · rcases List.mem_cons.mp h' with h' | h'
      · rw [← h'] at hp
        exact absurd h (hp.1 o forced waited busy)
      · exact ih htail h h'

/-- The happenings are lawful, and the slot shows the outcome its epoch ended with. -/
structure SafetyLaw (s : System) : Prop where
  lawful : Lawful s.history
  shown : ∀ n o, s.inner.terminalFor n = some o →
    ∃ forced waited busy, .finished n o forced waited busy ∈ s.history

/-- What ties the gate to its history. -/
structure GateInv (s : System) : Prop where
  lawful : Lawful s.history
  shown : ∀ n o, s.inner.terminal = some (n, o) →
    ∃ forced waited busy, .finished n o forced waited busy ∈ s.history
  unclaimed : ∀ n o, s.inner.terminal = some (n, o) → s.inner.exitClaimed = false →
    .claimed n ∉ s.history
  finished_le : ∀ n o forced waited busy, .finished n o forced waited busy ∈ s.history →
    n ≤ s.inner.nextEpoch
  installed_le : ∀ n snapshot, .installed n snapshot ∈ s.history → n ≤ s.inner.nextEpoch
  live_le : ∀ r, s.inner.round = some r → r.epoch ≤ s.inner.nextEpoch
  live_unfinished : ∀ r, s.inner.round = some r → ∀ o forced waited busy,
    .finished r.epoch o forced waited busy ∉ s.history
  live_installed : ∀ r, s.inner.round = some r → .installed r.epoch r.snapshot ∈ s.history ∧
    ∀ l ∈ r.snapshot, l ∈ r.pending ∨ .consented r.epoch l ∈ s.history

namespace GateInv
variable {s t : System}

theorem init : GateInv {} where
  lawful := by
    intro h earlier hs
    cases List.suffix_nil.mp hs
  shown := by intro _ _ h; cases h
  unclaimed := by intro _ _ h; cases h
  finished_le := by intro _ _ _ _ _ h; cases h
  installed_le := by intro _ _ h; cases h
  live_le := by intro _ h; cases h
  live_unfinished := by intro _ h; cases h
  live_installed := by intro _ h; cases h

theorem fresh (h : GateInv s) : s.inner.Fresh := by
  intro r hr
  rcases ht : s.inner.terminalFor r.epoch with _ | o
  · rfl
  · obtain ⟨forced, waited, busy, hf⟩ :=
      h.shown _ o (QuitGateInner.terminalFor_eq_some.mp ht)
    exact absurd hf (h.live_unfinished r hr o forced waited busy)

/-- Changes of neither the outcomes nor the live round. -/
theorem kept (h : GateInv s) (hh : t.history = s.history)
    (ht : t.inner.terminal = s.inner.terminal) (hc : t.inner.exitClaimed = s.inner.exitClaimed)
    (hr : t.inner.round = s.inner.round) (hn : s.inner.nextEpoch ≤ t.inner.nextEpoch) :
    GateInv t := by
  constructor
  · rw [hh]
    exact h.lawful
  · rw [hh, ht]
    exact h.shown
  · rw [hh, ht, hc]
    exact h.unclaimed
  · rw [hh]
    exact fun n o forced waited busy hm => (h.finished_le n o forced waited busy hm).trans hn
  · rw [hh]
    exact fun n snapshot hm => (h.installed_le n snapshot hm).trans hn
  · rw [hr]
    exact fun r hr => (h.live_le r hr).trans hn
  · rw [hh, hr]
    exact h.live_unfinished
  · rw [hh, hr]
    exact h.live_installed

/-- Happenings that change nothing of the outcomes. -/
theorem say (h : GateInv s) {x : Happened} (hx : (∃ n l, x = .consented n l) ∨
    (∃ n o, x = .returned n o) ∨ ∃ n, x = .dropped n) : GateInv (s.say x) := by
  have hm {y : Happened} (hy : y ∈ (s.say x).history) : y = x ∨ y ∈ s.history := List.mem_cons.mp hy
  constructor
  · apply lawful_cons _ h.lawful
    rcases hx with ⟨n, l, rfl⟩ | ⟨n, o, rfl⟩ | ⟨n, rfl⟩ <;> exact trivial
  · intro n o ht
    obtain ⟨forced, waited, busy, hf⟩ := h.shown n o ht
    exact ⟨forced, waited, busy, List.mem_cons_of_mem _ hf⟩
  · intro n o ht hc hy
    rcases hm hy with rfl | hy
    · rcases hx with ⟨_, _, hx⟩ | ⟨_, _, hx⟩ | ⟨_, hx⟩ <;> cases hx
    · exact h.unclaimed n o ht hc hy
  · intro n o forced waited busy hy
    rcases hm hy with rfl | hy
    · rcases hx with ⟨_, _, hx⟩ | ⟨_, _, hx⟩ | ⟨_, hx⟩ <;> cases hx
    · exact h.finished_le n o forced waited busy hy
  · intro n snapshot hy
    rcases hm hy with rfl | hy
    · rcases hx with ⟨_, _, hx⟩ | ⟨_, _, hx⟩ | ⟨_, hx⟩ <;> cases hx
    · exact h.installed_le n snapshot hy
  · exact h.live_le
  · intro r hr o forced waited busy hy
    rcases hm hy with rfl | hy
    · rcases hx with ⟨_, _, hx⟩ | ⟨_, _, hx⟩ | ⟨_, hx⟩ <;> cases hx
    · exact h.live_unfinished r hr o forced waited busy hy
  · intro r hr
    obtain ⟨hi, hl⟩ := h.live_installed r hr
    refine ⟨List.mem_cons_of_mem _ hi, fun l hs => ?_⟩
    exact (hl l hs).imp id (List.mem_cons_of_mem _)

theorem withRound (h : GateInv s) {r r' : QuitRound} (hr : s.inner.round = some r)
    (he : r'.epoch = r.epoch) (hsn : r'.snapshot = r.snapshot)
    (hp : ∀ l ∈ r.pending, l ∈ r'.pending ∨ .consented r.epoch l ∈ s.history) :
    GateInv (s.withRound r') where
  lawful := h.lawful
  shown := h.shown
  unclaimed := h.unclaimed
  finished_le := h.finished_le
  installed_le := h.installed_le
  live_le q hq := by
    cases hq
    rw [he]
    exact h.live_le r hr
  live_unfinished q hq := by
    cases hq
    rw [he]
    exact h.live_unfinished r hr
  live_installed q hq := by
    cases hq
    obtain ⟨hi, hl⟩ := h.live_installed r hr
    rw [he, hsn]
    refine ⟨hi, fun l hs => ?_⟩
    rcases hl l hs with hl | hl
    · exact hp l hl
    · exact .inr hl

theorem install (h : GateInv s) : GateInv s.install := by
  have hm {y : Happened} (hy : y ∈ s.install.history) :
      y = .installed (s.inner.nextEpoch + 1) s.inner.registered ∨ y ∈ s.history :=
    List.mem_cons.mp hy
  constructor
  · apply lawful_cons _ h.lawful
    intro snapshot hi
    have hle := h.installed_le _ _ hi
    omega
  · intro n o ht
    obtain ⟨forced, waited, busy, hf⟩ := h.shown n o ht
    exact ⟨forced, waited, busy, List.mem_cons_of_mem _ hf⟩
  · intro n o ht hc hy
    rcases hm hy with hy | hy
    · cases hy
    · exact h.unclaimed n o ht hc hy
  · intro n o forced waited busy hy
    rcases hm hy with hy | hy
    · cases hy
    · exact (h.finished_le n o forced waited busy hy).trans (Nat.le_succ _)
  · intro n snapshot hy
    rcases hm hy with hy | hy
    · cases hy
      exact le_rfl
    · exact (h.installed_le n snapshot hy).trans (Nat.le_succ _)
  · intro r hr
    cases hr
    exact le_rfl
  · intro r hr o forced waited busy hy
    cases hr
    rcases hm hy with hy | hy
    · cases hy
    · have hle := h.finished_le _ o forced waited busy hy
      have hlt : s.newRound.epoch = s.inner.nextEpoch + 1 := rfl
      omega
  · intro r hr
    cases hr
    exact ⟨List.mem_cons_self, fun l hl => .inl hl⟩

theorem claim (h : GateInv s) {n : ℕ} {o : QuitOutcome} (ht : s.inner.terminalFor n = some o)
    (ho : o.outcome = .exiting) (hc : s.inner.exitClaimed = false) :
    GateInv (({ s with inner := { s.inner with exitClaimed := true } } : System).say
      (.claimed n)) := by
  have hterm := QuitGateInner.terminalFor_eq_some.mp ht
  constructor
  · apply lawful_cons _ h.lawful
    refine ⟨h.unclaimed n o hterm hc, ?_⟩
    obtain ⟨forced, waited, busy, hf⟩ := h.shown n o hterm
    exact ⟨o, forced, waited, busy, hf, ho⟩
  · intro n o ht
    obtain ⟨forced, waited, busy, hf⟩ := h.shown n o ht
    exact ⟨forced, waited, busy, List.mem_cons_of_mem _ hf⟩
  · intro _ _ _ hc
    cases hc
  · intro n o forced waited busy hy
    rcases List.mem_cons.mp hy with hy | hy
    · cases hy
    · exact h.finished_le n o forced waited busy hy
  · intro n snapshot hy
    rcases List.mem_cons.mp hy with hy | hy
    · cases hy
    · exact h.installed_le n snapshot hy
  · exact h.live_le
  · intro r hr o forced waited busy hy
    rcases List.mem_cons.mp hy with hy | hy
    · cases hy
    · exact h.live_unfinished r hr o forced waited busy hy
  · intro r hr
    obtain ⟨hi, hl⟩ := h.live_installed r hr
    refine ⟨List.mem_cons_of_mem _ hi, fun l hs => ?_⟩
    exact (hl l hs).imp id (List.mem_cons_of_mem _)

theorem ended (h : GateInv s) {r : QuitRound} {o : QuitOutcome} {forced : Bool}
    {busy : Finset Label} (he : s.Ending r o forced busy) :
    GateInv (s.ended r.epoch o forced busy) := by
  have hunclaimed : .claimed r.epoch ∉ s.history := by
    intro hm
    obtain ⟨o, forced, waited, busy, hf, _⟩ := h.lawful.finished_of_claimed hm
    exact h.live_unfinished r he.live o forced waited busy hf
  constructor
  · apply lawful_cons _ h.lawful
    refine ⟨h.live_unfinished r he.live, fun ho hf => ?_⟩
    obtain ⟨hp, _⟩ := he.settled ho hf
    obtain ⟨hi, hl⟩ := h.live_installed r he.live
    refine ⟨r.snapshot, hi, fun l hs => ?_⟩
    rcases hl l hs with hl | hl
    · rw [hp] at hl
      cases Finset.notMem_empty l hl
    · exact hl
  · intro n o' ht
    cases ht
    exact ⟨forced, s.waited, busy, List.mem_cons_self⟩
  · intro n o' ht _ hy
    cases ht
    rcases List.mem_cons.mp hy with hy | hy
    · cases hy
    · exact hunclaimed hy
  · intro n o' forced' waited busy' hy
    rcases List.mem_cons.mp hy with hy | hy
    · cases hy
      exact h.live_le r he.live
    · exact h.finished_le n o' forced' waited busy' hy
  · intro n snapshot hy
    rcases List.mem_cons.mp hy with hy | hy
    · cases hy
    · exact h.installed_le n snapshot hy
  · intro q hq
    cases hq
  · intro q hq
    cases hq
  · intro q hq
    cases hq

theorem quiet {s₀ : System} {e : Event} (h : GateInv s) (hq : s₀.Quiet e s t) : GateInv t := by
  cases hq with
  | enlisted _ labels => exact h.kept rfl rfl rfl rfl le_rfl
  | numbered _ => exact h.kept rfl rfl rfl rfl (Nat.le_succ _)
  | paused r label he hr hl =>
    exact h.withRound hr (pause_epoch _ _) (pause_snapshot _ _) fun l hl => by
      rw [pause_pending]
      exact .inl hl
  | resumed _ r label hr =>
    exact h.withRound hr (resumeIfIdle_epoch _ _) (resumeIfIdle_snapshot _ _) fun l hl => by
      rw [resumeIfIdle_pending]
      exact .inl hl
  | unasked _ r label hr hl =>
    refine h.withRound hr (resumeIfIdle_epoch _ _) (resumeIfIdle_snapshot _ _) fun l hp => ?_
    rw [answered_pending]
    refine .inl (Finset.mem_erase.mpr ⟨?_, hp⟩)
    rintro rfl
    exact hl hp
  | consented _ r label hr =>
    have hsay := h.say (.inl ⟨r.epoch, label, rfl⟩)
    refine hsay.withRound hr (resumeIfIdle_epoch _ _) (resumeIfIdle_snapshot _ _) fun l hp => ?_
    rw [answered_pending]
    by_cases he : l = label
    · rw [he]
      exact .inr List.mem_cons_self
    · exact .inl (Finset.mem_erase.mpr ⟨he, hp⟩)
  | woke _ => exact h.kept rfl rfl rfl rfl le_rfl
  | installed _ hr => exact h.install
  | claimed _ n o ht ho hc => exact h.claim ht ho hc
  | staged _ n w w' hw hs => exact h.kept rfl rfl rfl rfl le_rfl
  | surrendered n emitted w o he hw hs =>
    have hsay := h.say (.inr (.inl ⟨n, o, rfl⟩))
    exact hsay.kept rfl rfl rfl rfl le_rfl
  | returned _ n w o hw hs hc =>
    have hsay := h.say (.inr (.inl ⟨n, o, rfl⟩))
    exact hsay.kept rfl rfl rfl rfl le_rfl
  | dropped _ n w hw =>
    have hsay := h.say (.inr (.inr ⟨n, rfl⟩))
    exact hsay.kept rfl rfl rfl rfl le_rfl
  | forced _ n hf => exact h.kept rfl rfl rfl rfl le_rfl
  | unforced _ n hc => exact h.kept rfl rfl rfl rfl le_rfl
  | notified _ =>
    unfold System.notify
    split_ifs
    · exact h
    · exact h.kept rfl rfl rfl rfl le_rfl
  | ticked _ elapsed => exact h.kept rfl rfl rfl rfl le_rfl

theorem quiets {s₀ : System} {e : Event} (h : GateInv s) (hq : s₀.Quiets e s t) : GateInv t := by
  induction hq with
  | refl => exact h
  | tail _ hq ih => exact ih.quiet hq

theorem next (h : GateInv s) (e : Event) : GateInv (quitMachine.next s e) := by
  cases System.step_stepped h.fresh e with
  | quiet _ hq => exact h.quiets hq
  | ended _ pre _ _ _ _ hend post => exact ((h.quiets pre).ended hend).quiets post

theorem run (es : List Event) : GateInv (quitMachine.run {} es) :=
  Machine.run_inv_free (P := GateInv) (fun _ e h => h.next e) init es

end GateInv

/-- Over any run of the gate, the happenings are lawful. -/
theorem safetyLaw_run (es : List Event) : SafetyLaw (quitMachine.run {} es) := by
  have h := GateInv.run es
  refine ⟨h.lawful, fun n o ht => ?_⟩
  exact h.shown n o (QuitGateInner.terminalFor_eq_some.mp ht)

end AgentsCommander.QuitGate
