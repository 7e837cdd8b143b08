import AgentsCommander.Selection.TicketLaw

/-! Every bound create ticket is settled once, and its permits return. -/
namespace AgentsCommander.Selection
open Foundation

namespace CreateWorld
variable {s t : CreateWorld}

/-- What the worker leaves to the ticket. -/
theorem workerStep_ticket (outcome : JobOutcome) :
    (s.workerStep outcome).ticket = s.ticket ∧ (s.workerStep outcome).bound = s.bound ∧
      (s.workerStep outcome).sent = s.sent := by
  unfold CreateWorld.workerStep
  split
  · split_ifs
    · exact ⟨rfl, rfl, rfl⟩
    · split <;> exact ⟨rfl, rfl, rfl⟩
  · split
    · exact ⟨rfl, rfl, rfl⟩
    · split_ifs <;> exact ⟨rfl, rfl, rfl⟩
  · exact ⟨rfl, rfl, rfl⟩
  · exact ⟨rfl, rfl, rfl⟩
  · exact ⟨rfl, rfl, rfl⟩
  · exact ⟨rfl, rfl, rfl⟩

theorem Stands.workerStep (h : s.Stands) (outcome : JobOutcome) : (s.workerStep outcome).Stands := by
  obtain ⟨hticket, hbound, hsent⟩ := workerStep_ticket (s := s) outcome
  unfold Stands
  rw [hticket, hbound, hsent]
  exact h

theorem Stands.poll (h : s.Stands) (hguard : s.ticket.HoldsWhileBound) : s.poll.Stands := by
  unfold CreateWorld.poll
  split
  · next ticket hstage =>
    unfold Stands at h
    rw [hstage] at h hguard
    obtain ⟨hbinding, hcompleted, hadmission, hcreate, hmine⟩ := h
    split_ifs with hs ha hc
    · exact Stands.dropTicket hbinding hcompleted hmine hguard
    · exact absurd (hadmission.symm.trans ha) hs
    · exact absurd (hcreate.symm.trans hc) hs
    · split <;> rename_i hsome
      · exact Stands.dropTicket (s := s.give .ticket true true true) hbinding hcompleted hmine
          (by rw [hsome]; exact nofun)
      · refine ⟨rfl, _, hbinding.symm.trans hsome, ?_⟩
        exact (mine_send _).trans (congrArg (· ++ _) hmine)
  · exact h

theorem Stands.drop (h : s.Stands) (hguard : s.ticket.HoldsWhileBound) : s.drop.Stands := by
  unfold CreateWorld.drop
  split <;> rename_i hstage
  · unfold Stands at h
    rw [hstage] at h
    exact Or.inl h
  · unfold Stands at h
    rw [hstage] at h hguard
    exact Stands.dropTicket h.1 h.2.1 h.2.2.2.2 hguard
  · unfold Stands at h
    rw [hstage] at h hguard
    exact Stands.dropTicket h.1 h.2.1 h.2.2.2.2 hguard
  · unfold Stands at h
    rw [hstage] at h
    obtain ⟨rfl, binding, hbound, hmine⟩ := h
    exact Or.inr ⟨binding, _, hbound, Or.inl rfl, hmine⟩
  · exact h
  · exact h

theorem Stands.next (h : s.Stands) (hguard : s.ticket.HoldsWhileBound) (event : CreateEvent) :
    (createCoordinator.next s event).Stands := by
  have hstands := h
  unfold Stands at hstands
  cases event with
  | reserve inWorker =>
    show (s.reserve inWorker).Stands
    unfold CreateWorld.reserve
    split
    · next hstage _ =>
      rw [hstage] at hstands
      split
      · next heq =>
        obtain ⟨_, _, _, -, -, -, rfl⟩ := acquireCapacity_ok heq
        exact hstands
      · exact h
    · exact h
  | reserved =>
    show s.reserveReturns.Stands
    unfold reserveReturns
    split
    · next hstage =>
      rw [hstage] at hstands
      exact ⟨hstands.1.symm, rfl, rfl, rfl, hstands.2⟩
    · exact h
  | releaseCapacityForWait =>
    show s.releaseCapacityForWait.1.Stands
    unfold CreateWorld.releaseCapacityForWait
    split
    · next hstage =>
      rw [hstage] at hstands
      exact ⟨hstands.1, hstands.2.1, rfl, rfl, hstands.2.2.2.2⟩
    · exact h
  | resumeUnboundCapacity inWorker =>
    show (s.resumeUnboundCapacity inWorker).1.Stands
    unfold CreateWorld.resumeUnboundCapacity
    split
    · next hstage =>
      rw [hstage] at hstands
      split_ifs
      · exact h
      · exact h
      · split
        · exact h
        · split
          · exact h
          · next heq =>
            obtain ⟨_, _, _, -, -, -, rfl⟩ := acquireCapacity_ok heq
            exact ⟨hstands.1, hstands.2.1, rfl, rfl, hstands.2.2.2.2⟩
    · exact h
  | bind binding =>
    show (s.bind binding).Stands
    unfold CreateWorld.bind
    split
    · next hstage =>
      rw [hstage] at hstands
      split_ifs
      · exact h
      · exact ⟨rfl, hstands.2⟩
    · exact h
  | insertPending =>
    show s.insertPending.Stands
    unfold CreateWorld.insertPending
    split
    · split <;> exact h
    · exact h
  | finalize =>
    show s.finalize.Stands
    unfold CreateWorld.finalize
    split
    · next hstage =>
      rw [hstage] at hstands
      exact hstands
    · exact h
  | poll => exact h.poll hguard
  | drop => exact h.drop hguard
  | otherReserve create => exact h.aside (aside_otherReserve create)
  | otherSend create => exact h.aside (aside_otherSend create)
  | otherDrop create => exact h.aside (aside_otherDrop create)
  | worker outcome => exact h.workerStep outcome
  | setPhase phase => exact h
  | closeAdmission => exact h
  | closeCreateTickets => exact h
  | cancel => exact h
  | abort =>
    show s.abort.Stands
    obtain ⟨_, _, _, heq⟩ := repooled_abort (s := s)
    rw [heq]
    exact hstands

theorem narrows_give (owner : Owner) (slot admission createTicket : Bool) :
    s.slots.Narrows (s.give owner slot admission createTicket).slots := by
  cases slot with
  | false => exact .refl _
  | true => exact Pool.narrows_release _ _

theorem narrows_dropTicket (ticket : CreateFinalizationTicket) :
    s.slots.Narrows (s.dropTicket ticket).slots := by
  rcases dropTicket_cases s ticket with ⟨-, heq⟩ | ⟨_, -, -, -, heq⟩
  · rw [heq]
    exact narrows_give (s := { s with ticket := .gone }) _ _ _ _
  · rw [heq]
    exact .refl _

theorem narrows_acquireCapacity {owner : Owner} (h : s.acquireCapacity owner = .ok t) :
    s.slots.Narrows t.slots := by
  obtain ⟨_, _, _, hslots, -, -, rfl⟩ := acquireCapacity_ok h
  exact Pool.narrows_acquire? hslots

/-- A step that is not the worker's. -/
structure Beside (s t : CreateWorld) : Prop where
  worker : t.worker = s.worker
  settled : t.settled = s.settled
  slots : s.slots.Narrows t.slots

theorem beside_dropTicket (ticket : CreateFinalizationTicket) : s.Beside (s.dropTicket ticket) := by
  refine ⟨?_, ?_, narrows_dropTicket ticket⟩
  all_goals
    rcases dropTicket_cases s ticket with ⟨-, heq⟩ | ⟨_, -, -, -, heq⟩ <;> (rw [heq]; rfl)

theorem beside_giveDrop (slot admission createTicket : Bool) (ticket : CreateFinalizationTicket) :
    s.Beside ((s.give .ticket slot admission createTicket).dropTicket ticket) := by
  obtain ⟨hworker, hsettled, hslots⟩ :=
    beside_dropTicket (s := s.give .ticket slot admission createTicket) ticket
  exact ⟨hworker, hsettled, (narrows_give _ _ _ _).trans hslots⟩

/-- The worker moves at its own steps only. -/
theorem workerAside (event : CreateEvent) :
    (∃ outcome, event = .worker outcome) ∨ event = .abort ∨
      s.Beside (createCoordinator.next s event) := by
  cases event with
  | worker outcome => exact Or.inl ⟨outcome, rfl⟩
  | abort => exact Or.inr (Or.inl rfl)
  | reserve inWorker =>
    refine Or.inr (Or.inr ?_)
    show s.Beside (s.reserve inWorker)
    unfold CreateWorld.reserve
    split
    · split
      · next heq =>
        have hslots := narrows_acquireCapacity heq
        obtain ⟨_, _, _, -, -, -, rfl⟩ := acquireCapacity_ok heq
        exact ⟨rfl, rfl, hslots⟩
      · exact ⟨rfl, rfl, .refl _⟩
    · exact ⟨rfl, rfl, .refl _⟩
  | reserved =>
    refine Or.inr (Or.inr ?_)
    show s.Beside s.reserveReturns
    unfold reserveReturns
    split <;> exact ⟨rfl, rfl, .refl _⟩
  | releaseCapacityForWait =>
    refine Or.inr (Or.inr ?_)
    show s.Beside s.releaseCapacityForWait.1
    unfold CreateWorld.releaseCapacityForWait
    split
    · next ticket _ => exact ⟨rfl, rfl, narrows_give (s := s) .ticket ticket.slot false false⟩
    · exact ⟨rfl, rfl, .refl _⟩
  | resumeUnboundCapacity inWorker =>
    refine Or.inr (Or.inr ?_)
    show s.Beside (s.resumeUnboundCapacity inWorker).1
    unfold CreateWorld.resumeUnboundCapacity
    split
    · split_ifs
      · exact ⟨rfl, rfl, .refl _⟩
      · exact ⟨rfl, rfl, .refl _⟩
      · split
        · exact ⟨rfl, rfl, .refl _⟩
        · split
          · exact ⟨rfl, rfl, .refl _⟩
          · next heq =>
            have hslots := narrows_acquireCapacity heq
            obtain ⟨_, _, _, -, -, -, rfl⟩ := acquireCapacity_ok heq
            exact ⟨rfl, rfl, hslots⟩
    · exact ⟨rfl, rfl, .refl _⟩
  | bind binding =>
    refine Or.inr (Or.inr ?_)
    show s.Beside (s.bind binding)
    unfold CreateWorld.bind
    split
    · split_ifs <;> exact ⟨rfl, rfl, .refl _⟩
    · exact ⟨rfl, rfl, .refl _⟩
  | insertPending =>
    refine Or.inr (Or.inr ?_)
    show s.Beside s.insertPending
    unfold CreateWorld.insertPending
    split
    · split <;> exact ⟨rfl, rfl, .refl _⟩
    · exact ⟨rfl, rfl, .refl _⟩
  | finalize =>
    refine Or.inr (Or.inr ?_)
    show s.Beside s.finalize
    unfold CreateWorld.finalize
    split <;> exact ⟨rfl, rfl, .refl _⟩
  | poll =>
    refine Or.inr (Or.inr ?_)
    show s.Beside s.poll
    unfold CreateWorld.poll
    split
    · split_ifs
      · exact beside_dropTicket _
      · exact beside_giveDrop _ _ _ _
      · exact beside_giveDrop _ _ _ _
      · split
        · exact beside_giveDrop _ _ _ _
        · exact ⟨rfl, rfl, .refl _⟩
    · exact ⟨rfl, rfl, .refl _⟩
  | drop =>
    refine Or.inr (Or.inr ?_)
    show s.Beside s.drop
    unfold CreateWorld.drop
    split
    · exact ⟨rfl, rfl, narrows_give (s := { s with ticket := .gone }) _ _ _ _⟩
    · exact beside_dropTicket _
    · exact beside_dropTicket _
    · exact beside_dropTicket _
    · exact ⟨rfl, rfl, .refl _⟩
    · exact ⟨rfl, rfl, .refl _⟩
  | otherReserve create =>
    have haside := aside_otherReserve (s := s) create
    refine Or.inr (Or.inr ⟨haside.worker, haside.settled, ?_⟩)
    show s.slots.Narrows (s.otherReserve create).slots
    unfold CreateWorld.otherReserve
    split_ifs
    · split
      · next heq =>
        have hslots := narrows_acquireCapacity heq
        exact hslots
      · exact .refl _
    · split
      · next hslots => exact Pool.narrows_acquire? hslots
      · exact .refl _
  | otherSend create =>
    refine Or.inr (Or.inr ⟨(aside_otherSend create).worker, (aside_otherSend create).settled, ?_⟩)
    show s.slots.Narrows (s.otherSend create).slots
    unfold CreateWorld.otherSend
    split_ifs <;> exact .refl _
  | otherDrop create =>
    refine Or.inr (Or.inr ⟨(aside_otherDrop create).worker, (aside_otherDrop create).settled, ?_⟩)
    show s.slots.Narrows (s.otherDrop create).slots
    unfold CreateWorld.otherDrop
    split_ifs
    · exact narrows_give (s := s) (.other create) true false false
    · exact .refl _
  | setPhase phase => exact Or.inr (Or.inr ⟨rfl, rfl, .refl _⟩)
  | closeAdmission => exact Or.inr (Or.inr ⟨rfl, rfl, .refl _⟩)
  | closeCreateTickets => exact Or.inr (Or.inr ⟨rfl, rfl, .refl _⟩)
  | cancel => exact Or.inr (Or.inr ⟨rfl, rfl, .refl _⟩)

end CreateWorld

/-- The receiver was closed. -/
def CoordinatorStage.drains : CoordinatorStage → Bool
  | .idle draining | .executing draining _ | .holding draining _ => draining
  | .gone => true
  | .aborted => false

/-- The steps up to the close of the receiver, or to the next receipt of one that is closed. -/
def CoordinatorStage.steps : CoordinatorStage → ℕ
  | .executing false _ => 3
  | .executing true _ | .holding false _ => 2
  | .holding true _ | .idle false => 1
  | .idle true | .gone | .aborted => 0

namespace CreateWorld
variable {s t : CreateWorld}

/-- A worker that has drained its channel left nothing reserved in it. -/
structure Drained (s : CreateWorld) : Prop where
  closed : s.worker.drains = true → s.slots.closed = true
  held : s.worker = .gone → s.slots.held = []

theorem Drained.workerStep (h : s.Drained) (outcome : JobOutcome) :
    (s.workerStep outcome).Drained := by
  have hclosed := h.closed
  unfold CreateWorld.workerStep
  split <;> rename_i hworker <;> rw [hworker] at hclosed
  · split_ifs
    · exact ⟨fun _ => rfl, nofun⟩
    · split
      · exact ⟨nofun, nofun⟩
      · exact h
  · split
    · exact ⟨hclosed, nofun⟩
    · split_ifs with hheld
      · exact ⟨fun _ => hclosed rfl, fun _ => hheld⟩
      · exact h
  · exact ⟨hclosed, nofun⟩
  · exact ⟨hclosed, nofun⟩
  · exact h
  · exact h

theorem Drained.next (h : s.Drained) (event : CreateEvent) :
    (createCoordinator.next s event).Drained := by
  rcases workerAside (s := s) event with ⟨outcome, rfl⟩ | rfl | ⟨hworker, -, hslots⟩
  · exact h.workerStep outcome
  · exact ⟨nofun, nofun⟩
  · constructor
    · rw [hworker]
      exact fun hdrains => (hslots (h.closed hdrains)).1
    · rw [hworker]
      exact fun hgone => (hslots (h.closed (by rw [hgone]; rfl))).2 (h.held hgone)

/-- The steps that the worker needs to come to the end of its queue. -/
def backlog (s : CreateWorld) : ℕ := 3 * s.queue.length + s.worker.steps

/-- The worker has nothing left to do. -/
def AtRest (s : CreateWorld) : Prop :=
  s.worker = .gone ∨ (∃ draining, s.worker = .idle draining) ∧ s.queue = []

theorem AtRest.workerStep (h : s.AtRest) (outcome : JobOutcome) :
    (s.workerStep outcome).AtRest := by
  unfold CreateWorld.workerStep
  rcases h with hgone | ⟨⟨draining, hidle⟩, hqueue⟩
  · rw [hgone]
    exact Or.inl hgone
  · rw [hidle]
    cases draining with
    | false =>
      dsimp only
      split_ifs
      · exact Or.inr ⟨⟨true, rfl⟩, hqueue⟩
      · split <;> rename_i hcons
        · exact nomatch hqueue.symm.trans hcons
        · exact Or.inr ⟨⟨false, hidle⟩, hqueue⟩
    | true =>
      dsimp only
      split <;> rename_i hcons
      · exact nomatch hqueue.symm.trans hcons
      · split_ifs
        · exact Or.inl rfl
        · exact Or.inr ⟨⟨true, hidle⟩, hqueue⟩

theorem workerStep_aborted (h : s.worker ≠ .aborted) (outcome : JobOutcome) :
    (s.workerStep outcome).worker ≠ .aborted := by
  unfold CreateWorld.workerStep
  split
  · split_ifs
    · exact nofun
    · split
      · exact nofun
      · exact h
  · split
    · exact nofun
    · split_ifs
      · exact nofun
      · exact h
  · exact nofun
  · exact nofun
  · exact h
  · exact h

/-- Each step of the worker brings it nearer to rest. -/
theorem backlog_workerStep (h : s.worker ≠ .aborted) (outcome : JobOutcome) :
    (s.workerStep outcome).AtRest ∨ (s.workerStep outcome).backlog < s.backlog := by
  have hreceive (draining : Bool) (envelope : CoordinatorEnvelope)
      (rest : List CoordinatorEnvelope) (hqueue : s.queue = envelope :: rest)
      (hworker : s.worker = .idle draining) :
      (s.receive draining envelope rest).backlog < s.backlog := by
    unfold backlog
    rw [hqueue, hworker]
    cases draining with
    | false =>
      show 3 * rest.length + 3 < 3 * (rest.length + 1) + 1
      omega
    | true =>
      show 3 * rest.length + 2 < 3 * (rest.length + 1) + 0
      omega
  unfold CreateWorld.workerStep
  split <;> rename_i hworker
  · split_ifs
    · refine Or.inr ?_
      unfold backlog
      rw [hworker]
      exact Nat.lt_succ_self _
    · split <;> rename_i hqueue
      · exact Or.inr (hreceive _ _ _ hqueue hworker)
      · exact Or.inl (Or.inr ⟨⟨false, hworker⟩, hqueue⟩)
  · split <;> rename_i hqueue
    · exact Or.inr (hreceive _ _ _ hqueue hworker)
    · split_ifs
      · exact Or.inl (Or.inl rfl)
      · exact Or.inl (Or.inr ⟨⟨true, hworker⟩, hqueue⟩)
  · next draining envelope =>
    refine Or.inr ?_
    unfold backlog
    rw [hworker]
    cases draining <;> exact Nat.lt_succ_self _
  · next draining envelope =>
    refine Or.inr ?_
    unfold backlog
    rw [hworker]
    cases draining <;> exact Nat.lt_succ_self _
  · next hgone => exact Or.inl (Or.inl hworker)
  · exact absurd hworker h

theorem atRest_of_backlog (h : s.worker ≠ .aborted) (hzero : s.backlog = 0) : s.AtRest := by
  unfold backlog at hzero
  have hqueue : s.queue = [] := List.length_eq_zero_iff.mp (by omega)
  cases hworker : s.worker with
  | gone => exact Or.inl hworker
  | aborted => exact absurd hworker h
  | idle draining => exact Or.inr ⟨⟨draining, hworker⟩, hqueue⟩
  | executing draining envelope =>
    rw [hworker] at hzero
    cases draining <;> exact absurd hzero (by rw [Nat.add_eq_zero_iff]; exact nofun)
  | holding draining envelope =>
    rw [hworker] at hzero
    cases draining <;> exact absurd hzero (by rw [Nat.add_eq_zero_iff]; exact nofun)

theorem atRest_run (h : s.worker ≠ .aborted) {outcomes : List JobOutcome}
    (hlong : s.AtRest ∨ s.backlog ≤ outcomes.length) :
    (createCoordinator.run s (outcomes.map .worker)).AtRest := by
  induction outcomes generalizing s with
  | nil => exact hlong.elim id fun hle => atRest_of_backlog h (Nat.le_zero.mp hle)
  | cons outcome outcomes ih =>
    refine ih (s := s.workerStep outcome) (workerStep_aborted h outcome) ?_
    rcases hlong with hrest | hle
    · exact Or.inl (hrest.workerStep outcome)
    · refine (backlog_workerStep h outcome).imp id fun hlt => ?_
      exact Nat.le_of_lt_succ (Nat.lt_of_lt_of_le hlt hle)

theorem run_workerStep (outcomes : List JobOutcome) :
    (createCoordinator.run s (outcomes.map .worker)).ticket = s.ticket ∧
      (createCoordinator.run s (outcomes.map .worker)).bound = s.bound ∧
      (createCoordinator.run s (outcomes.map .worker)).sent = s.sent := by
  induction outcomes generalizing s with
  | nil => exact ⟨rfl, rfl, rfl⟩
  | cons outcome outcomes ih =>
    obtain ⟨h₁, h₂, h₃⟩ := workerStep_ticket (s := s) outcome
    obtain ⟨k₁, k₂, k₃⟩ := ih (s := s.workerStep outcome)
    exact ⟨k₁.trans h₁, k₂.trans h₂, k₃.trans h₃⟩

end CreateWorld

end AgentsCommander.Selection
