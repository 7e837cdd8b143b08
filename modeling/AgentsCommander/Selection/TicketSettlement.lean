import AgentsCommander.Selection.TicketRuns

/-! The settlement of a create ticket: one envelope, settled once, and its permits returned. -/
namespace AgentsCommander.Selection
open Foundation

/-- The ticket was dropped, or its finalization was queued. -/
def TicketStage.ended : TicketStage → Bool
  | .waiting _ | .gone => true
  | .absent | .reserving | .live _ | .finalizing _ => false

namespace CreateWorld
variable {s : CreateWorld}

/-- The envelopes that the ticket has sent. -/
def mine (s : CreateWorld) : List CoordinatorEnvelope := s.sent.filter CoordinatorEnvelope.mine

/-- Those of them whose job was executed or drained, in that order. -/
def done (s : CreateWorld) : List CoordinatorEnvelope :=
  (s.settled.map Settlement.envelope).filter CoordinatorEnvelope.mine

/-- No permit of the ticket is out of its pool. -/
def Returned (s : CreateWorld) : Prop :=
  s.slots.count .ticket = 0 ∧ s.admission.count .ticket = 0 ∧ s.createTickets.count .ticket = 0

/-- A finalization that is drained leaves no pending create that no retained entry owns. -/
def RollsBack (s : CreateWorld) : Prop :=
  ∀ x ∈ s.settled, x.drained = true → ∀ binding, x.envelope.job = .finalizeCreate binding →
    x.retained = .unowned → x.stillPending = false

/-- What holds at each step of a ticket. -/
structure Sound (s : CreateWorld) : Prop where
  flows : s.Flows
  balanced : s.Balanced
  stands : s.Stands
  drained : s.Drained
  rollsBack : s.RollsBack

theorem RollsBack.workerStep (h : s.RollsBack) (outcome : JobOutcome) :
    (s.workerStep outcome).RollsBack := by
  unfold CreateWorld.workerStep
  split
  · split_ifs
    · exact h
    · split <;> exact h
  · split
    · exact h
    · split_ifs <;> exact h
  · next draining envelope _ =>
    intro x hx hdrained binding hjob hunowned
    rcases List.mem_append.mp hx with hold | hnew
    · exact h x hold hdrained binding hjob hunowned
    · rw [List.mem_singleton.mp hnew] at hdrained hjob hunowned ⊢
      change draining = true at hdrained
      change envelope.job = _ at hjob
      change outcome.retained = _ at hunowned
      show envelope.job.binding.any (· ∈ envelope.job.run draining outcome s.pending) = false
      rw [hjob, hdrained]
      show decide (binding ∈ executeRollbackCreate s.pending binding outcome.retained) = false
      unfold executeRollbackCreate
      rw [if_pos hunowned]
      exact decide_eq_false fun hmem => of_decide_eq_true (List.mem_filter.mp hmem).2 rfl
  · exact h
  · exact h
  · exact h

theorem RollsBack.next (h : s.RollsBack) (event : CreateEvent) :
    (createCoordinator.next s event).RollsBack := by
  rcases workerAside (s := s) event with ⟨outcome, rfl⟩ | rfl | ⟨-, hsettled, -⟩
  · exact h.workerStep outcome
  · obtain ⟨_, _, _, heq⟩ := repooled_abort (s := s)
    show s.abort.RollsBack
    rw [heq]
    exact h
  · unfold RollsBack
    rw [hsettled]
    exact h

theorem Sound.next (h : s.Sound) (hguard : s.ticket.HoldsWhileBound) (event : CreateEvent) :
    (createCoordinator.next s event).Sound :=
  ⟨h.flows.next event, h.balanced.next event, h.stands.next hguard event, h.drained.next event,
    h.rollsBack.next event⟩

theorem sound_new (queue admission createTickets : ℕ) :
    (new queue admission createTickets).Sound where
  flows := ⟨List.Sublist.refl _, fun _ => rfl⟩
  balanced := ⟨rfl, rfl, rfl⟩
  stands := ⟨rfl, rfl⟩
  drained := ⟨nofun, nofun⟩
  rollsBack := nofun

theorem sound_run (h : s.Sound) {es : List CreateEvent}
    (hguard : createCoordinator.Always (fun s => s.ticket.HoldsWhileBound) s es) :
    (createCoordinator.run s es).Sound := by
  induction es generalizing s with
  | nil => exact h
  | cons event es ih => exact ih (h.next hguard.1 event) hguard.2

theorem worker_ne_aborted (h : s.worker ≠ .aborted) {es : List CreateEvent}
    (hes : ∀ event ∈ es, event ≠ .abort) : (createCoordinator.run s es).worker ≠ .aborted := by
  induction es generalizing s with
  | nil => exact h
  | cons event es ih =>
    refine ih ?_ fun e he => hes e (List.mem_cons_of_mem _ he)
    rcases workerAside (s := s) event with ⟨outcome, rfl⟩ | habort | ⟨hworker, -, -⟩
    · exact workerStep_aborted h outcome
    · exact absurd habort (hes event List.mem_cons_self)
    · rw [hworker]
      exact h

structure Lawful (s : CreateWorld) : Prop where
  unsent : s.ticket.ended = false ∨ s.bound = none → s.mine = []
  sentOnce : s.ticket.ended = true → ∀ binding, s.bound = some binding →
    s.mine = [⟨.ticket, .finalizeCreate binding⟩] ∨ s.mine = [⟨.ticket, .rollbackCreate binding⟩]
  doneOnce : s.done.length ≤ 1
  rollsBack : s.RollsBack
  resumes : ∀ inWorker error,
    (s.resumeUnboundCapacity inWorker).2 = .resumed (.error error) →
      (s.resumeUnboundCapacity inWorker).1 = s ∧ s.ticket.slot = false ∧
        s.ticket.admission = false ∧ s.ticket.createTicket = false

/-- Once the ticket has ended, the worker alone settles it and its permits return. -/
def Settles (s : CreateWorld) : Prop :=
  ∀ outcomes : List JobOutcome, s.ticket.ended = true → s.backlog ≤ outcomes.length →
    let t := createCoordinator.run s (outcomes.map .worker)
    t.done = s.mine ∧ t.mine = s.mine ∧ t.Returned

theorem Stands.unsent (h : s.Stands) (hstage : s.ticket.ended = false ∨ s.bound = none) :
    s.mine = [] := by
  unfold Stands at h
  cases hticket : s.ticket <;> rw [hticket] at h hstage
  case absent => exact h.2
  case reserving => exact h.2
  case live => exact h.2.2.2.2
  case finalizing => exact h.2.2.2.2
  case waiting =>
    obtain ⟨-, binding, hbound, -⟩ := h
    rcases hstage with hended | hnone
    · exact nomatch hended
    · exact nomatch hnone.symm.trans hbound
  case gone =>
    rcases h with ⟨-, hmine⟩ | ⟨binding, _, hbound, -, -⟩
    · exact hmine
    · rcases hstage with hended | hnone
      · exact nomatch hended
      · exact nomatch hnone.symm.trans hbound

theorem Stands.sentOnce (h : s.Stands) (hended : s.ticket.ended = true)
    {binding : PendingCreateBinding} (hbound : s.bound = some binding) :
    s.mine = [⟨.ticket, .finalizeCreate binding⟩] ∨
      s.mine = [⟨.ticket, .rollbackCreate binding⟩] := by
  unfold Stands at h
  cases hticket : s.ticket <;> rw [hticket] at h hended
  case absent => exact nomatch hended
  case reserving => exact nomatch hended
  case live => exact nomatch hended
  case finalizing => exact nomatch hended
  case waiting =>
    obtain ⟨-, b, hb, hmine⟩ := h
    obtain rfl : b = binding := Option.some.inj (hb.symm.trans hbound)
    exact Or.inl hmine
  case gone =>
    rcases h with ⟨hnone, -⟩ | ⟨b, job, hb, hjob, hmine⟩
    · exact nomatch hnone.symm.trans hbound
    · obtain rfl : b = binding := Option.some.inj (hb.symm.trans hbound)
      rcases hjob with rfl | rfl
      · exact Or.inl hmine
      · exact Or.inr hmine

/-- A ticket that has ended holds no permit itself. -/
theorem Stands.emptied (h : s.Stands) (hended : s.ticket.ended = true) :
    s.ticket.slot = false ∧ s.ticket.admission = false ∧ s.ticket.createTicket = false := by
  unfold Stands at h
  cases hticket : s.ticket <;> rw [hticket] at h hended
  case absent => exact nomatch hended
  case reserving => exact nomatch hended
  case live => exact nomatch hended
  case finalizing => exact nomatch hended
  case waiting =>
    obtain ⟨rfl, -⟩ := h
    exact ⟨rfl, rfl, rfl⟩
  case gone => exact ⟨rfl, rfl, rfl⟩

theorem Sound.doneOnce (h : s.Sound) : s.done.length ≤ 1 := by
  have hsub : s.done.Sublist s.mine := by
    have hsettled := List.sublist_append_left (s.settled.map Settlement.envelope) s.worker.inHand
    exact ((hsettled.trans (List.sublist_append_left _ s.queue)).trans h.flows.once).filter _
  refine hsub.length_le.trans ?_
  by_cases hstage : s.ticket.ended = false ∨ s.bound = none
  · rw [h.stands.unsent hstage]
    exact Nat.zero_le _
  · rw [not_or, Bool.not_eq_false] at hstage
    obtain ⟨binding, hbound⟩ := Option.ne_none_iff_exists'.mp hstage.2
    rcases h.stands.sentOnce hstage.1 hbound with hmine | hmine <;> (rw [hmine]; exact Nat.le_refl _)

theorem resume_failed {inWorker : Bool} {error : SelectionCoordinatorError}
    (herror : (s.resumeUnboundCapacity inWorker).2 = .resumed (.error error)) :
    (s.resumeUnboundCapacity inWorker).1 = s ∧ ∃ ticket, s.ticket = .live ticket ∧
      ¬ (ticket.slot = true ∧ ticket.admission = true ∧ ticket.createTicket = true) := by
  unfold CreateWorld.resumeUnboundCapacity at herror ⊢
  cases hstage : s.ticket with
  | live ticket =>
    rw [hstage] at herror
    dsimp only at herror ⊢
    by_cases hall : ticket.slot = true ∧ ticket.admission = true ∧ ticket.createTicket = true
    · rw [if_pos hall] at herror
      exact nomatch herror
    rw [if_neg hall] at herror ⊢
    refine ⟨?_, ticket, rfl, hall⟩
    split_ifs at herror ⊢
    · rfl
    · cases hcheck : s.checkExternalSubmission inWorker with
      | error e => rfl
      | ok _ =>
        cases hacquire : s.acquireCapacity .ticket with
        | error e => rfl
        | ok t =>
          rw [hcheck, hacquire] at herror
          exact nomatch herror
  | absent => rw [hstage] at herror; exact nomatch herror
  | reserving => rw [hstage] at herror; exact nomatch herror
  | finalizing ticket => rw [hstage] at herror; exact nomatch herror
  | waiting ticket => rw [hstage] at herror; exact nomatch herror
  | gone => rw [hstage] at herror; exact nomatch herror

theorem Sound.resumes (h : s.Sound) {inWorker : Bool} {error : SelectionCoordinatorError}
    (herror : (s.resumeUnboundCapacity inWorker).2 = .resumed (.error error)) :
    (s.resumeUnboundCapacity inWorker).1 = s ∧ s.ticket.slot = false ∧
      s.ticket.admission = false ∧ s.ticket.createTicket = false := by
  obtain ⟨hsame, ticket, hstage, hnot⟩ := resume_failed herror
  have hstands := h.stands
  unfold Stands at hstands
  rw [hstage] at hstands
  obtain ⟨-, -, hadmission, hcreate, -⟩ := hstands
  have hslot : ticket.slot = false := eq_false_of_ne_true fun hslot =>
    hnot ⟨hslot, hadmission.trans hslot, hcreate.trans hslot⟩
  rw [hstage]
  exact ⟨hsame, hslot, hadmission.trans hslot, hcreate.trans hslot⟩

theorem Sound.lawful (h : s.Sound) : s.Lawful where
  unsent := h.stands.unsent
  sentOnce hended _ := h.stands.sentOnce hended
  doneOnce := h.doneOnce
  rollsBack := h.rollsBack
  resumes _ _ := h.resumes

/-- At rest nothing of the ticket is queued or in hand. -/
theorem Sound.settled_atRest (h : s.Sound) (haborted : s.worker ≠ .aborted) (hrest : s.AtRest)
    (hended : s.ticket.ended = true) : s.done = s.mine ∧ s.Returned := by
  obtain ⟨hslot, hadmission, hcreate⟩ := h.stands.emptied hended
  have hworker : s.worker.inHand = [] ∧ s.worker.held = [] := by
    rcases hrest with hgone | ⟨⟨draining, hidle⟩, -⟩
    · rw [hgone]
      exact ⟨rfl, rfl⟩
    · rw [hidle]
      exact ⟨rfl, rfl⟩
  have hslots := h.balanced.slots
  rw [hslot] at hslots
  have hqueue : s.queue.countP CoordinatorEnvelope.mine = 0 := by
    rcases hrest with hgone | ⟨-, hqueue⟩
    · have hzero : s.slots.count .ticket = 0 := by
        unfold Pool.count
        rw [h.drained.held hgone]
        rfl
      exact (Nat.zero_add _).symm.trans (hslots.symm.trans hzero)
    · rw [hqueue]
      rfl
  have hadmissions := h.balanced.admission
  have hcreates := h.balanced.createTickets
  rw [hadmission, hqueue, hworker.1] at hadmissions
  rw [hcreate, hqueue, hworker.2] at hcreates
  rw [hqueue] at hslots
  refine ⟨?_, hslots, hadmissions, hcreates⟩
  have hall := congrArg (List.filter CoordinatorEnvelope.mine) (h.flows.all haborted)
  rw [hworker.1, List.append_nil, List.filter_append] at hall
  have hnone : s.queue.filter CoordinatorEnvelope.mine = [] := by
    rw [List.countP_eq_length_filter] at hqueue
    exact List.length_eq_zero_iff.mp hqueue
  rw [hnone, List.append_nil] at hall
  exact hall

theorem Sound.workerRun (h : s.Sound) (haborted : s.worker ≠ .aborted)
    (outcomes : List JobOutcome) :
    (createCoordinator.run s (outcomes.map .worker)).Sound ∧
      (createCoordinator.run s (outcomes.map .worker)).worker ≠ .aborted := by
  induction outcomes generalizing s with
  | nil => exact ⟨h, haborted⟩
  | cons outcome outcomes ih =>
    refine ih (s := s.workerStep outcome) ?_ (workerStep_aborted haborted outcome)
    exact ⟨h.flows.workerStep outcome, h.balanced.workerStep outcome, h.stands.workerStep outcome,
      h.drained.workerStep outcome, h.rollsBack.workerStep outcome⟩

theorem Sound.settles (h : s.Sound) (haborted : s.worker ≠ .aborted) : s.Settles := by
  intro outcomes hended hlong t
  obtain ⟨hticket, -, hsent⟩ := run_workerStep (s := s) outcomes
  have hrun := h.workerRun haborted outcomes
  have hrest := atRest_run haborted (Or.inr hlong)
  obtain ⟨hdone, hreturned⟩ :=
    hrun.1.settled_atRest hrun.2 hrest ((congrArg TicketStage.ended hticket).trans hended)
  have hmine : t.mine = s.mine := congrArg (List.filter CoordinatorEnvelope.mine) hsent
  exact ⟨hdone.trans hmine, hmine, hreturned⟩

/-- For every order of the ticket's steps, the worker's, the others' and the shutdown's. -/
theorem settled_run (queue admission createTickets : ℕ) (es : List CreateEvent)
    (hbound : createCoordinator.Always (fun s => s.ticket.HoldsWhileBound)
      (new queue admission createTickets) es) :
    (createCoordinator.run (new queue admission createTickets) es).Lawful ∧
      ((∀ event ∈ es, event ≠ .abort) →
        (createCoordinator.run (new queue admission createTickets) es).Settles) := by
  have hsound := sound_run (sound_new queue admission createTickets) hbound
  have hidle : (new queue admission createTickets).worker ≠ .aborted :=
    (nofun : CoordinatorStage.idle false ≠ .aborted)
  exact ⟨hsound.lawful, fun hes => hsound.settles (worker_ne_aborted hidle hes)⟩

/-- A create that is finalized and then settled by the worker. -/
theorem settled_finalized :
    let s := createCoordinator.run (new 64 65 16)
      [.reserve false, .reserved, .bind ⟨1, 2⟩, .insertPending, .finalize, .poll]
    (s.Lawful ∧ s.mine = [⟨.ticket, .finalizeCreate ⟨1, 2⟩⟩]) ∧
      (createCoordinator.run s
        (List.replicate 4 (.worker ⟨true, true, .unowned⟩))).done = s.mine := by
  intro s
  have h := settled_run 64 65 16
    [.reserve false, .reserved, .bind ⟨1, 2⟩, .insertPending, .finalize, .poll]
    ⟨trivial, trivial, nofun, fun _ => ⟨rfl, rfl, rfl⟩, fun _ => ⟨rfl, rfl, rfl⟩,
      fun _ => ⟨rfl, rfl, rfl⟩, trivial⟩
  have hmine : s.mine = [⟨.ticket, .finalizeCreate ⟨1, 2⟩⟩] := by decide
  refine ⟨⟨h.1, hmine⟩, ?_⟩
  exact (h.2 (by simp) (List.replicate 4 ⟨true, true, .unowned⟩) rfl (by decide)).1

/-- A drain that cannot read the retained entries, and an abort of the worker. -/
theorem drained_staysPending :
    let bound : List CreateEvent :=
      [.reserve false, .reserved, .bind ⟨1, 2⟩, .insertPending, .finalize, .poll]
    let drained := createCoordinator.run (new 64 65 16)
      (bound ++ .cancel :: List.replicate 4 (.worker ⟨true, true, .unreadable⟩))
    let aborted := createCoordinator.run (new 64 65 16) (bound ++ [.cancel, .abort])
    (drained.done = [⟨.ticket, .finalizeCreate ⟨1, 2⟩⟩] ∧ drained.pending = [⟨1, 2⟩] ∧
      drained.settled.all (·.drained)) ∧
      aborted.mine = [⟨.ticket, .finalizeCreate ⟨1, 2⟩⟩] ∧ aborted.done = [] ∧
        ∀ outcome, aborted.workerStep outcome = aborted := by
  refine ⟨by decide, by decide, by decide, fun _ => rfl⟩

end CreateWorld

end AgentsCommander.Selection
