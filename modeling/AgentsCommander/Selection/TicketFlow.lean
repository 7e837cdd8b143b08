import AgentsCommander.Selection.Tickets

/-! Where the permits and the envelopes of a create ticket are. -/
namespace AgentsCommander.Selection
open Foundation

def TicketStage.slot : TicketStage → Bool
  | .reserving => true
  | .live ticket | .finalizing ticket | .waiting ticket => ticket.slot
  | .absent | .gone => false

def TicketStage.admission : TicketStage → Bool
  | .reserving => true
  | .live ticket | .finalizing ticket | .waiting ticket => ticket.admission
  | .absent | .gone => false

def TicketStage.createTicket : TicketStage → Bool
  | .reserving => true
  | .live ticket | .finalizing ticket | .waiting ticket => ticket.createTicket
  | .absent | .gone => false

/-- The envelope whose job is not done. -/
def CoordinatorStage.inHand : CoordinatorStage → List CoordinatorEnvelope
  | .executing _ envelope => [envelope]
  | _ => []

/-- The envelope whose create permit is not dropped. -/
def CoordinatorStage.held : CoordinatorStage → List CoordinatorEnvelope
  | .executing _ envelope | .holding _ envelope => [envelope]
  | _ => []

def CoordinatorEnvelope.mine (envelope : CoordinatorEnvelope) : Bool := envelope.owner = .ticket

namespace CreateWorld
variable {s t : CreateWorld}

/-- Every envelope is settled, in hand or queued, in the order in which they were sent. -/
structure Flows (s : CreateWorld) : Prop where
  once : (s.settled.map (·.envelope) ++ s.worker.inHand ++ s.queue).Sublist s.sent
  all : s.worker ≠ .aborted → s.settled.map (·.envelope) ++ s.worker.inHand ++ s.queue = s.sent

theorem Flows.keep (h : s.Flows) (hsettled : t.settled = s.settled) (hworker : t.worker = s.worker)
    (hqueue : t.queue = s.queue) (hsent : t.sent = s.sent) : t.Flows := by
  obtain ⟨honce, hall⟩ := h
  constructor
  · rw [hsettled, hworker, hqueue, hsent]
    exact honce
  · rw [hsettled, hworker, hqueue, hsent]
    exact hall

theorem Flows.relabel (h : s.Flows) (hsettled : t.settled = s.settled) (hqueue : t.queue = s.queue)
    (hsent : t.sent = s.sent) (hworker : t.worker.inHand = s.worker.inHand)
    (haborted : s.worker ≠ .aborted) : t.Flows := by
  have hall := h.all haborted
  rw [← hsettled, ← hworker, ← hqueue, ← hsent] at hall
  exact ⟨hall ▸ List.Sublist.refl _, fun _ => hall⟩

theorem Flows.send (h : s.Flows) (envelope : CoordinatorEnvelope) : (s.send envelope).Flows where
  once := by
    show (_ ++ (s.queue ++ [envelope])).Sublist (s.sent ++ [envelope])
    rw [← List.append_assoc]
    exact h.once.append (List.Sublist.refl _)
  all hworker := by
    show _ ++ (s.queue ++ [envelope]) = s.sent ++ [envelope]
    rw [← List.append_assoc]
    exact congrArg (· ++ [envelope]) (h.all hworker)

/-- The destructor sends a rollback where a binding has all its permits. -/
theorem dropTicket_cases (s : CreateWorld) (ticket : CreateFinalizationTicket) :
    (ticket.completed = true ∨ ticket.binding = none ∨
        ¬ (ticket.slot = true ∧ ticket.admission = true ∧ ticket.createTicket = true)) ∧
      s.dropTicket ticket = s.discard ticket ∨
    ∃ binding, ticket.completed = false ∧ ticket.binding = some binding ∧
      (ticket.slot = true ∧ ticket.admission = true ∧ ticket.createTicket = true) ∧
      s.dropTicket ticket =
        ({ s with ticket := .gone } : CreateWorld).send ⟨.ticket, .rollbackCreate binding⟩ := by
  unfold dropTicket
  by_cases hcompleted : ticket.completed = true
  · rw [if_pos hcompleted]
    exact Or.inl ⟨Or.inl hcompleted, rfl⟩
  rw [if_neg hcompleted]
  cases hbinding : ticket.binding with
  | none => exact Or.inl ⟨Or.inr (Or.inl rfl), rfl⟩
  | some binding =>
    dsimp only
    by_cases hpermits : ticket.slot = true ∧ ticket.admission = true ∧ ticket.createTicket = true
    · rw [if_pos hpermits]
      exact Or.inr ⟨binding, eq_false_of_ne_true hcompleted, rfl, hpermits, rfl⟩
    · rw [if_neg hpermits]
      exact Or.inl ⟨Or.inr (Or.inr hpermits), rfl⟩

theorem Flows.dropTicket (h : s.Flows) (ticket : CreateFinalizationTicket) :
    (s.dropTicket ticket).Flows := by
  rcases dropTicket_cases s ticket with ⟨-, heq⟩ | ⟨binding, -, -, -, heq⟩
  · rw [heq]
    exact h.keep rfl rfl rfl rfl
  · rw [heq]
    exact Flows.send (s := { s with ticket := .gone }) (h.keep rfl rfl rfl rfl) _

theorem acquireCapacity_ok {owner : Owner} (h : s.acquireCapacity owner = .ok t) :
    ∃ slots admission createTickets, s.slots.acquire? owner = some slots ∧
      s.admission.acquire? owner = some admission ∧
      s.createTickets.acquire? owner = some createTickets ∧
      t = { s with slots := slots, admission := admission, createTickets := createTickets } := by
  unfold acquireCapacity at h
  cases hcreate : s.createTickets.acquire? owner with
  | none => rw [hcreate] at h; cases h
  | some createTickets =>
    cases hadmission : s.admission.acquire? owner with
    | none => rw [hcreate, hadmission] at h; cases h
    | some admission =>
      cases hslots : s.slots.acquire? owner with
      | none => rw [hcreate, hadmission, hslots] at h; cases h
      | some slots =>
        rw [hcreate, hadmission, hslots] at h
        exact ⟨slots, admission, createTickets, rfl, rfl, rfl, (Except.ok.inj h).symm⟩

theorem Flows.workerStep (h : s.Flows) (outcome : JobOutcome) : (s.workerStep outcome).Flows := by
  have hreceive (draining : Bool) (envelope : CoordinatorEnvelope)
      (rest : List CoordinatorEnvelope) (hqueue : s.queue = envelope :: rest)
      (hworker : s.worker.inHand = [] ∧ s.worker ≠ .aborted) :
      (s.receive draining envelope rest).Flows := by
    have hall := h.all hworker.2
    rw [hworker.1, hqueue, List.append_nil] at hall
    have heq : s.settled.map (·.envelope) ++ [envelope] ++ rest = s.sent := by
      rw [List.append_assoc]
      exact hall
    exact ⟨heq ▸ List.Sublist.refl _, fun _ => heq⟩
  unfold CreateWorld.workerStep
  split <;> rename_i hworker
  · split_ifs
    · exact h.relabel rfl rfl rfl (by rw [hworker]; rfl) (by rw [hworker]; exact nofun)
    · split <;> rename_i hqueue
      · exact hreceive _ _ _ hqueue ⟨by rw [hworker]; rfl, by rw [hworker]; exact nofun⟩
      · exact h
  · split <;> rename_i hqueue
    · exact hreceive _ _ _ hqueue ⟨by rw [hworker]; rfl, by rw [hworker]; exact nofun⟩
    · split_ifs
      · exact h.relabel rfl rfl rfl (by rw [hworker]; rfl) (by rw [hworker]; exact nofun)
      · exact h
  · next draining envelope =>
    have hall := h.all (by rw [hworker]; exact nofun)
    rw [hworker] at hall
    have heq : (s.execute draining envelope outcome).settled.map (·.envelope) ++ [] ++ s.queue =
        s.sent := by
      show (s.settled ++ [_]).map _ ++ _ ++ _ = _
      rw [List.map_append, List.append_nil]
      exact hall
    exact ⟨heq ▸ List.Sublist.refl _, fun _ => heq⟩
  · exact h.relabel rfl rfl rfl (by rw [hworker]; rfl) (by rw [hworker]; exact nofun)
  · exact h
  · exact h

/-- The same world but for its pools. -/
def Repooled (s t : CreateWorld) : Prop :=
  ∃ slots admission createTickets,
    t = { s with slots := slots, admission := admission, createTickets := createTickets }

theorem repooled_give (owner : Owner) (slot admission createTicket : Bool) :
    s.Repooled (s.give owner slot admission createTicket) := ⟨_, _, _, rfl⟩

theorem repooled_giveHeld : s.Repooled s.giveHeld := by
  unfold giveHeld
  split
  · exact repooled_give _ _ _ _
  · exact repooled_give _ _ _ _
  · exact ⟨_, _, _, rfl⟩
  · exact ⟨_, _, _, rfl⟩
  · exact ⟨_, _, _, rfl⟩

theorem Repooled.trans {u : CreateWorld} (h : s.Repooled t) (h' : t.Repooled u) : s.Repooled u := by
  obtain ⟨_, _, _, rfl⟩ := h
  obtain ⟨_, _, _, rfl⟩ := h'
  exact ⟨_, _, _, rfl⟩

theorem repooled_giveQueued (envelopes : List CoordinatorEnvelope) :
    s.Repooled (s.giveQueued envelopes) := by
  induction envelopes generalizing s with
  | nil => exact ⟨_, _, _, rfl⟩
  | cons envelope rest ih => exact (repooled_give _ _ _ _).trans ih

theorem repooled_abort : ({ s with queue := [], worker := .aborted } : CreateWorld).Repooled
    s.abort := by
  have h := (repooled_giveHeld (s := s)).trans (repooled_giveQueued s.queue)
  obtain ⟨slots, admission, createTickets, heq⟩ := h
  exact ⟨slots, admission, createTickets, by unfold abort; rw [heq]⟩

theorem Flows.abort (h : s.Flows) : s.abort.Flows := by
  obtain ⟨slots, admission, createTickets, heq⟩ := repooled_abort (s := s)
  rw [heq]
  refine ⟨?_, nofun⟩
  show (s.settled.map Settlement.envelope ++ [] ++ []).Sublist s.sent
  rw [List.append_nil, List.append_nil]
  have hpre := List.sublist_append_left (s.settled.map Settlement.envelope) s.worker.inHand
  exact (hpre.trans (List.sublist_append_left _ s.queue)).trans h.once

theorem Flows.next (h : s.Flows) (event : CreateEvent) :
    (createCoordinator.next s event).Flows := by
  cases event with
  | reserve inWorker =>
    show (s.reserve inWorker).Flows
    unfold CreateWorld.reserve
    split
    · split
      · next heq =>
        obtain ⟨_, _, _, -, -, -, rfl⟩ := acquireCapacity_ok heq
        exact h.keep rfl rfl rfl rfl
      · exact h
    · exact h
  | reserved =>
    show s.reserveReturns.Flows
    unfold reserveReturns
    split
    · exact h.keep rfl rfl rfl rfl
    · exact h
  | releaseCapacityForWait =>
    show s.releaseCapacityForWait.1.Flows
    unfold CreateWorld.releaseCapacityForWait
    split
    · exact h.keep rfl rfl rfl rfl
    · exact h
  | resumeUnboundCapacity inWorker =>
    show (s.resumeUnboundCapacity inWorker).1.Flows
    unfold CreateWorld.resumeUnboundCapacity
    split
    · split_ifs
      · exact h
      · exact h
      · split
        · exact h
        · split
          · exact h
          · next heq =>
            obtain ⟨_, _, _, -, -, -, rfl⟩ := acquireCapacity_ok heq
            exact h.keep rfl rfl rfl rfl
    · exact h
  | bind binding =>
    show (s.bind binding).Flows
    unfold CreateWorld.bind
    split
    · split_ifs
      · exact h
      · exact h.keep rfl rfl rfl rfl
    · exact h
  | insertPending =>
    show s.insertPending.Flows
    unfold CreateWorld.insertPending
    split
    · split
      · exact h.keep rfl rfl rfl rfl
      · exact h
    · exact h
  | finalize =>
    show s.finalize.Flows
    unfold CreateWorld.finalize
    split
    · exact h.keep rfl rfl rfl rfl
    · exact h
  | poll =>
    show s.poll.Flows
    unfold CreateWorld.poll
    split
    · split_ifs
      · exact h.dropTicket _
      · exact Flows.dropTicket (s := s.give _ _ _ _) (h.keep rfl rfl rfl rfl) _
      · exact Flows.dropTicket (s := s.give _ _ _ _) (h.keep rfl rfl rfl rfl) _
      · split
        · exact Flows.dropTicket (s := s.give _ _ _ _) (h.keep rfl rfl rfl rfl) _
        · exact (h.send _).keep rfl rfl rfl rfl
    · exact h
  | drop =>
    show s.drop.Flows
    unfold CreateWorld.drop
    split
    · exact h.keep rfl rfl rfl rfl
    · exact h.dropTicket _
    · exact h.dropTicket _
    · exact h.dropTicket _
    · exact h
    · exact h
  | otherReserve create =>
    show (s.otherReserve create).Flows
    unfold CreateWorld.otherReserve
    split_ifs
    · split
      · next heq =>
        obtain ⟨_, _, _, -, -, -, rfl⟩ := acquireCapacity_ok heq
        exact h.keep rfl rfl rfl rfl
      · exact h
    · split
      · exact h.keep rfl rfl rfl rfl
      · exact h
  | otherSend create =>
    show (s.otherSend create).Flows
    unfold CreateWorld.otherSend
    split_ifs
    · exact Flows.send (s := { s with reserved := s.reserved.erase create })
        (h.keep rfl rfl rfl rfl) _
    · exact h
  | otherDrop create =>
    show (s.otherDrop create).Flows
    unfold CreateWorld.otherDrop
    split_ifs
    · exact h.keep rfl rfl rfl rfl
    · exact h
  | worker outcome => exact h.workerStep outcome
  | setPhase phase => exact h.keep rfl rfl rfl rfl
  | closeAdmission => exact h.keep rfl rfl rfl rfl
  | closeCreateTickets => exact h.keep rfl rfl rfl rfl
  | cancel => exact h.keep rfl rfl rfl rfl
  | abort => exact h.abort

end CreateWorld

end AgentsCommander.Selection
