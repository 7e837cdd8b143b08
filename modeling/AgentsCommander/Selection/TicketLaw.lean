import AgentsCommander.Selection.TicketFlow

/-! What a create ticket holds and has sent, at each of its stages. -/
namespace AgentsCommander.Selection
open Foundation

/-- The binding and the ticket's envelopes, at a stage. -/
def TicketStage.Stands (bound : Option PendingCreateBinding) (mine : List CoordinatorEnvelope) :
    TicketStage → Prop
  | .absent | .reserving => bound = none ∧ mine = []
  | .live ticket | .finalizing ticket =>
    ticket.binding = bound ∧ ticket.completed = false ∧
      ticket.admission = ticket.slot ∧ ticket.createTicket = ticket.slot ∧ mine = []
  | .waiting ticket => ticket = ⟨false, false, false, none, true⟩ ∧
    ∃ binding, bound = some binding ∧ mine = [⟨.ticket, .finalizeCreate binding⟩]
  | .gone => bound = none ∧ mine = [] ∨ ∃ binding job, bound = some binding ∧
    (job = .finalizeCreate binding ∨ job = .rollbackCreate binding) ∧ mine = [⟨.ticket, job⟩]

/-- A ticket that is bound has its three permits. -/
def TicketStage.HoldsWhileBound : TicketStage → Prop
  | .live ticket | .finalizing ticket => ticket.binding.isSome = true →
    ticket.slot = true ∧ ticket.admission = true ∧ ticket.createTicket = true
  | _ => True

namespace CreateWorld
variable {s t : CreateWorld}

theorem slots_give (owner : Owner) (slot admission createTicket : Bool) :
    (s.give owner slot admission createTicket).slots.count .ticket =
      s.slots.count .ticket - (slot && decide (owner = .ticket)).toNat := by
  unfold give
  cases slot with
  | false => rfl
  | true =>
    show (s.slots.release owner).count .ticket = _
    rw [Pool.count_release]
    by_cases h : owner = .ticket <;> simp [h]

theorem admission_give (owner : Owner) (slot admission createTicket : Bool) :
    (s.give owner slot admission createTicket).admission.count .ticket =
      s.admission.count .ticket - (admission && decide (owner = .ticket)).toNat := by
  unfold give
  cases admission with
  | false => rfl
  | true =>
    show (s.admission.release owner).count .ticket = _
    rw [Pool.count_release]
    by_cases h : owner = .ticket <;> simp [h]

theorem createTickets_give (owner : Owner) (slot admission createTicket : Bool) :
    (s.give owner slot admission createTicket).createTickets.count .ticket =
      s.createTickets.count .ticket - (createTicket && decide (owner = .ticket)).toNat := by
  unfold give
  cases createTicket with
  | false => rfl
  | true =>
    show (s.createTickets.release owner).count .ticket = _
    rw [Pool.count_release]
    by_cases h : owner = .ticket <;> simp [h]

/-- Each permit is in the ticket, in its envelope, or in its pool. -/
structure Balanced (s : CreateWorld) : Prop where
  slots : s.slots.count .ticket =
    s.ticket.slot.toNat + s.queue.countP CoordinatorEnvelope.mine
  admission : s.admission.count .ticket = s.ticket.admission.toNat +
    s.queue.countP CoordinatorEnvelope.mine + s.worker.inHand.countP CoordinatorEnvelope.mine
  createTickets : s.createTickets.count .ticket = s.ticket.createTicket.toNat +
    s.queue.countP CoordinatorEnvelope.mine + s.worker.held.countP CoordinatorEnvelope.mine

def Stands (s : CreateWorld) : Prop :=
  s.ticket.Stands s.bound (s.sent.filter CoordinatorEnvelope.mine)

/-- The permits that a stage flags, after a drop of some of them. -/
theorem Balanced.give (h : s.Balanced) (slot admission createTicket : Bool)
    (hslot : slot.toNat + t.ticket.slot.toNat = s.ticket.slot.toNat)
    (hadmission : admission.toNat + t.ticket.admission.toNat = s.ticket.admission.toNat)
    (hcreate : createTicket.toNat + t.ticket.createTicket.toNat = s.ticket.createTicket.toNat)
    (hslots : t.slots = s.slots) (hadmissions : t.admission = s.admission)
    (hcreates : t.createTickets = s.createTickets) (hqueue : t.queue = s.queue)
    (hworker : t.worker = s.worker) :
    (t.give .ticket slot admission createTicket).Balanced := by
  obtain ⟨h₁, h₂, h₃⟩ := h
  constructor
  · rw [slots_give, hslots, h₁, ← hslot, decide_eq_true rfl, Bool.and_true]
    show _ = t.ticket.slot.toNat + t.queue.countP _
    rw [hqueue]
    omega
  · rw [admission_give, hadmissions, h₂, ← hadmission, decide_eq_true rfl, Bool.and_true]
    show _ = t.ticket.admission.toNat + t.queue.countP _ + t.worker.inHand.countP _
    rw [hqueue, hworker]
    omega
  · rw [createTickets_give, hcreates, h₃, ← hcreate, decide_eq_true rfl, Bool.and_true]
    show _ = t.ticket.createTicket.toNat + t.queue.countP _ + t.worker.held.countP _
    rw [hqueue, hworker]
    omega

theorem Balanced.keep (h : s.Balanced) (hslots : t.slots.count .ticket = s.slots.count .ticket)
    (hadmissions : t.admission.count .ticket = s.admission.count .ticket)
    (hcreates : t.createTickets.count .ticket = s.createTickets.count .ticket)
    (hslot : t.ticket.slot = s.ticket.slot) (hadmission : t.ticket.admission = s.ticket.admission)
    (hcreate : t.ticket.createTicket = s.ticket.createTicket)
    (hqueue : t.queue.countP CoordinatorEnvelope.mine = s.queue.countP CoordinatorEnvelope.mine)
    (hworker : t.worker = s.worker) : t.Balanced where
  slots := by rw [hslots, hslot, hqueue, h.slots]
  admission := by rw [hadmissions, hadmission, hqueue, hworker, h.admission]
  createTickets := by rw [hcreates, hcreate, hqueue, hworker, h.createTickets]

theorem Balanced.acquire (h : s.Balanced) {u : CreateWorld}
    (hacquire : s.acquireCapacity .ticket = .ok u) (hslot : s.ticket.slot = false)
    (hadmission : s.ticket.admission = false) (hcreate : s.ticket.createTicket = false)
    (stage : TicketStage) (hstage : stage.slot = true ∧ stage.admission = true ∧
      stage.createTicket = true) : ({ u with ticket := stage } : CreateWorld).Balanced := by
  obtain ⟨slots, admission, createTickets, h₁, h₂, h₃, rfl⟩ := acquireCapacity_ok hacquire
  constructor
  · show slots.count .ticket = stage.slot.toNat + s.queue.countP _
    rw [Pool.count_acquire? h₁, if_pos rfl, h.slots, hslot, hstage.1]
    show 0 + _ + 1 = 1 + _
    omega
  · show admission.count .ticket = stage.admission.toNat + s.queue.countP _ + _
    rw [Pool.count_acquire? h₂, if_pos rfl, h.admission, hadmission, hstage.2.1]
    show 0 + _ + _ + 1 = 1 + _ + s.worker.inHand.countP _
    omega
  · show createTickets.count .ticket = stage.createTicket.toNat + s.queue.countP _ + _
    rw [Pool.count_acquire? h₃, if_pos rfl, h.createTickets, hcreate, hstage.2.2]
    show 0 + _ + _ + 1 = 1 + _ + s.worker.held.countP _
    omega

/-- The permits of the stage go with the envelope. -/
theorem Balanced.send (h : s.Balanced) (job : CoordinatorJob) (hslot : s.ticket.slot = true)
    (hadmission : s.ticket.admission = true) (hcreate : s.ticket.createTicket = true)
    (hslots : t.slots = s.slots) (hadmissions : t.admission = s.admission)
    (hcreates : t.createTickets = s.createTickets)
    (hqueue : t.queue = s.queue ++ [⟨.ticket, job⟩]) (hworker : t.worker = s.worker)
    (ht : t.ticket.slot = false ∧ t.ticket.admission = false ∧ t.ticket.createTicket = false) :
    t.Balanced := by
  have hcount : t.queue.countP CoordinatorEnvelope.mine =
      s.queue.countP CoordinatorEnvelope.mine + 1 := by
    rw [hqueue, List.countP_append]
    rfl
  obtain ⟨h₁, h₂, h₃⟩ := h
  rw [hslot] at h₁
  rw [hadmission] at h₂
  rw [hcreate] at h₃
  constructor
  · rw [hslots, ht.1, hcount, h₁]
    show 1 + _ = 0 + _
    omega
  · rw [hadmissions, ht.2.1, hcount, hworker, h₂]
    show 1 + _ + _ = 0 + _ + _
    omega
  · rw [hcreates, ht.2.2, hcount, hworker, h₃]
    show 1 + _ + _ = 0 + _ + _
    omega

theorem mine_send (job : CoordinatorJob) :
    (s.send ⟨.ticket, job⟩).sent.filter CoordinatorEnvelope.mine =
      s.sent.filter CoordinatorEnvelope.mine ++ [⟨.ticket, job⟩] := List.filter_append ..

theorem Balanced.discard (h : s.Balanced) {ticket : CreateFinalizationTicket}
    (hslot : s.ticket.slot = ticket.slot) (hadmission : s.ticket.admission = ticket.admission)
    (hcreate : s.ticket.createTicket = ticket.createTicket) : (s.discard ticket).Balanced :=
  h.give _ _ _ (t := { s with ticket := .gone }) (congrArg Bool.toNat hslot.symm)
    (congrArg Bool.toNat hadmission.symm) (congrArg Bool.toNat hcreate.symm) rfl rfl rfl rfl rfl

theorem Balanced.dropTicket (h : s.Balanced) {ticket : CreateFinalizationTicket}
    (hslot : s.ticket.slot = ticket.slot) (hadmission : s.ticket.admission = ticket.admission)
    (hcreate : s.ticket.createTicket = ticket.createTicket) : (s.dropTicket ticket).Balanced := by
  rcases dropTicket_cases s ticket with ⟨-, heq⟩ | ⟨binding, -, -, hpermits, heq⟩
  · rw [heq]
    exact h.discard hslot hadmission hcreate
  · rw [heq]
    exact h.send _ (hslot.trans hpermits.1) (hadmission.trans hpermits.2.1)
      (hcreate.trans hpermits.2.2) rfl rfl rfl rfl rfl ⟨rfl, rfl, rfl⟩

/-- The end of a ticket that was not finalized. -/
theorem Stands.dropTicket {ticket : CreateFinalizationTicket} (hbinding : ticket.binding = s.bound)
    (hcompleted : ticket.completed = false) (hmine : s.sent.filter CoordinatorEnvelope.mine = [])
    (hguard : ticket.binding.isSome = true →
      ticket.slot = true ∧ ticket.admission = true ∧ ticket.createTicket = true) :
    (s.dropTicket ticket).Stands := by
  rcases dropTicket_cases s ticket with ⟨hwhy, heq⟩ | ⟨binding, -, hsome, -, heq⟩
  · rw [heq]
    have hnone : ticket.binding = none := by
      rcases hwhy with hwhy | hwhy | hwhy
      · exact nomatch hcompleted.symm.trans hwhy
      · exact hwhy
      · exact Option.not_isSome_iff_eq_none.mp fun h => hwhy (hguard h)
    exact Or.inl ⟨hbinding.symm.trans hnone, hmine⟩
  · rw [heq]
    refine Or.inr ⟨binding, _, hbinding.symm.trans hsome, Or.inr rfl, ?_⟩
    exact (mine_send (s := { s with ticket := .gone }) _).trans (congrArg (· ++ _) hmine)

theorem Balanced.receive (h : s.Balanced) (draining : Bool) {envelope : CoordinatorEnvelope}
    {rest : List CoordinatorEnvelope} (hqueue : s.queue = envelope :: rest)
    (hhand : s.worker.inHand = []) (hheld : s.worker.held = []) :
    (s.receive draining envelope rest).Balanced := by
  obtain ⟨h₁, h₂, h₃⟩ := h
  rw [hqueue, List.countP_cons] at h₁ h₂ h₃
  rw [hhand] at h₂
  rw [hheld] at h₃
  constructor
  · refine (slots_give _ _ _ _).trans ?_
    show s.slots.count .ticket - (true && envelope.mine).toNat = s.ticket.slot.toNat + rest.countP _
    rw [h₁]
    cases envelope.mine
    · rfl
    · show _ + (_ + 1) - 1 = _
      omega
  · refine (admission_give _ _ _ _).trans ?_
    show s.admission.count .ticket - 0 = s.ticket.admission.toNat + rest.countP _ +
      [envelope].countP _
    rw [h₂, List.countP_singleton, List.countP_nil]
    omega
  · refine (createTickets_give _ _ _ _).trans ?_
    show s.createTickets.count .ticket - 0 = s.ticket.createTicket.toNat + rest.countP _ +
      [envelope].countP _
    rw [h₃, List.countP_singleton, List.countP_nil]
    omega

theorem Balanced.execute (h : s.Balanced) {draining : Bool} {envelope : CoordinatorEnvelope}
    (hworker : s.worker = .executing draining envelope) (outcome : JobOutcome) :
    (s.execute draining envelope outcome).Balanced := by
  obtain ⟨h₁, h₂, h₃⟩ := h
  rw [hworker] at h₂ h₃
  constructor
  · exact (slots_give _ _ _ _).trans h₁
  · refine (admission_give _ _ _ _).trans ?_
    show s.admission.count .ticket - (true && envelope.mine).toNat = s.ticket.admission.toNat +
      s.queue.countP _ + 0
    rw [h₂]
    show _ + _ + [envelope].countP _ - _ = _
    rw [List.countP_singleton]
    cases envelope.mine
    · rfl
    · show _ + _ + 1 - 1 = _
      omega
  · exact (createTickets_give _ _ _ _).trans h₃

theorem Balanced.release (h : s.Balanced) {draining : Bool} {envelope : CoordinatorEnvelope}
    (hworker : s.worker = .holding draining envelope) :
    (({ s with worker := .idle draining } : CreateWorld).give envelope.owner false false
      envelope.owner.create).Balanced := by
  obtain ⟨h₁, h₂, h₃⟩ := h
  rw [hworker] at h₂ h₃
  constructor
  · exact (slots_give _ _ _ _).trans h₁
  · exact (admission_give _ _ _ _).trans h₂
  · refine (createTickets_give _ _ _ _).trans ?_
    show s.createTickets.count .ticket - (envelope.owner.create && envelope.mine).toNat =
      s.ticket.createTicket.toNat + s.queue.countP _ + 0
    rw [h₃]
    show _ + _ + [envelope].countP _ - _ = _
    rw [List.countP_singleton]
    unfold CoordinatorEnvelope.mine
    cases envelope.owner with
    | ticket =>
      show _ + _ + 1 - 1 = _
      omega
    | other create => cases create <;> rfl

theorem Balanced.workerStep (h : s.Balanced) (outcome : JobOutcome) :
    (s.workerStep outcome).Balanced := by
  unfold CreateWorld.workerStep
  split <;> rename_i hworker
  · split_ifs
    · refine ⟨h.slots, ?_, ?_⟩
      · exact h.admission.trans (by rw [hworker]; rfl)
      · exact h.createTickets.trans (by rw [hworker]; rfl)
    · split <;> rename_i hqueue
      · exact h.receive false hqueue (by rw [hworker]; rfl) (by rw [hworker]; rfl)
      · exact h
  · split <;> rename_i hqueue
    · exact h.receive true hqueue (by rw [hworker]; rfl) (by rw [hworker]; rfl)
    · split_ifs
      · refine ⟨h.slots, ?_, ?_⟩
        · exact h.admission.trans (by rw [hworker]; rfl)
        · exact h.createTickets.trans (by rw [hworker]; rfl)
      · exact h
  · exact h.execute hworker outcome
  · exact h.release hworker
  · exact h
  · exact h

theorem count_giveQueued (envelopes : List CoordinatorEnvelope) :
    (s.giveQueued envelopes).slots.count .ticket =
        s.slots.count .ticket - envelopes.countP CoordinatorEnvelope.mine ∧
      (s.giveQueued envelopes).admission.count .ticket =
        s.admission.count .ticket - envelopes.countP CoordinatorEnvelope.mine ∧
      (s.giveQueued envelopes).createTickets.count .ticket =
        s.createTickets.count .ticket - envelopes.countP CoordinatorEnvelope.mine := by
  induction envelopes generalizing s with
  | nil => exact ⟨rfl, rfl, rfl⟩
  | cons envelope rest ih =>
    have hcreate : (envelope.owner.create && envelope.mine) = envelope.mine := by
      unfold CoordinatorEnvelope.mine
      cases envelope.owner with
      | ticket => rfl
      | other create => cases create <;> rfl
    obtain ⟨h₁, h₂, h₃⟩ := ih (s := s.give envelope.owner true true envelope.owner.create)
    rw [slots_give] at h₁
    rw [admission_give] at h₂
    rw [createTickets_give] at h₃
    change _ = _ - (true && envelope.mine).toNat - _ at h₁ h₂
    change _ = _ - (envelope.owner.create && envelope.mine).toNat - _ at h₃
    rw [hcreate] at h₃
    rw [List.countP_cons]
    refine ⟨h₁.trans ?_, h₂.trans ?_, h₃.trans ?_⟩
    all_goals
      cases envelope.mine
      · rfl
      · show _ - 1 - _ = _ - (_ + 1)
        omega

theorem create_mine (envelope : CoordinatorEnvelope) :
    (envelope.owner.create && decide (envelope.owner = .ticket)) = envelope.mine := by
  unfold CoordinatorEnvelope.mine
  cases envelope.owner with
  | ticket => rfl
  | other create => cases create <;> rfl

theorem count_giveHeld :
    s.giveHeld.slots.count .ticket = s.slots.count .ticket ∧
      s.giveHeld.admission.count .ticket =
        s.admission.count .ticket - s.worker.inHand.countP CoordinatorEnvelope.mine ∧
      s.giveHeld.createTickets.count .ticket =
        s.createTickets.count .ticket - s.worker.held.countP CoordinatorEnvelope.mine := by
  have hone (envelope : CoordinatorEnvelope) :
      [envelope].countP CoordinatorEnvelope.mine = envelope.mine.toNat := by
    rw [List.countP_singleton]
    cases envelope.mine <;> rfl
  unfold giveHeld
  split <;> rename_i hworker <;> rw [hworker]
  · next draining envelope =>
    refine ⟨slots_give _ _ _ _, (admission_give _ _ _ _).trans ?_,
      (createTickets_give _ _ _ _).trans ?_⟩
    · exact congrArg (_ - ·) (hone envelope).symm
    · rw [create_mine]
      exact congrArg (_ - ·) (hone envelope).symm
  · next draining envelope =>
    refine ⟨slots_give _ _ _ _, admission_give _ _ _ _, (createTickets_give _ _ _ _).trans ?_⟩
    rw [create_mine]
    exact congrArg (_ - ·) (hone envelope).symm
  · exact ⟨rfl, rfl, rfl⟩
  · exact ⟨rfl, rfl, rfl⟩
  · exact ⟨rfl, rfl, rfl⟩

theorem Balanced.abort (h : s.Balanced) : s.abort.Balanced := by
  obtain ⟨h₁, h₂, h₃⟩ := h
  obtain ⟨k₁, k₂, k₃⟩ := count_giveHeld (s := s)
  obtain ⟨q₁, q₂, q₃⟩ := count_giveQueued (s := s.giveHeld) s.queue
  have hticket : s.abort.ticket = s.ticket := by
    obtain ⟨_, _, _, heq⟩ := repooled_abort (s := s)
    rw [heq]
  constructor
  · refine (q₁.trans ?_ : s.abort.slots.count .ticket = s.abort.ticket.slot.toNat + 0)
    rw [k₁, h₁, hticket]
    omega
  · refine (q₂.trans ?_ : s.abort.admission.count .ticket =
      s.abort.ticket.admission.toNat + 0 + 0)
    rw [k₂, h₂, hticket]
    omega
  · refine (q₃.trans ?_ : s.abort.createTickets.count .ticket =
      s.abort.ticket.createTicket.toNat + 0 + 0)
    rw [k₃, h₃, hticket]
    omega

/-- What the others, the phases and the closes leave alone. -/
structure Aside (s t : CreateWorld) : Prop where
  slots : t.slots.count .ticket = s.slots.count .ticket
  admission : t.admission.count .ticket = s.admission.count .ticket
  createTickets : t.createTickets.count .ticket = s.createTickets.count .ticket
  ticket : t.ticket = s.ticket
  queue : t.queue.countP CoordinatorEnvelope.mine = s.queue.countP CoordinatorEnvelope.mine
  worker : t.worker = s.worker
  bound : t.bound = s.bound
  sent : t.sent.filter CoordinatorEnvelope.mine = s.sent.filter CoordinatorEnvelope.mine
  settled : t.settled = s.settled

theorem Balanced.aside (h : s.Balanced) (ha : s.Aside t) : t.Balanced :=
  h.keep ha.slots ha.admission ha.createTickets (congrArg _ ha.ticket) (congrArg _ ha.ticket)
    (congrArg _ ha.ticket) ha.queue ha.worker

theorem Stands.aside (h : s.Stands) (ha : s.Aside t) : t.Stands := by
  unfold Stands
  rw [ha.ticket, ha.bound, ha.sent]
  exact h

theorem aside_otherReserve (create : Bool) : s.Aside (s.otherReserve create) := by
  have hrefl : s.Aside s := ⟨rfl, rfl, rfl, rfl, rfl, rfl, rfl, rfl, rfl⟩
  unfold CreateWorld.otherReserve
  split_ifs
  · split
    · next heq =>
      obtain ⟨_, _, _, h₁, h₂, h₃, rfl⟩ := acquireCapacity_ok heq
      refine ⟨?_, ?_, ?_, rfl, rfl, rfl, rfl, rfl, rfl⟩
      · exact (Pool.count_acquire? h₁ _).trans (by rw [if_neg nofun, Nat.add_zero])
      · exact (Pool.count_acquire? h₂ _).trans (by rw [if_neg nofun, Nat.add_zero])
      · exact (Pool.count_acquire? h₃ _).trans (by rw [if_neg nofun, Nat.add_zero])
    · exact hrefl
  · split
    · next h₂ h₁ =>
      refine ⟨?_, ?_, rfl, rfl, rfl, rfl, rfl, rfl, rfl⟩
      · exact (Pool.count_acquire? h₁ _).trans (by rw [if_neg nofun, Nat.add_zero])
      · exact (Pool.count_acquire? h₂ _).trans (by rw [if_neg nofun, Nat.add_zero])
    · exact hrefl

theorem aside_otherSend (create : Bool) : s.Aside (s.otherSend create) := by
  unfold CreateWorld.otherSend
  split_ifs
  · refine ⟨rfl, rfl, rfl, rfl, ?_, rfl, rfl, ?_, rfl⟩
    · exact List.countP_append.trans (Nat.add_zero _)
    · exact (List.filter_append ..).trans (List.append_nil _)
  · exact ⟨rfl, rfl, rfl, rfl, rfl, rfl, rfl, rfl, rfl⟩

theorem aside_otherDrop (create : Bool) : s.Aside (s.otherDrop create) := by
  unfold CreateWorld.otherDrop
  split_ifs
  · refine ⟨slots_give _ _ _ _, admission_give _ _ _ _, ?_, rfl, rfl, rfl, rfl, rfl, rfl⟩
    refine (createTickets_give _ _ _ _).trans ?_
    cases create <;> rfl
  · exact ⟨rfl, rfl, rfl, rfl, rfl, rfl, rfl, rfl, rfl⟩

theorem Balanced.next (h : s.Balanced) (event : CreateEvent) :
    (createCoordinator.next s event).Balanced := by
  cases event with
  | reserve inWorker =>
    show (s.reserve inWorker).Balanced
    unfold CreateWorld.reserve
    split
    · next hstage _ =>
      split
      · next heq =>
        exact h.acquire heq (by rw [hstage]; rfl) (by rw [hstage]; rfl) (by rw [hstage]; rfl)
          .reserving ⟨rfl, rfl, rfl⟩
      · exact h
    · exact h
  | reserved =>
    show s.reserveReturns.Balanced
    unfold reserveReturns
    split
    · next hstage =>
      exact h.keep rfl rfl rfl (by rw [hstage]; rfl) (by rw [hstage]; rfl) (by rw [hstage]; rfl)
        rfl rfl
    · exact h
  | releaseCapacityForWait =>
    show s.releaseCapacityForWait.1.Balanced
    unfold CreateWorld.releaseCapacityForWait
    split
    · next ticket hstage =>
      refine h.give _ _ _ (t := { s with ticket := .live { ticket with
        slot := false, admission := false, createTicket := false } }) ?_ ?_ ?_ rfl rfl rfl rfl rfl
      all_goals
        rw [hstage]
        rfl
    · exact h
  | resumeUnboundCapacity inWorker =>
    show (s.resumeUnboundCapacity inWorker).1.Balanced
    unfold CreateWorld.resumeUnboundCapacity
    split
    · next ticket hstage =>
      split_ifs with _ hunfit
      · exact h
      · exact h
      · split
        · exact h
        · split
          · exact h
          · next heq =>
            rw [not_or, not_or, not_or, not_or] at hunfit
            exact h.acquire heq (by rw [hstage]; exact eq_false_of_ne_true hunfit.2.2.1)
              (by rw [hstage]; exact eq_false_of_ne_true hunfit.2.2.2.1)
              (by rw [hstage]; exact eq_false_of_ne_true hunfit.2.2.2.2) _ ⟨rfl, rfl, rfl⟩
    · exact h
  | bind binding =>
    show (s.bind binding).Balanced
    unfold CreateWorld.bind
    split
    · next hstage =>
      split_ifs
      · exact h
      · exact h.keep rfl rfl rfl (by rw [hstage]; rfl) (by rw [hstage]; rfl) (by rw [hstage]; rfl)
          rfl rfl
    · exact h
  | insertPending =>
    show s.insertPending.Balanced
    unfold CreateWorld.insertPending
    split
    · split
      · exact ⟨h.slots, h.admission, h.createTickets⟩
      · exact h
    · exact h
  | finalize =>
    show s.finalize.Balanced
    unfold CreateWorld.finalize
    split
    · next hstage =>
      exact h.keep rfl rfl rfl (by rw [hstage]; rfl) (by rw [hstage]; rfl) (by rw [hstage]; rfl)
        rfl rfl
    · exact h
  | poll =>
    show s.poll.Balanced
    unfold CreateWorld.poll
    split
    · next ticket hstage =>
      split_ifs with hslot hadmission hcreate
      · exact h.dropTicket (by rw [hstage]; rfl) (by rw [hstage]; rfl) (by rw [hstage]; rfl)
      · have hgive := h.give true false false
          (t := { s with ticket := .finalizing { ticket with slot := false } })
          (by rw [hstage]; exact congrArg Bool.toNat (eq_true_of_ne_false hslot).symm)
          (by rw [hstage]; exact Nat.zero_add _) (by rw [hstage]; exact Nat.zero_add _)
          rfl rfl rfl rfl rfl
        exact hgive.dropTicket rfl rfl rfl
      · have hgive := h.give true true false
          (t := { s with ticket := .finalizing { ticket with slot := false, admission := false } })
          (by rw [hstage]; exact congrArg Bool.toNat (eq_true_of_ne_false hslot).symm)
          (by rw [hstage]; exact congrArg Bool.toNat (eq_true_of_ne_false hadmission).symm)
          (by rw [hstage]; exact Nat.zero_add _) rfl rfl rfl rfl rfl
        exact hgive.dropTicket rfl rfl rfl
      · split
        · have hgive := h.give true true true
            (t := { s with ticket := .finalizing { ticket with
              slot := false, admission := false, createTicket := false } })
            (by rw [hstage]; exact congrArg Bool.toNat (eq_true_of_ne_false hslot).symm)
            (by rw [hstage]; exact congrArg Bool.toNat (eq_true_of_ne_false hadmission).symm)
            (by rw [hstage]; exact congrArg Bool.toNat (eq_true_of_ne_false hcreate).symm)
            rfl rfl rfl rfl rfl
          exact hgive.dropTicket rfl rfl rfl
        · exact h.send _ (by rw [hstage]; exact eq_true_of_ne_false hslot)
            (by rw [hstage]; exact eq_true_of_ne_false hadmission)
            (by rw [hstage]; exact eq_true_of_ne_false hcreate) rfl rfl rfl rfl rfl ⟨rfl, rfl, rfl⟩
    · exact h
  | drop =>
    show s.drop.Balanced
    unfold CreateWorld.drop
    split
    · next hstage =>
      exact h.give _ _ _ (t := { s with ticket := .gone }) (by rw [hstage]; rfl)
        (by rw [hstage]; rfl) (by rw [hstage]; rfl) rfl rfl rfl rfl rfl
    · next hstage =>
      exact h.dropTicket (by rw [hstage]; rfl) (by rw [hstage]; rfl) (by rw [hstage]; rfl)
    · next hstage =>
      exact h.dropTicket (by rw [hstage]; rfl) (by rw [hstage]; rfl) (by rw [hstage]; rfl)
    · next hstage =>
      exact h.dropTicket (by rw [hstage]; rfl) (by rw [hstage]; rfl) (by rw [hstage]; rfl)
    · exact h
    · exact h
  | otherReserve create => exact h.aside (aside_otherReserve create)
  | otherSend create => exact h.aside (aside_otherSend create)
  | otherDrop create => exact h.aside (aside_otherDrop create)
  | worker outcome => exact h.workerStep outcome
  | setPhase phase => exact h.aside ⟨rfl, rfl, rfl, rfl, rfl, rfl, rfl, rfl, rfl⟩
  | closeAdmission => exact h.aside ⟨rfl, rfl, rfl, rfl, rfl, rfl, rfl, rfl, rfl⟩
  | closeCreateTickets => exact h.aside ⟨rfl, rfl, rfl, rfl, rfl, rfl, rfl, rfl, rfl⟩
  | cancel => exact h.aside ⟨rfl, rfl, rfl, rfl, rfl, rfl, rfl, rfl, rfl⟩
  | abort => exact h.abort

end CreateWorld

end AgentsCommander.Selection
