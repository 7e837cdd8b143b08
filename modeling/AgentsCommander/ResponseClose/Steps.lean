import AgentsCommander.ResponseClose.Frames
import AgentsCommander.ResponseClose.Machine

/-! What each operation can do, said once. -/
namespace AgentsCommander.ResponseClose
open Foundation Sessions

namespace ResponseCloseInner
variable (s : ResponseCloseInner)

theorem lookup_setRoute (id : Uuid) (r : ResponseCloseRoute) (other : Uuid) :
    (s.setRoute id r).routes.lookup other = if other = id then some r else s.routes.lookup other :=
  Assoc.lookup_insert_eq s.routes id r other

theorem reservePolicyCandidate_cases (nonce : Uuid) (member coordinator : ResponseRouteIdentity)
    (key digest : String) (now : Instant) :
    (∃ e, s.reservePolicyCandidate nonce member coordinator key digest now = (s, .error e)) ∨
    ∃ route, s.routes.lookup member.sessionId = some route ∧ route.facts = some member ∧
      route.closing = none ∧
      s.reservePolicyCandidate nonce member coordinator key digest now =
        (s.setRoute member.sessionId (route.setPolicy (some
          (s.candidatePolicy nonce member coordinator key digest route.workEpoch now))),
          .ok ⟨member.sessionId, nonce⟩) := by
  unfold reservePolicyCandidate
  split_ifs with hready hterminal hpending
  · exact Or.inl ⟨_, rfl⟩
  · exact Or.inl ⟨_, rfl⟩
  · exact Or.inl ⟨_, rfl⟩
  · cases hroute : s.routes.lookup member.sessionId with
    | none => exact Or.inl ⟨_, rfl⟩
    | some route =>
      dsimp only
      split_ifs with hfacts
      · exact Or.inl ⟨_, rfl⟩
      · simp only [not_or, ne_eq, Decidable.not_not, Bool.not_eq_true] at hfacts
        have hclosing : route.closing = none := Option.isSome_eq_false_iff.mp hfacts.2.2 |>
          Option.isNone_iff_eq_none.mp
        exact Or.inr ⟨route, rfl, hfacts.1, hclosing, rfl⟩

theorem policyOf_eq_some {route : ResponseCloseRoute} {nonce : Uuid} {policy : ResponseClosePolicy}
    (h : route.policyOf nonce = some policy) : route.policy = some policy ∧ policy.nonce = nonce := by
  obtain ⟨hp, hn⟩ := Option.filter_eq_some_iff.mp h
  exact ⟨hp, of_decide_eq_true hn⟩

theorem markRequestSubmitted_cases (context : ResponseDeliveryContext) (submitted : Bool) :
    s.markRequestSubmitted context submitted = s ∨
    ∃ route policy, s.routes.lookup context.sessionId = some route ∧
      route.policy = some policy ∧ policy.nonce = context.nonce ∧
      s.markRequestSubmitted context submitted = s.setRoute context.sessionId
        (route.setPolicy (if submitted then some { policy with submitted := true } else none)) := by
  unfold markRequestSubmitted
  cases hroute : s.routes.lookup context.sessionId with
  | none => exact Or.inl rfl
  | some route =>
    dsimp only
    cases hpolicy : route.policyOf context.nonce with
    | none => exact Or.inl rfl
    | some policy =>
      obtain ⟨hp, hn⟩ := policyOf_eq_some hpolicy
      exact Or.inr ⟨route, policy, rfl, hp, hn, rfl⟩

theorem registerRequest_cases (proof : ResponseDeliveryProof) (now : Instant) :
    (∃ e, s.registerRequest proof now = (s, .error e)) ∨
    ∃ route policy, s.routes.lookup proof.context.sessionId = some route ∧
      route.policy = some policy ∧ policy.nonce = proof.context.nonce ∧
      ((s.registerRequest proof now =
        ((s.setWork policy.member.target (s.workFor policy.member.target)).setRoute
          proof.context.sessionId (route.setPolicy none), .error .unknown)) ∨
      s.validRequest route policy proof = true ∧ s.registerRequest proof now =
        ((s.setWork policy.member.target { s.workFor policy.member.target with
          pending := (s.workFor policy.member.target).pending.erase policy.requestKey,
          terminal := (s.workFor policy.member.target).terminal.insert policy.requestKey
            policy.requestDigest }).setRoute proof.context.sessionId { route with
          policy := some { policy with registeredAt := some now },
          lastChange := max route.lastChange now }, .ok ())) := by
  unfold registerRequest
  split_ifs with hready
  · exact Or.inl ⟨_, rfl⟩
  · cases hroute : s.routes.lookup proof.context.sessionId with
    | none => exact Or.inl ⟨_, rfl⟩
    | some route =>
      dsimp only
      cases hpolicy : route.policyOf proof.context.nonce with
      | none => exact Or.inl ⟨_, rfl⟩
      | some policy =>
        obtain ⟨hp, hn⟩ := policyOf_eq_some hpolicy
        refine Or.inr ⟨route, policy, rfl, hp, hn, ?_⟩
        dsimp only
        split_ifs with hvalid
        · exact Or.inr ⟨hvalid, rfl⟩
        · exact Or.inl rfl

/-- What both ways of admitting a return have found. -/
structure Admissible (member coordinator : ResponseRouteIdentity) (key : String)
    (route : ResponseCloseRoute) (policy : ResponseClosePolicy) : Prop where
  found : s.routes.lookup member.sessionId = some route
  current : route.policy = some policy
  ofMember : policy.member = member
  ofCoordinator : policy.coordinator = coordinator
  unsettled : s.terminalReturns.lookup (policy.member, policy.coordinator, key) = none

theorem admitReturn_cases (member coordinator : ResponseRouteIdentity) (key digest : String)
    (now : Instant) :
    (∃ e, s.admitReturn member coordinator key digest now = (s, .error e) ∨
      s.admitReturn member coordinator key digest now = (s.fail, .error e)) ∨
    ∃ route policy sequence, s.Admissible member coordinator key route policy ∧
      ((policy.returns.lookup key = some (digest, sequence) ∧
        s.admitReturn member coordinator key digest now =
          (s, .ok (s.returnContext route policy member coordinator key digest sequence))) ∨
      policy.returns.lookup key = none ∧ s.admitReturn member coordinator key digest now =
        ({ s with nextReturnSequence := sequence }.setRoute member.sessionId { route with
          policy := some { policy with
            returns := policy.returns.insert key (digest, sequence), selected := none },
          lastChange := max route.lastChange now },
        .ok (s.returnContext route policy member coordinator key digest sequence))) := by
  unfold admitReturn
  split_ifs with hready hcoordinator
  · exact Or.inl ⟨_, Or.inl rfl⟩
  · cases hterminal : s.terminalReturns.lookup (member, coordinator, key) with
    | some previous => exact Or.inl ⟨_, Or.inl rfl⟩
    | none => exact Or.inl ⟨_, Or.inl rfl⟩
  · cases hterminal : s.terminalReturns.lookup (member, coordinator, key) with
    | some previous => exact Or.inl ⟨_, Or.inl rfl⟩
    | none =>
      dsimp only
      cases hroute : s.routes.lookup member.sessionId with
      | none => exact Or.inl ⟨_, Or.inl rfl⟩
      | some route =>
        dsimp only
        split_ifs with hfacts
        · exact Or.inl ⟨_, Or.inl rfl⟩
        cases hpolicy : route.policy with
        | none => exact Or.inl ⟨_, Or.inl rfl⟩
        | some policy =>
          dsimp only
          split_ifs with hsame
          · exact Or.inl ⟨_, Or.inl rfl⟩
          simp only [not_or, ne_eq, Decidable.not_not] at hsame
          have hadmit : s.Admissible member coordinator key route policy :=
            ⟨hroute, hpolicy, hsame.1, hsame.2.1, by rw [hsame.1, hsame.2.1]; exact hterminal⟩
          cases hreturn : policy.returns.lookup key with
          | some found =>
            obtain ⟨old, sequence⟩ := found
            dsimp only
            split_ifs with hold
            · exact Or.inl ⟨_, Or.inl rfl⟩
            · rw [ne_eq, Decidable.not_not] at hold
              subst hold
              exact Or.inr ⟨route, policy, sequence, hadmit, Or.inl ⟨hreturn, rfl⟩⟩
          | none =>
            dsimp only
            cases checkedSucc s.nextReturnSequence with
            | none => exact Or.inl ⟨_, Or.inr rfl⟩
            | some sequence =>
              exact Or.inr ⟨route, policy, sequence, hadmit, Or.inr ⟨hreturn, rfl⟩⟩

/-- The return is still outstanding at the policy its context names. -/
structure Outstanding (c : ReturnObservationContext) (route : ResponseCloseRoute)
    (policy : ResponseClosePolicy) : Prop where
  found : s.routes.lookup c.sessionId = some route
  current : route.policy = some policy
  nonce : policy.nonce = c.nonce
  member : policy.member = c.member
  coordinator : policy.coordinator = c.coordinator
  workEpoch : policy.workEpoch = c.workEpoch
  owed : policy.returns.lookup c.key = some (c.digest, c.sequence)

theorem settleReturn_cases (c : ReturnObservationContext) (success : Bool) (now : Instant) :
    (∃ digest, s.terminalReturns.lookup c.terminalKey = some digest ∧
      s.settleReturn c success now = (s, if digest = c.digest then .ok () else .error .conflict)) ∨
    s.terminalReturns.lookup c.terminalKey = none ∧
    ((∃ e, s.settleReturn c success now = (s.remember c, .error e) ∧
      ∀ route policy, ¬ s.Outstanding c route policy) ∨
    ∃ route policy, s.Outstanding c route policy ∧ s.settleReturn c success now =
      ((s.remember c).setRoute c.sessionId { route with
        policy := some (s.settledAs policy c success now),
        lastChange := max route.lastChange now }, .ok ())) := by
  unfold settleReturn
  cases hterminal : s.terminalReturns.lookup c.terminalKey with
  | some digest => exact Or.inl ⟨digest, rfl, rfl⟩
  | none =>
    refine Or.inr ⟨rfl, ?_⟩
    dsimp only
    cases hroute : s.routes.lookup c.sessionId with
    | none =>
      refine Or.inl ⟨_, rfl, ?_⟩
      intro route policy h
      rw [h.found] at hroute
      cases hroute
    | some route =>
      dsimp only
      cases hpolicy : settledPolicy route c with
      | none =>
        refine Or.inl ⟨_, rfl, ?_⟩
        intro route' policy h
        cases hroute.symm.trans h.found
        have hsome : settledPolicy route c = some policy :=
          Option.filter_eq_some_iff.mpr ⟨h.current,
            decide_eq_true ⟨h.nonce, h.member, h.coordinator, h.workEpoch⟩⟩
        rw [hpolicy] at hsome
        cases hsome
      | some policy =>
        obtain ⟨hp, hsame⟩ := Option.filter_eq_some_iff.mp hpolicy
        obtain ⟨hnonce, hmember, hcoordinator, hepoch⟩ := of_decide_eq_true hsame
        have hnot : policy.returns.lookup c.key ≠ some (c.digest, c.sequence) →
            ∀ route policy, ¬ s.Outstanding c route policy := by
          intro howed route' policy' h
          cases hroute.symm.trans h.found
          cases hp.symm.trans h.current
          exact howed h.owed
        dsimp only
        cases howed : policy.returns.lookup c.key with
        | none => exact Or.inl ⟨_, rfl, hnot (by rw [howed]; exact nofun)⟩
        | some found =>
          obtain ⟨digest, sequence⟩ := found
          dsimp only
          split_ifs with hne
          · refine Or.inl ⟨_, rfl, hnot ?_⟩
            rw [howed]
            intro heq
            cases heq
            exact hne.elim (fun h => h rfl) fun h => h rfl
          · simp only [not_or, ne_eq, Decidable.not_not] at hne
            obtain ⟨rfl, rfl⟩ := hne
            exact Or.inr ⟨route, policy,
              ⟨hroute, hp, hnonce, hmember, hcoordinator, hepoch, howed⟩, rfl⟩

/-- What `safe` finds before it counts the seconds. -/
structure Safe (route : ResponseCloseRoute) (now : Instant)
    (policy : ResponseClosePolicy) (registeredAt successAt : Instant) : Prop where
  current : route.policy = some policy
  registered : policy.registeredAt = some registeredAt
  succeeded : policy.successAt = some successAt
  closing : route.closing = none
  facts : route.facts = some policy.member
  spawns : s.unknownSpawns = 0
  writers : route.writers = 0
  provisional : (s.workFor policy.member.target).provisional = 0
  dispatch : (s.workFor policy.member.target).dispatch = 0
  pending : (s.workFor policy.member.target).pending = ∅
  creates : policy.member.target ∉ s.createOwners
  returns : policy.returns = ∅
  passed : max (max registeredAt successAt) route.lastChange + Duration.fromSecs s.seconds ≤ now

theorem eq_empty_of_isEmpty {κ : Type} {α : Type} {m : AList fun _ : κ => α}
    (h : m.entries.isEmpty = true) : m = ∅ :=
  AList.ext (List.isEmpty_iff.mp h)

theorem safe_spec {s : ResponseCloseInner} {route : ResponseCloseRoute} {now : Instant} (h : s.safe route now = true) :
    ∃ policy registeredAt successAt, s.Safe route now policy registeredAt successAt := by
  unfold safe at h
  cases hp : route.policy with
  | none =>
    rw [hp] at h
    cases h
  | some policy =>
    rw [hp] at h
    dsimp only at h
    cases hr : policy.registeredAt with
    | none =>
      rw [hr] at h
      cases h
    | some registeredAt =>
      cases hs : policy.successAt with
      | none =>
        rw [hr, hs] at h
        cases h
      | some successAt =>
        rw [hr, hs] at h
        dsimp only at h
        simp only [safePolicy, workSafe, Bool.and_eq_true, decide_eq_true_eq,
          Option.isNone_iff_eq_none] at h
        obtain ⟨⟨⟨⟨⟨⟨⟨⟨⟨⟨⟨⟨⟨⟨⟨⟨⟨⟨⟨⟨⟨⟨hspawns, -⟩, -⟩, -⟩, hseconds⟩, -⟩, hclosing⟩, -⟩, hfacts⟩, -⟩,
          -⟩, -⟩, -⟩, -⟩, -⟩, -⟩, hwriters⟩, ⟨hprov, hdisp⟩, hpend⟩, hcreates⟩, hreturns⟩, -⟩, -⟩,
          hpassed⟩ := h
        refine ⟨policy, registeredAt, successAt, hp, hr, hs, hclosing, hfacts, hspawns, hwriters,
          hprov, hdisp, eq_empty_of_isEmpty hpend, hcreates, eq_empty_of_isEmpty hreturns, ?_⟩
        have hpositive : 0 < Duration.fromSecs s.seconds :=
          Nat.mul_pos hseconds.1 (Nat.pow_pos (by decide))
        have hle : max (max registeredAt successAt) route.lastChange ≤
            max (max registeredAt successAt) (max route.lastChange
              (route.holdUntil.getD registeredAt)) := max_le_max_left _ (le_max_left _ _)
        exact Nat.le_trans (Nat.add_le_add_right hle _)
          (Nat.add_comm _ _ ▸ Nat.add_le_of_le_sub
            (Nat.le_of_lt (Nat.lt_of_sub_pos (Nat.lt_of_lt_of_le hpositive hpassed))) hpassed)

theorem selectTicket_cases (selectionNonce id : Uuid) (now : Instant) :
    (∃ e, s.selectTicket selectionNonce id now = (s, .error e)) ∨
    ∃ route policy, s.routes.lookup id = some route ∧ route.policy = some policy ∧
      s.safe route now = true ∧ s.selectTicket selectionNonce id now =
        (s.setRoute id (route.setPolicy (some { policy with selected := some selectionNonce })),
          .ok (s.ticketFor id route policy selectionNonce)) := by
  unfold selectTicket
  cases hroute : s.routes.lookup id with
  | none => exact Or.inl ⟨_, rfl⟩
  | some route =>
    dsimp only
    cases hpolicy : route.policy with
    | none => exact Or.inl ⟨_, rfl⟩
    | some policy =>
      dsimp only
      split_ifs with hsafe
      · exact Or.inr ⟨route, policy, rfl, hpolicy, hsafe, rfl⟩
      · exact Or.inl ⟨_, rfl⟩

theorem ticketCurrent_spec {s : ResponseCloseInner} {route : ResponseCloseRoute}
    {ticket : ResponseCloseTicket} (h : s.ticketCurrent route ticket = true) :
    ∃ policy, route.policy = some policy ∧ policy.selected = some ticket.selectionNonce ∧
      policy.nonce = ticket.nonce ∧ policy.member = ticket.member ∧
      route.generation = ticket.generation := by
  unfold ticketCurrent at h
  simp only [Bool.and_eq_true, decide_eq_true_eq] at h
  obtain ⟨⟨⟨⟨hgeneration, -⟩, -⟩, -⟩, hpolicy⟩ := h
  obtain ⟨policy, hp, hsame⟩ := (Option.any_eq_true _ _).mp hpolicy
  obtain ⟨hnonce, hselected, -, hmember⟩ := of_decide_eq_true hsame
  exact ⟨policy, hp, hselected, hnonce, hmember, hgeneration⟩

theorem tryCommitResponseClose_cases (ticket : ResponseCloseTicket) (now : Instant) :
    (∃ e, s.tryCommitResponseClose ticket now = (s, .error e)) ∨
    ∃ route, s.routes.lookup ticket.sessionId = some route ∧ s.safe route now = true ∧
      s.ticketCurrent route ticket = true ∧ s.tryCommitResponseClose ticket now =
        (s.setRoute ticket.sessionId (route.close ticket), .ok ticket.selectionNonce) := by
  unfold tryCommitResponseClose
  cases hroute : s.routes.lookup ticket.sessionId with
  | none => exact Or.inl ⟨_, rfl⟩
  | some route =>
    dsimp only
    split_ifs with h
    · obtain ⟨hsafe, hcurrent⟩ := Bool.and_eq_true_iff.mp h
      exact Or.inr ⟨route, rfl, hsafe, hcurrent, rfl⟩
    · exact Or.inl ⟨_, rfl⟩

theorem finishResponseClose_cases (ticket : ResponseCloseTicket)
    (evidence : ResponseCloseSettlementEvidence) :
    s.finishResponseClose ticket evidence = (s, false) ∨
    ∃ route, s.routes.lookup ticket.sessionId = some route ∧
      finishSettlementGroupRejected route ticket evidence = false ∧
      (s.finishResponseClose ticket evidence =
        ({ s with routes := s.routes.erase ticket.sessionId }, true) ∨
      s.finishResponseClose ticket evidence =
        (s.setRoute ticket.sessionId route.reopenAfterKillFailure, true)) := by
  unfold finishResponseClose
  cases hroute : s.routes.lookup ticket.sessionId with
  | none => exact Or.inl rfl
  | some route =>
    dsimp only
    cases hrejected : finishSettlementGroupRejected route ticket evidence with
    | true => exact Or.inl rfl
    | false =>
      rw [if_neg Bool.false_ne_true]
      split
      · split_ifs with hrow
        · exact Or.inl rfl
        · exact Or.inr ⟨route, rfl, hrejected, Or.inl rfl⟩
      · exact Or.inr ⟨route, rfl, hrejected, Or.inr rfl⟩
      · exact Or.inl rfl

theorem registerRoute_cases (id : Uuid) (generation : ℕ) (now : Instant) :
    s.registerRoute id generation now = s.fail ∨
    (∀ r, s.routes.lookup id = some r → r.closing = none) ∧
      s.registerRoute id generation now = s.setRoute id (.registered generation now) := by
  unfold registerRoute
  split_ifs with hclosing
  · exact Or.inl rfl
  · refine Or.inr ⟨?_, rfl⟩
    intro r hr
    rw [hr, Option.any_some, Bool.not_eq_true] at hclosing
    exact Option.isNone_iff_eq_none.mp (Option.isSome_eq_false_iff.mp hclosing)

theorem removeRoute_cases (id : Uuid) (generation : ℕ) :
    s.removeRoute id generation = s ∨
    ∃ route, s.routes.lookup id = some route ∧ route.generation = generation ∧
      ((route.closing = none ∧ s.removeRoute id generation =
        { s with routes := s.routes.erase id }) ∨
      s.removeRoute id generation = s.setRoute id
        { route with policy := none, facts := none, eligible := false }) := by
  unfold removeRoute
  cases hroute : s.routes.lookup id with
  | none => exact Or.inl rfl
  | some route =>
    dsimp only
    split_ifs with hgeneration hclosing
    · exact Or.inl rfl
    · exact Or.inr ⟨route, rfl, Decidable.not_not.mp hgeneration,
        Or.inl ⟨Option.isNone_iff_eq_none.mp hclosing, rfl⟩⟩
    · exact Or.inr ⟨route, rfl, Decidable.not_not.mp hgeneration, Or.inr rfl⟩

/-- What the tracker counts and remembers beside its routes. -/
def books (s : ResponseCloseInner) :=
  (s.work, s.createOwners, s.unknownSpawns, s.terminalReturns)

/-- The routes are observed, and no more than observed. -/
abbrev Observed (s s' : ResponseCloseInner) : Prop := RoutesKept Observes s s'

theorem observed_of_eq {s' : ResponseCloseInner} (h : s'.routes = s.routes) : s.Observed s' :=
  .of_eq Observes.refl h

theorem observed_touchTarget {s' : ResponseCloseInner} (h : s'.routes = s.routes) (target : String)
    (now : Instant) : s.Observed (s'.touchTarget target now) :=
  routesKept_reviseAll Observes.refl h fun r => r.observes_touch now

theorem observed_touchAll {s' : ResponseCloseInner} (h : s'.routes = s.routes) (now : Instant) :
    s.Observed (s'.reviseAll (fun _ => true) (·.touch now)) :=
  routesKept_reviseAll Observes.refl h fun r => r.observes_touch now

theorem observed_failClosed : s.Observed s.failClosed :=
  routesKept_revise rfl fun _ r =>
    have h : Unselects r (r.setPolicy none) := unselects_none rfl rfl rfl rfl rfl
    ⟨h.keeps, rfl⟩

theorem observed_publishManagerFacts (identity : ResponseRouteIdentity) (eligible working : Bool)
    (now : Instant) : s.Observed (s.publishManagerFacts identity eligible working now) := by
  unfold publishManagerFacts
  cases s.routes.lookup identity.sessionId with
  | none => exact s.observed_of_eq rfl
  | some route =>
    dsimp only
    have hfacts : s.Observed
        (s.reviseAt identity.sessionId (·.publishManagerFacts identity eligible working now)) :=
      routesKept_reviseAt Observes.refl rfl fun r =>
        r.observes_publishManagerFacts now identity eligible working
    split_ifs
    · exact s.observed_of_eq rfl
    · exact hfacts.trans (fun _ _ _ => Observes.trans)
        (routesKept_reviseAll Observes.refl rfl fun r => r.observes_invalidate now)
    · exact hfacts

theorem observed_invalidateManagerRow (id : Uuid) (now : Instant) :
    s.Observed (s.invalidateManagerRow id now) := by
  have hrow : s.Observed (s.reviseAt id (·.invalidateManagerRow now)) :=
    routesKept_reviseAt Observes.refl rfl fun r => r.observes_invalidateManagerRow now
  exact hrow.trans (fun _ _ _ => Observes.trans)
    (routesKept_reviseAll Observes.refl rfl fun r => r.observes_invalidate now)

theorem observed_publish (now : Instant) (publication : Publication) :
    s.Observed (s.publish now publication) := by
  cases publication with
  | bindPublisher | markWorkBootstrapped => exact s.observed_of_eq rfl
  | publishManagerRow id token generation version eligible working =>
    refine routesKept_reviseAt Observes.refl rfl fun r => ?_
    split_ifs
    · exact r.observes_publishManagerRow now token version eligible working
    · exact .refl r
  | publishManagerFacts identity eligible working =>
    exact s.observed_publishManagerFacts identity eligible working now
  | invalidateManagerRow id => exact s.observed_invalidateManagerRow id now
  | observeRawOutput id =>
    exact routesKept_reviseAt Observes.refl rfl fun r => r.observes_touch now
  | observeDetector id working =>
    exact routesKept_reviseAt Observes.refl rfl fun r => r.observes_observeDetector now working
  | publishMenu id blocked =>
    exact routesKept_reviseAt Observes.refl rfl fun r => r.observes_publishMenu now blocked
  | publishHold id endsAt known =>
    exact routesKept_reviseAt Observes.refl rfl fun r => r.observes_publishHold now endsAt known
  | publishHeldKey id key held =>
    exact routesKept_reviseAt Observes.refl rfl fun r => r.observes_publishHeldKey now key held
  | publishTypingKey id window =>
    exact routesKept_reviseAt Observes.refl rfl fun r => r.observes_publishTypingKey now window
  | refreshHoldSnapshot id window closed =>
    exact routesKept_reviseAt Observes.refl rfl fun r =>
      r.observes_refreshHoldSnapshot now window closed

theorem observed_applySettings (enabled : Bool) (seconds : ℕ) (now : Instant) :
    s.Observed (s.applySettings enabled seconds now) := by
  unfold applySettings
  split_ifs
  · exact s.observed_of_eq rfl
  · cases checkedSucc s.settingsEpoch with
    | none => exact s.observed_of_eq rfl
    | some epoch =>
      exact routesKept_reviseAll Observes.refl rfl fun r => r.observes_applySettings now _ epoch

theorem observed_beginUnresolvedSpawn (now : Instant) :
    s.Observed (s.beginUnresolvedSpawn now) := by
  unfold beginUnresolvedSpawn
  cases checkedSucc s.unknownSpawns with
  | none => exact s.observed_of_eq rfl
  | some next => exact s.observed_touchAll rfl now

theorem observed_endUnresolvedSpawn (now : Instant) : s.Observed (s.endUnresolvedSpawn now) := by
  unfold endUnresolvedSpawn
  split_ifs
  · exact s.observed_of_eq rfl
  · exact s.observed_touchAll rfl now

theorem observed_tryEnableReadiness : s.Observed s.tryEnableReadiness.1 := by
  unfold tryEnableReadiness
  split_ifs <;> exact s.observed_of_eq rfl

theorem observed_reserveWork (target key : String) (now : Instant) :
    s.Observed (s.reserveWork target key now).1 := by
  unfold reserveWork
  dsimp only
  split_ifs
  · exact s.observed_of_eq rfl
  · cases checkedSucc (s.workFor target).provisional with
    | none => exact s.observed_of_eq rfl
    | some next => exact s.observed_touchTarget rfl target now

theorem observed_acceptDurable (a : WorkAdmission) (digest : String) (now : Instant) :
    s.Observed (s.acceptDurable a digest now).1 := by
  unfold acceptDurable
  cases s.work.lookup a.target with
  | none => exact s.observed_of_eq rfl
  | some work =>
    dsimp only
    cases (work.pending.lookup a.key).or (work.terminal.lookup a.key) with
    | some old => exact s.observed_of_eq rfl
    | none => exact routesKept_reviseAll Observes.refl rfl fun r => r.observes_invalidate now

theorem observed_settleTerminal (target key : String) (now : Instant) :
    s.Observed (s.settleTerminal target key now) := by
  unfold settleTerminal
  dsimp only
  cases (s.workFor target).pending.lookup key with
  | none => exact s.observed_of_eq rfl
  | some digest => exact s.observed_touchTarget rfl target now

theorem routes_beginDelivery (target : String) :
    (s.beginDelivery target).1.routes = s.routes := by
  unfold beginDelivery
  split_ifs
  · rfl
  · rfl
  · dsimp only
    cases checkedSucc (s.workFor target).dispatch <;> rfl

theorem reserveWriterInner_cases (id : Uuid) (generation : ℕ) (invalidate : Bool)
    (now : Instant) :
    (((s.reserveWriterInner id generation invalidate now).1 = s ∨
        (s.reserveWriterInner id generation invalidate now).1 = s.fail) ∧
      ((∃ e, (s.reserveWriterInner id generation invalidate now).2 = .error e) ∨
        (s.reserveWriterInner id generation invalidate now).2 = .ok ⟨false, id, generation⟩)) ∨
    ∃ route next, s.routes.lookup id = some route ∧ route.generation = generation ∧
      checkedSucc route.writers = some next ∧
      s.reserveWriterInner id generation invalidate now =
        (s.countWriter id next invalidate now, .ok ⟨true, id, generation⟩) := by
  unfold reserveWriterInner
  by_cases hclosed : s.failed = true ∧ s.closingAt id generation = false
  · rw [if_pos hclosed]
    exact Or.inl ⟨Or.inl rfl, Or.inr rfl⟩
  rw [if_neg hclosed]
  cases hroute : (s.routes.lookup id).filter fun r => decide (r.generation = generation) with
  | none => exact Or.inl ⟨Or.inl rfl, Or.inl ⟨_, rfl⟩⟩
  | some route =>
    obtain ⟨hr, hg⟩ := Option.filter_eq_some_iff.mp hroute
    dsimp only
    split_ifs
    · exact Or.inl ⟨Or.inl rfl, Or.inl ⟨_, rfl⟩⟩
    · exact Or.inl ⟨Or.inl rfl, Or.inr rfl⟩
    · cases hnext : checkedSucc route.writers with
      | none => exact Or.inl ⟨Or.inr rfl, Or.inr rfl⟩
      | some next => exact Or.inr ⟨route, next, hr, of_decide_eq_true hg, hnext, rfl⟩

/-- A failed tracker counts no writer. -/
theorem reserveWriterInner_failed (h : s.failed = true) (id : Uuid) (generation : ℕ)
    (invalidate : Bool) (now : Instant) :
    (s.reserveWriterInner id generation invalidate now).1 = s ∧
      ((∃ e, (s.reserveWriterInner id generation invalidate now).2 = .error e) ∨
        (s.reserveWriterInner id generation invalidate now).2 = .ok ⟨false, id, generation⟩) := by
  unfold reserveWriterInner
  split_ifs with hclosing
  · exact ⟨rfl, Or.inr rfl⟩
  · cases (s.routes.lookup id).filter fun r => decide (r.generation = generation) with
    | none => exact ⟨rfl, Or.inl ⟨_, rfl⟩⟩
    | some route =>
      dsimp only
      split_ifs
      · exact ⟨rfl, Or.inl ⟨_, rfl⟩⟩
      · exact ⟨rfl, Or.inr rfl⟩

theorem beginDelivery_failed (h : s.failed = true) (target : String) :
    (s.beginDelivery target).1 = s ∧ ∃ e, (s.beginDelivery target).2 = .error e := by
  unfold beginDelivery
  split_ifs
  · exact ⟨rfl, _, rfl⟩
  · exact ⟨rfl, _, rfl⟩

theorem observed_reserveCreateOwner (target : String) (nonce : Uuid)
    (classification : CreateClassification) (now : Instant) :
    s.Observed (s.reserveCreateOwner target nonce classification now).1 := by
  unfold reserveCreateOwner
  dsimp only
  split_ifs <;> first | exact s.observed_of_eq rfl | exact s.observed_touchTarget rfl target now

theorem observed_dropCreateOwner (a : CreateOwnerReservation) (now : Instant) :
    s.Observed (s.dropCreateOwner a now) := by
  unfold dropCreateOwner
  cases s.createOwners.lookup a.target with
  | none => exact s.observed_of_eq rfl
  | some owners =>
    dsimp only
    split_ifs <;>
      first | exact s.observed_touchTarget rfl a.target now | exact s.observed_of_eq rfl

end ResponseCloseInner

/-- The part of the books that an event may write in. -/
inductive Ledger where
  | none
  | work
  | creates
  | spawns
  | returns
  deriving DecidableEq

def Event.ledger : Event → Ledger
  | .beginUnresolvedSpawn _ | .endUnresolvedSpawn _ => .spawns
  | .reserveWork .. | .acceptDurable .. | .dropWork .. | .settleTerminal .. | .beginDelivery _
  | .dropDelivery .. | .registerRequest .. => .work
  | .reserveCreateOwner .. | .dropCreateOwner .. => .creates
  | .settleReturn .. => .returns
  | _ => .none

/-- Only the named part of the books was written in. -/
structure BooksKept (l : Ledger) (s s' : ResponseCloseInner) : Prop where
  work : l ≠ .work → s'.work = s.work
  creates : l ≠ .creates → s'.createOwners = s.createOwners
  spawns : l ≠ .spawns → s'.unknownSpawns = s.unknownSpawns
  returns : l ≠ .returns → s'.terminalReturns = s.terminalReturns

theorem booksKept_of_eq {l : Ledger} {s s' : ResponseCloseInner} (h : s'.books = s.books) :
    BooksKept l s s' where
  work _ := congrArg (·.1) h
  creates _ := congrArg (·.2.1) h
  spawns _ := congrArg (·.2.2.1) h
  returns _ := congrArg (·.2.2.2) h

theorem booksKept_work {s s' : ResponseCloseInner} (h : s'.books.2 = s.books.2) :
    BooksKept .work s s' where
  work hne := absurd rfl hne
  creates _ := congrArg (·.1) h
  spawns _ := congrArg (·.2.1) h
  returns _ := congrArg (·.2.2) h

theorem booksKept_creates {s s' : ResponseCloseInner}
    (h : (s'.books.1, s'.books.2.2) = (s.books.1, s.books.2.2)) : BooksKept .creates s s' where
  work _ := congrArg (·.1) h
  creates hne := absurd rfl hne
  spawns _ := congrArg (·.2.1) h
  returns _ := congrArg (·.2.2) h

theorem booksKept_spawns {s s' : ResponseCloseInner}
    (h : (s'.work, s'.createOwners, s'.terminalReturns) =
      (s.work, s.createOwners, s.terminalReturns)) : BooksKept .spawns s s' where
  work _ := congrArg (·.1) h
  creates _ := congrArg (·.2.1) h
  spawns hne := absurd rfl hne
  returns _ := congrArg (·.2.2) h

theorem booksKept_returns {s s' : ResponseCloseInner}
    (h : (s'.work, s'.createOwners, s'.unknownSpawns) =
      (s.work, s.createOwners, s.unknownSpawns)) : BooksKept .returns s s' where
  work _ := congrArg (·.1) h
  creates _ := congrArg (·.2.1) h
  spawns _ := congrArg (·.2.2) h
  returns hne := absurd rfl hne

/-- The events that only observe routes. -/
def Event.observes : Event → Bool
  | .poison | .failClosed | .read | .tryEnableReadiness | .publish .. | .applySettings ..
  | .beginUnresolvedSpawn _ | .endUnresolvedSpawn _ | .reserveWork .. | .acceptDurable ..
  | .dropWork .. | .settleTerminal .. | .beginDelivery _ | .dropDelivery ..
  | .reserveCreateOwner .. | .dropCreateOwner .. => true
  | _ => false

namespace World

theorem observed_act (w : World) (s : ResponseCloseInner) {e : Event} (h : e.observes = true) :
    s.Observed (w.act s e).1 := by
  cases e with
  | poison | read => exact s.observed_of_eq rfl
  | failClosed => exact s.observed_failClosed
  | tryEnableReadiness => exact s.observed_tryEnableReadiness
  | publish publication now => exact s.observed_publish now publication
  | applySettings enabled seconds now => exact s.observed_applySettings enabled seconds now
  | beginUnresolvedSpawn now => exact s.observed_beginUnresolvedSpawn now
  | endUnresolvedSpawn now => exact s.observed_endUnresolvedSpawn now
  | reserveWork target key now => exact s.observed_reserveWork target key now
  | acceptDurable a digest now => exact s.observed_acceptDurable a digest now
  | dropWork a now => exact s.observed_touchTarget rfl a.target now
  | settleTerminal target key now => exact s.observed_settleTerminal target key now
  | beginDelivery target => exact s.observed_of_eq (s.routes_beginDelivery target)
  | dropDelivery a now => exact s.observed_touchTarget rfl a.target now
  | reserveCreateOwner target nonce classification now =>
    exact s.observed_reserveCreateOwner target nonce classification now
  | dropCreateOwner a now => exact s.observed_dropCreateOwner a now
  | registerRoute | removeRoute | reserveWriterInner | dropWriter | reservePolicyCandidate
  | markRequestSubmitted | registerRequest | admitReturn | settleReturn | selectTicket
  | tryCommitResponseClose | finishResponseClose => cases h

open ResponseCloseInner in
theorem booksKept_act (w : World) (s : ResponseCloseInner) (e : Event) :
    BooksKept e.ledger s (w.act s e).1 := by
  cases e with
  | poison | failClosed | read | dropWriter => exact booksKept_of_eq rfl
  | tryEnableReadiness =>
    refine booksKept_of_eq (?_ : s.tryEnableReadiness.1.books = s.books)
    unfold ResponseCloseInner.tryEnableReadiness
    split_ifs <;> rfl
  | publish publication now =>
    cases publication with
    | publishManagerFacts identity eligible working =>
      refine booksKept_of_eq
        (?_ : (s.publishManagerFacts identity eligible working now).books = s.books)
      unfold ResponseCloseInner.publishManagerFacts
      cases s.routes.lookup identity.sessionId with
      | none => rfl
      | some route =>
        dsimp only
        split_ifs <;> rfl
    | _ => exact booksKept_of_eq rfl
  | applySettings enabled seconds now =>
    refine booksKept_of_eq (?_ : (s.applySettings enabled seconds now).books = s.books)
    unfold ResponseCloseInner.applySettings
    split_ifs
    · rfl
    · cases checkedSucc s.settingsEpoch <;> rfl
  | registerRoute id generation now =>
    rcases s.registerRoute_cases id generation now with h | ⟨-, h⟩ <;>
      exact booksKept_of_eq ((congrArg books h).trans rfl)
  | removeRoute id generation =>
    rcases s.removeRoute_cases id generation with h | ⟨route, -, -, ⟨-, h⟩ | h⟩ <;>
      exact booksKept_of_eq ((congrArg books h).trans rfl)
  | reserveWriterInner id generation invalidate now =>
    rcases s.reserveWriterInner_cases id generation invalidate now with
      ⟨h | h, -⟩ | ⟨route, next, -, -, -, h⟩
    · exact booksKept_of_eq ((congrArg books h).trans rfl)
    · exact booksKept_of_eq ((congrArg books h).trans rfl)
    · exact booksKept_of_eq ((congrArg (books ·.1) h).trans rfl)
  | reservePolicyCandidate member coordinator key digest now =>
    rcases s.reservePolicyCandidate_cases w.nextUuid member coordinator key digest now with
      ⟨e, h⟩ | ⟨route, -, -, -, h⟩ <;>
      exact booksKept_of_eq ((congrArg (books ·.1) h).trans rfl)
  | markRequestSubmitted context submitted =>
    rcases s.markRequestSubmitted_cases context submitted with h | ⟨route, policy, -, -, -, h⟩ <;>
      exact booksKept_of_eq ((congrArg books h).trans rfl)
  | admitReturn member coordinator key digest now =>
    rcases s.admitReturn_cases member coordinator key digest now with
      ⟨e, h | h⟩ | ⟨route, policy, sequence, -, ⟨-, h⟩ | ⟨-, h⟩⟩ <;>
      exact booksKept_of_eq ((congrArg (books ·.1) h).trans rfl)
  | selectTicket id now =>
    rcases s.selectTicket_cases w.nextUuid id now with ⟨e, h⟩ | ⟨route, policy, -, -, -, h⟩ <;>
      exact booksKept_of_eq ((congrArg (books ·.1) h).trans rfl)
  | tryCommitResponseClose ticket now =>
    rcases s.tryCommitResponseClose_cases ticket now with ⟨e, h⟩ | ⟨route, -, -, -, h⟩ <;>
      exact booksKept_of_eq ((congrArg (books ·.1) h).trans rfl)
  | finishResponseClose ticket evidence =>
    rcases s.finishResponseClose_cases ticket evidence with h | ⟨route, -, -, h | h⟩ <;>
      exact booksKept_of_eq ((congrArg (books ·.1) h).trans rfl)
  | beginUnresolvedSpawn now =>
    change BooksKept .spawns s (s.beginUnresolvedSpawn now)
    refine booksKept_spawns ?_
    unfold beginUnresolvedSpawn
    cases checkedSucc s.unknownSpawns <;> rfl
  | endUnresolvedSpawn now =>
    change BooksKept .spawns s (s.endUnresolvedSpawn now)
    refine booksKept_spawns ?_
    unfold endUnresolvedSpawn
    split_ifs <;> rfl
  | reserveWork target key now =>
    change BooksKept .work s (s.reserveWork target key now).1
    refine booksKept_work ?_
    unfold reserveWork
    dsimp only
    split_ifs
    · rfl
    · cases checkedSucc (s.workFor target).provisional <;> rfl
  | acceptDurable a digest now =>
    change BooksKept .work s (s.acceptDurable a digest now).1
    refine booksKept_work ?_
    unfold acceptDurable
    cases s.work.lookup a.target with
    | none => rfl
    | some work =>
      dsimp only
      cases (work.pending.lookup a.key).or (work.terminal.lookup a.key) <;> rfl
  | dropWork | dropDelivery => exact booksKept_work rfl
  | settleTerminal target key now =>
    change BooksKept .work s (s.settleTerminal target key now)
    refine booksKept_work ?_
    unfold settleTerminal
    dsimp only
    cases (s.workFor target).pending.lookup key <;> rfl
  | beginDelivery target =>
    change BooksKept .work s (s.beginDelivery target).1
    refine booksKept_work ?_
    unfold beginDelivery
    split_ifs
    · rfl
    · rfl
    · dsimp only
      cases checkedSucc (s.workFor target).dispatch <;> rfl
  | registerRequest proof now =>
    rcases s.registerRequest_cases proof now with
      ⟨e, h⟩ | ⟨route, policy, -, -, -, h | ⟨-, h⟩⟩ <;>
      exact booksKept_work ((congrArg (fun t => t.1.books.2) h).trans rfl)
  | reserveCreateOwner target nonce classification now =>
    change BooksKept .creates s (s.reserveCreateOwner target nonce classification now).1
    refine booksKept_creates ?_
    unfold reserveCreateOwner
    dsimp only
    split_ifs <;> rfl
  | dropCreateOwner a now =>
    change BooksKept .creates s (s.dropCreateOwner a now)
    refine booksKept_creates ?_
    unfold dropCreateOwner
    cases s.createOwners.lookup a.target with
    | none => rfl
    | some owners =>
      dsimp only
      split_ifs <;> rfl
  | settleReturn c success now =>
    rcases s.settleReturn_cases c success now with
      ⟨digest, -, h⟩ | ⟨-, ⟨e, h, -⟩ | ⟨route, policy, -, h⟩⟩ <;>
      exact booksKept_returns
        ((congrArg (fun t => (t.1.work, t.1.createOwners, t.1.unknownSpawns)) h).trans rfl)

/-- A failed tracker only answers, and stays failed. -/
structure Failing (w : World) (e : Event) : Prop where
  failed : (w.respond e).1.inner.failed = true
  observed : w.inner.Observed (w.respond e).1.inner
  books : (w.respond e).1.inner.books = w.inner.books
  hollow : (w.respond e).2.hollow = true

/-- An open tracker does what it is asked to. -/
structure Acting (w : World) (e : Event) : Prop where
  opened : w.inner.failed = false
  held : w.holds e = true
  inner : (w.respond e).1.inner = (w.act w.inner e).1
  answer : (w.respond e).2 = (w.act w.inner e).2

theorem act_failed (w : World) {s : ResponseCloseInner} (h : s.failed = true) {e : Event}
    (he : e.locksAnyway = true) :
    (w.act s e).1.failed = true ∧ s.Observed (w.act s e).1 ∧ (w.act s e).1.books = s.books ∧
      (w.act s e).2.hollow = true := by
  cases e with
  | failClosed => exact ⟨rfl, s.observed_failClosed, rfl, rfl⟩
  | reserveWriterInner id generation invalidate now =>
    obtain ⟨hs, ha⟩ := s.reserveWriterInner_failed h id generation invalidate now
    unfold act
    dsimp only
    rw [hs]
    refine ⟨h, s.observed_of_eq rfl, rfl, ?_⟩
    rcases ha with ⟨e, ha⟩ | ha <;> rw [ha] <;> rfl
  | beginDelivery target =>
    obtain ⟨hs, e, ha⟩ := s.beginDelivery_failed h target
    unfold act
    dsimp only
    rw [hs, ha]
    exact ⟨h, s.observed_of_eq rfl, rfl, rfl⟩
  | _ => cases he

theorem hollow_refused (e : Event) : e.refused.hollow = true := by
  cases e <;> rfl

theorem respond_cases (w : World) (e : Event) :
    ((w.respond e).1.inner = w.inner ∧
      (e = .poison ∨ w.holds e = false ∧ (w.respond e).2 = .idle)) ∨ w.Failing e ∨ w.Acting e := by
  by_cases hpoison : e = .poison
  · subst hpoison
    exact Or.inl ⟨rfl, Or.inl rfl⟩
  cases hheld : w.holds e with
  | false =>
    have hr : w.respond e = (w.state, .idle) := by
      unfold respond
      rw [if_neg hpoison, if_pos hheld]
    rw [hr]
    exact Or.inl ⟨rfl, Or.inr ⟨rfl, rfl⟩⟩
  | true =>
    have hheld' : ¬ w.holds e = false := by
      rw [hheld]
      exact Bool.noConfusion
    cases hlocks : e.locksAnyway with
    | true =>
      have hr : w.respond e = ({ w.state.lockAnyway with
          inner := (w.act w.state.lockAnyway.inner e).1 }, (w.act w.state.lockAnyway.inner e).2) := by
        unfold respond
        rw [if_neg hpoison, if_neg hheld', if_pos hlocks]
      unfold ResponseCloseState.lockAnyway at hr
      split_ifs at hr with hp
      · have hfail : w.inner.fail.failed = true := rfl
        obtain ⟨hf, hobs, hbooks, hhollow⟩ := w.act_failed hfail hlocks
        exact Or.inr (Or.inl ⟨by rw [hr]; exact hf, by rw [hr]; exact hobs,
          by rw [hr]; exact hbooks, by rw [hr]; exact hhollow⟩)
      · cases hfailed : w.inner.failed with
        | true =>
          obtain ⟨hf, hobs, hbooks, hhollow⟩ := w.act_failed hfailed hlocks
          exact Or.inr (Or.inl ⟨by rw [hr]; exact hf, by rw [hr]; exact hobs,
            by rw [hr]; exact hbooks, by rw [hr]; exact hhollow⟩)
        | false => exact Or.inr (Or.inr ⟨hfailed, hheld, by rw [hr], by rw [hr]⟩)
    | false =>
      have hr : w.respond e = w.state.withInner e.refused (w.act · e) := by
        unfold respond
        rw [if_neg hpoison, if_neg hheld', if_neg (by rw [hlocks]; exact Bool.false_ne_true)]
      unfold ResponseCloseState.withInner at hr
      split_ifs at hr with hp hf
      · exact Or.inr (Or.inl ⟨by rw [hr]; rfl, by rw [hr]; exact w.inner.observed_of_eq rfl,
          by rw [hr]; rfl, by rw [hr]; exact hollow_refused e⟩)
      · exact Or.inr (Or.inl ⟨by rw [hr]; exact hf, by rw [hr]; exact w.inner.observed_of_eq rfl,
          by rw [hr], by rw [hr]; exact hollow_refused e⟩)
      · exact Or.inr (Or.inr ⟨Bool.eq_false_iff.mpr hf, hheld, by rw [hr], by rw [hr]⟩)

/-- What does not take the lock anyway is refused, or done on an open tracker. -/
theorem refused_or_acting (w : World) {e : Event} (hpoison : e ≠ .poison)
    (hheld : w.holds e = true) (hlocks : e.locksAnyway = false) :
    ((w.inner.failed = true ∨ w.state.poisoned = true) ∧ (w.respond e).2 = e.refused) ∨
      w.Acting e ∧ w.state.poisoned = false := by
  have hr : w.respond e = w.state.withInner e.refused (w.act · e) := by
    unfold respond
    rw [if_neg hpoison, if_neg (by rw [hheld]; exact Bool.noConfusion),
      if_neg (by rw [hlocks]; exact Bool.false_ne_true)]
  unfold ResponseCloseState.withInner at hr
  split_ifs at hr with hp hf
  · exact Or.inl ⟨Or.inr hp, congrArg Prod.snd hr⟩
  · exact Or.inl ⟨Or.inl hf, congrArg Prod.snd hr⟩
  · exact Or.inr ⟨⟨Bool.eq_false_iff.mpr hf, hheld, by rw [hr], by rw [hr]⟩,
      Bool.eq_false_iff.mpr hp⟩

/-- Only an open tracker grants anything. -/
theorem acting_of_granted {w : World} {e : Event} (h : (w.respond e).2.hollow = false) :
    w.Acting e := by
  rcases w.respond_cases e with ⟨-, he | ⟨-, hidle⟩⟩ | hfailing | hacting
  · subst he
    cases h
  · rw [hidle] at h
    cases h
  · rw [hfailing.hollow] at h
    cases h
  · exact hacting

end World
end AgentsCommander.ResponseClose
