import AgentsCommander.ResponseClose.Quiet

/-! A ticket that is accepted is fresh: nothing it stands for has moved since it was selected, as
long as no request is registered again while a ticket is selected. -/
namespace AgentsCommander.ResponseClose
open Foundation Sessions

namespace ResponseCloseInner

/-- Where the ticket of the nonce stays selected, its route stays as it is, up to the remembered
hold window. -/
def Still (id n : Uuid) (s s' : ResponseCloseInner) : Prop :=
  s'.Selected id n → ∀ r, s.routes.lookup id = some r →
    ∃ window, s'.routes.lookup id = some { r with holdWindow := window }

variable {s s' : ResponseCloseInner} {id j n : Uuid}

theorem still_of_eq {t : ResponseCloseInner} (h : t = s') (hs' : Still id n s s') :
    Still id n s t := by
  rw [h]
  exact hs'

theorem still_of_routes (h : s'.routes = s.routes) : Still id n s s' := by
  intro _ r hr
  exact ⟨r.holdWindow, by rw [h]; exact hr⟩

theorem still_of_kept (h : RoutesKept Keeps s s') : Still id n s s' := by
  rintro ⟨r', p, hr', hp, hsel⟩ r hr
  obtain ⟨r₀, hr₀, hkeeps⟩ := h.before hr'
  cases hr₀.symm.trans hr
  exact ⟨r'.holdWindow, hr'.trans (congrArg some (hkeeps.still p hp (by rw [hsel]; rfl)))⟩

theorem still_setRoute {r₀ r₁ : ResponseCloseRoute} (h₀ : s.routes.lookup j = some r₀)
    (hroutes : s'.routes = (s.setRoute j r₁).routes)
    (h : j = id → ∀ p, r₁.policy = some p → p.selected = some n →
      r₁ = { r₀ with holdWindow := r₁.holdWindow }) : Still id n s s' := by
  rintro ⟨r', p, hr', hp, hsel⟩ r hr
  rcases lookup_of_setRoute hroutes hr' with ⟨rfl, rfl⟩ | ⟨-, hr''⟩
  · cases h₀.symm.trans hr
    exact ⟨r'.holdWindow, hr'.trans (congrArg some (h rfl p hp hsel))⟩
  · cases hr''.symm.trans hr
    exact ⟨r'.holdWindow, hr'⟩

/-- The new route has selected nothing, or something else. -/
theorem still_replaced {r₁ : ResponseCloseRoute} (hroutes : s'.routes = (s.setRoute j r₁).routes)
    (h : ∀ p, r₁.policy = some p → p.selected ≠ some n) : Still id n s s' := by
  rintro ⟨r', p, hr', hp, hsel⟩ r hr
  rcases lookup_of_setRoute hroutes hr' with ⟨rfl, rfl⟩ | ⟨-, hr''⟩
  · exact absurd hsel (h p hp)
  · cases hr''.symm.trans hr
    exact ⟨r'.holdWindow, hr'⟩

theorem still_erase (hroutes : s'.routes = s.routes.erase j) : Still id n s s' := by
  rintro ⟨r', p, hr', -, -⟩ r hr
  rw [hroutes, Assoc.lookup_erase_eq] at hr'
  split_ifs at hr' with hid
  cases hr'.symm.trans hr
  refine ⟨r'.holdWindow, ?_⟩
  rw [hroutes, Assoc.lookup_erase_eq, if_neg hid]
  exact hr'

/-- A route that unselects its ticket has it selected no longer. -/
theorem not_selected_reviseAll {q : ResponseCloseRoute → Bool}
    {f : ResponseCloseRoute → ResponseCloseRoute × Bool} {r : ResponseCloseRoute}
    (hroutes : s'.routes = s.routes) (hr : s.routes.lookup id = some r) (hq : q r = true)
    (hf : Unselects r (f r).1) : ¬ (s'.reviseAll q f).Selected id n := by
  rintro ⟨r', p, hr', hp, hsel⟩
  unfold reviseAll at hr'
  rw [lookup_revise, hroutes, hr, Option.map_some, if_pos hq] at hr'
  cases hr'
  obtain ⟨-, p₀, -, heq⟩ := hf.policy p hp
  rw [heq] at hsel
  cases hsel

theorem not_selected_touchTarget {r : ResponseCloseRoute} {f : ResponseRouteIdentity}
    {target : String} {now : Instant} (hroutes : s'.routes = s.routes)
    (hr : s.routes.lookup id = some r) (hfacts : r.facts = some f) (htarget : f.target = target) :
    ¬ (s'.touchTarget target now).Selected id n := by
  refine not_selected_reviseAll hroutes hr ?_ (unselects_touch r now)
  rw [hfacts, Option.any_some]
  exact decide_eq_true htarget

/-- The settings. -/
def dials (s : ResponseCloseInner) := (s.enabled, s.seconds, s.settingsEpoch)

/-- What a target has to do, where nothing is pending. -/
structure WorkStill (target : String) (s s' : ResponseCloseInner) : Prop where
  provisional : (s'.workFor target).provisional = (s.workFor target).provisional
  dispatch : (s.workFor target).dispatch ≤ (s'.workFor target).dispatch
  pending : (s.workFor target).pending = ∅ → (s'.workFor target).pending = ∅

theorem workStill_of_eq {target : String} (h : s'.workFor target = s.workFor target) :
    WorkStill target s s' where
  provisional := by rw [h]
  dispatch := by rw [h]
  pending hempty := by rw [h]; exact hempty

theorem workFor_setWork_self (s : ResponseCloseInner) (target other : String) :
    (s.setWork target (s.workFor target)).workFor other = s.workFor other := by
  rw [lookup_setWork]
  split_ifs with h
  · rw [h]
  · rfl

theorem setWork_routes (s : ResponseCloseInner) (target : String) (work : ResponseCloseWork) :
    (s.setWork target work).routes = s.routes := rfl

theorem workFor_setWork_ne {target other : String} (work : ResponseCloseWork) (h : other ≠ target) :
    (s.setWork target work).workFor other = s.workFor other := by
  rw [lookup_setWork, if_neg h]

end ResponseCloseInner

namespace World
open ResponseCloseInner

/-- A request is not registered again, at another time, where a ticket is selected. -/
def Unrefreshed (id : Uuid) (w : World) : Event → Prop
  | .registerRequest proof now => proof.context.sessionId = id → ∀ r p,
      w.inner.routes.lookup id = some r → r.policy = some p → p.selected.isSome = true →
      p.nonce = proof.context.nonce → w.inner.validRequest r p proof = true →
      p.registeredAt = some now ∧ now ≤ r.lastChange
  | _ => True

theorem still_act (w : World) {e : Event} {id n : Uuid} (hn : n < w.nextUuid)
    (hsubmitted : ∀ r p, w.inner.routes.lookup id = some r → r.policy = some p → p.submitted = true)
    (hguard : w.Unrefreshed id e) : Still id n w.inner (w.act w.inner e).1 := by
  have hnothing : ∀ p : ResponseClosePolicy,
      (none : Option ResponseClosePolicy) = some p → p.selected ≠ some n := nofun
  cases hobs : e.observes with
  | true => exact still_of_kept (Observed.keeps (w.observed_act w.inner hobs))
  | false =>
    cases e with
    | registerRoute j generation now =>
      rcases w.inner.registerRoute_cases j generation now with h | ⟨-, h⟩
      · exact still_of_routes ((congrArg routes h).trans rfl)
      · exact still_replaced ((congrArg routes h).trans rfl) hnothing
    | removeRoute j generation =>
      rcases w.inner.removeRoute_cases j generation with h | ⟨route, -, -, ⟨-, h⟩ | h⟩
      · exact still_of_routes ((congrArg routes h).trans rfl)
      · exact still_erase ((congrArg routes h).trans rfl)
      · exact still_replaced ((congrArg routes h).trans rfl) hnothing
    | reserveWriterInner j generation invalidate now =>
      exact still_of_kept (kept_reserveWriterInner j generation invalidate now)
    | dropWriter a now => exact still_of_kept (kept_dropWriter a now)
    | reservePolicyCandidate member coordinator key digest now =>
      rcases w.inner.reservePolicyCandidate_cases w.nextUuid member coordinator key digest now with
        ⟨e, h⟩ | ⟨route, -, -, -, h⟩
      · exact still_of_eq (congrArg Prod.fst h :) (still_of_routes rfl)
      · refine still_of_eq (congrArg Prod.fst h :) (still_replaced rfl ?_)
        intro p hp
        cases hp
        exact nofun
    | markRequestSubmitted context submitted =>
      rcases w.inner.markRequestSubmitted_cases context submitted with
        h | ⟨route, policy, hroute, hpolicy, -, h⟩
      · exact still_of_routes ((congrArg routes h).trans rfl)
      · refine still_setRoute hroute ((congrArg routes h).trans rfl) ?_
        rintro rfl p hp -
        cases submitted with
        | false => cases hp
        | true =>
          have hsame : { policy with submitted := true } = policy := by
            rw [← hsubmitted route policy hroute hpolicy]
          change { route with policy := some { policy with submitted := true } } = route
          rw [hsame, ← hpolicy]
    | registerRequest proof now =>
      rcases w.inner.registerRequest_cases proof now with
        ⟨e, h⟩ | ⟨route, policy, hroute, hpolicy, hnonce, h | ⟨hvalid, h⟩⟩
      · exact still_of_eq (congrArg Prod.fst h :) (still_of_routes rfl)
      · exact still_of_eq (congrArg Prod.fst h :) (still_replaced rfl hnothing)
      · refine still_of_eq (congrArg Prod.fst h :) (still_setRoute hroute rfl ?_)
        rintro hid p hp hsel
        cases hp
        have hsome : policy.selected.isSome = true := by
          rw [show policy.selected = some n from hsel]
          rfl
        obtain ⟨hregistered, hle⟩ :=
          hguard hid route policy (hid ▸ hroute) hpolicy hsome hnonce hvalid
        change { route with
          policy := some { policy with registeredAt := some now }
          lastChange := max route.lastChange now } = route
        rw [← hregistered, max_eq_left hle, ← hpolicy]
    | admitReturn member coordinator key digest now =>
      rcases w.inner.admitReturn_cases member coordinator key digest now with
        ⟨e, h | h⟩ | ⟨route, policy, sequence, -, ⟨-, h⟩ | ⟨-, h⟩⟩
      · exact still_of_eq (congrArg Prod.fst h :) (still_of_routes rfl)
      · exact still_of_eq (congrArg Prod.fst h :) (still_of_routes rfl)
      · exact still_of_eq (congrArg Prod.fst h :) (still_of_routes rfl)
      · refine still_of_eq (congrArg Prod.fst h :) (still_replaced rfl ?_)
        intro p hp
        cases hp
        exact nofun
    | settleReturn c success now =>
      rcases w.inner.settleReturn_cases c success now with
        ⟨digest, -, h⟩ | ⟨-, ⟨e, h, -⟩ | ⟨route, policy, -, h⟩⟩
      · exact still_of_eq (congrArg Prod.fst h :) (still_of_routes rfl)
      · exact still_of_eq (congrArg Prod.fst h :) (still_of_routes rfl)
      · refine still_of_eq (congrArg Prod.fst h :) (still_replaced rfl ?_)
        intro p hp
        cases hp
        exact nofun
    | selectTicket j now =>
      rcases w.inner.selectTicket_cases w.nextUuid j now with ⟨e, h⟩ | ⟨route, policy, -, -, -, h⟩
      · exact still_of_eq (congrArg Prod.fst h :) (still_of_routes rfl)
      · refine still_of_eq (congrArg Prod.fst h :) (still_replaced rfl ?_)
        intro p hp
        cases hp
        exact fun heq => Nat.ne_of_gt hn (Option.some.inj heq)
    | tryCommitResponseClose ticket now =>
      rcases w.inner.tryCommitResponseClose_cases ticket now with ⟨e, h⟩ | ⟨route, -, -, -, h⟩
      · exact still_of_eq (congrArg Prod.fst h :) (still_of_routes rfl)
      · exact still_of_eq (congrArg Prod.fst h :) (still_replaced rfl hnothing)
    | finishResponseClose ticket evidence =>
      rcases w.inner.finishResponseClose_cases ticket evidence with h | ⟨route, -, -, h | h⟩
      · exact still_of_eq (congrArg Prod.fst h :) (still_of_routes rfl)
      · exact still_of_eq (congrArg Prod.fst h :) (still_erase rfl)
      · exact still_of_eq (congrArg Prod.fst h :) (still_replaced rfl hnothing)
    | poison | failClosed | read | tryEnableReadiness | publish | applySettings
    | beginUnresolvedSpawn | endUnresolvedSpawn | reserveWork | acceptDurable | dropWork
    | settleTerminal | beginDelivery | dropDelivery | reserveCreateOwner | dropCreateOwner =>
      cases hobs

theorem dials_act (w : World) (s : ResponseCloseInner) {e : Event}
    (h : ∀ enabled seconds now, e ≠ .applySettings enabled seconds now) :
    (w.act s e).1.dials = s.dials := by
  cases e with
  | poison | failClosed | read | dropWriter | dropWork | dropDelivery => rfl
  | applySettings enabled seconds now => exact absurd rfl (h enabled seconds now)
  | tryEnableReadiness =>
    change s.tryEnableReadiness.1.dials = s.dials
    unfold tryEnableReadiness
    split_ifs <;> rfl
  | publish publication now =>
    cases publication with
    | publishManagerFacts identity eligible working =>
      change (s.publishManagerFacts identity eligible working now).dials = s.dials
      unfold publishManagerFacts
      cases s.routes.lookup identity.sessionId with
      | none => rfl
      | some route =>
        dsimp only
        split_ifs <;> rfl
    | _ => rfl
  | registerRoute id generation now =>
    rcases s.registerRoute_cases id generation now with h | ⟨-, h⟩ <;>
      exact (congrArg dials h).trans rfl
  | removeRoute id generation =>
    rcases s.removeRoute_cases id generation with h | ⟨route, -, -, ⟨-, h⟩ | h⟩ <;>
      exact (congrArg dials h).trans rfl
  | beginUnresolvedSpawn now =>
    change (s.beginUnresolvedSpawn now).dials = s.dials
    unfold beginUnresolvedSpawn
    cases checkedSucc s.unknownSpawns <;> rfl
  | endUnresolvedSpawn now =>
    change (s.endUnresolvedSpawn now).dials = s.dials
    unfold endUnresolvedSpawn
    split_ifs <;> rfl
  | reserveWriterInner id generation invalidate now =>
    rcases s.reserveWriterInner_cases id generation invalidate now with
      ⟨h | h, -⟩ | ⟨route, next, -, -, -, h⟩
    · exact (congrArg dials h).trans rfl
    · exact (congrArg dials h).trans rfl
    · exact (congrArg (fun t => t.1.dials) h).trans rfl
  | reserveWork target key now =>
    change (s.reserveWork target key now).1.dials = s.dials
    unfold reserveWork
    dsimp only
    split_ifs
    · rfl
    · cases checkedSucc (s.workFor target).provisional <;> rfl
  | acceptDurable a digest now =>
    change (s.acceptDurable a digest now).1.dials = s.dials
    unfold acceptDurable
    cases s.work.lookup a.target with
    | none => rfl
    | some work =>
      dsimp only
      cases (work.pending.lookup a.key).or (work.terminal.lookup a.key) <;> rfl
  | settleTerminal target key now =>
    change (s.settleTerminal target key now).dials = s.dials
    unfold settleTerminal
    dsimp only
    cases (s.workFor target).pending.lookup key <;> rfl
  | beginDelivery target =>
    change (s.beginDelivery target).1.dials = s.dials
    unfold beginDelivery
    split_ifs
    · rfl
    · rfl
    · dsimp only
      cases checkedSucc (s.workFor target).dispatch <;> rfl
  | reserveCreateOwner target nonce classification now =>
    change (s.reserveCreateOwner target nonce classification now).1.dials = s.dials
    unfold reserveCreateOwner
    dsimp only
    split_ifs <;> rfl
  | dropCreateOwner a now =>
    change (s.dropCreateOwner a now).dials = s.dials
    unfold dropCreateOwner
    cases s.createOwners.lookup a.target with
    | none => rfl
    | some owners =>
      dsimp only
      split_ifs <;> rfl
  | reservePolicyCandidate member coordinator key digest now =>
    rcases s.reservePolicyCandidate_cases w.nextUuid member coordinator key digest now with
      ⟨e, h⟩ | ⟨route, -, -, -, h⟩ <;> exact (congrArg (fun t => t.1.dials) h).trans rfl
  | markRequestSubmitted context submitted =>
    rcases s.markRequestSubmitted_cases context submitted with h | ⟨route, policy, -, -, -, h⟩ <;>
      exact (congrArg dials h).trans rfl
  | registerRequest proof now =>
    rcases s.registerRequest_cases proof now with
      ⟨e, h⟩ | ⟨route, policy, -, -, -, h | ⟨-, h⟩⟩ <;>
      exact (congrArg (fun t => t.1.dials) h).trans rfl
  | admitReturn member coordinator key digest now =>
    rcases s.admitReturn_cases member coordinator key digest now with
      ⟨e, h | h⟩ | ⟨route, policy, sequence, -, ⟨-, h⟩ | ⟨-, h⟩⟩ <;>
      exact (congrArg (fun t => t.1.dials) h).trans rfl
  | settleReturn c success now =>
    rcases s.settleReturn_cases c success now with
      ⟨digest, -, h⟩ | ⟨-, ⟨e, h, -⟩ | ⟨route, policy, -, h⟩⟩ <;>
      exact (congrArg (fun t => t.1.dials) h).trans rfl
  | selectTicket id now =>
    rcases s.selectTicket_cases w.nextUuid id now with ⟨e, h⟩ | ⟨route, policy, -, -, -, h⟩ <;>
      exact (congrArg (fun t => t.1.dials) h).trans rfl
  | tryCommitResponseClose ticket now =>
    rcases s.tryCommitResponseClose_cases ticket now with ⟨e, h⟩ | ⟨route, -, -, -, h⟩ <;>
      exact (congrArg (fun t => t.1.dials) h).trans rfl
  | finishResponseClose ticket evidence =>
    rcases s.finishResponseClose_cases ticket evidence with h | ⟨route, -, -, h | h⟩ <;>
      exact (congrArg (fun t => t.1.dials) h).trans rfl

/-- Other settings unselect every ticket, and the tracker fails where it cannot count them. -/
theorem dials_applySettings {s : ResponseCloseInner} {enabled : Bool} {seconds : ℕ} {now : Instant}
    {id n : Uuid} {r : ResponseCloseRoute} (hr : s.routes.lookup id = some r)
    (hselected : (s.applySettings enabled seconds now).Selected id n)
    (hopen : (s.applySettings enabled seconds now).failed = false) :
    (s.applySettings enabled seconds now).dials = s.dials := by
  unfold applySettings at hselected hopen ⊢
  split_ifs at hselected hopen ⊢
  · rfl
  · cases hepoch : checkedSucc s.settingsEpoch with
    | none =>
      rw [hepoch] at hopen
      cases hopen
    | some epoch =>
      rw [hepoch] at hselected
      refine absurd hselected ?_
      exact not_selected_reviseAll rfl hr rfl (r.unselects_applySettings now _ epoch)

/-- While the ticket of a route stays selected, its target is given no work. -/
theorem workStill_act (w : World) {s : ResponseCloseInner} (e : Event) {id n : Uuid}
    {r : ResponseCloseRoute} {f : ResponseRouteIdentity} (hr : s.routes.lookup id = some r)
    (hfacts : r.facts = some f) (hselected : (w.act s e).1.Selected id n) :
    WorkStill f.target s (w.act s e).1 := by
  have htouched : ∀ {t : ResponseCloseInner} {target : String} {now : Instant},
      t.routes = s.routes → (t.touchTarget target now).Selected id n → f.target ≠ target :=
    fun hroutes hsel htarget => not_selected_touchTarget hroutes hr hfacts htarget hsel
  by_cases hledger : e.ledger = .work
  · cases e with
    | reserveWork target key now =>
      change WorkStill f.target s (s.reserveWork target key now).1
      change (s.reserveWork target key now).1.Selected id n at hselected
      unfold reserveWork at hselected ⊢
      dsimp only at hselected ⊢
      split_ifs at hselected ⊢
      · exact workStill_of_eq (workFor_setWork_self s target _)
      · cases hnext : checkedSucc (s.workFor target).provisional with
        | none => exact workStill_of_eq (workFor_setWork_self s target _)
        | some next =>
          rw [hnext] at hselected
          exact workStill_of_eq (workFor_setWork_ne _ (htouched (setWork_routes s _ _) hselected))
    | dropWork a now =>
      change (s.dropWork a now).Selected id n at hselected
      unfold dropWork at hselected
      have hne := htouched rfl hselected
      exact workStill_of_eq ((workFor_adjust s a.target _ now _ rfl).trans (if_neg hne))
    | dropDelivery a now =>
      change (s.dropDelivery a now).Selected id n at hselected
      unfold dropDelivery at hselected
      have hne := htouched rfl hselected
      exact workStill_of_eq ((workFor_adjust s a.target _ now _ rfl).trans (if_neg hne))
    | settleTerminal target key now =>
      change WorkStill f.target s (s.settleTerminal target key now)
      change (s.settleTerminal target key now).Selected id n at hselected
      unfold settleTerminal at hselected ⊢
      dsimp only at hselected ⊢
      cases hpending : (s.workFor target).pending.lookup key with
      | none => exact workStill_of_eq (workFor_setWork_self s target _)
      | some digest =>
        rw [hpending] at hselected
        exact workStill_of_eq (workFor_setWork_ne _ (htouched (setWork_routes s _ _) hselected))
    | acceptDurable a digest now =>
      change WorkStill f.target s (s.acceptDurable a digest now).1
      change (s.acceptDurable a digest now).1.Selected id n at hselected
      unfold acceptDurable at hselected ⊢
      cases hwork : s.work.lookup a.target with
      | none => exact workStill_of_eq rfl
      | some work =>
        rw [hwork] at hselected
        dsimp only at hselected ⊢
        cases hold : (work.pending.lookup a.key).or (work.terminal.lookup a.key) with
        | some old => exact workStill_of_eq rfl
        | none =>
          rw [hold] at hselected
          refine workStill_of_eq (workFor_setWork_ne _ fun htarget => ?_)
          refine not_selected_reviseAll rfl hr ?_ (unselects_invalidate r now) hselected
          rw [hfacts, Option.any_some]
          exact decide_eq_true htarget
    | beginDelivery target =>
      change WorkStill f.target s (s.beginDelivery target).1
      unfold beginDelivery
      split_ifs
      · exact workStill_of_eq rfl
      · exact workStill_of_eq rfl
      · dsimp only
        cases hnext : checkedSucc (s.workFor target).dispatch with
        | none => exact workStill_of_eq (workFor_setWork_self s target _)
        | some next =>
          by_cases htarget : f.target = target
          · rw [htarget]
            refine ⟨?_, ?_, ?_⟩ <;> dsimp only <;> rw [lookup_setWork, if_pos rfl]
            · rw [checkedSucc_eq_some hnext]
              exact Nat.le_succ _
            · exact fun hempty => hempty
          · exact workStill_of_eq (workFor_setWork_ne _ htarget)
    | registerRequest proof now =>
      obtain ⟨hprovisional, hdispatch⟩ := counts_registerRequest s proof now f.target
      refine ⟨hprovisional, Nat.le_of_eq hdispatch.symm, fun hempty => ?_⟩
      change ((s.registerRequest proof now).1.workFor f.target).pending = ∅
      rcases s.registerRequest_cases proof now with
        ⟨e, h⟩ | ⟨route, policy, -, -, -, h | ⟨-, h⟩⟩ <;> rw [h]
      · exact hempty
      · exact (congrArg ResponseCloseWork.pending (workFor_setWork_self s _ _)).trans hempty
      · change ((s.setWork policy.member.target _).workFor f.target).pending = ∅
        rw [lookup_setWork]
        split_ifs with htarget
        · rw [htarget] at hempty
          dsimp only
          rw [hempty]
          rfl
        · exact hempty
    | _ => cases hledger
  · refine workStill_of_eq ?_
    unfold workFor
    rw [(w.booksKept_act s e).work hledger]

/-- The ticket is selected, and its target has nothing to do. -/
structure Standing (ticket : ResponseCloseTicket) (w : World) : Prop where
  route : ∃ r p, w.inner.routes.lookup ticket.sessionId = some r ∧ r.policy = some p ∧
    p.selected = some ticket.selectionNonce ∧ p.submitted = true ∧ r.facts = some ticket.member
  provisional : (w.inner.workFor ticket.member.target).provisional = 0
  pending : (w.inner.workFor ticket.member.target).pending = ∅
  drawn : ticket.selectionNonce < w.nextUuid

/-- What a ticket stands for is the same: its route with its policy, up to the remembered hold
window, the work of its target, and the settings. -/
structure Unmoved (ticket : ResponseCloseTicket) (w w' : World) : Prop where
  route : ∃ r window, w.inner.routes.lookup ticket.sessionId = some r ∧
    w'.inner.routes.lookup ticket.sessionId = some { r with holdWindow := window }
  provisional : (w'.inner.workFor ticket.member.target).provisional =
    (w.inner.workFor ticket.member.target).provisional
  dispatch : (w'.inner.workFor ticket.member.target).dispatch =
    (w.inner.workFor ticket.member.target).dispatch
  pending : (w'.inner.workFor ticket.member.target).pending =
    (w.inner.workFor ticket.member.target).pending
  settings : w'.inner.dials = w.inner.dials

/-- The step moves nothing that the ticket stands for, and selects no other for its route. -/
def Respects (ticket : ResponseCloseTicket) (w : World) (e : Event) : Prop :=
  w.Unmoved ticket (tracker.next w e) ∧
    ∀ now t, e = .selectTicket ticket.sessionId now → tracker.answer w e ≠ .ticket t

theorem opened_before {w : World} {e : Event} (h : (tracker.next w e).inner.failed = false) :
    w.inner.failed = false := by
  rcases w.respond_cases e with ⟨hinner, -⟩ | hfailing | hacting
  · exact (congrArg failed hinner).symm.trans h
  · cases hfailing.failed.symm.trans h
  · exact hacting.opened

/-- What is open and selected at the end was so all along. -/
theorem selected_before {id n : Uuid} {es : List Event} {w : World} (hn : n < w.nextUuid)
    (hopen : (tracker.run w es).inner.failed = false)
    (hselected : (tracker.run w es).inner.Selected id n) :
    w.inner.failed = false ∧ w.inner.Selected id n := by
  induction es generalizing w with
  | nil => exact ⟨hopen, hselected⟩
  | cons e es ih =>
    obtain ⟨ho, hs⟩ := ih (Nat.lt_of_lt_of_le hn (w.le_nextUuid e)) hopen hselected
    exact ⟨opened_before ho, (descends_next hn e).selected hs⟩

theorem unmoved_refl {ticket : ResponseCloseTicket} {w w' : World} (h : Standing ticket w)
    (hinner : w'.inner = w.inner) : w.Unmoved ticket w' := by
  obtain ⟨r, p, hr, -⟩ := h.route
  refine ⟨⟨r, r.holdWindow, hr, ?_⟩, ?_, ?_, ?_, ?_⟩ <;> rw [hinner]
  exact hr

/-- A step after which the ticket is still selected moves at most the count of deliveries, and
that upwards. -/
theorem steady_next {ticket : ResponseCloseTicket} {w : World} (h : Standing ticket w) {e : Event}
    (hguard : w.Unrefreshed ticket.sessionId e) (hopen : (tracker.next w e).inner.failed = false)
    (hselected : (tracker.next w e).inner.Selected ticket.sessionId ticket.selectionNonce) :
    (∃ r window, w.inner.routes.lookup ticket.sessionId = some r ∧
      (tracker.next w e).inner.routes.lookup ticket.sessionId =
        some { r with holdWindow := window }) ∧
    WorkStill ticket.member.target w.inner (tracker.next w e).inner ∧
    (tracker.next w e).inner.dials = w.inner.dials := by
  obtain ⟨r, p, hr, hp, -, hsubmitted, hfacts⟩ := h.route
  rcases w.respond_cases e with ⟨hinner, -⟩ | hfailing | hacting
  · have hsame : (tracker.next w e).inner = w.inner := hinner
    rw [hsame]
    exact ⟨⟨r, r.holdWindow, hr, hr⟩, workStill_of_eq rfl, rfl⟩
  · cases hfailing.failed.symm.trans hopen
  · have hinner : (tracker.next w e).inner = (w.act w.inner e).1 := hacting.inner
    rw [hinner] at hopen hselected ⊢
    refine ⟨?_, w.workStill_act e hr hfacts hselected, ?_⟩
    · obtain ⟨window, hwindow⟩ := w.still_act h.drawn (fun r' p' hr' hp' => by
        cases hr.symm.trans hr'
        cases hp.symm.trans hp'
        exact hsubmitted) hguard hselected r hr
      exact ⟨r, window, hr, hwindow⟩
    · by_cases he : ∃ enabled seconds now, e = .applySettings enabled seconds now
      · obtain ⟨enabled, seconds, now, rfl⟩ := he
        exact dials_applySettings hr hselected hopen
      · exact w.dials_act w.inner fun enabled seconds now heq => he ⟨enabled, seconds, now, heq⟩

theorem standing_next {ticket : ResponseCloseTicket} {w : World} (h : Standing ticket w) {e : Event}
    (hguard : w.Unrefreshed ticket.sessionId e) (hopen : (tracker.next w e).inner.failed = false)
    (hselected : (tracker.next w e).inner.Selected ticket.sessionId ticket.selectionNonce) :
    Standing ticket (tracker.next w e) := by
  obtain ⟨r, p, hr, hp, hsel, hsubmitted, hfacts⟩ := h.route
  obtain ⟨⟨r', window, hr', hnext⟩, hwork, -⟩ := steady_next h hguard hopen hselected
  cases hr.symm.trans hr'
  exact ⟨⟨_, p, hnext, hp, hsel, hsubmitted, hfacts⟩, hwork.provisional.trans h.provisional,
    hwork.pending h.pending, Nat.lt_of_lt_of_le h.drawn (w.le_nextUuid e)⟩

/-- Another selection for the route takes the place of the ticket. -/
theorem not_ticket {ticket : ResponseCloseTicket} {w : World} (h : Standing ticket w) {now : Instant}
    (hselected : (tracker.next w (.selectTicket ticket.sessionId now)).inner.Selected
      ticket.sessionId ticket.selectionNonce) (t : ResponseCloseTicket) :
    tracker.answer w (.selectTicket ticket.sessionId now) ≠ .ticket t := by
  intro ha
  change (w.respond (.selectTicket ticket.sessionId now)).2 = .ticket t at ha
  have hacting := acting_of_granted (by rw [ha]; rfl)
  rw [hacting.answer] at ha
  obtain ⟨r, p, hr, hp, hsel⟩ := hselected
  change (w.respond (.selectTicket ticket.sessionId now)).1.inner.routes.lookup _ = some r at hr
  rw [hacting.inner] at hr
  unfold act at ha hr
  dsimp only at ha hr
  rcases w.inner.selectTicket_cases w.nextUuid ticket.sessionId now with
    ⟨e, heq⟩ | ⟨route, policy, -, -, -, heq⟩ <;> rw [heq] at ha hr
  · cases ha
  · rw [lookup_setRoute, if_pos rfl] at hr
    cases hr
    cases hp
    exact Nat.ne_of_gt h.drawn (Option.some.inj hsel)

/-- The deliveries of a standing ticket's target are only ever begun, so that none was begun where
none is left. -/
theorem respects_run {ticket : ResponseCloseTicket} {es : List Event} {w : World}
    (h : Standing ticket w) (hguard : tracker.Along (Unrefreshed ticket.sessionId) w es)
    (hopen : (tracker.run w es).inner.failed = false)
    (hselected : (tracker.run w es).inner.Selected ticket.sessionId ticket.selectionNonce) :
    (w.inner.workFor ticket.member.target).dispatch ≤
        ((tracker.run w es).inner.workFor ticket.member.target).dispatch ∧
      (((tracker.run w es).inner.workFor ticket.member.target).dispatch = 0 →
        tracker.Along (Respects ticket) w es) := by
  induction es generalizing w with
  | nil => exact ⟨Nat.le_refl _, fun _ => trivial⟩
  | cons e es ih =>
    obtain ⟨ho, hs⟩ := selected_before (Nat.lt_of_lt_of_le h.drawn (w.le_nextUuid e)) hopen hselected
    have hstanding := standing_next h hguard.1 ho hs
    obtain ⟨hroute, hwork, hdials⟩ := steady_next h hguard.1 ho hs
    obtain ⟨hle, hlater⟩ := ih hstanding hguard.2 hopen hselected
    refine ⟨hwork.dispatch.trans hle, fun hzero => ⟨⟨?_, ?_⟩, hlater hzero⟩⟩
    · have hafter : ((tracker.next w e).inner.workFor ticket.member.target).dispatch = 0 :=
        Nat.le_zero.mp (hle.trans_eq hzero)
      have hbefore : (w.inner.workFor ticket.member.target).dispatch = 0 :=
        Nat.le_zero.mp (hwork.dispatch.trans_eq hafter)
      exact ⟨hroute, hwork.provisional, hafter.trans hbefore.symm,
        (hwork.pending h.pending).trans h.pending.symm, hdials⟩
    · rintro now t rfl
      exact not_ticket h hs t

/-- A ticket stands when it is issued. -/
theorem standing_of_ticket {w : World} (hsound : w.Sound) {id : Uuid} {now : Instant}
    {ticket : ResponseCloseTicket}
    (ha : tracker.answer w (.selectTicket id now) = .ticket ticket) :
    ticket.sessionId = id ∧ Standing ticket (tracker.next w (.selectTicket id now)) := by
  change (w.respond (.selectTicket id now)).2 = .ticket ticket at ha
  have hacting := acting_of_granted (by rw [ha]; rfl)
  have hinner : (tracker.next w (.selectTicket id now)).inner =
      (w.inner.selectTicket w.nextUuid id now).1 := hacting.inner
  have hnext : (tracker.next w (.selectTicket id now)).nextUuid = w.nextUuid + 1 := by
    change (w.enter _ (w.respond _).2).nextUuid = _
    rw [ha]
    rfl
  have hanswer := hacting.answer.symm.trans ha
  unfold act at hanswer
  dsimp only at hanswer
  rcases w.inner.selectTicket_cases w.nextUuid id now with
    ⟨e, heq⟩ | ⟨route, policy, hroute, hpolicy, hsafe, heq⟩ <;> rw [heq] at hinner hanswer
  · cases hanswer
  · cases hanswer
    obtain ⟨p, registeredAt, successAt, hs⟩ := safe_spec hsafe
    cases hpolicy.symm.trans hs.current
    obtain ⟨hsubmitted, -⟩ :=
      (hsound.policies _ _ _ hroute hpolicy).registered _ hs.registered
    refine ⟨rfl, ⟨route.setPolicy (some { policy with selected := some w.nextUuid }),
      { policy with selected := some w.nextUuid }, ?_, rfl, rfl, hsubmitted, hs.facts⟩, ?_, ?_, ?_⟩
    · rw [hinner, lookup_setRoute]
      exact if_pos rfl
    · rw [hinner]
      exact hs.provisional
    · rw [hinner]
      exact hs.pending
    · rw [hnext]
      exact Nat.lt_succ_self _

/-- Since the ticket that a commit accepts was issued, nothing it stands for has moved and no other
was selected for its route, provided that its request was not registered again meanwhile. -/
theorem freshLaw (before between : List Event) (id : Uuid) (start : Instant)
    (ticket : ResponseCloseTicket) (now : Instant) (n : Uuid)
    (hissued : tracker.answer (tracker.run initial before) (.selectTicket id start) = .ticket ticket)
    (haccepted : tracker.answer
      (tracker.run (tracker.next (tracker.run initial before) (.selectTicket id start)) between)
      (.tryCommitResponseClose ticket now) = .committed n)
    (hguard : tracker.Along (Unrefreshed id)
      (tracker.next (tracker.run initial before) (.selectTicket id start)) between) :
    tracker.Along (Respects ticket)
      (tracker.next (tracker.run initial before) (.selectTicket id start)) between := by
  obtain ⟨rfl, hstanding⟩ := standing_of_ticket (sound_run before) hissued
  obtain ⟨hopen, r, hr, hsafe, hcurrent⟩ := committed_spec haccepted
  obtain ⟨p, registeredAt, successAt, hs⟩ := safe_spec hsafe
  obtain ⟨p', hp', hsel, -, hmember, -⟩ := ticketCurrent_spec hcurrent
  cases hs.current.symm.trans hp'
  have hdispatch := hs.dispatch
  rw [hmember] at hdispatch
  exact (respects_run hstanding hguard hopen ⟨r, p, hr, hp', hsel⟩).2 hdispatch

theorem freshLaw_of_selected : tracker.Along (Respects sampleTicket)
    (tracker.next (tracker.run initial selectedRun.dropLast) (.selectTicket 10 (30 * 10 ^ 9)))
    [.reserveWork "room/lead" "other" (31 * 10 ^ 9), .beginDelivery "room/lead"] :=
  freshLaw selectedRun.dropLast
    [.reserveWork "room/lead" "other" (31 * 10 ^ 9), .beginDelivery "room/lead"] 10 (30 * 10 ^ 9)
    sampleTicket (32 * 10 ^ 9) 1 (by decide +kernel) (by decide +kernel) ⟨trivial, trivial, trivial⟩

def registeredAtOf (w : World) (id : Uuid) : Option Instant :=
  (w.inner.routes.lookup id).bind fun r => r.policy.bind (·.registeredAt)

theorem Unmoved.registeredAt {ticket : ResponseCloseTicket} {w w' : World}
    (h : w.Unmoved ticket w') :
    w'.registeredAtOf ticket.sessionId = w.registeredAtOf ticket.sessionId := by
  obtain ⟨r, window, hr, hr'⟩ := h.route
  unfold registeredAtOf
  rw [hr, hr']
  rfl

/-- The request is registered again half a minute after the ticket was selected, and the ticket is
accepted half a minute later. -/
theorem not_fresh : ¬ ∀ (before between : List Event) (id : Uuid) (start : Instant)
    (ticket : ResponseCloseTicket) (now : Instant) (n : Uuid),
    tracker.answer (tracker.run initial before) (.selectTicket id start) = .ticket ticket →
    tracker.answer
      (tracker.run (tracker.next (tracker.run initial before) (.selectTicket id start)) between)
      (.tryCommitResponseClose ticket now) = .committed n →
    tracker.Along (Respects ticket)
      (tracker.next (tracker.run initial before) (.selectTicket id start)) between := by
  intro h
  have hrun := h selectedRun.dropLast [.registerRequest sampleProof (60 * 10 ^ 9)] 10 (30 * 10 ^ 9)
    sampleTicket (90 * 10 ^ 9) 1 (by decide +kernel) (by decide +kernel)
  have hmoved : (tracker.next (tracker.next (tracker.run initial selectedRun.dropLast)
      (.selectTicket 10 (30 * 10 ^ 9))) (.registerRequest sampleProof (60 * 10 ^ 9))).registeredAtOf
        sampleTicket.sessionId ≠
      (tracker.next (tracker.run initial selectedRun.dropLast)
        (.selectTicket 10 (30 * 10 ^ 9))).registeredAtOf sampleTicket.sessionId := by decide +kernel
  exact hmoved hrun.1.1.registeredAt

end World
end AgentsCommander.ResponseClose
