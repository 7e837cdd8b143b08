import AgentsCommander.ResponseClose.Exclusion

/-! Every mark on a policy stands for something that happened to it. -/
namespace AgentsCommander.ResponseClose
open Foundation Sessions

namespace ResponseCloseInner

/-- Every policy was there before, under other settings or another selection at most. -/
def PoliciesKept (s s' : ResponseCloseInner) : Prop :=
  ∀ id r' p', s'.routes.lookup id = some r' → r'.policy = some p' →
    ∃ r p, s.routes.lookup id = some r ∧ r.policy = some p ∧ r'.workEpoch = r.workEpoch ∧
      p' = { p with settingsEpoch := p'.settingsEpoch, selected := p'.selected }

variable {s s' : ResponseCloseInner} {id j n : Uuid}

theorem policiesKept_of_eq {t : ResponseCloseInner} (h : t = s') (hs' : PoliciesKept s s') :
    PoliciesKept s t := by
  rw [h]
  exact hs'

theorem policiesKept_of_routes (h : s'.routes = s.routes) : PoliciesKept s s' := by
  intro id r' p' hr' hp'
  rw [h] at hr'
  exact ⟨r', p', hr', hp', rfl, rfl⟩

theorem policiesKept_of_kept (h : RoutesKept Keeps s s') : PoliciesKept s s' := by
  intro id r' p' hr' hp'
  obtain ⟨r, hr, hkeeps⟩ := h.before hr'
  obtain ⟨hepoch, p, hp, heq⟩ := hkeeps.policy p' hp'
  exact ⟨r, p, hr, hp, hepoch, heq⟩

theorem lookup_of_setRoute {r₁ r' : ResponseCloseRoute}
    (hroutes : s'.routes = (s.setRoute j r₁).routes) (h : s'.routes.lookup id = some r') :
    id = j ∧ r' = r₁ ∨ id ≠ j ∧ s.routes.lookup id = some r' := by
  rw [hroutes, lookup_setRoute] at h
  split_ifs at h with hid
  · exact Or.inl ⟨hid, (Option.some.inj h).symm⟩
  · exact Or.inr ⟨hid, h⟩

theorem policiesKept_setRoute {r₀ r₁ : ResponseCloseRoute} (h₀ : s.routes.lookup j = some r₀)
    (hroutes : s'.routes = (s.setRoute j r₁).routes) (hepoch : r₁.workEpoch = r₀.workEpoch)
    (hpolicy : ∀ p', r₁.policy = some p' → ∃ p, r₀.policy = some p ∧
      p' = { p with settingsEpoch := p'.settingsEpoch, selected := p'.selected }) :
    PoliciesKept s s' := by
  intro id r' p' hr' hp'
  rcases lookup_of_setRoute hroutes hr' with ⟨rfl, rfl⟩ | ⟨-, hr⟩
  · obtain ⟨p, hp, heq⟩ := hpolicy p' hp'
    exact ⟨r₀, p, h₀, hp, hepoch, heq⟩
  · exact ⟨r', p', hr, hp', rfl, rfl⟩

theorem policiesKept_erase (hroutes : s'.routes = s.routes.erase j) : PoliciesKept s s' := by
  intro id r' p' hr' hp'
  rw [hroutes, Assoc.lookup_erase_eq] at hr'
  split_ifs at hr'
  exact ⟨r', p', hr', hp', rfl, rfl⟩

end ResponseCloseInner

/-- The events that mark a policy, or make one. -/
def Event.marks : Event → Bool
  | .reservePolicyCandidate .. | .markRequestSubmitted .. | .registerRequest .. | .admitReturn ..
  | .settleReturn .. => true
  | _ => false

def Event.admits : Event → Bool
  | .admitReturn .. => true
  | _ => false

namespace World
open ResponseCloseInner

theorem policiesKept_act (w : World) (s : ResponseCloseInner) {e : Event}
    (h : e.marks = false) : PoliciesKept s (w.act s e).1 := by
  have hnothing : ∀ (o : Option ResponseClosePolicy) (p' : ResponseClosePolicy),
      (none : Option ResponseClosePolicy) = some p' → ∃ p, o = some p ∧
        p' = { p with settingsEpoch := p'.settingsEpoch, selected := p'.selected } := by
    intro o p' hp'
    cases hp'
  cases hobs : e.observes with
  | true => exact policiesKept_of_kept (Observed.keeps (w.observed_act s hobs))
  | false =>
    cases e with
    | registerRoute j generation now =>
      rcases s.registerRoute_cases j generation now with h | ⟨-, h⟩
      · exact policiesKept_of_eq h (policiesKept_of_routes rfl)
      · refine policiesKept_of_eq h ?_
        intro id r' p' hr' hp'
        rcases lookup_of_setRoute rfl hr' with ⟨rfl, rfl⟩ | ⟨-, hr⟩
        · cases hp'
        · exact ⟨r', p', hr, hp', rfl, rfl⟩
    | removeRoute j generation =>
      rcases s.removeRoute_cases j generation with h | ⟨route, hroute, -, ⟨-, h⟩ | h⟩
      · exact policiesKept_of_eq h (policiesKept_of_routes rfl)
      · exact policiesKept_of_eq h (policiesKept_erase rfl)
      · exact policiesKept_of_eq h (policiesKept_setRoute hroute rfl rfl (hnothing _))
    | reserveWriterInner j generation invalidate now =>
      exact policiesKept_of_kept (kept_reserveWriterInner j generation invalidate now)
    | dropWriter a now => exact policiesKept_of_kept (kept_dropWriter a now)
    | selectTicket j now =>
      rcases s.selectTicket_cases w.nextUuid j now with ⟨e, h⟩ | ⟨route, policy, hroute, hp, -, h⟩
      · exact policiesKept_of_eq (congrArg Prod.fst h :) (policiesKept_of_routes rfl)
      · refine policiesKept_of_eq (congrArg Prod.fst h :)
          (policiesKept_setRoute hroute rfl rfl ?_)
        intro p' hp'
        cases hp'
        exact ⟨policy, hp, rfl⟩
    | tryCommitResponseClose ticket now =>
      rcases s.tryCommitResponseClose_cases ticket now with ⟨e, h⟩ | ⟨route, hroute, -, -, h⟩
      · exact policiesKept_of_eq (congrArg Prod.fst h :) (policiesKept_of_routes rfl)
      · exact policiesKept_of_eq (congrArg Prod.fst h :)
          (policiesKept_setRoute hroute rfl rfl (hnothing _))
    | finishResponseClose ticket evidence =>
      rcases s.finishResponseClose_cases ticket evidence with h | ⟨route, hroute, -, h | h⟩
      · exact policiesKept_of_eq (congrArg Prod.fst h :) (policiesKept_of_routes rfl)
      · exact policiesKept_of_eq (congrArg Prod.fst h :) (policiesKept_erase rfl)
      · exact policiesKept_of_eq (congrArg Prod.fst h :)
          (policiesKept_setRoute hroute rfl rfl (hnothing _))
    | reservePolicyCandidate | markRequestSubmitted | registerRequest | admitReturn
    | settleReturn => cases h
    | poison | failClosed | read | tryEnableReadiness | publish | applySettings
    | beginUnresolvedSpawn | endUnresolvedSpawn | reserveWork | acceptDurable | dropWork
    | settleTerminal | beginDelivery | dropDelivery | reserveCreateOwner | dropCreateOwner =>
      cases hobs

/-- A return of the policy was settled, and the settlement accepted. -/
def SettledReturn (w : World) (id nonce : Uuid) (key : String) : Prop :=
  ∃ c success now, (Event.settleReturn c success now, Answer.done) ∈ w.history ∧
    c.sessionId = id ∧ c.nonce = nonce ∧ c.key = key

/-- How a return stands that a policy admitted: it is owed, or settled and remembered. -/
structure Accounted (w : World) (p : ResponseClosePolicy) (c : ReturnObservationContext) :
    Prop where
  member : c.member = p.member
  coordinator : c.coordinator = p.coordinator
  workEpoch : c.workEpoch = p.workEpoch
  stands : p.returns.lookup c.key = some (c.digest, c.sequence) ∨
    p.returns.lookup c.key = none ∧ c.terminalKey ∈ w.inner.terminalReturns ∧
      w.SettledReturn c.sessionId c.nonce c.key

/-- What stands behind the marks of a policy. -/
structure Vouched (w : World) (id : Uuid) (r : ResponseCloseRoute) (p : ResponseClosePolicy) :
    Prop where
  nonce : p.nonce < w.nextUuid
  home : p.member.sessionId = id
  epoch : p.workEpoch = r.workEpoch
  submitted : p.submitted = true →
    ∃ a, (Event.markRequestSubmitted ⟨id, p.nonce⟩ true, a) ∈ w.history
  registered : ∀ t, p.registeredAt = some t → p.submitted = true ∧ ∃ proof,
    proof.context = ⟨id, p.nonce⟩ ∧ (Event.registerRequest proof t, Answer.done) ∈ w.history
  success : ∀ t, p.successAt = some t → ∃ c ∈ w.issued, c.sessionId = id ∧ c.nonce = p.nonce ∧
    (Event.settleReturn c true t, Answer.done) ∈ w.history

/-- And what stands behind the returns it still lists. -/
structure Evidenced (w : World) (id : Uuid) (r : ResponseCloseRoute) (p : ResponseClosePolicy) :
    Prop extends w.Vouched id r p where
  returns : ∀ c ∈ w.issued, c.sessionId = id → c.nonce = p.nonce → w.Accounted p c

/-- All policies are evidenced, and contexts carry nonces that were drawn. -/
structure Sound (w : World) : Prop where
  issued : ∀ c ∈ w.issued, c.nonce < w.nextUuid
  policies : ∀ id r p, w.inner.routes.lookup id = some r → r.policy = some p →
    w.Evidenced id r p

/-- One step later: more history, more nonces, more returns remembered. -/
structure Grows (w w' : World) : Prop where
  nextUuid : w.nextUuid ≤ w'.nextUuid
  history : ∀ x ∈ w.history, x ∈ w'.history
  remembered : ∀ k, k ∈ w.inner.terminalReturns → k ∈ w'.inner.terminalReturns

theorem Accounted.grow {w w' : World} {p p' : ResponseClosePolicy} {c : ReturnObservationContext}
    (h : w.Accounted p c) (hw : w.Grows w')
    (hp : p' = { p with settingsEpoch := p'.settingsEpoch, selected := p'.selected }) :
    w'.Accounted p' c := by
  generalize p'.settingsEpoch = epoch at hp
  generalize p'.selected = selected at hp
  subst hp
  refine ⟨h.member, h.coordinator, h.workEpoch, h.stands.imp_right ?_⟩
  rintro ⟨hnone, hknown, c', success, now, hmem, hsame⟩
  exact ⟨hnone, hw.remembered _ hknown, c', success, now, hw.history _ hmem, hsame⟩

theorem Vouched.grow {w w' : World} {id : Uuid} {r : ResponseCloseRoute}
    {p : ResponseClosePolicy} (h : w.Vouched id r p) (hw : w.Grows w')
    (hold : ∀ c ∈ w.issued, c ∈ w'.issued) : w'.Vouched id r p := by
  refine ⟨Nat.lt_of_lt_of_le h.nonce hw.nextUuid, h.home, h.epoch, ?_, ?_, ?_⟩
  · intro hs
    obtain ⟨a, ha⟩ := h.submitted hs
    exact ⟨a, hw.history _ ha⟩
  · intro t ht
    obtain ⟨hs, proof, hcontext, hmem⟩ := h.registered t ht
    exact ⟨hs, proof, hcontext, hw.history _ hmem⟩
  · intro t ht
    obtain ⟨c, hc, hid, hn, hmem⟩ := h.success t ht
    exact ⟨c, hold c hc, hid, hn, hw.history _ hmem⟩

theorem Evidenced.grow {w w' : World} {id : Uuid} {r r' : ResponseCloseRoute}
    {p p' : ResponseClosePolicy} (h : w.Evidenced id r p) (hw : w.Grows w')
    (hissued : ∀ c ∈ w'.issued, c.sessionId = id → c.nonce = p.nonce → c ∈ w.issued)
    (hold : ∀ c ∈ w.issued, c ∈ w'.issued) (hepoch : r'.workEpoch = r.workEpoch)
    (hp : p' = { p with settingsEpoch := p'.settingsEpoch, selected := p'.selected }) :
    w'.Evidenced id r' p' := by
  have hreturns : ∀ c ∈ w'.issued, c.sessionId = id → c.nonce = p.nonce → w'.Accounted p' c :=
    fun c hc hid hn => (h.returns c (hissued c hc hid hn) hid hn).grow hw hp
  have hvouched := h.toVouched.grow hw hold
  generalize p'.settingsEpoch = epoch at hp
  generalize p'.selected = selected at hp
  subst hp
  exact ⟨⟨hvouched.nonce, hvouched.home, hvouched.epoch.trans hepoch.symm, hvouched.submitted,
    hvouched.registered, hvouched.success⟩, hreturns⟩

theorem inner_next (w : World) (e : Event) : (tracker.next w e).inner = (w.respond e).1.inner := rfl

theorem history_next (w : World) (e : Event) :
    (tracker.next w e).history = (e, (w.respond e).2) :: w.history := rfl

/-- Only an admitted return is answered with a context. -/
theorem issued_next (w : World) {e : Event} (h : e.admits = false) :
    (tracker.next w e).issued = w.issued := by
  change (w.enter e (w.respond e).2).issued = w.issued
  unfold enter
  split <;> first | rfl | (split_ifs <;> rfl) | cases h

theorem remembered_settleReturn (s : ResponseCloseInner) (c : ReturnObservationContext)
    (success : Bool) (now : Instant)
    (k : ResponseRouteIdentity × ResponseRouteIdentity × String) (hk : k ∈ s.terminalReturns) :
    k ∈ (s.settleReturn c success now).1.terminalReturns := by
  have hremember : k ∈ (s.remember c).terminalReturns := AList.mem_insert _ |>.mpr (Or.inr hk)
  rcases s.settleReturn_cases c success now with
    ⟨digest, -, h⟩ | ⟨-, ⟨e, h, -⟩ | ⟨route, policy, -, h⟩⟩ <;> rw [h]
  · exact hk
  · exact hremember
  · exact hremember

theorem grows_next (w : World) (e : Event) : w.Grows (tracker.next w e) := by
  refine ⟨w.le_nextUuid e, fun x hx => List.mem_cons_of_mem _ hx, ?_⟩
  intro k hk
  rw [inner_next]
  rcases w.respond_cases e with ⟨hinner, -⟩ | hfailing | hacting
  · rw [hinner]
    exact hk
  · have hbooks : (w.respond e).1.inner.terminalReturns = w.inner.terminalReturns :=
      congrArg (·.2.2.2) hfailing.books
    rw [hbooks]
    exact hk
  · rw [hacting.inner]
    by_cases hsettle : e.ledger = .returns
    · cases e with
      | settleReturn c success now => exact remembered_settleReturn w.inner c success now k hk
      | _ => cases hsettle
    · rw [(w.booksKept_act w.inner e).returns hsettle]
      exact hk

theorem Sound.keep {w : World} (h : w.Sound) {e : Event}
    (hpolicies : PoliciesKept w.inner (tracker.next w e).inner)
    (hissued : (tracker.next w e).issued = w.issued) : (tracker.next w e).Sound := by
  have hgrows := w.grows_next e
  refine ⟨?_, ?_⟩
  · intro c hc
    rw [hissued] at hc
    exact Nat.lt_of_lt_of_le (h.issued c hc) hgrows.nextUuid
  · intro id r' p' hr' hp'
    obtain ⟨r, p, hr, hp, hepoch, heq⟩ := hpolicies id r' p' hr' hp'
    exact (h.policies id r p hr hp).grow hgrows (fun c hc _ _ => hissued ▸ hc)
      (fun c hc => hissued.symm ▸ hc) hepoch heq

/-- One route's policy is replaced, and the others keep theirs. -/
theorem Sound.set {w : World} (h : w.Sound) {e : Event} {j : Uuid} {r₁ : ResponseCloseRoute}
    (p₁ : ResponseClosePolicy) (hp₁ : r₁.policy = some p₁)
    (hroutes : (tracker.next w e).inner.routes = (w.inner.setRoute j r₁).routes)
    (hissued : ∀ c ∈ (tracker.next w e).issued, c ∈ w.issued ∨ c.sessionId = j ∧
      c.nonce < (tracker.next w e).nextUuid)
    (hold : ∀ c ∈ w.issued, c ∈ (tracker.next w e).issued)
    (hj : (tracker.next w e).Evidenced j r₁ p₁) : (tracker.next w e).Sound := by
  have hgrows := w.grows_next e
  refine ⟨?_, ?_⟩
  · intro c hc
    rcases hissued c hc with hc | ⟨-, hlt⟩
    · exact Nat.lt_of_lt_of_le (h.issued c hc) hgrows.nextUuid
    · exact hlt
  · intro id r' p' hr' hp'
    rcases lookup_of_setRoute hroutes hr' with ⟨rfl, rfl⟩ | ⟨hne, hr⟩
    · cases hp₁.symm.trans hp'
      exact hj
    · refine (h.policies id r' p' hr hp').grow hgrows (fun c hc hid _ => ?_) hold rfl rfl
      rcases hissued c hc with hc | ⟨hcj, -⟩
      · exact hc
      · exact absurd (hid.symm.trans hcj) hne

section
variable {w : World} (h : w.Sound)
include h

theorem sound_candidate {member coordinator : ResponseRouteIdentity} {key digest : String}
    {now : Instant} (ha : w.Acting (.reservePolicyCandidate member coordinator key digest now)) :
    (tracker.next w (.reservePolicyCandidate member coordinator key digest now)).Sound := by
  have hissued := w.issued_next (e := .reservePolicyCandidate member coordinator key digest now) rfl
  have hinner := ha.inner
  have hanswer := ha.answer
  unfold act at hinner hanswer
  dsimp only at hinner hanswer
  rcases w.inner.reservePolicyCandidate_cases w.nextUuid member coordinator key digest now with
    ⟨e, heq⟩ | ⟨route, hroute, -, -, heq⟩
  · rw [heq] at hinner
    exact h.keep (policiesKept_of_routes (congrArg routes hinner)) hissued
  · rw [heq] at hinner hanswer
    have hnext : (tracker.next w (.reservePolicyCandidate member coordinator key digest now)).nextUuid =
        w.nextUuid + 1 := by
      change (w.enter _ (w.respond _).2).nextUuid = _
      rw [hanswer]
      rfl
    refine h.set _ rfl (congrArg routes hinner) (fun c hc => Or.inl (hissued ▸ hc))
      (fun c hc => hissued.symm ▸ hc) ⟨⟨?_, rfl, rfl, nofun, nofun, nofun⟩, ?_⟩
    · rw [hnext]
      exact Nat.lt_succ_self _
    · intro c hc _ hn
      rw [hissued] at hc
      exact absurd hn (Nat.ne_of_lt (h.issued c hc))

theorem sound_submitted {context : ResponseDeliveryContext} {submitted : Bool}
    (ha : w.Acting (.markRequestSubmitted context submitted)) :
    (tracker.next w (.markRequestSubmitted context submitted)).Sound := by
  have hissued := w.issued_next (e := .markRequestSubmitted context submitted) rfl
  have hinner := ha.inner
  unfold act at hinner
  dsimp only at hinner
  rcases w.inner.markRequestSubmitted_cases context submitted with
    heq | ⟨route, policy, hroute, hpolicy, hnonce, heq⟩
  · rw [heq] at hinner
    exact h.keep (policiesKept_of_routes (congrArg routes hinner)) hissued
  · rw [heq] at hinner
    cases submitted with
    | false =>
      refine h.keep (policiesKept_setRoute hroute (congrArg routes hinner) rfl ?_) hissued
      intro p' hp'
      cases hp'
    | true =>
      have hpast := h.policies _ _ _ hroute hpolicy
      have hgrows := w.grows_next (.markRequestSubmitted context true)
      have hgrown := hpast.toVouched.grow hgrows fun c hc => hissued.symm ▸ hc
      have hmem : (Event.markRequestSubmitted ⟨context.sessionId, policy.nonce⟩ true,
          (w.respond (.markRequestSubmitted context true)).2) ∈
          (tracker.next w (.markRequestSubmitted context true)).history := by
        rw [hnonce]
        exact List.mem_cons_self
      refine h.set _ rfl (congrArg routes hinner) (fun c hc => Or.inl (hissued ▸ hc))
        (fun c hc => hissued.symm ▸ hc) ⟨⟨hgrown.nonce, hgrown.home, hgrown.epoch,
          fun _ => ⟨_, hmem⟩, ?_, hgrown.success⟩, ?_⟩
      · intro t ht
        exact ⟨rfl, (hgrown.registered t ht).2⟩
      · intro c hc hid hn
        have hacc : (tracker.next w (.markRequestSubmitted context true)).Accounted policy c :=
          (hpast.returns c (hissued ▸ hc) hid hn).grow hgrows rfl
        exact ⟨hacc.member, hacc.coordinator, hacc.workEpoch, hacc.stands⟩

theorem sound_registered {proof : ResponseDeliveryProof} {now : Instant}
    (ha : w.Acting (.registerRequest proof now)) :
    (tracker.next w (.registerRequest proof now)).Sound := by
  have hissued := w.issued_next (e := .registerRequest proof now) rfl
  have hinner := ha.inner
  have hanswer := ha.answer
  unfold act at hinner hanswer
  dsimp only at hinner hanswer
  rcases w.inner.registerRequest_cases proof now with
    ⟨e, heq⟩ | ⟨route, policy, hroute, hpolicy, hnonce, heq | ⟨hvalid, heq⟩⟩
  · rw [heq] at hinner
    exact h.keep (policiesKept_of_routes (congrArg routes hinner)) hissued
  · rw [heq] at hinner
    have hroutes : (tracker.next w (.registerRequest proof now)).inner.routes =
        (w.inner.setRoute proof.context.sessionId (route.setPolicy none)).routes :=
      (congrArg routes hinner).trans rfl
    refine h.keep (policiesKept_setRoute hroute hroutes rfl ?_) hissued
    intro p' hp'
    cases hp'
  · rw [heq] at hinner hanswer
    have hpast := h.policies _ _ _ hroute hpolicy
    have hgrows := w.grows_next (.registerRequest proof now)
    have hgrown := hpast.toVouched.grow hgrows fun c hc => hissued.symm ▸ hc
    have hsubmitted : policy.submitted = true := by
      unfold validRequest at hvalid
      simp only [Bool.and_eq_true] at hvalid
      exact hvalid.1.1.1.1.1.1.1.1
    have hmem : (Event.registerRequest proof now, Answer.done) ∈
        (tracker.next w (.registerRequest proof now)).history := by
      rw [history_next, hanswer]
      exact List.mem_cons_self
    have hroutes : (tracker.next w (.registerRequest proof now)).inner.routes =
        (w.inner.setRoute proof.context.sessionId { route with
          policy := some { policy with registeredAt := some now },
          lastChange := max route.lastChange now }).routes := (congrArg routes hinner).trans rfl
    refine h.set _ rfl hroutes (fun c hc => Or.inl (hissued ▸ hc))
      (fun c hc => hissued.symm ▸ hc) ⟨⟨hgrown.nonce, hgrown.home, hgrown.epoch, hgrown.submitted,
        ?_, hgrown.success⟩, ?_⟩
    · intro t ht
      cases ht
      refine ⟨hsubmitted, proof, ?_, hmem⟩
      rw [hnonce]
    · intro c hc hid hn
      have hacc : (tracker.next w (.registerRequest proof now)).Accounted policy c :=
        (hpast.returns c (hissued ▸ hc) hid hn).grow hgrows rfl
      exact ⟨hacc.member, hacc.coordinator, hacc.workEpoch, hacc.stands⟩

theorem sound_admitted {member coordinator : ResponseRouteIdentity} {key digest : String}
    {now : Instant} (ha : w.Acting (.admitReturn member coordinator key digest now)) :
    (tracker.next w (.admitReturn member coordinator key digest now)).Sound := by
  have hinner := ha.inner
  have hanswer := ha.answer
  have hissued : (tracker.next w (.admitReturn member coordinator key digest now)).issued =
      (w.enter (.admitReturn member coordinator key digest now)
        (w.respond (.admitReturn member coordinator key digest now)).2).issued := rfl
  unfold act at hinner hanswer
  dsimp only at hinner hanswer
  rw [hanswer] at hissued
  rcases w.inner.admitReturn_cases member coordinator key digest now with
    ⟨e, heq | heq⟩ | ⟨route, policy, sequence, hadmit, hreturn⟩
  · rw [heq] at hinner hissued
    exact h.keep (policiesKept_of_routes (congrArg routes hinner)) hissued
  · rw [heq] at hinner hissued
    exact h.keep (policiesKept_of_routes ((congrArg routes hinner).trans rfl)) hissued
  · obtain ⟨hroute, hpolicy, hmember, hcoordinator, hunsettled⟩ := hadmit
    have hold := h.policies _ _ _ hroute hpolicy
    set c := w.inner.returnContext route policy member coordinator key digest sequence with hc
    have hcons : (tracker.next w (.admitReturn member coordinator key digest now)).issued =
        c :: w.issued := by
      rcases hreturn with ⟨-, heq⟩ | ⟨-, heq⟩ <;> rw [heq] at hissued <;> exact hissued
    have hin : ∀ c' ∈ (tracker.next w (.admitReturn member coordinator key digest now)).issued,
        c' ∈ w.issued ∨ c' = c := by
      intro c' hc'
      rw [hcons] at hc'
      exact (List.mem_cons.mp hc').symm
    have hgrows := w.grows_next (.admitReturn member coordinator key digest now)
    have holder : ∀ c' ∈ w.issued,
        c' ∈ (tracker.next w (.admitReturn member coordinator key digest now)).issued :=
      fun c' hc' => hcons ▸ List.mem_cons_of_mem c hc'
    have hlt : c.nonce < (tracker.next w (.admitReturn member coordinator key digest now)).nextUuid :=
      Nat.lt_of_lt_of_le hold.nonce hgrows.nextUuid
    have hself : ∀ p : ResponseClosePolicy, p.member = policy.member →
        p.coordinator = policy.coordinator → p.workEpoch = policy.workEpoch →
        p.returns.lookup key = some (digest, sequence) →
        (tracker.next w (.admitReturn member coordinator key digest now)).Accounted p c :=
      fun p hm hco he hl => ⟨(hm.trans hmember).symm, (hco.trans hcoordinator).symm,
        (he.trans hold.epoch).symm, Or.inl hl⟩
    rcases hreturn with ⟨hfound, heq⟩ | ⟨hnone, heq⟩
    · rw [heq] at hinner
      have hroutes : (tracker.next w (.admitReturn member coordinator key digest now)).inner.routes =
          w.inner.routes := congrArg routes hinner
      refine ⟨?_, ?_⟩
      · intro c' hc'
        rcases hin c' hc' with hc' | rfl
        · exact Nat.lt_of_lt_of_le (h.issued c' hc') hgrows.nextUuid
        · exact hlt
      · intro id r p hr hp
        rw [hroutes] at hr
        have hevidence := h.policies id r p hr hp
        have hret : ∀ c' ∈ (tracker.next w (.admitReturn member coordinator key digest now)).issued,
            c'.sessionId = id → c'.nonce = p.nonce →
            (tracker.next w (.admitReturn member coordinator key digest now)).Accounted p c' := by
          intro c' hc' hid hn
          rcases hin c' hc' with hc' | rfl
          · exact (hevidence.returns c' hc' hid hn).grow hgrows rfl
          · have hid' : member.sessionId = id := hid
            subst hid'
            cases hroute.symm.trans hr
            cases hpolicy.symm.trans hp
            exact hself policy rfl rfl rfl hfound
        exact ⟨hevidence.toVouched.grow hgrows holder, hret⟩
    · rw [heq] at hinner
      have hkey : ∀ c' ∈ w.issued, c'.sessionId = member.sessionId → c'.nonce = policy.nonce →
          c'.key ≠ key := by
        intro c' hc' hid hn hk
        have hacc := hold.returns c' hc' hid hn
        rcases hacc.stands with hsome | ⟨-, hknown, -⟩
        · rw [hk, hnone] at hsome
          cases hsome
        · have hterminal : c'.terminalKey = (policy.member, policy.coordinator, key) := by
            unfold ReturnObservationContext.terminalKey
            rw [hacc.member, hacc.coordinator, hk]
          rw [hterminal] at hknown
          exact absurd hknown (AList.lookup_eq_none.mp hunsettled)
      have hgrown := hold.toVouched.grow hgrows holder
      have hroutes : (tracker.next w (.admitReturn member coordinator key digest now)).inner.routes =
          (w.inner.setRoute member.sessionId { route with
            policy := some { policy with
              returns := policy.returns.insert key (digest, sequence), selected := none },
            lastChange := max route.lastChange now }).routes := (congrArg routes hinner).trans rfl
      refine h.set { policy with
        returns := policy.returns.insert key (digest, sequence)
        selected := none } rfl hroutes ?_ holder ⟨⟨hlt, hold.home, hold.epoch, hgrown.submitted,
        hgrown.registered, hgrown.success⟩, ?_⟩
      · intro c' hc'
        rcases hin c' hc' with hc' | rfl
        · exact Or.inl hc'
        · exact Or.inr ⟨rfl, hlt⟩
      · intro c' hc' hid hn
        rcases hin c' hc' with hc' | rfl
        · have hacc : (tracker.next w (.admitReturn member coordinator key digest now)).Accounted
              policy c' := (hold.returns c' hc' hid hn).grow hgrows rfl
          refine ⟨hacc.member, hacc.coordinator, hacc.workEpoch, ?_⟩
          change (policy.returns.insert key (digest, sequence)).lookup c'.key = _ ∨
            (policy.returns.insert key (digest, sequence)).lookup c'.key = _ ∧ _
          rw [AList.lookup_insert_ne (hkey c' hc' hid hn)]
          exact hacc.stands
        · exact hself _ rfl rfl rfl (AList.lookup_insert policy.returns)

theorem sound_settled {c : ReturnObservationContext} {success : Bool} {now : Instant}
    (ha : w.Acting (.settleReturn c success now)) :
    (tracker.next w (.settleReturn c success now)).Sound := by
  have hissued := w.issued_next (e := .settleReturn c success now) rfl
  have hinner := ha.inner
  have hanswer := ha.answer
  have hheld : c ∈ w.issued := of_decide_eq_true ha.held
  unfold act at hinner hanswer
  dsimp only at hinner hanswer
  rcases w.inner.settleReturn_cases c success now with
    ⟨digest, -, heq⟩ | ⟨-, ⟨e, heq, -⟩ | ⟨route, policy, hout, heq⟩⟩
  · rw [heq] at hinner
    exact h.keep (policiesKept_of_routes (congrArg routes hinner)) hissued
  · rw [heq] at hinner
    exact h.keep (policiesKept_of_routes ((congrArg routes hinner).trans rfl)) hissued
  · rw [heq] at hinner hanswer
    have hpast := h.policies _ _ _ hout.found hout.current
    have hgrows := w.grows_next (.settleReturn c success now)
    have hgrown := hpast.toVouched.grow hgrows fun c hc => hissued.symm ▸ hc
    have hmem : (Event.settleReturn c success now, Answer.done) ∈
        (tracker.next w (.settleReturn c success now)).history := by
      rw [history_next, hanswer]
      exact List.mem_cons_self
    have hroutes : (tracker.next w (.settleReturn c success now)).inner.routes =
        (w.inner.setRoute c.sessionId { route with
          policy := some (w.inner.settledAs policy c success now),
          lastChange := max route.lastChange now }).routes := (congrArg routes hinner).trans rfl
    have hremembered : c.terminalKey ∈
        (tracker.next w (.settleReturn c success now)).inner.terminalReturns := by
      have hterminal : (tracker.next w (.settleReturn c success now)).inner.terminalReturns =
          w.inner.terminalReturns.insert c.terminalKey c.digest :=
        (congrArg (fun t : ResponseCloseInner => t.terminalReturns) hinner).trans rfl
      rw [hterminal]
      exact (AList.mem_insert _).mpr (Or.inl rfl)
    refine h.set (w.inner.settledAs policy c success now) rfl hroutes
      (fun c hc => Or.inl (hissued ▸ hc)) (fun c hc => hissued.symm ▸ hc)
      ⟨⟨hgrown.nonce, hgrown.home, hgrown.epoch, hgrown.submitted, hgrown.registered, ?_⟩, ?_⟩
    · intro t ht
      change (if success = true ∧ c.settingsEpoch = w.inner.settingsEpoch then
        some (policy.successAt.elim now (max · now)) else policy.successAt) = some t at ht
      split_ifs at ht with hsuccess
      · have hnow : t = now → ∃ c' ∈ (tracker.next w (.settleReturn c success now)).issued,
            c'.sessionId = c.sessionId ∧ c'.nonce = policy.nonce ∧
            (Event.settleReturn c' true t, Answer.done) ∈
              (tracker.next w (.settleReturn c success now)).history := by
          rintro rfl
          exact ⟨c, hissued.symm ▸ hheld, rfl, hout.nonce.symm, hsuccess.1 ▸ hmem⟩
        cases hold : policy.successAt with
        | none =>
          rw [hold] at ht
          exact hnow (Option.some.inj ht).symm
        | some old =>
          rw [hold] at ht
          have hmax : max old now = t := Option.some.inj ht
          rcases max_choice old now with ho | hn
          · exact hgrown.success t (by rw [hold, ← hmax, ho])
          · exact hnow (hmax.symm.trans hn)
      · exact hgrown.success t ht
    · intro c' hc' hid hn
      have hacc : (tracker.next w (.settleReturn c success now)).Accounted policy c' :=
        (hpast.returns c' (hissued ▸ hc') hid hn).grow hgrows rfl
      refine ⟨hacc.member, hacc.coordinator, hacc.workEpoch, ?_⟩
      change (policy.returns.erase c.key).lookup c'.key = _ ∨
        (policy.returns.erase c.key).lookup c'.key = none ∧ _
      by_cases hk : c'.key = c.key
      · have hterminal : c'.terminalKey = c.terminalKey := by
          unfold ReturnObservationContext.terminalKey
          rw [hacc.member, hacc.coordinator, hk, hout.member, hout.coordinator]
        refine Or.inr ⟨?_, hterminal ▸ hremembered, c, success, now, hmem, hid.symm,
          hout.nonce.symm.trans hn.symm, hk.symm⟩
        rw [hk]
        exact AList.lookup_erase c.key policy.returns
      · rw [AList.lookup_erase_ne hk]
        exact hacc.stands

theorem sound_next (e : Event) : (tracker.next w e).Sound := by
  cases hadmits : e.admits with
  | true =>
    cases e with
    | admitReturn member coordinator key digest now =>
      rcases w.respond_cases (.admitReturn member coordinator key digest now) with
        ⟨-, he | ⟨hheld, -⟩⟩ | hfailing | hacting
      · cases he
      · cases hheld
      · refine h.keep (policiesKept_of_kept (Observed.keeps hfailing.observed)) ?_
        have hhollow := hfailing.hollow
        change (w.enter _ (w.respond _).2).issued = _
        cases ha : (w.respond (.admitReturn member coordinator key digest now)).2 with
        | returned c =>
          rw [ha] at hhollow
          cases hhollow
        | _ => rfl
      · exact sound_admitted h hacting
    | _ => cases hadmits
  | false =>
    have hissued := w.issued_next hadmits
    rcases w.respond_cases e with ⟨hinner, -⟩ | hfailing | hacting
    · exact h.keep (policiesKept_of_routes (congrArg routes hinner)) hissued
    · exact h.keep (policiesKept_of_kept (Observed.keeps hfailing.observed)) hissued
    · cases hmarks : e.marks with
      | false =>
        have hkept : PoliciesKept w.inner (tracker.next w e).inner := by
          rw [inner_next, hacting.inner]
          exact w.policiesKept_act w.inner hmarks
        exact h.keep hkept hissued
      | true =>
        cases e with
        | reservePolicyCandidate => exact sound_candidate h hacting
        | markRequestSubmitted => exact sound_submitted h hacting
        | registerRequest => exact sound_registered h hacting
        | settleReturn => exact sound_settled h hacting
        | admitReturn => cases hadmits
        | _ => cases hmarks

end

theorem sound_run (es : List Event) : (tracker.run initial es).Sound := by
  have hinitial : initial.Sound := ⟨nofun, fun _ _ _ hr => nomatch hr⟩
  have hstep : ∀ w e, w.Sound → (tracker.next w e).Sound := fun _ e h => sound_next h e
  exact Machine.run_inv_free hstep hinitial es

end World
end AgentsCommander.ResponseClose
