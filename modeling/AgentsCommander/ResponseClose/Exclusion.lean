import AgentsCommander.ResponseClose.Steps

/-! A committed close shuts its route and its target until it is settled, which happens once. -/
namespace AgentsCommander.ResponseClose
open Foundation Sessions

/-- The closing mark is the same. -/
structure Marked (r r' : ResponseCloseRoute) : Prop where
  generation : r'.generation = r.generation
  closing : r'.closing = r.closing
  closingTarget : r'.closingTarget = r.closingTarget
  committedBinding : r'.committedBinding = r.committedBinding

theorem Keeps.marked {r r' : ResponseCloseRoute} (h : Keeps r r') : Marked r r' :=
  ⟨h.generation, h.closing, h.closingTarget, h.committedBinding⟩

namespace ResponseCloseInner

/-- A closing route stays one. -/
def ClosingKept (id : Uuid) (s s' : ResponseCloseInner) : Prop :=
  ∀ r, s.routes.lookup id = some r → r.closing.isSome = true →
    ∃ r', s'.routes.lookup id = some r' ∧ Marked r r'

/-- The route's policy has selected the ticket of the nonce. -/
def Selected (s : ResponseCloseInner) (id n : Uuid) : Prop :=
  ∃ r p, s.routes.lookup id = some r ∧ r.policy = some p ∧ p.selected = some n

/-- The route is closing under the nonce. -/
def Closes (s : ResponseCloseInner) (id n : Uuid) : Prop :=
  ∃ r, s.routes.lookup id = some r ∧ r.closing = some n

/-- Where the nonces of a route come from. -/
structure Descends (id n : Uuid) (s s' : ResponseCloseInner) : Prop where
  selected : s'.Selected id n → s.Selected id n
  closing : s'.Closes id n → s.Closes id n ∨ s.Selected id n

variable {s s' : ResponseCloseInner} {id j n : Uuid}

theorem closingKept_of_routes (h : s'.routes = s.routes) : ClosingKept id s s' := by
  intro r hr _
  exact ⟨r, by rw [h]; exact hr, rfl, rfl, rfl, rfl⟩

theorem closingKept_of_kept (h : RoutesKept Keeps s s') : ClosingKept id s s' := by
  intro r hr _
  obtain ⟨r', hr', hkeeps⟩ := h.after hr
  exact ⟨r', hr', hkeeps.marked⟩

theorem Observed.keeps (h : s.Observed s') : RoutesKept Keeps s s' := h.mono fun _ _ h => h.toKeeps

theorem closingKept_setRoute {r₀ r' : ResponseCloseRoute} (h₀ : s.routes.lookup j = some r₀)
    (hroutes : s'.routes = (s.setRoute j r').routes) (h : r₀.closing = none ∨ Marked r₀ r') :
    ClosingKept id s s' := by
  intro r hr hclosing
  rw [hroutes, lookup_setRoute]
  split_ifs with hid
  · subst hid
    cases h₀.symm.trans hr
    rcases h with hnone | hmarked
    · rw [hnone] at hclosing
      cases hclosing
    · exact ⟨r', rfl, hmarked⟩
  · exact ⟨r, hr, rfl, rfl, rfl, rfl⟩

theorem closingKept_of_eq {t : ResponseCloseInner} (h : t = s') (hs' : ClosingKept id s s') :
    ClosingKept id s t := by
  rw [h]
  exact hs'

theorem closingKept_erase {r₀ : ResponseCloseRoute} (h₀ : s.routes.lookup j = some r₀)
    (h : r₀.closing = none ∨ id ≠ j) (hroutes : s'.routes = s.routes.erase j) :
    ClosingKept id s s' := by
  intro r hr hclosing
  rw [hroutes, Assoc.lookup_erase_eq]
  split_ifs with hid
  · subst hid
    cases h₀.symm.trans hr
    rcases h with hnone | hne
    · rw [hnone] at hclosing
      cases hclosing
    · exact absurd rfl hne
  · exact ⟨r, hr, rfl, rfl, rfl, rfl⟩

theorem descends_of_eq {t : ResponseCloseInner} (h : t = s') (hs' : Descends id n s s') :
    Descends id n s t := by
  rw [h]
  exact hs'

theorem descends_of_routes (h : s'.routes = s.routes) : Descends id n s s' := by
  refine ⟨?_, fun hc => Or.inl ?_⟩
  · unfold Selected
    rw [h]
    exact fun hc => hc
  · unfold Closes at hc ⊢
    rw [h] at hc
    exact hc

theorem descends_of_kept (h : RoutesKept Keeps s s') : Descends id n s s' where
  selected := by
    rintro ⟨r', p, hr', hp, hsel⟩
    obtain ⟨r, hr, hkeeps⟩ := h.before hr'
    have hstill := hkeeps.still p hp (by rw [hsel]; rfl)
    rw [hstill] at hp
    exact ⟨r, p, hr, hp, hsel⟩
  closing := by
    rintro ⟨r', hr', hn⟩
    obtain ⟨r, hr, hkeeps⟩ := h.before hr'
    exact Or.inl ⟨r, hr, hkeeps.closing ▸ hn⟩

theorem descends_setRoute {r₀ r' : ResponseCloseRoute} (h₀ : s.routes.lookup j = some r₀)
    (hroutes : s'.routes = (s.setRoute j r').routes)
    (hselected : ∀ p', r'.policy = some p' → p'.selected = some n →
      ∃ p, r₀.policy = some p ∧ p.selected = some n)
    (hclosing : r'.closing = some n → r₀.closing = some n ∨
      ∃ p, r₀.policy = some p ∧ p.selected = some n) : Descends id n s s' where
  selected := by
    rintro ⟨r, p, hr, hp, hsel⟩
    rw [hroutes, lookup_setRoute] at hr
    split_ifs at hr with hid
    · cases hr
      subst hid
      obtain ⟨p₀, hp₀, hsel₀⟩ := hselected p hp hsel
      exact ⟨r₀, p₀, h₀, hp₀, hsel₀⟩
    · exact ⟨r, p, hr, hp, hsel⟩
  closing := by
    rintro ⟨r, hr, hn⟩
    rw [hroutes, lookup_setRoute] at hr
    split_ifs at hr with hid
    · cases hr
      subst hid
      rcases hclosing hn with hc | ⟨p₀, hp₀, hsel₀⟩
      · exact Or.inl ⟨r₀, h₀, hc⟩
      · exact Or.inr ⟨r₀, p₀, h₀, hp₀, hsel₀⟩
    · exact Or.inl ⟨r, hr, hn⟩

theorem descends_erase (hroutes : s'.routes = s.routes.erase j) : Descends id n s s' where
  selected := by
    rintro ⟨r, p, hr, hp, hsel⟩
    rw [hroutes, Assoc.lookup_erase_eq] at hr
    split_ifs at hr
    exact ⟨r, p, hr, hp, hsel⟩
  closing := by
    rintro ⟨r, hr, hn⟩
    rw [hroutes, Assoc.lookup_erase_eq] at hr
    split_ifs at hr
    exact Or.inl ⟨r, hr, hn⟩

theorem kept_countWriter (id : Uuid) (next : ℕ) (invalidate : Bool) (now : Instant) :
    RoutesKept Keeps s (s.countWriter id next invalidate now) := by
  refine routesKept_reviseAt Keeps.refl rfl fun r => ?_
  split_ifs
  · exact keeps_of_invalidate now { r with writers := next } rfl rfl
  · exact keeps_of_touch now { r with writers := next } rfl rfl

theorem kept_reserveWriterInner (id : Uuid) (generation : ℕ) (invalidate : Bool) (now : Instant) :
    RoutesKept Keeps s (s.reserveWriterInner id generation invalidate now).1 := by
  rcases s.reserveWriterInner_cases id generation invalidate now with
    ⟨h | h, -⟩ | ⟨route, next, -, -, -, h⟩
  · rw [h]
    exact .of_eq Keeps.refl rfl
  · rw [h]
    exact .of_eq Keeps.refl rfl
  · rw [h]
    exact kept_countWriter id next invalidate now

theorem kept_dropWriter (a : WriterAdmission) (now : Instant) :
    RoutesKept Keeps s (s.dropWriter a now) := by
  refine routesKept_reviseAt Keeps.refl rfl fun r => ?_
  split_ifs
  · exact keeps_of_touch now { r with writers := r.writers - 1 } rfl rfl
  · exact .refl r

end ResponseCloseInner

namespace World

/-- The settlement of a ticket, accepted. -/
def Settles (ticket : ResponseCloseTicket) : Event × Answer → Bool
  | (.finishResponseClose t _, .finished true) =>
    decide (t.sessionId = ticket.sessionId ∧ t.selectionNonce = ticket.selectionNonce)
  | _ => false

theorem rejected_false {route : ResponseCloseRoute} {ticket : ResponseCloseTicket}
    {evidence : ResponseCloseSettlementEvidence}
    (h : finishSettlementGroupRejected route ticket evidence = false) :
    route.closing = some ticket.selectionNonce := by
  unfold finishSettlementGroupRejected at h
  simp only [Bool.or_eq_false_iff, decide_eq_false_iff_not, Decidable.not_not] at h
  exact h.1.1.1.1.1.1.1.1.2

open ResponseCloseInner in
/-- A closing route survives every event but the settlement of its ticket. -/
theorem closingKept_act (w : World) {e : Event} {id n : Uuid} {r : ResponseCloseRoute}
    (hr : w.inner.routes.lookup id = some r) (hn : r.closing = some n)
    (he : ∀ t, t.sessionId = id → t.selectionNonce = n →
      Settles t (e, (w.act w.inner e).2) = false) :
    ∃ r', (w.act w.inner e).1.routes.lookup id = some r' ∧ Marked r r' := by
  have hsome : r.closing.isSome = true := by rw [hn]; rfl
  suffices h : ClosingKept id w.inner (w.act w.inner e).1 from h r hr hsome
  cases hobs : e.observes with
  | true => exact closingKept_of_kept (Observed.keeps (w.observed_act w.inner hobs))
  | false =>
    cases e with
    | registerRoute j generation now =>
      rcases w.inner.registerRoute_cases j generation now with h | ⟨hclosed, h⟩
      · exact closingKept_of_routes ((congrArg routes h).trans rfl)
      · intro r₀ hr₀ hc
        change ∃ r', (w.inner.registerRoute j generation now).routes.lookup id = some r' ∧ _
        rw [h, lookup_setRoute]
        split_ifs with hid
        · rw [hclosed r₀ (hid ▸ hr₀)] at hc
          cases hc
        · exact ⟨r₀, hr₀, rfl, rfl, rfl, rfl⟩
    | removeRoute j generation =>
      rcases w.inner.removeRoute_cases j generation with h | ⟨route, hroute, -, ⟨hnone, h⟩ | h⟩
      · exact closingKept_of_routes ((congrArg routes h).trans rfl)
      · exact closingKept_erase hroute (Or.inl hnone) ((congrArg routes h).trans rfl)
      · exact closingKept_setRoute hroute ((congrArg routes h).trans rfl) (Or.inr ⟨rfl, rfl, rfl, rfl⟩)
    | reserveWriterInner j generation invalidate now =>
      exact closingKept_of_kept (kept_reserveWriterInner j generation invalidate now)
    | dropWriter a now => exact closingKept_of_kept (kept_dropWriter a now)
    | reservePolicyCandidate member coordinator key digest now =>
      rcases w.inner.reservePolicyCandidate_cases w.nextUuid member coordinator key digest now with
        ⟨e, h⟩ | ⟨route, hroute, -, hnone, h⟩
      · exact closingKept_of_eq (congrArg Prod.fst h :) (closingKept_of_routes rfl)
      · exact closingKept_of_eq (congrArg Prod.fst h :)
          (closingKept_setRoute hroute rfl (Or.inl hnone))
    | markRequestSubmitted context submitted =>
      rcases w.inner.markRequestSubmitted_cases context submitted with
        h | ⟨route, policy, hroute, -, -, h⟩
      · exact closingKept_of_routes ((congrArg routes h).trans rfl)
      · exact closingKept_setRoute hroute ((congrArg routes h).trans rfl) (Or.inr ⟨rfl, rfl, rfl, rfl⟩)
    | registerRequest proof now =>
      rcases w.inner.registerRequest_cases proof now with
        ⟨e, h⟩ | ⟨route, policy, hroute, -, -, h | ⟨-, h⟩⟩
      · exact closingKept_of_eq (congrArg Prod.fst h :) (closingKept_of_routes rfl)
      · exact closingKept_of_eq (congrArg Prod.fst h :)
          (closingKept_setRoute hroute rfl (Or.inr ⟨rfl, rfl, rfl, rfl⟩))
      · exact closingKept_of_eq (congrArg Prod.fst h :)
          (closingKept_setRoute hroute rfl (Or.inr ⟨rfl, rfl, rfl, rfl⟩))
    | admitReturn member coordinator key digest now =>
      rcases w.inner.admitReturn_cases member coordinator key digest now with
        ⟨e, h | h⟩ | ⟨route, policy, sequence, hadmit, ⟨-, h⟩ | ⟨-, h⟩⟩
      · exact closingKept_of_eq (congrArg Prod.fst h :) (closingKept_of_routes rfl)
      · exact closingKept_of_eq (congrArg Prod.fst h :) (closingKept_of_routes rfl)
      · exact closingKept_of_eq (congrArg Prod.fst h :) (closingKept_of_routes rfl)
      · exact closingKept_of_eq (congrArg Prod.fst h :)
          (closingKept_setRoute hadmit.found rfl (Or.inr ⟨rfl, rfl, rfl, rfl⟩))
    | settleReturn c success now =>
      rcases w.inner.settleReturn_cases c success now with
        ⟨digest, -, h⟩ | ⟨-, ⟨e, h, -⟩ | ⟨route, policy, hout, h⟩⟩
      · exact closingKept_of_eq (congrArg Prod.fst h :) (closingKept_of_routes rfl)
      · exact closingKept_of_eq (congrArg Prod.fst h :) (closingKept_of_routes rfl)
      · exact closingKept_of_eq (congrArg Prod.fst h :)
          (closingKept_setRoute hout.found rfl (Or.inr ⟨rfl, rfl, rfl, rfl⟩))
    | selectTicket j now =>
      rcases w.inner.selectTicket_cases w.nextUuid j now with
        ⟨e, h⟩ | ⟨route, policy, hroute, -, -, h⟩
      · exact closingKept_of_eq (congrArg Prod.fst h :) (closingKept_of_routes rfl)
      · exact closingKept_of_eq (congrArg Prod.fst h :)
          (closingKept_setRoute hroute rfl (Or.inr ⟨rfl, rfl, rfl, rfl⟩))
    | tryCommitResponseClose ticket now =>
      rcases w.inner.tryCommitResponseClose_cases ticket now with
        ⟨e, h⟩ | ⟨route, hroute, hsafe, -, h⟩
      · exact closingKept_of_eq (congrArg Prod.fst h :) (closingKept_of_routes rfl)
      · obtain ⟨policy, registeredAt, successAt, hs⟩ := safe_spec hsafe
        exact closingKept_of_eq (congrArg Prod.fst h :)
          (closingKept_setRoute hroute rfl (Or.inl hs.closing))
    | finishResponseClose ticket evidence =>
      rcases w.inner.finishResponseClose_cases ticket evidence with
        h | ⟨route, hroute, hrejected, hfin⟩
      · exact closingKept_of_eq (congrArg Prod.fst h :) (closingKept_of_routes rfl)
      · have hne : id ≠ ticket.sessionId := by
          intro hid
          subst hid
          cases hroute.symm.trans hr
          have hnonce := rejected_false hrejected
          rw [hn] at hnonce
          have hnot := he ticket rfl (Option.some.inj hnonce).symm
          have htrue : (w.inner.finishResponseClose ticket evidence).2 = true :=
            hfin.elim (congrArg Prod.snd) (congrArg Prod.snd)
          unfold Settles act at hnot
          dsimp only at hnot
          rw [htrue] at hnot
          simp at hnot
        rcases hfin with h | h
        · exact closingKept_of_eq (congrArg Prod.fst h :) (closingKept_erase hroute (Or.inr hne) rfl)
        · intro r₀ hr₀ hc
          change ∃ r', (w.inner.finishResponseClose ticket evidence).1.routes.lookup id = some r' ∧ _
          rw [h, lookup_setRoute, if_neg hne]
          exact ⟨r₀, hr₀, rfl, rfl, rfl, rfl⟩
    | poison | failClosed | read | tryEnableReadiness | publish | applySettings
    | beginUnresolvedSpawn | endUnresolvedSpawn | reserveWork | acceptDurable | dropWork
    | settleTerminal | beginDelivery | dropDelivery | reserveCreateOwner | dropCreateOwner =>
      cases hobs

open ResponseCloseInner in
/-- A nonce that was drawn before came from the same route, selected if not closing. -/
theorem descends_act (w : World) (e : Event) {id n : Uuid}
    (hn : ∀ j now t, e = .selectTicket j now → (w.act w.inner e).2 = .ticket t → n ≠ w.nextUuid) :
    Descends id n w.inner (w.act w.inner e).1 := by
  have hnothing : ∀ (o : Option ResponseClosePolicy) (p' : ResponseClosePolicy),
      (none : Option ResponseClosePolicy) = some p' → p'.selected = some n →
      ∃ p, o = some p ∧ p.selected = some n := by
    intro o p' hp'
    cases hp'
  cases hobs : e.observes with
  | true => exact descends_of_kept (Observed.keeps (w.observed_act w.inner hobs))
  | false =>
    cases e with
    | registerRoute j generation now =>
      rcases w.inner.registerRoute_cases j generation now with h | ⟨-, h⟩
      · exact descends_of_routes ((congrArg routes h).trans rfl)
      · refine descends_of_eq h ⟨?_, ?_⟩
        · rintro ⟨r, p, hr, hp, hsel⟩
          rw [lookup_setRoute] at hr
          split_ifs at hr
          · cases hr
            cases hp
          · exact ⟨r, p, hr, hp, hsel⟩
        · rintro ⟨r, hr, hc⟩
          rw [lookup_setRoute] at hr
          split_ifs at hr
          · cases hr
            cases hc
          · exact Or.inl ⟨r, hr, hc⟩
    | removeRoute j generation =>
      rcases w.inner.removeRoute_cases j generation with h | ⟨route, hroute, -, ⟨-, h⟩ | h⟩
      · exact descends_of_routes ((congrArg routes h).trans rfl)
      · exact descends_of_eq h (descends_erase rfl)
      · exact descends_of_eq h (descends_setRoute hroute rfl (hnothing _) Or.inl)
    | reserveWriterInner j generation invalidate now =>
      exact descends_of_kept (kept_reserveWriterInner j generation invalidate now)
    | dropWriter a now => exact descends_of_kept (kept_dropWriter a now)
    | reservePolicyCandidate member coordinator key digest now =>
      rcases w.inner.reservePolicyCandidate_cases w.nextUuid member coordinator key digest now with
        ⟨e, h⟩ | ⟨route, hroute, -, -, h⟩
      · exact descends_of_eq (congrArg Prod.fst h :) (descends_of_routes rfl)
      · refine descends_of_eq (congrArg Prod.fst h :) (descends_setRoute hroute rfl ?_ Or.inl)
        intro p' hp' hsel
        cases hp'
        cases hsel
    | markRequestSubmitted context submitted =>
      rcases w.inner.markRequestSubmitted_cases context submitted with
        h | ⟨route, policy, hroute, hpolicy, -, h⟩
      · exact descends_of_routes ((congrArg routes h).trans rfl)
      · refine descends_of_eq h (descends_setRoute hroute rfl ?_ Or.inl)
        intro p' hp' hsel
        change (if submitted then _ else none) = some p' at hp'
        split_ifs at hp'
        cases hp'
        exact ⟨policy, hpolicy, hsel⟩
    | registerRequest proof now =>
      rcases w.inner.registerRequest_cases proof now with
        ⟨e, h⟩ | ⟨route, policy, hroute, hpolicy, -, h | ⟨-, h⟩⟩
      · exact descends_of_eq (congrArg Prod.fst h :) (descends_of_routes rfl)
      · exact descends_of_eq (congrArg Prod.fst h :)
          (descends_setRoute hroute rfl (hnothing _) Or.inl)
      · refine descends_of_eq (congrArg Prod.fst h :) (descends_setRoute hroute rfl ?_ Or.inl)
        intro p' hp' hsel
        cases hp'
        exact ⟨policy, hpolicy, hsel⟩
    | admitReturn member coordinator key digest now =>
      rcases w.inner.admitReturn_cases member coordinator key digest now with
        ⟨e, h | h⟩ | ⟨route, policy, sequence, hadmit, ⟨-, h⟩ | ⟨-, h⟩⟩
      · exact descends_of_eq (congrArg Prod.fst h :) (descends_of_routes rfl)
      · exact descends_of_eq (congrArg Prod.fst h :) (descends_of_routes rfl)
      · exact descends_of_eq (congrArg Prod.fst h :) (descends_of_routes rfl)
      · refine descends_of_eq (congrArg Prod.fst h :)
          (descends_setRoute hadmit.found rfl ?_ Or.inl)
        intro p' hp' hsel
        cases hp'
        cases hsel
    | settleReturn c success now =>
      rcases w.inner.settleReturn_cases c success now with
        ⟨digest, -, h⟩ | ⟨-, ⟨e, h, -⟩ | ⟨route, policy, hout, h⟩⟩
      · exact descends_of_eq (congrArg Prod.fst h :) (descends_of_routes rfl)
      · exact descends_of_eq (congrArg Prod.fst h :) (descends_of_routes rfl)
      · refine descends_of_eq (congrArg Prod.fst h :) (descends_setRoute hout.found rfl ?_ Or.inl)
        intro p' hp' hsel
        cases hp'
        cases hsel
    | selectTicket j now =>
      rcases w.inner.selectTicket_cases w.nextUuid j now with
        ⟨e, h⟩ | ⟨route, policy, hroute, -, -, h⟩
      · exact descends_of_eq (congrArg Prod.fst h :) (descends_of_routes rfl)
      · refine descends_of_eq (congrArg Prod.fst h :) (descends_setRoute hroute rfl ?_ Or.inl)
        intro p' hp' hsel
        cases hp'
        exact absurd (Option.some.inj hsel).symm
          (hn j now _ rfl (congrArg (Answer.of .ticket) (congrArg Prod.snd h)))
    | tryCommitResponseClose ticket now =>
      rcases w.inner.tryCommitResponseClose_cases ticket now with
        ⟨e, h⟩ | ⟨route, hroute, -, hcurrent, h⟩
      · exact descends_of_eq (congrArg Prod.fst h :) (descends_of_routes rfl)
      · refine descends_of_eq (congrArg Prod.fst h :)
          (descends_setRoute hroute rfl (hnothing _) fun hc => Or.inr ?_)
        cases hc
        obtain ⟨p, hp, hsel, -⟩ := ticketCurrent_spec hcurrent
        exact ⟨p, hp, hsel⟩
    | finishResponseClose ticket evidence =>
      rcases w.inner.finishResponseClose_cases ticket evidence with
        h | ⟨route, hroute, -, h | h⟩
      · exact descends_of_eq (congrArg Prod.fst h :) (descends_of_routes rfl)
      · exact descends_of_eq (congrArg Prod.fst h :) (descends_erase rfl)
      · refine descends_of_eq (congrArg Prod.fst h :)
          (descends_setRoute hroute rfl (hnothing _) fun hc => ?_)
        cases hc
    | poison | failClosed | read | tryEnableReadiness | publish | applySettings
    | beginUnresolvedSpawn | endUnresolvedSpawn | reserveWork | acceptDurable | dropWork
    | settleTerminal | beginDelivery | dropDelivery | reserveCreateOwner | dropCreateOwner =>
      cases hobs

theorem le_nextUuid (w : World) (e : Event) : w.nextUuid ≤ (tracker.next w e).nextUuid := by
  change w.nextUuid ≤ (w.enter e (w.respond e).2).nextUuid
  unfold enter
  split <;> first | exact Nat.le_refl _ | exact Nat.le_succ _ | skip
  · split_ifs <;> exact Nat.le_refl _
  · split_ifs <;> exact Nat.le_refl _

open ResponseCloseInner in
/-- Every nonce a route carries has been drawn. -/
def Drawn (w : World) : Prop :=
  ∀ id n, w.inner.Selected id n ∨ w.inner.Closes id n → n < w.nextUuid

theorem drawn_next {w : World} (h : w.Drawn) (e : Event) : (tracker.next w e).Drawn := by
  intro id n hn
  have hle := w.le_nextUuid e
  suffices hback : (w.inner.Selected id n ∨ w.inner.Closes id n) ∨
      n < (tracker.next w e).nextUuid from
    hback.elim (fun hw => Nat.lt_of_lt_of_le (h id n hw) hle) fun hlt => hlt
  change (w.respond e).1.inner.Selected id n ∨ (w.respond e).1.inner.Closes id n at hn
  rcases w.respond_cases e with ⟨hinner, -⟩ | hfailing | hacting
  · rw [hinner] at hn
    exact Or.inl hn
  · have hdesc : w.inner.Descends id n (w.respond e).1.inner :=
      ResponseCloseInner.descends_of_kept (ResponseCloseInner.Observed.keeps hfailing.observed)
    exact Or.inl (hn.elim (fun hs => Or.inl (hdesc.selected hs)) fun hc => (hdesc.closing hc).symm)
  · by_cases hticket : ∃ j now t, e = .selectTicket j now ∧ (w.act w.inner e).2 = .ticket t ∧
        n = w.nextUuid
    · obtain ⟨j, now, t, rfl, ht, rfl⟩ := hticket
      refine Or.inr ?_
      change w.nextUuid < (w.enter _ (w.respond _).2).nextUuid
      rw [hacting.answer, ht]
      exact Nat.lt_succ_self _
    · have hdesc : w.inner.Descends id n (w.act w.inner e).1 :=
        w.descends_act e fun j now t he ht heq => hticket ⟨j, now, t, he, ht, heq⟩
      rw [hacting.inner] at hn
      exact Or.inl
        (hn.elim (fun hs => Or.inl (hdesc.selected hs)) fun hc => (hdesc.closing hc).symm)

/-- The ticket's nonce is neither selected nor committed, and never will be again. -/
structure Spent (w : World) (ticket : ResponseCloseTicket) : Prop where
  drawn : ticket.selectionNonce < w.nextUuid
  selected : ¬ w.inner.Selected ticket.sessionId ticket.selectionNonce
  closing : ¬ w.inner.Closes ticket.sessionId ticket.selectionNonce

/-- The same of a step: a nonce drawn before it came from the same route. -/
theorem descends_next {w : World} {id n : Uuid} (hn : n < w.nextUuid) (e : Event) :
    w.inner.Descends id n (tracker.next w e).inner := by
  change w.inner.Descends id n (w.respond e).1.inner
  rcases w.respond_cases e with ⟨hinner, -⟩ | hfailing | hacting
  · exact ResponseCloseInner.descends_of_routes (congrArg _ hinner)
  · exact ResponseCloseInner.descends_of_kept (ResponseCloseInner.Observed.keeps hfailing.observed)
  · rw [hacting.inner]
    exact w.descends_act e fun _ _ _ _ _ => Nat.ne_of_lt hn

theorem spent_next {w : World} {ticket : ResponseCloseTicket} (h : w.Spent ticket) (e : Event) :
    (tracker.next w e).Spent ticket := by
  have hdesc : w.inner.Descends ticket.sessionId ticket.selectionNonce (tracker.next w e).inner :=
    descends_next h.drawn e
  exact ⟨Nat.lt_of_lt_of_le h.drawn (w.le_nextUuid e), fun hs => h.selected (hdesc.selected hs),
    fun hc => (hdesc.closing hc).elim h.closing h.selected⟩

theorem settles_spec {ticket : ResponseCloseTicket} {e : Event} {a : Answer}
    (h : Settles ticket (e, a) = true) : ∃ t evidence, e = .finishResponseClose t evidence ∧
      a = .finished true ∧ t.sessionId = ticket.sessionId ∧
      t.selectionNonce = ticket.selectionNonce := by
  unfold Settles at h
  split at h
  · rename_i t evidence heq
    cases heq
    obtain ⟨hid, hn⟩ := of_decide_eq_true h
    exact ⟨t, evidence, rfl, rfl, hid, hn⟩
  · cases h

/-- An accepted settlement finds the route closing, and spends the ticket. -/
theorem spent_of_settles {w : World} (hw : w.Drawn) {ticket : ResponseCloseTicket} {e : Event}
    (h : Settles ticket (e, tracker.answer w e) = true) :
    w.inner.Closes ticket.sessionId ticket.selectionNonce ∧ (tracker.next w e).Spent ticket := by
  obtain ⟨t, evidence, rfl, ha, hid, hn⟩ := settles_spec h
  change (w.respond (.finishResponseClose t evidence)).2 = .finished true at ha
  have hacting := acting_of_granted (by rw [ha]; rfl)
  have htrue : (w.inner.finishResponseClose t evidence).2 = true :=
    Answer.finished.inj (hacting.answer.symm.trans ha)
  have hinner : (w.respond (.finishResponseClose t evidence)).1.inner =
      (w.inner.finishResponseClose t evidence).1 := hacting.inner
  rcases w.inner.finishResponseClose_cases t evidence with h | ⟨route, hroute, hrejected, hfin⟩
  · rw [h] at htrue
    cases htrue
  · have hcloses : w.inner.Closes ticket.sessionId ticket.selectionNonce :=
      ⟨route, hid ▸ hroute, hn ▸ rejected_false hrejected⟩
    refine ⟨hcloses, Nat.lt_of_lt_of_le (hw _ _ (Or.inr hcloses)) (w.le_nextUuid _), ?_, ?_⟩
    · rintro ⟨r, p, hr, hp, -⟩
      change (w.respond (.finishResponseClose t evidence)).1.inner.routes.lookup _ = some r at hr
      rcases hfin with h | h <;> rw [hinner, h, ← hid] at hr
      · rw [Assoc.lookup_erase_eq, if_pos rfl] at hr
        cases hr
      · rw [ResponseCloseInner.lookup_setRoute, if_pos rfl] at hr
        cases hr
        cases hp
    · rintro ⟨r, hr, hc⟩
      change (w.respond (.finishResponseClose t evidence)).1.inner.routes.lookup _ = some r at hr
      rcases hfin with h | h <;> rw [hinner, h, ← hid] at hr
      · rw [Assoc.lookup_erase_eq, if_pos rfl] at hr
        cases hr
      · rw [ResponseCloseInner.lookup_setRoute, if_pos rfl] at hr
        cases hr
        cases hc

/-- How often a ticket was settled, and what is left of it. -/
structure SettledOnce (ticket : ResponseCloseTicket) (w : World) : Prop where
  drawn : w.Drawn
  once : w.history.countP (Settles ticket) = 0 ∨
    w.history.countP (Settles ticket) = 1 ∧ w.Spent ticket

theorem settledOnce_next {ticket : ResponseCloseTicket} {w : World} (h : SettledOnce ticket w)
    (e : Event) : SettledOnce ticket (tracker.next w e) := by
  refine ⟨drawn_next h.drawn e, ?_⟩
  have hhistory : (tracker.next w e).history = (e, tracker.answer w e) :: w.history := rfl
  rw [hhistory, List.countP_cons]
  cases hsettles : Settles ticket (e, tracker.answer w e) with
  | true =>
    obtain ⟨hcloses, hspent⟩ := spent_of_settles h.drawn hsettles
    rcases h.once with hzero | ⟨-, hold⟩
    · exact Or.inr ⟨by rw [hzero]; rfl, hspent⟩
    · exact absurd hcloses hold.closing
  | false =>
    rcases h.once with hzero | ⟨hone, hold⟩
    · exact Or.inl (by rw [hzero]; rfl)
    · exact Or.inr ⟨by rw [hone]; rfl, spent_next hold e⟩

theorem settledOnce_run (ticket : ResponseCloseTicket) (es : List Event) :
    SettledOnce ticket (tracker.run initial es) := by
  have hdrawn : initial.Drawn := by
    rintro id n (⟨r, p, hr, -⟩ | ⟨r, hr, -⟩) <;> cases hr
  have hinitial : SettledOnce ticket initial := ⟨hdrawn, Or.inl rfl⟩
  have hstep : ∀ w e, SettledOnce ticket w → SettledOnce ticket (tracker.next w e) :=
    fun _ e h => settledOnce_next h e
  exact Machine.run_inv_free hstep hinitial es

/-- The route of a committed ticket is closing, and shuts its target. -/
structure Shut (w : World) (ticket : ResponseCloseTicket) : Prop where
  closing : ∃ r, w.inner.routes.lookup ticket.sessionId = some r ∧
    r.generation = ticket.generation ∧ r.closing = some ticket.selectionNonce ∧
    r.closingTarget = some ticket.member.target

theorem shut_next {w : World} {ticket : ResponseCloseTicket} (h : w.Shut ticket) {e : Event}
    (he : Settles ticket (e, tracker.answer w e) = false) : (tracker.next w e).Shut ticket := by
  obtain ⟨r, hr, hgeneration, hclosing, htarget⟩ := h.closing
  suffices hkept : ∃ r', (w.respond e).1.inner.routes.lookup ticket.sessionId = some r' ∧
      Marked r r' by
    obtain ⟨r', hr', hm⟩ := hkept
    exact ⟨r', hr', hm.generation.trans hgeneration, hm.closing.trans hclosing,
      hm.closingTarget.trans htarget⟩
  rcases w.respond_cases e with ⟨hinner, -⟩ | hfailing | hacting
  · rw [hinner]
    exact ⟨r, hr, rfl, rfl, rfl, rfl⟩
  · obtain ⟨r', hr', hobs⟩ := hfailing.observed.after hr
    exact ⟨r', hr', hobs.marked⟩
  · rw [hacting.inner]
    refine w.closingKept_act hr hclosing fun t hid hn => ?_
    change Settles ticket (e, (w.respond e).2) = false at he
    rw [hacting.answer] at he
    unfold Settles at he ⊢
    rw [hid, hn]
    exact he

theorem shut_of_committed {w : World} {ticket : ResponseCloseTicket} {now : Instant} {n : Uuid}
    (h : tracker.answer w (.tryCommitResponseClose ticket now) = .committed n) :
    (tracker.next w (.tryCommitResponseClose ticket now)).Shut ticket := by
  change (w.respond (.tryCommitResponseClose ticket now)).2 = .committed n at h
  have hacting := acting_of_granted (by rw [h]; rfl)
  rw [hacting.answer] at h
  rcases w.inner.tryCommitResponseClose_cases ticket now with
    ⟨e, heq⟩ | ⟨route, -, -, hcurrent, heq⟩
  · unfold act at h
    dsimp only at h
    rw [heq] at h
    cases h
  · obtain ⟨p, hp, -, -, hmember, hgeneration⟩ := ResponseCloseInner.ticketCurrent_spec hcurrent
    refine ⟨route.close ticket, ?_, hgeneration, rfl, ?_⟩
    · change (w.respond (.tryCommitResponseClose ticket now)).1.inner.routes.lookup _ = _
      have hinner : (w.respond (.tryCommitResponseClose ticket now)).1.inner =
          (w.inner.tryCommitResponseClose ticket now).1 := hacting.inner
      rw [hinner, heq, ResponseCloseInner.lookup_setRoute, if_pos rfl]
    · change route.policy.map (·.member.target) = some ticket.member.target
      rw [hp, ← hmember]
      rfl

theorem targetIsClosing_of_shut {w : World} {ticket : ResponseCloseTicket} (h : w.Shut ticket) :
    w.inner.targetIsClosing ticket.member.target = true := by
  obtain ⟨r, hr, -, hclosing, htarget⟩ := h.closing
  unfold ResponseCloseInner.targetIsClosing
  rw [List.any_eq_true]
  refine ⟨r, Assoc.mem_values.mpr ⟨_, hr⟩, ?_⟩
  rw [hclosing, htarget, decide_eq_true rfl]
  rfl

theorem routes_lockAnyway (s : ResponseCloseState) : s.lockAnyway.inner.routes = s.inner.routes := by
  unfold ResponseCloseState.lockAnyway
  split_ifs <;> rfl

theorem writer_deferred {w : World} {ticket : ResponseCloseTicket} (h : w.Shut ticket)
    (invalidate : Bool) (now : Instant) :
    tracker.answer w (.reserveWriterInner ticket.sessionId ticket.generation invalidate now) =
      .error .closingDeferred := by
  obtain ⟨r, hr, hgeneration, hclosing, -⟩ := h.closing
  rw [← routes_lockAnyway] at hr
  have hat : w.state.lockAnyway.inner.closingAt ticket.sessionId ticket.generation = true := by
    unfold ResponseCloseInner.closingAt
    rw [hr, Option.any_some, hgeneration, hclosing, decide_eq_true rfl]
    rfl
  have hfound : (w.state.lockAnyway.inner.routes.lookup ticket.sessionId).filter
      (fun r => decide (r.generation = ticket.generation)) = some r :=
    Option.filter_eq_some_iff.mpr ⟨hr, decide_eq_true hgeneration⟩
  have hreserve : (w.state.lockAnyway.inner.reserveWriterInner ticket.sessionId ticket.generation
      invalidate now).2 = .error .closingDeferred := by
    unfold ResponseCloseInner.reserveWriterInner
    rw [if_neg (by rw [hat]; exact fun hand => Bool.noConfusion hand.2), hfound]
    dsimp only
    rw [hclosing]
    rfl
  exact congrArg (Answer.of .writer) hreserve

theorem delivery_deferred {w : World} {ticket : ResponseCloseTicket} (h : w.Shut ticket) :
    tracker.answer w (.beginDelivery ticket.member.target) = .error .closingDeferred := by
  have hshut : w.state.lockAnyway.inner.targetIsClosing ticket.member.target = true := by
    have hw := targetIsClosing_of_shut h
    unfold ResponseCloseInner.targetIsClosing at hw ⊢
    rw [routes_lockAnyway]
    exact hw
  have hbegin : (w.state.lockAnyway.inner.beginDelivery ticket.member.target).2 =
      .error .closingDeferred := by
    unfold ResponseCloseInner.beginDelivery
    rw [if_pos hshut]
  exact congrArg (Answer.of .delivery) hbegin

theorem create_not_reserved {w : World} {ticket : ResponseCloseTicket} (h : w.Shut ticket)
    (nonce : Uuid) (classification : CreateClassification) (now : Instant)
    (a : CreateOwnerReservation) :
    tracker.answer w (.reserveCreateOwner ticket.member.target nonce classification now) ≠
      .create (.reserved a) := by
  intro ha
  change (w.respond _).2 = _ at ha
  have hacting := acting_of_granted (by rw [ha]; rfl)
  rw [hacting.answer] at ha
  unfold act ResponseCloseInner.reserveCreateOwner at ha
  dsimp only at ha
  rw [if_pos (targetIsClosing_of_shut h)] at ha
  split_ifs at ha <;> cases ha

/-- From a commit on its route admits no writer, and its target no delivery and no creation, until
its settlement is accepted. That happens at most once. -/
theorem closingLaw (before after : List Event) (ticket : ResponseCloseTicket) (now : Instant)
    (n : Uuid) (h : tracker.answer (tracker.run initial before)
      (.tryCommitResponseClose ticket now) = .committed n) :
    (tracker.Along (fun w e => Settles ticket (e, tracker.answer w e) = false)
        (tracker.next (tracker.run initial before) (.tryCommitResponseClose ticket now)) after →
      ∀ w, w = tracker.run initial (before ++ .tryCommitResponseClose ticket now :: after) →
        (∀ invalidate now, tracker.answer w
          (.reserveWriterInner ticket.sessionId ticket.generation invalidate now) =
            .error .closingDeferred) ∧
        tracker.answer w (.beginDelivery ticket.member.target) = .error .closingDeferred ∧
        ∀ nonce classification now a, tracker.answer w
          (.reserveCreateOwner ticket.member.target nonce classification now) ≠
            .create (.reserved a)) ∧
    (tracker.run initial (before ++ .tryCommitResponseClose ticket now :: after)).history.countP
      (Settles ticket) ≤ 1 := by
  constructor
  · rintro halong w rfl
    rw [Machine.run_append, Machine.run_cons]
    have hstep : ∀ w e, w.Shut ticket → Settles ticket (e, tracker.answer w e) = false →
        (tracker.next w e).Shut ticket := fun _ _ hw he => shut_next hw he
    have hshut := Machine.run_inv hstep (shut_of_committed h) halong
    exact ⟨fun invalidate now => writer_deferred hshut invalidate now, delivery_deferred hshut,
      fun nonce classification now a => create_not_reserved hshut nonce classification now a⟩
  · rcases (settledOnce_run ticket
      (before ++ .tryCommitResponseClose ticket now :: after)).once with hzero | ⟨hone, -⟩
    · exact Nat.le_trans (Nat.le_of_eq hzero) (Nat.zero_le 1)
    · exact Nat.le_of_eq hone

theorem closingLaw_of_failed :
    tracker.answer (tracker.run initial (selectedRun ++
      .tryCommitResponseClose sampleTicket (30 * 10 ^ 9) :: [.failClosed, .poison]))
        (.beginDelivery "room/member") = .error .closingDeferred ∧
    (tracker.run initial (selectedRun ++
      .tryCommitResponseClose sampleTicket (30 * 10 ^ 9) :: [.failClosed, .poison])).history.countP
        (Settles sampleTicket) ≤ 1 := by
  have hlaw := closingLaw selectedRun [.failClosed, .poison] sampleTicket (30 * 10 ^ 9) 1
    (by decide +kernel)
  have hshut := hlaw.1 (by decide +kernel) _ rfl
  exact ⟨hshut.2.1, hlaw.2⟩

end World
end AgentsCommander.ResponseClose
