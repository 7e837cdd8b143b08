import AgentsCommander.ResponseClose.Evidence

/-! A return is settled once, at the policy that admitted it, as long as nobody settles a return
of an earlier policy that its successor has admitted too. -/
namespace AgentsCommander.ResponseClose
open Foundation Sessions

namespace World
open ResponseCloseInner

def policyAt (w : World) (id : Uuid) : Option ResponseClosePolicy :=
  (w.inner.routes.lookup id).bind (·.policy)

theorem policyAt_eq_some {w : World} {id : Uuid} {p : ResponseClosePolicy}
    (h : w.policyAt id = some p) :
    ∃ r, w.inner.routes.lookup id = some r ∧ r.policy = some p :=
  Option.bind_eq_some_iff.mp h

/-- A settlement by an issued context of the current policy clears its return, and a success
counts, except that settling it once more does nothing. While the tracker is open, a return that is
owed is always accepted. -/
def SettlesRight (w : World) : Event → Prop
  | .settleReturn c success now => c ∈ w.issued → ∀ p, w.policyAt c.sessionId = some p →
      p.nonce = c.nonce →
      (w.inner.failed = false → w.state.poisoned = false → c.key ∈ p.returns →
        tracker.answer w (.settleReturn c success now) = .done) ∧
      (tracker.answer w (.settleReturn c success now) = .done →
        ∃ p', (tracker.next w (.settleReturn c success now)).policyAt c.sessionId = some p' ∧
          p'.nonce = c.nonce ∧ c.key ∉ p'.returns ∧
          (success = true → c.settingsEpoch = w.inner.settingsEpoch →
            (∃ t, p'.successAt = some t ∧ now ≤ t) ∨
              w.SettledReturn c.sessionId c.nonce c.key ∧
                (tracker.next w (.settleReturn c success now)).inner = w.inner))
  | _ => True

/-- Where a return is owed by a policy, it is settled by a context of that policy. -/
def Unmixed (w : World) : Event → Prop
  | .settleReturn c _ _ => ∀ p, w.policyAt c.sessionId = some p → p.member = c.member →
      p.coordinator = c.coordinator → c.key ∈ p.returns → p.nonce = c.nonce
  | _ => True

instance (w : World) : DecidablePred w.Unmixed
  | .settleReturn c _ _ =>
    decidable_of_iff (((w.policyAt c.sessionId).all fun p => decide (p.member = c.member →
      p.coordinator = c.coordinator → c.key ∈ p.returns → p.nonce = c.nonce)) = true)
      (by simp only [Option.all_eq_true, decide_eq_true_eq]; rfl)
  | .poison | .failClosed | .read | .tryEnableReadiness | .publish .. | .applySettings ..
  | .registerRoute .. | .removeRoute .. | .beginUnresolvedSpawn _ | .endUnresolvedSpawn _
  | .reserveWriterInner .. | .dropWriter .. | .reserveWork .. | .acceptDurable .. | .dropWork ..
  | .settleTerminal .. | .beginDelivery _ | .dropDelivery .. | .reserveCreateOwner ..
  | .dropCreateOwner .. | .reservePolicyCandidate .. | .markRequestSubmitted ..
  | .registerRequest .. | .admitReturn .. | .selectTicket .. | .tryCommitResponseClose ..
  | .finishResponseClose .. => isTrue trivial

/-- No return is both owed and remembered as settled. -/
structure Unwedged (w : World) : Prop where
  homes : ∀ c ∈ w.issued, c.sessionId = c.member.sessionId
  owed : ∀ id r p, w.inner.routes.lookup id = some r → r.policy = some p →
    ∀ key ∈ p.returns, (p.member, p.coordinator, key) ∉ w.inner.terminalReturns

theorem homes_next {w : World} (h : ∀ c ∈ w.issued, c.sessionId = c.member.sessionId) (e : Event) :
    ∀ c ∈ (tracker.next w e).issued, c.sessionId = c.member.sessionId := by
  cases hadmits : e.admits with
  | false =>
    rw [w.issued_next hadmits]
    exact h
  | true =>
    cases e with
    | admitReturn member coordinator key digest now =>
      have hissued : (tracker.next w (.admitReturn member coordinator key digest now)).issued =
          (w.enter (.admitReturn member coordinator key digest now)
            (w.respond (.admitReturn member coordinator key digest now)).2).issued := rfl
      intro c hc
      cases ha : (w.respond (.admitReturn member coordinator key digest now)).2 with
      | returned c' =>
        rw [hissued, ha] at hc
        rcases List.mem_cons.mp hc with rfl | hc
        · rcases w.respond_cases (.admitReturn member coordinator key digest now) with
            ⟨-, he | ⟨hheld, -⟩⟩ | hfailing | hacting
          · cases he
          · cases hheld
          · have hhollow := hfailing.hollow
            rw [ha] at hhollow
            cases hhollow
          · have hanswer := hacting.answer.symm.trans ha
            unfold act at hanswer
            dsimp only at hanswer
            rcases w.inner.admitReturn_cases member coordinator key digest now with
              ⟨e, heq | heq⟩ | ⟨route, policy, sequence, -, ⟨-, heq⟩ | ⟨-, heq⟩⟩ <;>
              rw [heq] at hanswer <;> cases hanswer <;> rfl
        · exact h c hc
      | _ =>
        rw [hissued, ha] at hc
        exact h c hc
    | _ => cases hadmits

theorem Unwedged.keep {w : World} (h : w.Unwedged) {e : Event}
    (hpolicies : PoliciesKept w.inner (tracker.next w e).inner)
    (hterminal : (tracker.next w e).inner.terminalReturns = w.inner.terminalReturns) :
    (tracker.next w e).Unwedged := by
  refine ⟨homes_next h.homes e, ?_⟩
  intro id r' p' hr' hp' key hkey
  obtain ⟨r, p, hr, hp, -, heq⟩ := hpolicies id r' p' hr' hp'
  generalize p'.settingsEpoch = epoch at heq
  generalize p'.selected = selected at heq
  subst heq
  rw [hterminal]
  exact h.owed id r p hr hp key hkey

/-- One route's policy is replaced by one whose returns are not settled. -/
theorem Unwedged.set {w : World} (h : w.Unwedged) {e : Event} {j : Uuid} {r₁ : ResponseCloseRoute}
    (p₁ : ResponseClosePolicy) (hp₁ : r₁.policy = some p₁)
    (hroutes : (tracker.next w e).inner.routes = (w.inner.setRoute j r₁).routes)
    (hterminal : (tracker.next w e).inner.terminalReturns = w.inner.terminalReturns)
    (hj : ∀ key ∈ p₁.returns, (p₁.member, p₁.coordinator, key) ∉ w.inner.terminalReturns) :
    (tracker.next w e).Unwedged := by
  refine ⟨homes_next h.homes e, ?_⟩
  intro id r' p' hr' hp' key hkey
  rw [hterminal]
  rcases lookup_of_setRoute hroutes hr' with ⟨rfl, rfl⟩ | ⟨-, hr⟩
  · cases hp₁.symm.trans hp'
    exact hj key hkey
  · exact h.owed id r' p' hr hp' key hkey

/-- The policy that owes the return of an unmixed settlement is the one that admitted it. -/
theorem outstanding_of_owed {w : World} (hsound : w.Sound) (h : w.Unwedged)
    {c : ReturnObservationContext} (hc : c ∈ w.issued) {success : Bool} {now : Instant}
    (hunmixed : w.Unmixed (.settleReturn c success now)) {id : Uuid} {r : ResponseCloseRoute}
    {p : ResponseClosePolicy} (hr : w.inner.routes.lookup id = some r) (hp : r.policy = some p)
    (hmember : p.member = c.member) (hcoordinator : p.coordinator = c.coordinator)
    (hkey : c.key ∈ p.returns) : id = c.sessionId ∧ w.inner.Outstanding c r p := by
  have hevidence := hsound.policies id r p hr hp
  have hid : id = c.sessionId := by
    rw [h.homes c hc, ← hmember]
    exact hevidence.home.symm
  subst hid
  have hat : w.policyAt c.sessionId = some p := by
    unfold policyAt
    rw [hr]
    exact hp
  have hnonce := hunmixed p hat hmember hcoordinator hkey
  have hacc := hevidence.returns c hc rfl hnonce.symm
  refine ⟨rfl, hr, hp, hnonce, hmember, hcoordinator, hacc.workEpoch.symm, ?_⟩
  rcases hacc.stands with howed | ⟨hnone, -, -⟩
  · exact howed
  · exact absurd hkey (AList.lookup_eq_none.mp hnone)

theorem unwedged_settled {w : World} (hsound : w.Sound) (h : w.Unwedged)
    {c : ReturnObservationContext} {success : Bool} {now : Instant}
    (hunmixed : w.Unmixed (.settleReturn c success now))
    (ha : w.Acting (.settleReturn c success now)) :
    (tracker.next w (.settleReturn c success now)).Unwedged := by
  have hinner : (tracker.next w (.settleReturn c success now)).inner =
      (w.inner.settleReturn c success now).1 := ha.inner
  have hheld : c ∈ w.issued := of_decide_eq_true ha.held
  have howner : ∀ id r p, w.inner.routes.lookup id = some r → r.policy = some p →
      p.member = c.member → p.coordinator = c.coordinator → c.key ∈ p.returns →
      id = c.sessionId ∧ w.inner.Outstanding c r p :=
    fun _ _ _ hr hp hm hco hk => outstanding_of_owed hsound h hheld hunmixed hr hp hm hco hk
  have hold : ∀ id r p, w.inner.routes.lookup id = some r → r.policy = some p → ∀ key ∈ p.returns,
      ¬ w.inner.Outstanding c r p →
      (p.member, p.coordinator, key) ∉ (w.inner.remember c).terminalReturns := by
    intro id r p hr hp key hkey hnot hmem
    rcases (AList.mem_insert _).mp hmem with heq | hmem
    · unfold ReturnObservationContext.terminalKey at heq
      simp only [Prod.mk.injEq] at heq
      obtain ⟨hmember, hcoordinator, rfl⟩ := heq
      exact hnot (howner id r p hr hp hmember hcoordinator hkey).2
    · exact h.owed id r p hr hp key hkey hmem
  rcases w.inner.settleReturn_cases c success now with
    ⟨digest, -, heq⟩ | ⟨-, ⟨e, heq, hnot⟩ | ⟨route, policy, hout, heq⟩⟩ <;> rw [heq] at hinner
  · exact h.keep (policiesKept_of_routes (congrArg routes hinner))
      (congrArg (fun t : ResponseCloseInner => t.terminalReturns) hinner)
  · refine ⟨homes_next h.homes _, ?_⟩
    intro id r p hr hp key hkey
    rw [hinner] at hr ⊢
    exact hold id r p hr hp key hkey (hnot r p)
  · refine ⟨homes_next h.homes _, ?_⟩
    have hterminal : (tracker.next w (.settleReturn c success now)).inner.terminalReturns =
        (w.inner.remember c).terminalReturns :=
      (congrArg (fun t : ResponseCloseInner => t.terminalReturns) hinner).trans rfl
    have hroutes : (tracker.next w (.settleReturn c success now)).inner.routes =
        (w.inner.setRoute c.sessionId { route with
          policy := some (w.inner.settledAs policy c success now),
          lastChange := max route.lastChange now }).routes := (congrArg routes hinner).trans rfl
    intro id r p hr hp key hkey
    rw [hterminal]
    rcases lookup_of_setRoute hroutes hr with ⟨rfl, rfl⟩ | ⟨hne, hr⟩
    · cases hp
      obtain ⟨hk, hkey⟩ := AList.mem_erase.mp hkey
      intro hmem
      rcases (AList.mem_insert _).mp hmem with heq | hmem
      · exact hk (congrArg (fun k => k.2.2) heq)
      · exact h.owed _ _ _ hout.found hout.current key hkey hmem
    · refine hold id r p hr hp key hkey fun hother => ?_
      obtain ⟨hid, -⟩ := howner id r p hr hp hother.member hother.coordinator
        (by
          rw [← AList.lookup_isSome, hother.owed]
          rfl)
      exact hne hid

theorem unwedged_next {w : World} (hsound : w.Sound) (h : w.Unwedged) {e : Event}
    (hunmixed : w.Unmixed e) : (tracker.next w e).Unwedged := by
  rcases w.respond_cases e with ⟨hinner, -⟩ | hfailing | hacting
  · exact h.keep (policiesKept_of_routes (congrArg routes hinner))
      (congrArg (fun t : ResponseCloseInner => t.terminalReturns) hinner)
  · exact h.keep (policiesKept_of_kept (Observed.keeps hfailing.observed))
      (congrArg (fun b => b.2.2.2) hfailing.books)
  · have hinner := hacting.inner
    have hbooks := w.booksKept_act w.inner e
    rw [← hinner] at hbooks
    cases hmarks : e.marks with
    | false =>
      have hkept : PoliciesKept w.inner (tracker.next w e).inner := by
        rw [inner_next, hinner]
        exact w.policiesKept_act w.inner hmarks
      refine h.keep hkept (hbooks.returns ?_)
      cases e <;> first | (cases hmarks; done) | exact nofun
    | true =>
      cases e with
      | reservePolicyCandidate member coordinator key digest now =>
        have hterminal := hbooks.returns nofun
        unfold act at hinner
        dsimp only at hinner
        rcases w.inner.reservePolicyCandidate_cases w.nextUuid member coordinator key digest now with
          ⟨e, heq⟩ | ⟨route, -, -, -, heq⟩ <;> rw [heq] at hinner
        · exact h.keep (policiesKept_of_routes (congrArg routes hinner)) hterminal
        · exact h.set _ rfl (congrArg routes hinner) hterminal nofun
      | markRequestSubmitted context submitted =>
        have hterminal := hbooks.returns nofun
        unfold act at hinner
        dsimp only at hinner
        rcases w.inner.markRequestSubmitted_cases context submitted with
          heq | ⟨route, policy, hroute, hpolicy, -, heq⟩ <;> rw [heq] at hinner
        · exact h.keep (policiesKept_of_routes (congrArg routes hinner)) hterminal
        · cases submitted with
          | false =>
            refine h.keep (policiesKept_setRoute hroute (congrArg routes hinner) rfl ?_) hterminal
            intro p' hp'
            cases hp'
          | true =>
            exact h.set { policy with submitted := true } rfl (congrArg routes hinner) hterminal
              (h.owed _ route policy hroute hpolicy)
      | registerRequest proof now =>
        have hterminal := hbooks.returns nofun
        unfold act at hinner
        dsimp only at hinner
        rcases w.inner.registerRequest_cases proof now with
          ⟨e, heq⟩ | ⟨route, policy, hroute, hpolicy, -, heq | ⟨-, heq⟩⟩ <;> rw [heq] at hinner
        · exact h.keep (policiesKept_of_routes (congrArg routes hinner)) hterminal
        · have hroutes : (tracker.next w (.registerRequest proof now)).inner.routes =
              (w.inner.setRoute proof.context.sessionId (route.setPolicy none)).routes :=
            (congrArg routes hinner).trans rfl
          refine h.keep (policiesKept_setRoute hroute hroutes rfl ?_) hterminal
          intro p' hp'
          cases hp'
        · have hroutes : (tracker.next w (.registerRequest proof now)).inner.routes =
              (w.inner.setRoute proof.context.sessionId { route with
                policy := some { policy with registeredAt := some now },
                lastChange := max route.lastChange now }).routes := (congrArg routes hinner).trans rfl
          exact h.set { policy with registeredAt := some now } rfl hroutes hterminal
            (h.owed _ route policy hroute hpolicy)
      | admitReturn member coordinator key digest now =>
        have hterminal := hbooks.returns nofun
        unfold act at hinner
        dsimp only at hinner
        rcases w.inner.admitReturn_cases member coordinator key digest now with
          ⟨e, heq | heq⟩ | ⟨route, policy, sequence, hadmit, ⟨-, heq⟩ | ⟨-, heq⟩⟩ <;>
          rw [heq] at hinner
        · exact h.keep (policiesKept_of_routes (congrArg routes hinner)) hterminal
        · exact h.keep (policiesKept_of_routes ((congrArg routes hinner).trans rfl)) hterminal
        · exact h.keep (policiesKept_of_routes (congrArg routes hinner)) hterminal
        · have hroutes : (tracker.next w (.admitReturn member coordinator key digest now)).inner.routes =
              (w.inner.setRoute member.sessionId { route with
                policy := some { policy with
                  returns := policy.returns.insert key (digest, sequence), selected := none },
                lastChange := max route.lastChange now }).routes := (congrArg routes hinner).trans rfl
          refine h.set _ rfl hroutes hterminal ?_
          intro k hk
          rcases (AList.mem_insert _).mp hk with rfl | hk
          · exact AList.lookup_eq_none.mp hadmit.unsettled
          · exact h.owed _ route policy hadmit.found hadmit.current k hk
      | settleReturn => exact unwedged_settled hsound h hunmixed hacting
      | _ => cases hmarks

theorem mem_of_owed {p : ResponseClosePolicy} {key : String} {x : String × ℕ}
    (h : p.returns.lookup key = some x) : key ∈ p.returns := by
  rw [← AList.lookup_isSome, h]
  rfl

theorem not_mem_of_settled {p : ResponseClosePolicy} {key : String}
    (h : p.returns.lookup key = none) : key ∉ p.returns := AList.lookup_eq_none.mp h

theorem policyAt_of_inner {w : World} {e : Event} {s : ResponseCloseInner}
    (h : (tracker.next w e).inner = s) (id : Uuid) :
    (tracker.next w e).policyAt id = (s.routes.lookup id).bind (·.policy) := by
  unfold policyAt
  rw [h]

/-- A settlement of a return that is owed is accepted, and one of a return that is not changes
nothing. -/
theorem settlesRight_of_acting {w : World} (hsound : w.Sound) (h : w.Unwedged)
    {c : ReturnObservationContext} {success : Bool} {now : Instant}
    (ha : w.Acting (.settleReturn c success now)) (hc : c ∈ w.issued) {p : ResponseClosePolicy}
    (hat : w.policyAt c.sessionId = some p) (hnonce : p.nonce = c.nonce) :
    (c.key ∈ p.returns ∧ tracker.answer w (.settleReturn c success now) = .done ∧
      (tracker.next w (.settleReturn c success now)).policyAt c.sessionId =
        some (w.inner.settledAs p c success now)) ∨
    c.key ∉ p.returns ∧ w.SettledReturn c.sessionId c.nonce c.key ∧
      (tracker.next w (.settleReturn c success now)).inner = w.inner := by
  obtain ⟨r, hr, hp⟩ := policyAt_eq_some hat
  have hacc := (hsound.policies _ r p hr hp).returns c hc rfl hnonce.symm
  have hinner : (tracker.next w (.settleReturn c success now)).inner =
      (w.inner.settleReturn c success now).1 := ha.inner
  have hanswer : tracker.answer w (.settleReturn c success now) =
      .of (fun _ => .done) (w.inner.settleReturn c success now).2 := ha.answer
  rcases hacc.stands with howed | ⟨hnone, hknown, hsettled⟩
  · have hout : w.inner.Outstanding c r p :=
      ⟨hr, hp, hnonce, hacc.member.symm, hacc.coordinator.symm, hacc.workEpoch.symm, howed⟩
    have hunsettled := h.owed _ r p hr hp c.key (mem_of_owed howed)
    rw [← hacc.member, ← hacc.coordinator] at hunsettled
    rcases w.inner.settleReturn_cases c success now with
      ⟨digest, hknown, -⟩ | ⟨-, ⟨e, -, hnot⟩ | ⟨route, policy, hout', heq⟩⟩
    · cases (AList.lookup_eq_none.mpr hunsettled).symm.trans hknown
    · exact absurd hout (hnot r p)
    · cases hr.symm.trans hout'.found
      cases hp.symm.trans hout'.current
      rw [heq] at hinner hanswer
      refine Or.inl ⟨mem_of_owed howed, hanswer, ?_⟩
      rw [policyAt_of_inner hinner, lookup_setRoute, if_pos rfl]
      rfl
  · refine Or.inr ⟨not_mem_of_settled hnone, hsettled, ?_⟩
    obtain ⟨digest, hdigest⟩ := Option.isSome_iff_exists.mp (AList.lookup_isSome.mpr hknown)
    rcases w.inner.settleReturn_cases c success now with
      ⟨_, -, heq⟩ | ⟨hnone', -⟩
    · rw [heq] at hinner
      exact hinner
    · cases hdigest.symm.trans hnone'

theorem settlesRight_next {w : World} (hsound : w.Sound) (h : w.Unwedged) (e : Event) :
    w.SettlesRight e := by
  cases e with
  | settleReturn c success now =>
    intro hc p hat hnonce
    have hheld : w.holds (.settleReturn c success now) = true := decide_eq_true hc
    rcases w.refused_or_acting (e := .settleReturn c success now) nofun hheld rfl with ⟨hshut, hanswer⟩ | ⟨hacting, hpoisoned⟩
    · have hrefused : tracker.answer w (.settleReturn c success now) = .error .unavailable := hanswer
      refine ⟨?_, ?_⟩
      · intro hopen hsafe
        rw [hopen, hsafe] at hshut
        cases hshut.elim id id
      · intro hdone
        cases hrefused.symm.trans hdone
    · rcases settlesRight_of_acting hsound h hacting hc hat hnonce with
        ⟨-, hanswer, hnext⟩ | ⟨hkey, hsettled, hsame⟩
      · refine ⟨fun _ _ _ => hanswer, fun _ => ⟨_, hnext, hnonce, ?_, ?_⟩⟩
        · exact fun hmem => (AList.mem_erase.mp hmem).1 rfl
        · rintro rfl hepoch
          refine Or.inl ⟨p.successAt.elim now (max · now), if_pos ⟨rfl, hepoch⟩, ?_⟩
          cases p.successAt with
          | none => exact Nat.le_refl now
          | some old => exact Nat.le_max_right old now
      · refine ⟨fun _ _ hmem => absurd hmem hkey, fun _ => ⟨p, ?_, hnonce, hkey, ?_⟩⟩
        · rw [policyAt_of_inner hsame]
          exact hat
        · exact fun _ _ => Or.inr ⟨hsettled, hsame⟩
  | _ => trivial

/-- In a run without such settlements every return is settled once, and nothing keeps it from
being settled. -/
theorem settlementLaw (es : List Event) (h : tracker.Along Unmixed initial es) :
    tracker.Along SettlesRight initial es := by
  have hinitial : initial.Sound := sound_run []
  have hunwedged : initial.Unwedged := ⟨nofun, fun _ _ _ hr => nomatch hr⟩
  have hstep : ∀ w e, w.Sound ∧ w.Unwedged → w.Unmixed e →
      (tracker.next w e).Sound ∧ (tracker.next w e).Unwedged :=
    fun _ e h hunmixed => ⟨sound_next h.1 e, unwedged_next h.1 h.2 hunmixed⟩
  exact (h.and_inv hstep ⟨hinitial, hunwedged⟩).mono fun w e hw =>
    settlesRight_next hw.1.1 hw.1.2 e

theorem settlementLaw_of_selected : tracker.Along SettlesRight initial selectedRun ∧
    (Event.settleReturn sampleReturn true 0, Answer.done) ∈
      (tracker.run initial selectedRun).history :=
  ⟨settlementLaw selectedRun (by decide +kernel), by decide +kernel⟩

/-- Another request of the same member to the same coordinator, whose return has the key of the
first one's, which is still owed then. -/
def wedgedRun : List Event :=
  candidateRun ++ [.markRequestSubmitted ⟨10, 0⟩ true, .registerRequest sampleProof 0,
    .admitReturn sampleMember sampleCoordinator "ack" "ack" 0,
    .reserveWork "room/member" "ask again" 0,
    .acceptDurable ⟨"room/member", "ask again", true⟩ "ask again" 0,
    .dropWork ⟨"room/member", "ask again", true⟩ 0,
    .reservePolicyCandidate sampleMember sampleCoordinator "ask again" "ask again" 0,
    .admitReturn sampleMember sampleCoordinator "ack" "ack" 0]

def successorReturn : ReturnObservationContext :=
  { sampleReturn with sequence := 2, nonce := 1, workEpoch := 4 }

theorem settlesRight_last (h : ∀ es, tracker.Along SettlesRight initial es) (es : List Event)
    (e : Event) : (tracker.run initial es).SettlesRight e :=
  ((Machine.along_append _ _ _ _).mp (h (es ++ [e]))).2.1

theorem not_settlesRight {w : World} {c : ReturnObservationContext} {success : Bool}
    {now : Instant} (hc : c ∈ w.issued)
    (hnonce : (w.policyAt c.sessionId).any (fun p => decide (p.nonce = c.nonce)) = true)
    (hdone : tracker.answer w (.settleReturn c success now) = .done)
    (howed : ((tracker.next w (.settleReturn c success now)).policyAt c.sessionId).all
      (fun p => decide (c.key ∈ p.returns)) = true) :
    ¬ w.SettlesRight (.settleReturn c success now) := by
  intro h
  obtain ⟨p, hp, hsame⟩ := (Option.any_eq_true _ _).mp hnonce
  obtain ⟨p', hp', -, hkey, -⟩ := (h hc p hp (of_decide_eq_true hsame)).2 hdone
  exact hkey (of_decide_eq_true (Option.all_eq_true _ _ |>.mp howed p' hp'))

/-- Once the first return is settled, settling the second one is answered as done, and the second
one stays owed. -/
theorem settlement_wedged : ¬ ∀ es, tracker.Along SettlesRight initial es := by
  intro h
  exact not_settlesRight (by decide +kernel) (by decide +kernel) (by decide +kernel)
    (by decide +kernel) (settlesRight_last h (wedgedRun ++ [.settleReturn sampleReturn false 0])
      (.settleReturn successorReturn true 1))

end World
end AgentsCommander.ResponseClose
