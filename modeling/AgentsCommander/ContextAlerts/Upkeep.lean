import AgentsCommander.ContextAlerts.Evaluation

/-! The handlers of the actor: what each leaves of the accounts. -/
namespace AgentsCommander.ContextAlerts
open Foundation

namespace Actor
variable {a a' a'' : Actor}

/-- A handler that creates no batch of its own accord. -/
structure Course (a a' : Actor) : Prop where
  books : a'.Books
  delivers : Delivers a a'
  onward : Onward a a'
  logged : a.generationExhaustionLogged = true → a'.generationExhaustionLogged = true
  unheld : ∀ sid t, a.heldBy sid t = none → a'.heldBy sid t = none
  tracked : ∀ sid t g, a.slot = some g → a.heldBy sid t = some g →
    a'.heldBy sid t = some g ∨ a'.Cancelled

theorem Course.refl (h : a.Books) : Course a a :=
  ⟨h, .refl a, .of_eq rfl, id, fun _ _ ht => ht, fun _ _ _ _ hg => Or.inl hg⟩

theorem Course.trans (h : Course a a') (h' : Course a' a'') : Course a a'' where
  books := h'.books
  delivers := h.delivers.trans h'.delivers
  onward := h.onward.trans h'.onward
  logged hl := h'.logged (h.logged hl)
  unheld sid t ht := h'.unheld sid t (h.unheld sid t ht)
  tracked sid t g hslot hg := by
    rcases h.tracked sid t g hslot hg with hg' | hc
    · exact h'.tracked sid t g (h.delivers.slot.trans hslot) hg'
    · exact Or.inr (h'.delivers.cancelled hc)

theorem Course.quiet (h : a.Books) (hq : Quiet a a') (hin : a'.inFlight = a.inFlight)
    (hlogged : a'.generationExhaustionLogged = a.generationExhaustionLogged) : Course a a' :=
  ⟨h.quiet hq, .of_inFlight hin hq.delivering hq.completion, .of_eq hq.nextGeneration,
    fun hl => hlogged.trans hl, fun sid t ht => (congrFun₂ hq.heldBy sid t).trans ht,
    fun sid t _ _ hg => Or.inl ((congrFun₂ hq.heldBy sid t).trans hg)⟩

theorem Reconciled.course {sessionId : Uuid} {newPolicy : List ℕ}
    (hr : Reconciled sessionId newPolicy a a') : Course a a' where
  books := hr.books
  delivers := hr.delivers
  onward := hr.onward
  logged := hr.logged
  unheld sid t ht := by
    by_cases hsid : sid = sessionId
    · subst hsid
      exact hr.unheld t ht
    · rw [hr.others sid t hsid, ht]
  tracked sid t g hslot hg := by
    by_cases hsid : sid = sessionId
    · subst hsid
      exact hr.tracked t g hslot hg
    · exact Or.inl ((hr.others sid t hsid).trans hg)

section removal
variable (a) (sessionId : Uuid)

theorem sessions_removeSession :
    (a.removeSession sessionId).sessions = a.sessions.erase sessionId := rfl

theorem lookup_removeSession (sid : Uuid) :
    (a.removeSession sessionId).sessions.lookup sid =
      if sid = sessionId then none else a.sessions.lookup sid := Assoc.lookup_erase_eq ..

theorem fingerprintOf_removeSession (sid : Uuid) :
    (a.removeSession sessionId).fingerprintOf sid =
      if sid = sessionId then none else a.fingerprintOf sid := by
  unfold fingerprintOf
  rw [lookup_removeSession]
  split_ifs <;> rfl

theorem policyOf_removeSession (sid : Uuid) :
    (a.removeSession sessionId).policyOf sid =
      if sid = sessionId then [] else a.policyOf sid := by
  unfold policyOf
  rw [lookup_removeSession]
  split_ifs <;> rfl

theorem heldBy_removeSession (sid : Uuid) (t : ℕ) :
    (a.removeSession sessionId).heldBy sid t =
      if sid = sessionId then none else a.heldBy sid t := by
  unfold heldBy
  rw [lookup_removeSession]
  split_ifs <;> rfl

theorem latchOf_removeSession (sid : Uuid) (t : ℕ) :
    (a.removeSession sessionId).latchOf sid t =
      if sid = sessionId then .armed else a.latchOf sid t := by
  unfold latchOf
  rw [lookup_removeSession]
  split_ifs <;> rfl

theorem batches_removeSession (g : ℕ) :
    (a.removeSession sessionId).batches.lookup g =
      (a.batches.lookup g).filter fun batch => batch.sessionId ≠ sessionId :=
  Assoc.lookup_keep ..

theorem delivers_removeSession : Delivers a (a.removeSession sessionId) := by
  unfold removeSession
  dsimp only
  split_ifs
  · exact Delivers.cancelInFlight.trans (.of_inFlight rfl rfl rfl)
  · exact .of_inFlight rfl rfl rfl

theorem nextGeneration_removeSession :
    (a.removeSession sessionId).nextGeneration = a.nextGeneration := by
  unfold removeSession
  dsimp only
  split_ifs <;> rfl

theorem logged_removeSession :
    (a.removeSession sessionId).generationExhaustionLogged = a.generationExhaustionLogged := by
  unfold removeSession
  dsimp only
  split_ifs <;> rfl

end removal

theorem Books.removeSession (h : a.Books) (sessionId : Uuid) :
    (a.removeSession sessionId).Books := by
  have hcases : ∀ g batch, (a.removeSession sessionId).batches.lookup g = some batch →
      a.batches.lookup g = some batch ∧ batch.sessionId ≠ sessionId := by
    intro g batch hb
    rw [batches_removeSession, Option.filter_eq_some_iff] at hb
    exact ⟨hb.1, of_decide_eq_true hb.2⟩
  have hd := delivers_removeSession a sessionId
  refine ⟨fun g batch hb => h.batch g batch (hcases g batch hb).1, fun g batch hb => ?_,
    fun sid t g => ?_, fun g batch hb => ?_, fun n hn => ?_, fun sid => ?_, ?_⟩
  · obtain ⟨hb, hne⟩ := hcases g batch hb
    rw [fingerprintOf_removeSession, policyOf_removeSession, if_neg hne, if_neg hne]
    exact h.known g batch hb
  · rw [heldBy_removeSession]
    split_ifs with hsid
    · refine ⟨nofun, ?_⟩
      rintro ⟨batch, hb, hsid', -⟩
      exact absurd (hsid'.trans hsid) (hcases g batch hb).2
    · rw [h.held]
      constructor
      · rintro ⟨batch, hb, hsid', ht⟩
        refine ⟨batch, ?_, hsid', ht⟩
        rw [batches_removeSession, hb, Option.filter_some, if_pos]
        exact decide_eq_true fun he => hsid (hsid'.symm.trans he)
      · rintro ⟨batch, hb, hrest⟩
        exact ⟨batch, (hcases g batch hb).1, hrest⟩
  · rw [hd.slot]
    exact h.flagged g batch (hcases g batch hb).1
  · rw [nextGeneration_removeSession] at hn
    obtain ⟨hlt, hslot⟩ := h.fresh n hn
    exact ⟨fun g batch hb => hlt g batch (hcases g batch hb).1, fun g hg => hslot g (hd.slot ▸ hg)⟩
  · rw [policyOf_removeSession]
    split_ifs
    · exact .nil
    · exact h.distinct sid
  · rw [hd.slot, hd.delivering, hd.completion]
    exact h.delivery

theorem Course.removeSession (h : a.Books) (sessionId : Uuid) :
    Course a (a.removeSession sessionId) := by
  refine ⟨h.removeSession sessionId, delivers_removeSession a sessionId,
    .of_eq (nextGeneration_removeSession a sessionId),
    fun hl => (logged_removeSession a sessionId).trans hl, fun sid t ht => ?_,
    fun sid t g hslot hg => ?_⟩
  · rw [heldBy_removeSession, ht]
    exact ite_self none
  · rw [heldBy_removeSession]
    split_ifs with hsid
    · right
      subst hsid
      obtain ⟨batch, hb, hsid, -⟩ := (h.held sid t g).mp hg
      obtain ⟨slot, hin, hgen⟩ := Option.map_eq_some_iff.mp hslot
      have hours : (a.delivers fun batch => batch.sessionId = sid) = true := by
        unfold Actor.delivers
        rw [hin, Option.any_some, hgen, hb, Option.any_some]
        exact decide_eq_true hsid
      have hcancelled := cancelled_cancelInFlight (Option.isSome_of_eq_some hin)
      unfold Actor.removeSession
      dsimp only
      rw [if_pos hours]
      exact hcancelled
    · exact Or.inl hg

theorem Course.changeIdentity (h : a.Books) (sessionId : Uuid)
    (fingerprint : MemberIdentityFingerprint) :
    Course a (a.changeIdentity sessionId fingerprint) := by
  unfold Actor.changeIdentity
  split_ifs
  · exact .removeSession h sessionId
  · exact .refl h

theorem fingerprintOf_changeIdentity (sessionId : Uuid) (fingerprint : MemberIdentityFingerprint)
    {f : MemberIdentityFingerprint}
    (hf : (a.changeIdentity sessionId fingerprint).fingerprintOf sessionId = some f) :
    f = fingerprint := by
  unfold changeIdentity at hf
  split_ifs at hf with hany
  · rw [fingerprintOf_removeSession, if_pos rfl] at hf
    cases hf
  · by_contra hne
    refine hany ?_
    rw [hf, Option.any_some]
    exact decide_eq_true hne

section entry
variable {sessionId : Uuid} {fingerprint : MemberIdentityFingerprint}
variable {f : SessionAlertState → SessionAlertState}

theorem fingerprintOf_enter (hf : ∀ s, (f s).fingerprint = some fingerprint) (sid : Uuid) :
    (a.onEntry sessionId f).fingerprintOf sid =
      if sid = sessionId then some fingerprint else a.fingerprintOf sid := by
  unfold fingerprintOf
  rw [lookup_onEntry]
  split_ifs
  · exact hf _
  · rfl

/-- The session is entered under an identity that it may have had already. -/
theorem Course.enter (h : a.Books) (hf : ∀ s, (f s).fingerprint = some fingerprint)
    (hp : ∀ s, (f s).policy = s.policy) (ho : ∀ s, (f s).outstanding = s.outstanding)
    (hfp : ∀ fp, a.fingerprintOf sessionId = some fp → fp = fingerprint) :
    Course a (a.onEntry sessionId f) := by
  have hpolicy : (a.onEntry sessionId f).policyOf = a.policyOf := policyOf_onEntry hp
  have hheld : (a.onEntry sessionId f).heldBy = a.heldBy := heldBy_onEntry ho
  refine ⟨⟨h.batch, fun g batch hb => ?_, fun sid t g => ?_, h.flagged, h.fresh, fun sid => ?_,
    h.delivery⟩, .of_inFlight rfl rfl rfl, .of_eq rfl, id, fun sid t ht => ?_,
    fun sid t g _ hg => ?_⟩
  · obtain ⟨hknown, hpol⟩ := h.known g batch hb
    rw [fingerprintOf_enter hf, hpolicy]
    refine ⟨?_, hpol⟩
    split_ifs with hsid
    · rw [hfp batch.fingerprint (hsid ▸ hknown)]
    · exact hknown
  · rw [hheld]
    exact h.held sid t g
  · rw [hpolicy]
    exact h.distinct sid
  · rw [hheld, ht]
  · rw [hheld]
    exact Or.inl hg

end entry

theorem quiet_clearErrors (sessionId : Uuid) (fingerprint : MemberIdentityFingerprint) :
    Quiet a (a.clearResolutionErrorsForIdentity sessionId fingerprint) := by
  unfold clearResolutionErrorsForIdentity
  split_ifs
  · exact .onSession (fun _ => rfl) (fun _ => rfl) fun _ => rfl
  · exact .refl a

theorem Course.clearErrors (h : a.Books) (sessionId : Uuid)
    (fingerprint : MemberIdentityFingerprint) :
    Course a (a.clearResolutionErrorsForIdentity sessionId fingerprint) := by
  refine .quiet h (quiet_clearErrors sessionId fingerprint) ?_ ?_
  · unfold clearResolutionErrorsForIdentity
    split_ifs <;> rfl
  · unfold clearResolutionErrorsForIdentity
    split_ifs <;> rfl

theorem Course.removeBatch (h : a.Books) {g : ℕ} (hidle : a.slot ≠ some g) :
    Course a (a.removeBatch g) := by
  refine ⟨h.removeBatch g, delivers_removeBatch g, .of_eq (framed_removeBatch g).nextGeneration,
    fun hl => logged_removeBatch.trans hl, fun sid t ht => ?_, fun sid t g' hslot hg => ?_⟩
  · rw [heldBy_removeBatch h, ht]
    exact ite_self none
  · rw [heldBy_removeBatch h, hg, if_neg]
    · exact Or.inl rfl
    · exact fun he => hidle (Option.some.inj he ▸ hslot)

/-- A session that is ready to be evaluated under this policy. -/
structure Readied (sessionId : Uuid) (policy : ResolvedPolicy) (a a' : Actor) : Prop where
  course : Course a a'
  fingerprintOf : a'.fingerprintOf sessionId = some policy.fingerprint
  policyOf : a'.policyOf sessionId = policy.thresholds

theorem readied_readyToEvaluate (h : a.Books) (sessionId : Uuid) (policy : ResolvedPolicy)
    (now : ℤ) : Readied sessionId policy a (a.readyToEvaluate sessionId policy now) := by
  have hchanged := Course.changeIdentity h sessionId policy.fingerprint
  have hidentified := hchanged.trans (.enter hchanged.books
    (f := fun session => { session with fingerprint := some policy.fingerprint })
    (fun _ => rfl) (fun _ => rfl) (fun _ => rfl)
    fun f hf => fingerprintOf_changeIdentity sessionId policy.fingerprint hf)
  have hfp : ((a.changeIdentity sessionId policy.fingerprint).onEntry sessionId
      fun session => { session with fingerprint := some policy.fingerprint }).fingerprintOf
        sessionId = some policy.fingerprint :=
    (fingerprintOf_enter (fun _ => rfl) sessionId).trans (if_pos rfl)
  unfold readyToEvaluate
  dsimp only
  generalize (a.changeIdentity sessionId policy.fingerprint).onEntry sessionId
    (fun session => { session with fingerprint := some policy.fingerprint }) = identified
    at hidentified hfp
  have hcleared : Quiet identified (identified.onEntry sessionId (·.clearResolutionErrors)) :=
    .onEntry (fun _ => rfl) (fun _ => rfl) fun _ => rfl
  have hfp' := (congrFun hcleared.fingerprintOf sessionId).trans hfp
  have hcourse := hidentified.trans (.quiet hidentified.books hcleared rfl rfl)
  generalize identified.onEntry sessionId (·.clearResolutionErrors) = cleared at hfp' hcourse
  have hreconciled := reconciled_reconcilePolicy hcourse.books hfp' policy.distinct now
  have hready := hcourse.trans hreconciled.course
  generalize cleared.reconcilePolicy sessionId policy.fingerprint policy.thresholds now =
    reconciled at hreconciled hready
  have hfp'' := (congrFun hreconciled.fingerprintOf sessionId).trans hfp'
  have hpolicy := (hreconciled.policyOf sessionId).trans (if_pos rfl)
  split_ifs
  · have hdue := Quiet.makeSessionBatchesDueNow (a := reconciled) sessionId now
    exact ⟨hready.trans (.quiet hready.books hdue rfl rfl),
      (congrFun hdue.fingerprintOf sessionId).trans hfp'',
      (congrFun hdue.policyOf sessionId).trans hpolicy⟩
  · exact ⟨hready, hfp'', hpolicy⟩

theorem Books.processReading (h : a.Books) (sessionId : Uuid) (percent : ℕ)
    (resolution : MemberPolicyResolution) (now : ℤ) :
    (a.processReading sessionId percent resolution now).Books := by
  unfold Actor.processReading applyNumericResolution
  split_ifs
  · exact h
  cases resolution with
  | eligible policy =>
    dsimp only
    split_ifs
    · exact h
    · have hready := readied_readyToEvaluate h sessionId policy now
      exact (evaluated_evaluateNumericSample hready.course.books hready.fingerprintOf percent
        now).books
  | disabled fingerprint =>
    exact (Course.clearErrors h sessionId fingerprint).books.removeSession sessionId
  | permanentIneligible reason => exact h.removeSession sessionId
  | paused fingerprint cls message =>
    have hchanged := Course.changeIdentity h sessionId fingerprint
    exact (Course.enter hchanged.books
      (f := fun session => { session with fingerprint := some fingerprint }.setPolicyError cls
        message) (fun _ => rfl) (fun _ => rfl) (fun _ => rfl)
      fun f hf => fingerprintOf_changeIdentity sessionId fingerprint hf).books
  | retryableFailure message =>
    exact h.quiet (.onEntry (fun _ => rfl) (fun _ => rfl) fun _ => rfl)

/-- The delivery of a batch starts where none is under way. -/
theorem Books.launch (h : a.Books) (hidle : a.slot = none) {g : ℕ} {batch : AlertBatch}
    (hb : a.batches.lookup g = some batch) (sessionId : Uuid) : (a.launch sessionId g).Books := by
  have hlookup : ∀ g' batch', (a.launch sessionId g).batches.lookup g' = some batch' →
      ∃ old, a.batches.lookup g' = some old ∧
        batch' = if g' = g then { old with inFlight := true } else old := by
    intro g' batch' hb'
    have hb' : (Assoc.adjust a.batches g fun b => { b with inFlight := true }).lookup g' =
        some batch' := hb'
    rw [Assoc.lookup_adjust] at hb'
    split_ifs at hb' with hg
    · obtain ⟨old, hold, rfl⟩ := Option.map_eq_some_iff.mp hb'
      exact ⟨old, hold, (if_pos hg).symm⟩
    · exact ⟨batch', hb', (if_neg hg).symm⟩
  have hfp : (a.launch sessionId g).fingerprintOf = a.fingerprintOf :=
    fingerprintOf_adjust rfl fun _ => rfl
  have hpolicy : (a.launch sessionId g).policyOf = a.policyOf := policyOf_adjust rfl fun _ => rfl
  have hheld : (a.launch sessionId g).heldBy = a.heldBy := heldBy_adjust_same rfl fun _ => rfl
  refine ⟨fun g' batch' hb' => ?_, fun g' batch' hb' => ?_, fun sid t g' => ?_,
    fun g' batch' hb' => ?_, fun n hn => ⟨fun g' batch' hb' => ?_, fun g' hg' => ?_⟩,
    fun sid => ?_, ?_⟩
  · obtain ⟨old, hold, rfl⟩ := hlookup g' batch' hb'
    split_ifs <;> exact h.batch g' old hold
  · obtain ⟨old, hold, rfl⟩ := hlookup g' batch' hb'
    rw [hfp, hpolicy]
    split_ifs <;> exact h.known g' old hold
  · rw [hheld, h.held]
    constructor
    · rintro ⟨old, hold, hsid, ht⟩
      refine ⟨if g' = g then { old with inFlight := true } else old, ?_, ?_, ?_⟩
      · show (Assoc.adjust a.batches g fun b => { b with inFlight := true }).lookup g' = _
        rw [Assoc.lookup_adjust, hold]
        split_ifs <;> rfl
      · split_ifs <;> exact hsid
      · split_ifs <;> exact ht
    · rintro ⟨batch', hb', hsid, ht⟩
      obtain ⟨old, hold, rfl⟩ := hlookup g' batch' hb'
      split_ifs at hsid ht <;> exact ⟨old, hold, hsid, ht⟩
  · obtain ⟨old, hold, rfl⟩ := hlookup g' batch' hb'
    show _ ↔ some g = some g'
    split_ifs with hg
    · exact ⟨fun _ => congrArg some hg.symm, fun _ => rfl⟩
    · rw [h.flagged g' old hold, hidle]
      exact ⟨nofun, fun he => absurd (Option.some.inj he).symm hg⟩
  · obtain ⟨old, hold, -⟩ := hlookup g' batch' hb'
    exact (h.fresh n hn).1 g' old hold
  · cases hg'
    exact (h.fresh n hn).1 g batch hb
  · rw [hpolicy]
    exact h.distinct sid
  · have hd := h.delivery
    rw [hidle] at hd
    show Delivery (some g) (some g) (a.completion.map (·.generation))
    generalize a.delivering = delivering, a.completion.map (·.generation) = completion at hd ⊢
    cases hd
    exact .running g

theorem Quiet.failBatch (hidle : a.slot = none) (h : a.Books) (g : ℕ) (now : ℤ) :
    Quiet a (a.failBatch g now) := by
  refine .onBatch fun batch hb => ?_
  have hflag : batch.inFlight = false := by
    rw [Bool.eq_false_iff]
    intro hflag
    cases hidle.symm.trans ((h.flagged g batch hb).mp hflag)
  unfold AlertBatch.core
  rw [hflag]

theorem Books.reconcileCanceledBatch (h : a.Books) {sessionId : Uuid}
    {fingerprint : MemberIdentityFingerprint}
    (hfp : a.fingerprintOf sessionId = some fingerprint) (currentPolicy : Option ResolvedPolicy)
    (g : ℕ) (now : ℤ) :
    (a.reconcileCanceledBatch sessionId fingerprint currentPolicy g now).Books := by
  unfold Actor.reconcileCanceledBatch
  cases currentPolicy with
  | none => exact h.removeSession sessionId
  | some policy =>
    dsimp only
    split_ifs with hsame hnil
    · exact (Course.clearErrors h sessionId policy.fingerprint).books.removeSession sessionId
    · have hfp' : (a.clearResolutionErrorsForIdentity sessionId policy.fingerprint).fingerprintOf
          sessionId = some policy.fingerprint := by
        rw [(quiet_clearErrors sessionId policy.fingerprint).fingerprintOf, hfp, hsame]
      exact (reconciled_reconcilePolicy (Course.clearErrors h sessionId policy.fingerprint).books
        hfp' policy.distinct now).books.removeBatch g
    · exact h.removeSession sessionId

theorem Books.attemptBatch (h : a.Books) (hidle : a.slot = none) {g : ℕ} {batch : AlertBatch}
    (hb : a.batches.lookup g = some batch) (resolution : MemberPolicyResolution)
    (route : Except String Unit) (now : ℤ) :
    (a.attemptBatch batch g resolution route now).Books := by
  have hfp := (h.known g batch hb).1
  unfold Actor.attemptBatch
  cases prepareAttempt batch.snapshot resolution route with
  | ready attempt =>
    dsimp only
    unfold readyAttemptMatches
    dsimp only
    by_cases hsame : a.fingerprintOf attempt.snapshot.sessionId = some attempt.snapshot.fingerprint
    · rw [if_pos hsame]
      have hreconciled :=
        reconciled_reconcilePolicy h hsame attempt.currentPolicy.distinct now
      generalize a.reconcilePolicy attempt.snapshot.sessionId attempt.snapshot.fingerprint
        attempt.currentPolicy.thresholds now = reconciled at hreconciled
      dsimp only
      split_ifs with hmatch
      · cases hcurrent : reconciled.batches.lookup g with
        | none =>
          rw [hcurrent] at hmatch
          cases hmatch
        | some current =>
          exact hreconciled.books.launch (hreconciled.delivers.slot.trans hidle) hcurrent _
      · exact hreconciled.books
    · rw [if_neg hsame]
      exact h.removeSession attempt.snapshot.sessionId
  | cancel reason currentPolicy => exact h.reconcileCanceledBatch hfp currentPolicy g now
  | paused fingerprint cls message =>
    dsimp only
    unfold pauseBatchForIdentity
    split_ifs
    · have hquiet : Quiet a { a with
          sessions := Assoc.adjust a.sessions batch.sessionId (·.setPolicyError cls message) } :=
        .onSession (fun _ => rfl) (fun _ => rfl) fun _ => rfl
      have hbooks := h.quiet hquiet
      exact hbooks.quiet (.failBatch (hquiet.slot.trans hidle) hbooks g now)
    · exact h.removeSession batch.sessionId
  | retryableFailure message => exact h.quiet (.failBatch hidle h g now)

theorem slot_eq_none (h : ¬ a.inFlight.isSome = true) : a.slot = none := by
  unfold slot
  rw [Option.not_isSome_iff_eq_none.mp h]
  rfl

theorem Books.dispatchDueBatch (h : a.Books) (resolution : MemberPolicyResolution)
    (route : Except String Unit) (now : ℤ) : (a.dispatchDueBatch resolution route now).Books := by
  unfold Actor.dispatchDueBatch
  split_ifs with hidle
  · exact h
  split
  · exact h
  · split_ifs
    · exact h
    · split
      · exact h
      · rename_i batch hb
        exact h.attemptBatch (slot_eq_none hidle) hb resolution route now

theorem Books.endDelivery (h : a.Books) (result : Except String Unit) :
    (a.endDelivery result).Books := by
  have hd := h.delivery
  unfold Actor.endDelivery
  cases hdel : a.delivering with
  | none => exact h
  | some g =>
    refine ⟨h.batch, h.known, h.held, h.flagged, h.fresh, h.distinct, ?_⟩
    show Delivery a.slot none (some g)
    rw [hdel] at hd
    generalize a.slot = slot, a.completion.map (·.generation) = completion at hd ⊢
    cases hd
    exact .ended g

/-- The completion of the delivery has been taken from the slot. -/
def vacate (a : Actor) : Actor := { a with inFlight := none, completion := none }

theorem delivery_vacate {a : Actor} (h : a.Books) (hc : a.completion.isSome = true) :
    Delivery none a.delivering none := by
  have hd := h.delivery
  obtain ⟨completion, hcompletion⟩ := Option.isSome_iff_exists.mp hc
  rw [hcompletion, Option.map_some] at hd
  generalize a.slot = slot, a.delivering = delivering at hd ⊢
  cases hd
  exact .idle

theorem slot_eq_completion (h : a.Books) {slot : InFlightSlot} {completion : DeliveryCompletion}
    (hs : a.inFlight = some slot) (hc : a.completion = some completion) :
    slot.generation = completion.generation := by
  have hd := h.delivery
  rw [hc, Option.map_some] at hd
  have hslot : a.slot = some slot.generation := by
    unfold Actor.slot
    rw [hs]
    rfl
  rw [hslot] at hd
  generalize a.delivering = delivering, slot.generation = g, completion.generation = g' at hd ⊢
  cases hd
  rfl

/-- The slot is given up, with its batch gone or no longer in flight. -/
theorem Books.vacate (h : a.Books) (hc : a.completion.isSome = true)
    {f : AlertBatch → AlertBatch} {g : ℕ} (hslot : a.slot = some g)
    (hf : ∀ batch, (f batch).core = { batch with inFlight := false }.core) :
    ({ a.vacate with batches := Assoc.adjust a.batches g f } : Actor).Books := by
  have hlookup : ∀ g' batch', (Assoc.adjust a.batches g f).lookup g' = some batch' →
      ∃ old, a.batches.lookup g' = some old ∧
        batch'.core = { old with inFlight := false }.core := by
    intro g' batch' hb'
    rw [Assoc.lookup_adjust] at hb'
    split_ifs at hb' with hg
    · obtain ⟨old, hold, rfl⟩ := Option.map_eq_some_iff.mp hb'
      exact ⟨old, hold, hf old⟩
    · refine ⟨batch', hb', ?_⟩
      have hflag : batch'.inFlight = false := by
        rw [Bool.eq_false_iff]
        intro hflag
        have := (h.flagged g' batch' hb').mp hflag
        exact hg (Option.some.inj (this.symm.trans hslot))
      unfold AlertBatch.core
      rw [hflag]
  have hmap : ∀ g' old, a.batches.lookup g' = some old →
      ∃ batch', (Assoc.adjust a.batches g f).lookup g' = some batch' := by
    intro g' old hold
    rw [Assoc.lookup_adjust, hold]
    split_ifs
    · exact ⟨f old, rfl⟩
    · exact ⟨old, rfl⟩
  refine ⟨fun g' batch' hb' => ?_, fun g' batch' hb' => ?_, fun sid t g' => ?_,
    fun g' batch' hb' => ?_, fun n hn => ⟨fun g' batch' hb' => ?_, fun _ heq => by cases heq⟩,
    h.distinct, delivery_vacate (a := a) h hc⟩
  · obtain ⟨old, hold, hcore⟩ := hlookup g' batch' hb'
    have hw := AlertBatch.within_of_core hcore
    obtain ⟨hgen, hne, hinc⟩ := h.batch g' old hold
    exact ⟨hw.generation.trans hgen, hw.nonempty hne, hinc.sublist hw.thresholds⟩
  · obtain ⟨old, hold, hcore⟩ := hlookup g' batch' hb'
    have hw := AlertBatch.within_of_core hcore
    obtain ⟨hfp, hpol⟩ := h.known g' old hold
    rw [hw.sessionId, hw.fingerprint]
    exact ⟨hfp, fun t ht => hpol t (hw.thresholds.subset ht)⟩
  · refine Iff.trans (h.held sid t g') ⟨?_, ?_⟩
    · rintro ⟨old, hold, hsid, ht⟩
      obtain ⟨batch', hb'⟩ := hmap g' old hold
      obtain ⟨old', hold', hcore⟩ := hlookup g' batch' hb'
      cases hold.symm.trans hold'
      simp only [AlertBatch.core, Prod.mk.injEq] at hcore
      obtain ⟨-, hsid', -, hthresholds, -⟩ := hcore
      exact ⟨batch', hb', hsid'.trans hsid, hthresholds ▸ ht⟩
    · rintro ⟨batch', hb', hsid, ht⟩
      obtain ⟨old, hold, hcore⟩ := hlookup g' batch' hb'
      have hw := AlertBatch.within_of_core hcore
      exact ⟨old, hold, hw.sessionId.symm.trans hsid, hw.thresholds.subset ht⟩
  · obtain ⟨old, -, hcore⟩ := hlookup g' batch' hb'
    rw [(AlertBatch.within_of_core hcore).inFlight]
    exact ⟨fun heq => (by cases heq), fun heq => by cases heq⟩
  · obtain ⟨old, hold, -⟩ := hlookup g' batch' hb'
    exact (h.fresh n hn).1 g' old hold

/-- The slot is given up, with its batch gone. -/
theorem Books.vacate_gone (h : a.Books) (hc : a.completion.isSome = true) {g : ℕ}
    (hslot : a.slot = some g) (hgone : a.batches.lookup g = none) : a.vacate.Books where
  batch := h.batch
  known := h.known
  held := h.held
  flagged g' batch hb := by
    rw [h.flagged g' batch hb, hslot]
    refine ⟨fun hg => ?_, nofun⟩
    cases hg
    cases hgone.symm.trans hb
  fresh n hn := ⟨(h.fresh n hn).1, nofun⟩
  distinct := h.distinct
  delivery := delivery_vacate (a := a) h hc

theorem removeBatch_vacate (g : ℕ) : a.vacate.removeBatch g = (a.removeBatch g).vacate := by
  unfold removeBatch
  have hbatches : a.vacate.batches = a.batches := rfl
  rw [hbatches]
  cases a.batches.lookup g <;> rfl

theorem Books.handleDeliveryCompletion (h : a.Books) (now : ℤ) :
    (a.handleDeliveryCompletion now).Books := by
  unfold Actor.handleDeliveryCompletion
  cases hs : a.inFlight with
  | none => exact h
  | some slot =>
    cases hc : a.completion with
    | none => exact h
    | some completion =>
      have hgen := slot_eq_completion h hs hc
      have hsome : a.completion.isSome = true := Option.isSome_of_eq_some hc
      have hslot : a.slot = some completion.generation := by
        unfold Actor.slot
        rw [hs, ← hgen]
        rfl
      dsimp only
      rw [if_neg (not_not_intro hgen)]
      split_ifs with hmatch
      · show (a.vacate.finishBatch completion now).Books
        unfold finishBatch
        split
        · rw [removeBatch_vacate]
          refine (h.removeBatch completion.generation).vacate_gone ?_
            ((delivers_removeBatch _).slot.trans hslot) ?_
          · rw [(delivers_removeBatch completion.generation).completion]
            exact hsome
          · rw [lookup_removeBatch, if_pos rfl]
        · split_ifs
          · exact h.vacate hsome hslot fun _ => rfl
          · exact h.vacate hsome hslot fun _ => rfl
      · refine h.vacate_gone hsome hslot ?_
        cases hb : a.batches.lookup completion.generation with
        | none => rfl
        | some batch =>
          rw [hb, Option.any_some] at hmatch
          exact absurd ((h.flagged _ batch hb).mpr hslot) hmatch

theorem Books.runMaintenance (h : a.Books) (dead : List Uuid) : (a.runMaintenance dead).Books := by
  unfold Actor.runMaintenance
  generalize a.sessions.keys = keys
  induction keys generalizing a with
  | nil => exact h
  | cons sid rest ih =>
    rw [List.foldl_cons]
    split_ifs
    · exact ih (h.removeSession sid)
    · exact ih h

theorem Books.shutDown : a.shutDown.Books where
  batch _ _ h := nomatch h
  known _ _ h := nomatch h
  held _ _ _ := ⟨nofun, fun ⟨_, h, _⟩ => nomatch h⟩
  flagged _ _ h := nomatch h
  fresh _ _ := ⟨nofun, nofun⟩
  distinct _ := .nil
  delivery := .idle

theorem Books.step (h : a.Books) (e : Event) : (contextAlerts.next a e).Books := by
  show (Actor.step a e).1.Books
  unfold Actor.step
  split_ifs
  · exact h
  cases e with
  | sessionOver sessionId => exact h.removeSession sessionId
  | unavailable sessionId live =>
    dsimp only
    split_ifs
    · exact h
    · exact h.removeSession sessionId
  | reading sessionId percent resolution now =>
    exact h.processReading sessionId percent resolution now
  | dispatch resolution route now => exact h.dispatchDueBatch resolution route now
  | delivered result => exact h.endDelivery result
  | completed now => exact h.handleDeliveryCompletion now
  | maintenance dead => exact h.runMaintenance dead
  | shutdown => exact .shutDown

end Actor

/-- Whatever is sampled, resolved, dispatched, delivered and maintained, the accounts are right. -/
theorem accounted_always (es : List Event) : contextAlerts.Always Actor.Accounted .new es := by
  rw [Machine.always_iff]
  intro pre _
  have hbooks : (contextAlerts.run .new pre).Books :=
    Machine.run_inv_free (P := Actor.Books) (fun _ e h => h.step e) Actor.Books.new pre
  exact hbooks.accounted

end AgentsCommander.ContextAlerts
