import AgentsCommander.ContextAlerts.Reconcile

/-! A reading is evaluated: latches, and the batch of the thresholds it newly crosses. -/
namespace AgentsCommander.ContextAlerts
open Foundation

namespace Actor
variable {a a' : Actor}

def latchAt (percent threshold : ℕ) : LatchState := if percent < threshold then .armed else .latched

def newlyCrosses (percent : ℕ) (outstanding : AList fun _ : ℕ => ℕ)
    (latches : AList fun _ : ℕ => LatchState) (threshold : ℕ) : Bool :=
  decide (threshold ≤ percent ∧ (latches.lookup threshold).getD .armed = .armed ∧
    outstanding.lookup threshold = none)

theorem crossing_spec (percent : ℕ) (outstanding : AList fun _ : ℕ => ℕ)
    (acc : (AList fun _ : ℕ => LatchState) × List ℕ) (t : ℕ) :
    (∀ t', (crossing percent outstanding acc t).1.lookup t' =
      if t' = t then some (latchAt percent t) else acc.1.lookup t') ∧
    (crossing percent outstanding acc t).2 =
      acc.2 ++ if newlyCrosses percent outstanding acc.1 t = true then [t] else [] := by
  have hquiet : ¬ newlyCrosses percent outstanding acc.1 t = true →
      acc.2 = acc.2 ++ if newlyCrosses percent outstanding acc.1 t = true then [t] else [] :=
    fun h => by rw [if_neg h, List.append_nil]
  unfold crossing
  by_cases hlt : percent < t
  · rw [if_pos hlt, latchAt, if_pos hlt]
    exact ⟨fun t' => Assoc.lookup_insert_eq .., hquiet fun h => hlt.not_ge (of_decide_eq_true h).1⟩
  · rw [if_neg hlt, latchAt, if_neg hlt]
    by_cases harmed : (acc.1.lookup t).getD .armed = .armed
    · rw [if_pos harmed]
      refine ⟨fun t' => Assoc.lookup_insert_eq .., ?_⟩
      cases hout : outstanding.lookup t with
      | none =>
        have hnew : newlyCrosses percent outstanding acc.1 t = true :=
          decide_eq_true ⟨Nat.le_of_not_lt hlt, harmed, hout⟩
        rw [if_pos hnew]
        rfl
      | some g =>
        refine hquiet fun h => ?_
        cases hout.symm.trans (of_decide_eq_true h).2.2
    · rw [if_neg harmed]
      refine ⟨fun t' => ?_, hquiet fun h => harmed (of_decide_eq_true h).2.1⟩
      split_ifs with ht
      · subst ht
        cases hlatch : acc.1.lookup t' with
        | none => exact absurd (by rw [hlatch]; rfl) harmed
        | some latch =>
          cases latch with
          | armed => exact absurd (by rw [hlatch]; rfl) harmed
          | latched => rfl
      · rfl

/-- The latches and the crossings that a reading leads to. -/
theorem foldl_crossing (percent : ℕ) (outstanding : AList fun _ : ℕ => ℕ) {policy : List ℕ}
    (hpolicy : policy.Nodup) (acc : (AList fun _ : ℕ => LatchState) × List ℕ) :
    (∀ t, (policy.foldl (crossing percent outstanding) acc).1.lookup t =
      if t ∈ policy then some (latchAt percent t) else acc.1.lookup t) ∧
    (policy.foldl (crossing percent outstanding) acc).2 =
      acc.2 ++ policy.filter (newlyCrosses percent outstanding acc.1) := by
  induction policy generalizing acc with
  | nil => exact ⟨fun _ => rfl, (List.append_nil _).symm⟩
  | cons first rest ih =>
    obtain ⟨hfirst, hrest⟩ := List.nodup_cons.mp hpolicy
    obtain ⟨hlookup, hcrossed⟩ := crossing_spec percent outstanding acc first
    obtain ⟨hlookup', hcrossed'⟩ := ih hrest (crossing percent outstanding acc first)
    rw [List.foldl_cons]
    refine ⟨fun t => ?_, ?_⟩
    · rw [hlookup', hlookup]
      by_cases ht : t = first
      · subst ht
        rw [if_neg hfirst, if_pos rfl, if_pos List.mem_cons_self]
      · rw [if_neg ht]
        refine if_congr ?_ rfl rfl
        rw [List.mem_cons]
        exact ⟨Or.inr, fun hor => hor.resolve_left ht⟩
    · have hsame : rest.filter
          (newlyCrosses percent outstanding (crossing percent outstanding acc first).1) =
          rest.filter (newlyCrosses percent outstanding acc.1) := by
        refine List.filter_congr fun t ht => ?_
        have hne : t ≠ first := fun he => hfirst (he ▸ ht)
        unfold newlyCrosses
        rw [hlookup, if_neg hne]
      rw [hcrossed', hcrossed, hsame, List.append_assoc, List.filter_cons]
      split_ifs <;> rfl

/-- A reading has been evaluated in this session. -/
structure Evaluated (sessionId : Uuid) (percent : ℕ) (a a' : Actor) : Prop where
  books : a'.Books
  fingerprintOf : a'.fingerprintOf = a.fingerprintOf
  policyOf : a'.policyOf = a.policyOf
  delivers : Delivers a a'
  onward : Onward a a'
  latch : ∀ sid t, a'.latchOf sid t =
    if sid = sessionId ∧ t ∈ a.policyOf sessionId then latchAt percent t else a.latchOf sid t
  logged : a.generationExhaustionLogged = true → a'.generationExhaustionLogged = true
  others : ∀ sid t, sid ≠ sessionId → a'.heldBy sid t = a.heldBy sid t
  held : ∀ t g, a.heldBy sessionId t = some g → a'.heldBy sessionId t = some g
  joins : ∀ t g, a.heldBy sessionId t = none → a'.heldBy sessionId t = some g →
    (t ∈ a.policyOf sessionId ∧ t ≤ percent ∧ a.latchOf sessionId t = .armed) ∧
      a.nextGeneration = some g ∧
      ∃ batch, a'.batches.lookup g = some batch ∧ batch.observed = percent
  joined : a'.generationExhaustionLogged = false → ∀ t, a.heldBy sessionId t = none →
    t ∈ a.policyOf sessionId → t ≤ percent → a.latchOf sessionId t = .armed →
    ∃ g, a'.heldBy sessionId t = some g

theorem Evaluated.unwatched (h : a.Books) {sessionId : Uuid} (hs : a.policyOf sessionId = [])
    (percent : ℕ) : Evaluated sessionId percent a a := by
  refine ⟨h, rfl, rfl, .refl a, .of_eq rfl, fun sid t => ?_, id, fun _ _ _ => rfl,
    fun _ _ hg => hg, fun t g hn hg => ?_, fun _ t _ ht => ?_⟩
  · rw [hs, if_neg fun hand => List.not_mem_nil hand.2]
  · cases hn.symm.trans hg
  · rw [hs] at ht
    cases ht

/-- The latches of a session are rewritten. -/
def relatch (a : Actor) (sessionId : Uuid) (session : SessionAlertState)
    (latches : AList fun _ : ℕ => LatchState) (percent : ℕ) : Actor :=
  let seen := { session with latches := latches, lastValidPercent := some percent }
  { a with sessions := a.sessions.insert sessionId seen }

theorem lookup_relatch (sessionId : Uuid) (session : SessionAlertState)
    (latches : AList fun _ : ℕ => LatchState) (percent : ℕ) (sid : Uuid) :
    (a.relatch sessionId session latches percent).sessions.lookup sid =
      if sid = sessionId then
        some { session with latches := latches, lastValidPercent := some percent }
      else a.sessions.lookup sid := Assoc.lookup_insert_eq ..

theorem quiet_relatch {sessionId : Uuid} {session : SessionAlertState}
    (hs : a.sessions.lookup sessionId = some session)
    (latches : AList fun _ : ℕ => LatchState) (percent : ℕ) :
    Quiet a (a.relatch sessionId session latches percent) := by
  refine ⟨⟨funext fun sid => ?_, funext fun sid => ?_, rfl, rfl, rfl, rfl⟩,
    funext fun sid => funext fun t => ?_, fun _ => rfl⟩
  · unfold fingerprintOf
    rw [lookup_relatch]
    split_ifs with hsid
    · rw [hsid, hs]
      rfl
    · rfl
  · unfold policyOf
    rw [lookup_relatch]
    split_ifs with hsid
    · rw [hsid, hs]
      rfl
    · rfl
  · unfold heldBy
    rw [lookup_relatch]
    split_ifs with hsid
    · rw [hsid, hs]
      rfl
    · rfl

theorem latchOf_relatch (sessionId : Uuid) (session : SessionAlertState)
    (latches : AList fun _ : ℕ => LatchState) (percent : ℕ) (sid : Uuid) (t : ℕ) :
    (a.relatch sessionId session latches percent).latchOf sid t =
      if sid = sessionId then (latches.lookup t).getD .armed else a.latchOf sid t := by
  unfold latchOf
  rw [lookup_relatch]
  split_ifs <;> rfl

/-- Nothing is newly crossed. -/
theorem Evaluated.quiet (h : a.Books) {sessionId : Uuid} {percent : ℕ} (hq : Quiet a a')
    (hin : a'.inFlight = a.inFlight)
    (hlogged : a'.generationExhaustionLogged = a.generationExhaustionLogged)
    (hlatch : ∀ sid t, a'.latchOf sid t =
      if sid = sessionId ∧ t ∈ a.policyOf sessionId then latchAt percent t else a.latchOf sid t)
    (hnone : ∀ t, a.heldBy sessionId t = none → t ∈ a.policyOf sessionId → t ≤ percent →
      a.latchOf sessionId t ≠ .armed) : Evaluated sessionId percent a a' where
  books := h.quiet hq
  fingerprintOf := hq.fingerprintOf
  policyOf := hq.policyOf
  delivers := .of_inFlight hin hq.delivering hq.completion
  onward := .of_eq hq.nextGeneration
  latch := hlatch
  logged hl := hlogged.trans hl
  others sid t _ := by rw [hq.heldBy]
  held t g hg := by rw [hq.heldBy, hg]
  joins t g hn hg := by
    rw [hq.heldBy, hn] at hg
    cases hg
  joined _ t hn hpol hle harmed := absurd harmed (hnone t hn hpol hle)

/-- The thresholds that are newly crossed go into one batch. -/
theorem Evaluated.create (h : a.Books) {sessionId : Uuid} {fingerprint : MemberIdentityFingerprint}
    {percent : ℕ} {now : ℤ} {thresholds : List ℕ} {seen : Actor} (hq : Quiet a seen)
    (hin : seen.inFlight = a.inFlight)
    (hlogged : seen.generationExhaustionLogged = a.generationExhaustionLogged)
    (hlatch : ∀ sid t, seen.latchOf sid t =
      if sid = sessionId ∧ t ∈ a.policyOf sessionId then latchAt percent t else a.latchOf sid t)
    (hfp : a.fingerprintOf sessionId = some fingerprint) (hne : thresholds ≠ [])
    (hinc : thresholds.Pairwise (· < ·))
    (hmem : ∀ t, t ∈ thresholds ↔ t ∈ a.policyOf sessionId ∧ t ≤ percent ∧
      a.latchOf sessionId t = .armed ∧ a.heldBy sessionId t = none) :
    Evaluated sessionId percent a
      (seen.createBatch sessionId fingerprint percent thresholds 0 now) := by
  have hfp' : seen.fingerprintOf sessionId = some fingerprint := hq.fingerprintOf ▸ hfp
  have hbooks := (h.quiet hq).createBatch hfp' percent hne hinc
    (fun t ht => hq.policyOf ▸ ((hmem t).mp ht).1)
    (fun t ht => hq.heldBy ▸ ((hmem t).mp ht).2.2.2) 0 now
  rcases createBatch_spec hfp' percent thresholds 0 now with heq | ⟨n, hc⟩
  · rw [heq] at hbooks ⊢
    refine ⟨hbooks, hq.fingerprintOf, hq.policyOf, .of_inFlight hin hq.delivering hq.completion,
      .of_eq hq.nextGeneration, hlatch, fun _ => rfl, fun sid t _ => congrFun₂ hq.heldBy sid t,
      fun t g hg => (congrFun₂ hq.heldBy sessionId t).trans hg, fun t g hn hg => ?_, nofun⟩
    cases hn.symm.trans ((congrFun₂ hq.heldBy sessionId t).symm.trans hg)
  · refine ⟨hbooks, hc.fingerprintOf.trans hq.fingerprintOf, hc.policyOf.trans hq.policyOf,
      .of_inFlight (hc.inFlight.trans hin) (hc.delivering.trans hq.delivering)
        (hc.completion.trans hq.completion),
      fun n' hn' => ⟨n, hq.nextGeneration ▸ hc.next, by rw [hc.onward n' hn']; exact n.le_succ⟩,
      fun sid t => ?_, fun hl => hc.logged.trans (hlogged.trans hl), fun sid t hne' => ?_,
      fun t g hg => ?_, fun t g hn hg => ?_, fun _ t hn hpol hle harmed => ?_⟩
    · rw [hc.latch, hlatch]
    · rw [hc.heldBy, if_neg fun hand => hne' hand.1, hq.heldBy]
    · rw [hc.heldBy, if_neg fun hand => ?_, hq.heldBy, hg]
      cases ((hmem t).mp hand.2).2.2.2.symm.trans hg
    · rw [hc.heldBy] at hg
      split_ifs at hg with hand
      · cases hg
        obtain ⟨hpol, hle, harmed, -⟩ := (hmem t).mp hand.2
        exact ⟨⟨hpol, hle, harmed⟩, hq.nextGeneration ▸ hc.next, _,
          by rw [hc.lookup, if_pos rfl], rfl⟩
      · rw [hq.heldBy, hn] at hg
        cases hg
    · exact ⟨n, by rw [hc.heldBy, if_pos ⟨rfl, (hmem t).mpr ⟨hpol, hle, harmed, hn⟩⟩]⟩

theorem evaluateNumericSample_eq {sessionId : Uuid} {session : SessionAlertState}
    {fingerprint : MemberIdentityFingerprint} (hs : a.sessions.lookup sessionId = some session)
    (hfp : session.fingerprint = some fingerprint) (percent : ℕ) (now : ℤ) :
    a.evaluateNumericSample sessionId percent now =
      let found :=
        session.policy.foldl (crossing percent session.outstanding) (session.latches, [])
      let seen := a.relatch sessionId session found.1 percent
      if found.2 = [] then seen
      else seen.createBatch sessionId fingerprint percent (found.2.insertionSort (· ≤ ·)) 0 now := by
  unfold evaluateNumericSample relatch
  rw [hs]
  dsimp only
  rw [hfp]

theorem evaluated_evaluateNumericSample (h : a.Books) {sessionId : Uuid}
    {fingerprint : MemberIdentityFingerprint}
    (hfp : a.fingerprintOf sessionId = some fingerprint) (percent : ℕ) (now : ℤ) :
    Evaluated sessionId percent a (a.evaluateNumericSample sessionId percent now) := by
  obtain ⟨session, hs, hsfp⟩ := Option.bind_eq_some_iff.mp hfp
  have hpolicy : a.policyOf sessionId = session.policy := by
    rw [policyOf, hs]
    rfl
  have hlatchOf : ∀ t, a.latchOf sessionId t = (session.latches.lookup t).getD .armed := fun t => by
    rw [latchOf, hs]
    rfl
  have hheldBy : ∀ t, a.heldBy sessionId t = session.outstanding.lookup t := fun t => by
    rw [heldBy, hs]
    rfl
  have hnodup : session.policy.Nodup := hpolicy ▸ h.distinct sessionId
  obtain ⟨hlatches, hcrossed⟩ :=
    foldl_crossing percent session.outstanding hnodup (session.latches, [])
  rw [evaluateNumericSample_eq hs hsfp]
  dsimp only
  generalize session.policy.foldl (crossing percent session.outstanding) (session.latches, []) =
    found at hlatches hcrossed
  obtain ⟨latches, crossed⟩ := found
  dsimp only at hlatches hcrossed ⊢
  rw [List.nil_append] at hcrossed
  have hmem : ∀ t, t ∈ crossed ↔ t ∈ a.policyOf sessionId ∧ t ≤ percent ∧
      a.latchOf sessionId t = .armed ∧ a.heldBy sessionId t = none := fun t => by
    rw [hcrossed, List.mem_filter, newlyCrosses, decide_eq_true_iff, hpolicy, hlatchOf, hheldBy]
  have hq := quiet_relatch hs latches percent
  have hlatch : ∀ sid t, (a.relatch sessionId session latches percent).latchOf sid t =
      if sid = sessionId ∧ t ∈ a.policyOf sessionId then latchAt percent t
      else a.latchOf sid t := by
    intro sid t
    rw [latchOf_relatch, hlatches, hpolicy]
    by_cases hsid : sid = sessionId
    · subst hsid
      rw [if_pos rfl, hlatchOf]
      by_cases ht : t ∈ session.policy
      · rw [if_pos ht, if_pos ⟨rfl, ht⟩]
        rfl
      · rw [if_neg ht, if_neg fun hand => ht hand.2]
    · rw [if_neg hsid, if_neg fun hand => hsid hand.1]
  split_ifs with hnil
  · refine .quiet h hq rfl rfl hlatch fun t hn hpol hle harmed => ?_
    have := (hmem t).mpr ⟨hpol, hle, harmed, hn⟩
    rw [hnil] at this
    cases this
  · have hsorted : (crossed.insertionSort (· ≤ ·)).Pairwise (· ≤ ·) :=
      List.pairwise_insertionSort (· ≤ ·) crossed
    have hdistinct : (crossed.insertionSort (· ≤ ·)).Nodup :=
      (List.perm_insertionSort _ crossed).nodup_iff.mpr (hcrossed ▸ hnodup.filter _)
    refine .create h hq rfl rfl hlatch hfp (fun he => hnil ?_)
      (hsorted.imp₂ (fun _ _ hle hne => lt_of_le_of_ne hle hne) hdistinct) fun t => ?_
    · exact List.perm_nil.mp (he ▸ (List.perm_insertionSort _ crossed).symm)
    · rw [List.mem_insertionSort, hmem]

end Actor

end AgentsCommander.ContextAlerts
