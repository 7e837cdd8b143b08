import AgentsCommander.ContextAlerts.Accounts

/-! What each operation of the actor does to the accounts. -/
namespace AgentsCommander.ContextAlerts
open Foundation

namespace Actor
variable {a a' : Actor}

theorem fingerprintOf_adjust {sessionId : Uuid} {f : SessionAlertState → SessionAlertState}
    (hs : a'.sessions = Assoc.adjust a.sessions sessionId f)
    (hf : ∀ s, (f s).fingerprint = s.fingerprint) : a'.fingerprintOf = a.fingerprintOf := by
  funext sid
  unfold fingerprintOf
  rw [hs, Assoc.lookup_adjust]
  split_ifs
  · cases a.sessions.lookup sid with
    | none => rfl
    | some session => exact hf session
  · rfl

theorem policyOf_adjust {sessionId : Uuid} {f : SessionAlertState → SessionAlertState}
    (hs : a'.sessions = Assoc.adjust a.sessions sessionId f)
    (hf : ∀ s, (f s).policy = s.policy) : a'.policyOf = a.policyOf := by
  funext sid
  unfold policyOf
  rw [hs, Assoc.lookup_adjust]
  split_ifs
  · cases a.sessions.lookup sid with
    | none => rfl
    | some session => exact hf session
  · rfl

theorem heldBy_adjust {sessionId : Uuid} {f : SessionAlertState → SessionAlertState}
    (hs : a'.sessions = Assoc.adjust a.sessions sessionId f) (sid : Uuid) (t : ℕ) :
    a'.heldBy sid t = if sid = sessionId then
      (a.sessions.lookup sid).bind fun session => (f session).outstanding.lookup t
    else a.heldBy sid t := by
  unfold heldBy
  rw [hs, Assoc.lookup_adjust]
  split_ifs
  · exact Option.bind_map ..
  · rfl

theorem heldBy_adjust_same {sessionId : Uuid} {f : SessionAlertState → SessionAlertState}
    (hs : a'.sessions = Assoc.adjust a.sessions sessionId f)
    (hf : ∀ s, (f s).outstanding = s.outstanding) : a'.heldBy = a.heldBy := by
  funext sid t
  rw [heldBy_adjust hs]
  split_ifs
  · unfold heldBy
    congr 1
    funext session
    rw [hf]
  · rfl

theorem lookup_onEntry (sessionId : Uuid) (f : SessionAlertState → SessionAlertState) (sid : Uuid) :
    (a.onEntry sessionId f).sessions.lookup sid =
      if sid = sessionId then some (f ((a.sessions.lookup sessionId).getD .empty))
      else a.sessions.lookup sid := Assoc.lookup_insert_eq ..

theorem fingerprintOf_onEntry {sessionId : Uuid} {f : SessionAlertState → SessionAlertState}
    (hf : ∀ s, (f s).fingerprint = s.fingerprint) :
    (a.onEntry sessionId f).fingerprintOf = a.fingerprintOf := by
  funext sid
  unfold fingerprintOf
  rw [lookup_onEntry]
  split_ifs with hsid
  · rw [hsid, Option.bind_some, hf]
    cases a.sessions.lookup sessionId <;> rfl
  · rfl

theorem policyOf_onEntry {sessionId : Uuid} {f : SessionAlertState → SessionAlertState}
    (hf : ∀ s, (f s).policy = s.policy) : (a.onEntry sessionId f).policyOf = a.policyOf := by
  funext sid
  unfold policyOf
  rw [lookup_onEntry]
  split_ifs with hsid
  · rw [hsid, Option.elim_some, hf]
    cases a.sessions.lookup sessionId <;> rfl
  · rfl

theorem heldBy_onEntry {sessionId : Uuid} {f : SessionAlertState → SessionAlertState}
    (hf : ∀ s, (f s).outstanding = s.outstanding) :
    (a.onEntry sessionId f).heldBy = a.heldBy := by
  funext sid t
  unfold heldBy
  rw [lookup_onEntry]
  split_ifs with hsid
  · rw [hsid, Option.bind_some, hf]
    cases a.sessions.lookup sessionId <;> rfl
  · rfl

/-- Entering a session changes nothing of the rest. -/
theorem Quiet.onEntry {sessionId : Uuid} {f : SessionAlertState → SessionAlertState}
    (hf : ∀ s, (f s).fingerprint = s.fingerprint) (hp : ∀ s, (f s).policy = s.policy)
    (ho : ∀ s, (f s).outstanding = s.outstanding) : Quiet a (a.onEntry sessionId f) :=
  ⟨⟨fingerprintOf_onEntry hf, policyOf_onEntry hp, rfl, rfl, rfl, rfl⟩, heldBy_onEntry ho,
    fun _ => rfl⟩

theorem Quiet.onSession {sessionId : Uuid} {f : SessionAlertState → SessionAlertState}
    (hf : ∀ s, (f s).fingerprint = s.fingerprint) (hp : ∀ s, (f s).policy = s.policy)
    (ho : ∀ s, (f s).outstanding = s.outstanding) :
    Quiet a { a with sessions := Assoc.adjust a.sessions sessionId f } :=
  ⟨⟨fingerprintOf_adjust rfl hf, policyOf_adjust rfl hp, rfl, rfl, rfl, rfl⟩,
    heldBy_adjust_same rfl ho, fun _ => rfl⟩

theorem Quiet.cancelInFlight : Quiet a a.cancelInFlight := by
  refine ⟨⟨rfl, rfl, ?_, rfl, rfl, rfl⟩, rfl, fun _ => rfl⟩
  show (a.inFlight.map InFlightSlot.cancel).map _ = a.inFlight.map _
  cases a.inFlight <;> rfl

/-- Batches change in what the accounts do not know. -/
theorem Quiet.onBatch {g : ℕ} {f : AlertBatch → AlertBatch}
    (hf : ∀ batch, a.batches.lookup g = some batch → (f batch).core = batch.core) :
    Quiet a { a with batches := Assoc.adjust a.batches g f } := by
  refine ⟨⟨rfl, rfl, rfl, rfl, rfl, rfl⟩, rfl, fun g' => ?_⟩
  rw [Assoc.lookup_adjust]
  split_ifs with hg
  · subst hg
    cases hb : a.batches.lookup g' with
    | none => rfl
    | some batch => exact congrArg some (hf batch hb)
  · rfl

theorem Quiet.makeSessionBatchesDueNow (sessionId : Uuid) (now : ℤ) :
    Quiet a (a.makeSessionBatchesDueNow sessionId now) := by
  refine ⟨⟨rfl, rfl, rfl, rfl, rfl, rfl⟩, rfl, fun g => ?_⟩
  show ((Assoc.mapValues a.batches _).lookup g).map _ = _
  rw [Assoc.lookup_mapValues]
  cases a.batches.lookup g with
  | none => rfl
  | some batch =>
    dsimp only [Option.map_some]
    split_ifs <;> rfl

theorem heldBy_removeBatch (h : a.Books) (g : ℕ) (sid : Uuid) (t : ℕ) :
    (a.removeBatch g).heldBy sid t =
      if a.heldBy sid t = some g then none else a.heldBy sid t := by
  have hholds := h.held sid t g
  unfold removeBatch
  cases hb : a.batches.lookup g with
  | none =>
    have hfree : a.heldBy sid t ≠ some g := fun hh => by
      obtain ⟨batch, hb', -⟩ := hholds.mp hh
      cases hb.symm.trans hb'
    rw [if_neg hfree]
  | some batch =>
    rw [heldBy_adjust rfl]
    split_ifs with hsid hheld hheld
    · subst hsid
      obtain ⟨session, hs, hout⟩ := Option.bind_eq_some_iff.mp hheld
      obtain ⟨batch', hb', -, ht⟩ := hholds.mp hheld
      cases hb.symm.trans hb'
      rw [hs, Option.bind_some, SessionAlertState.lookup_release, if_pos ⟨ht, hout⟩]
    · subst hsid
      unfold heldBy at hheld ⊢
      cases hs : a.sessions.lookup batch.sessionId with
      | none => rfl
      | some session =>
        rw [hs] at hheld
        rw [Option.bind_some, SessionAlertState.lookup_release, if_neg fun hand => hheld hand.2]
        rfl
    · obtain ⟨batch', hb', hsid', -⟩ := hholds.mp hheld
      cases hb.symm.trans hb'
      exact absurd hsid'.symm hsid
    · rfl

theorem lookup_removeBatch (g g' : ℕ) :
    (a.removeBatch g).batches.lookup g' = if g' = g then none else a.batches.lookup g' := by
  unfold removeBatch
  cases hb : a.batches.lookup g with
  | none =>
    split_ifs with hg
    · rw [hg]
      exact hb
    · rfl
  | some batch => exact Assoc.lookup_erase_eq ..

theorem framed_removeBatch (g : ℕ) : Framed a (a.removeBatch g) := by
  unfold removeBatch
  cases a.batches.lookup g with
  | none => exact .refl a
  | some batch =>
    exact ⟨fingerprintOf_adjust rfl fun _ => rfl, policyOf_adjust rfl fun _ => rfl, rfl, rfl, rfl,
      rfl⟩

theorem Books.removeBatch (h : a.Books) (g : ℕ) : (a.removeBatch g).Books := by
  refine h.framed (framed_removeBatch g) (fun g' batch' hb' => ?_) fun sid t g' => ?_
  · rw [lookup_removeBatch] at hb'
    split_ifs at hb'
    exact ⟨batch', hb', AlertBatch.within_of_core rfl⟩
  · unfold Holds
    rw [heldBy_removeBatch h, lookup_removeBatch]
    by_cases hg : g' = g
    · subst hg
      rw [if_pos rfl]
      split_ifs with hheld
      · exact ⟨nofun, fun ⟨_, hb, _⟩ => nomatch hb⟩
      · exact ⟨fun hh => absurd hh hheld, fun ⟨_, hb, _⟩ => nomatch hb⟩
    · rw [if_neg hg]
      split_ifs with hheld
      · refine ⟨nofun, fun hholds => ?_⟩
        have := (h.held sid t g').mpr hholds
        exact absurd (Option.some.inj (this.symm.trans hheld)) hg
      · exact h.held sid t g'

/-- A batch keeps some of its thresholds. -/
def shrink (a : Actor) (g : ℕ) (batch : AlertBatch) (kept : List ℕ) : Actor :=
  let released := Assoc.adjust a.sessions batch.sessionId
    fun session => session.release batch.thresholds g
  { a with
    batches := a.batches.insert g { batch with thresholds := kept }
    sessions := Assoc.adjust released batch.sessionId fun session => session.hold kept g }

theorem lookup_shrink (g : ℕ) (batch : AlertBatch) (kept : List ℕ) (sid : Uuid) :
    (a.shrink g batch kept).sessions.lookup sid =
      if sid = batch.sessionId then
        (a.sessions.lookup sid).map fun session =>
          (session.release batch.thresholds g).hold kept g
      else a.sessions.lookup sid := by
  show (Assoc.adjust (Assoc.adjust ..) ..).lookup sid = _
  rw [Assoc.lookup_adjust, Assoc.lookup_adjust]
  split_ifs
  · exact Option.map_map ..
  · rfl

theorem framed_shrink (g : ℕ) (batch : AlertBatch) (kept : List ℕ) :
    Framed a (a.shrink g batch kept) := by
  refine ⟨funext fun sid => ?_, funext fun sid => ?_, rfl, rfl, rfl, rfl⟩
  · unfold fingerprintOf
    rw [lookup_shrink]
    split_ifs
    · cases a.sessions.lookup sid <;> rfl
    · rfl
  · unfold policyOf
    rw [lookup_shrink]
    split_ifs
    · cases a.sessions.lookup sid <;> rfl
    · rfl

theorem heldBy_shrink (h : a.Books) {g : ℕ} {batch : AlertBatch} {kept : List ℕ}
    (hb : a.batches.lookup g = some batch) (hkept : ∀ t ∈ kept, t ∈ batch.thresholds)
    (sid : Uuid) (t : ℕ) :
    (a.shrink g batch kept).heldBy sid t =
      if a.heldBy sid t = some g ∧ t ∉ kept then none else a.heldBy sid t := by
  have hholds := h.held sid t g
  unfold heldBy at hholds ⊢
  rw [lookup_shrink]
  by_cases hsid : sid = batch.sessionId
  · subst hsid
    rw [if_pos rfl]
    cases hs : a.sessions.lookup batch.sessionId with
    | none => rfl
    | some session =>
      rw [hs, Option.bind_some] at hholds
      rw [Option.map_some, Option.bind_some, Option.bind_some, SessionAlertState.lookup_hold,
        SessionAlertState.lookup_release]
      by_cases ht : t ∈ kept
      · rw [if_pos ht, if_neg fun hand => hand.2 ht]
        exact (hholds.mpr ⟨batch, hb, rfl, hkept t ht⟩).symm
      · rw [if_neg ht]
        refine if_congr ⟨fun hand => ⟨hand.2, ht⟩, fun hand => ⟨?_, hand.1⟩⟩ rfl rfl
        obtain ⟨batch', hb', -, ht'⟩ := hholds.mp hand.1
        cases hb.symm.trans hb'
        exact ht'
  · rw [if_neg hsid, if_neg fun hand => ?_]
    obtain ⟨batch', hb', hsid', -⟩ := hholds.mp hand.1
    cases hb.symm.trans hb'
    exact hsid hsid'.symm

theorem lookup_batches_shrink (g : ℕ) (batch : AlertBatch) (kept : List ℕ) (g' : ℕ) :
    (a.shrink g batch kept).batches.lookup g' =
      if g' = g then some { batch with thresholds := kept } else a.batches.lookup g' :=
  Assoc.lookup_insert_eq ..

theorem Books.shrink (h : a.Books) {g : ℕ} {batch : AlertBatch} {kept : List ℕ}
    (hb : a.batches.lookup g = some batch) (hkept : kept.Sublist batch.thresholds)
    (hne : kept ≠ []) : (a.shrink g batch kept).Books := by
  refine h.framed (framed_shrink g batch kept) (fun g' batch' hb' => ?_) fun sid t g' => ?_
  · rw [lookup_batches_shrink] at hb'
    split_ifs at hb' with hg
    · cases hb'
      exact ⟨batch, hg ▸ hb, rfl, rfl, rfl, rfl, hkept, fun _ => hne⟩
    · exact ⟨batch', hb', AlertBatch.within_of_core rfl⟩
  · unfold Holds
    rw [heldBy_shrink h hb fun t ht => hkept.subset ht, lookup_batches_shrink]
    have hholds := h.held sid t g'
    by_cases hg : g' = g
    · subst hg
      rw [if_pos rfl]
      by_cases ht : t ∈ kept
      · rw [if_neg fun hand => hand.2 ht, hholds]
        constructor
        · rintro ⟨batch', hb', hsid, -⟩
          cases hb.symm.trans hb'
          exact ⟨_, rfl, hsid, ht⟩
        · rintro ⟨batch', hb', hsid, ht'⟩
          cases hb'
          exact ⟨batch, hb, hsid, hkept.subset ht⟩
      · refine ⟨fun hh => ?_, ?_⟩
        · split_ifs at hh with hand
          exact absurd ⟨hh, ht⟩ hand
        · rintro ⟨batch', hb', -, ht'⟩
          cases hb'
          exact absurd ht' ht
    · rw [if_neg hg]
      refine Iff.trans ?_ hholds
      split_ifs with hand
      · exact ⟨nofun, fun hh => absurd (Option.some.inj (hh.symm.trans hand.1)) hg⟩
      · exact Iff.rfl

/-- A batch is created under the next generation. -/
structure Creates (a : Actor) (batch : AlertBatch) (a' : Actor) : Prop where
  next : a.nextGeneration = some batch.generation
  lookup : ∀ g, a'.batches.lookup g =
    if g = batch.generation then some batch else a.batches.lookup g
  heldBy : ∀ sid t, a'.heldBy sid t =
    if sid = batch.sessionId ∧ t ∈ batch.thresholds then some batch.generation
    else a.heldBy sid t
  fingerprintOf : a'.fingerprintOf = a.fingerprintOf
  policyOf : a'.policyOf = a.policyOf
  inFlight : a'.inFlight = a.inFlight
  delivering : a'.delivering = a.delivering
  completion : a'.completion = a.completion
  onward : ∀ n, a'.nextGeneration = some n → n = batch.generation + 1
  latchesOf : ∀ sid, (a'.sessions.lookup sid).map (·.latches) =
    (a.sessions.lookup sid).map (·.latches)
  logged : a'.generationExhaustionLogged = a.generationExhaustionLogged

theorem createBatch_spec {sessionId : Uuid} {fingerprint : MemberIdentityFingerprint}
    (hfp : a.fingerprintOf sessionId = some fingerprint) (observed : ℕ) (thresholds : List ℕ)
    (failureCount : ℕ) (dueAt : ℤ) :
    a.createBatch sessionId fingerprint observed thresholds failureCount dueAt =
        { a with generationExhaustionLogged := true } ∨
      ∃ n, Creates a
        ⟨n, sessionId, fingerprint, observed, thresholds, failureCount, dueAt, false⟩
        (a.createBatch sessionId fingerprint observed thresholds failureCount dueAt) := by
  unfold createBatch allocateGeneration
  cases hn : a.nextGeneration with
  | none =>
    left
    dsimp only
    rw [hn]
  | some n =>
    right
    obtain ⟨session, hs, -⟩ := Option.bind_eq_some_iff.mp hfp
    refine ⟨n, hn, fun g => Assoc.lookup_insert_eq .., fun sid t => ?_,
      fingerprintOf_adjust rfl fun _ => rfl, policyOf_adjust rfl fun _ => rfl, rfl, rfl, rfl,
      fun m hm => ?_, fun sid => ?_, rfl⟩
    · dsimp only
      rw [heldBy_adjust rfl]
      by_cases hsid : sid = sessionId
      · subst hsid
        unfold heldBy
        rw [if_pos rfl, hs, Option.bind_some, Option.bind_some, SessionAlertState.lookup_hold]
        refine if_congr ?_ rfl rfl
        rw [eq_self_iff_true, true_and]
      · rw [if_neg hsid, if_neg fun hand => hsid hand.1]
    · dsimp only at hm ⊢
      split_ifs at hm
      exact (Option.some.inj hm).symm
    · dsimp only
      rw [Assoc.lookup_adjust]
      split_ifs
      · exact Option.map_map ..
      · rfl

theorem Creates.holds {batch : AlertBatch} (hc : Creates a batch a') (h : a.Books)
    (sid : Uuid) (t g : ℕ) :
    a'.Holds sid t g ↔ g = batch.generation ∧ sid = batch.sessionId ∧ t ∈ batch.thresholds ∨
      a.Holds sid t g := by
  unfold Holds
  rw [hc.lookup]
  by_cases hg : g = batch.generation
  · have hnone : a.batches.lookup g = none := by
      cases hb : a.batches.lookup g with
      | none => rfl
      | some old => exact absurd ((h.fresh _ hc.next).1 g old hb) (by omega)
    rw [if_pos hg, hnone]
    constructor
    · rintro ⟨batch', hb', hsid, ht⟩
      cases hb'
      exact Or.inl ⟨hg, hsid.symm, ht⟩
    · rintro (⟨-, hsid, ht⟩ | ⟨_, hb, -⟩)
      · exact ⟨batch, rfl, hsid.symm, ht⟩
      · cases hb
  · rw [if_neg hg]
    exact ⟨Or.inr, fun hor => hor.resolve_left fun hand => hg hand.1⟩

theorem Books.creates (h : a.Books) {batch : AlertBatch} (hc : Creates a batch a')
    (hfp : a.fingerprintOf batch.sessionId = some batch.fingerprint)
    (hne : batch.thresholds ≠ []) (hinc : batch.thresholds.Pairwise (· < ·))
    (hpol : ∀ t ∈ batch.thresholds, t ∈ a.policyOf batch.sessionId)
    (hfree : ∀ t ∈ batch.thresholds, a.heldBy batch.sessionId t = none)
    (hidle : batch.inFlight = false) : a'.Books := by
  obtain ⟨hlt, hslot⟩ := h.fresh _ hc.next
  have hslotEq : a'.slot = a.slot := by
    unfold slot
    rw [hc.inFlight]
  have hcases : ∀ g b, a'.batches.lookup g = some b →
      g = batch.generation ∧ b = batch ∨ g ≠ batch.generation ∧ a.batches.lookup g = some b := by
    intro g b hb
    rw [hc.lookup] at hb
    split_ifs at hb with hg
    · exact Or.inl ⟨hg, (Option.some.inj hb).symm⟩
    · exact Or.inr ⟨hg, hb⟩
  refine ⟨fun g b hb => ?_, fun g b hb => ?_, fun sid t g => ?_, fun g b hb => ?_,
    fun n hn => ⟨fun g b hb => ?_, fun g hg => ?_⟩, fun sid => ?_, ?_⟩
  · rcases hcases g b hb with ⟨rfl, rfl⟩ | ⟨-, hb⟩
    · exact ⟨rfl, hne, hinc⟩
    · exact h.batch g b hb
  · rw [hc.fingerprintOf, hc.policyOf]
    rcases hcases g b hb with ⟨-, rfl⟩ | ⟨-, hb⟩
    · exact ⟨hfp, hpol⟩
    · exact h.known g b hb
  · rw [hc.heldBy, hc.holds h, ← h.held]
    split_ifs with hand
    · obtain ⟨rfl, ht⟩ := hand
      rw [hfree t ht, Option.some_inj]
      exact ⟨fun hg => Or.inl ⟨hg.symm, rfl, ht⟩, fun hor => hor.elim (·.1.symm) nofun⟩
    · exact ⟨Or.inr, fun hor => hor.resolve_left fun hh => hand hh.2⟩
  · rw [hslotEq]
    rcases hcases g b hb with ⟨rfl, rfl⟩ | ⟨-, hb⟩
    · rw [hidle]
      exact ⟨nofun, fun hg => absurd (hslot _ hg) (lt_irrefl _)⟩
    · exact h.flagged g b hb
  · rw [hc.onward n hn]
    rcases hcases g b hb with ⟨rfl, -⟩ | ⟨-, hb⟩
    · exact Nat.lt_succ_self _
    · exact (hlt g b hb).trans (Nat.lt_succ_self _)
  · rw [hc.onward n hn]
    exact (hslot g (hslotEq ▸ hg)).trans (Nat.lt_succ_self _)
  · rw [hc.policyOf]
    exact h.distinct sid
  · rw [hslotEq, hc.delivering, hc.completion]
    exact h.delivery

theorem Quiet.logged : Quiet a { a with generationExhaustionLogged := true } :=
  ⟨⟨rfl, rfl, rfl, rfl, rfl, rfl⟩, rfl, fun _ => rfl⟩

theorem Books.createBatch (h : a.Books) {sessionId : Uuid} {fingerprint : MemberIdentityFingerprint}
    (hfp : a.fingerprintOf sessionId = some fingerprint) (observed : ℕ) {thresholds : List ℕ}
    (hne : thresholds ≠ []) (hinc : thresholds.Pairwise (· < ·))
    (hpol : ∀ t ∈ thresholds, t ∈ a.policyOf sessionId)
    (hfree : ∀ t ∈ thresholds, a.heldBy sessionId t = none) (failureCount : ℕ) (dueAt : ℤ) :
    (a.createBatch sessionId fingerprint observed thresholds failureCount dueAt).Books := by
  rcases createBatch_spec hfp observed thresholds failureCount dueAt with heq | ⟨n, hc⟩
  · rw [heq]
    exact h.quiet .logged
  · exact h.creates hc hfp hne hinc hpol hfree rfl

end Actor

end AgentsCommander.ContextAlerts
