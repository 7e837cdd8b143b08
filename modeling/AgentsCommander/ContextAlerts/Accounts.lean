import AgentsCommander.ContextAlerts.Actor

/-! The accounts of the actor: batches, outstanding thresholds, and the slot, kept in agreement. -/
namespace AgentsCommander.ContextAlerts
open Foundation

namespace SessionAlertState

theorem lookup_release (session : SessionAlertState) (thresholds : List ℕ) (g t : ℕ) :
    (session.release thresholds g).outstanding.lookup t =
      if t ∈ thresholds ∧ session.outstanding.lookup t = some g then none
      else session.outstanding.lookup t := by
  show (thresholds.foldl _ session.outstanding).lookup t = _
  generalize session.outstanding = outstanding
  induction thresholds generalizing outstanding with
  | nil => simp
  | cons first rest ih =>
    rw [List.foldl_cons, ih]
    by_cases hfirst : outstanding.lookup first = some g
    · rw [if_pos hfirst, Assoc.lookup_erase_eq]
      by_cases ht : t = first
      · subst ht
        simp [hfirst]
      · simp [ht]
    · rw [if_neg hfirst]
      by_cases ht : t = first
      · subst ht
        simp [hfirst]
      · simp [ht]

theorem lookup_hold (session : SessionAlertState) (thresholds : List ℕ) (g t : ℕ) :
    (session.hold thresholds g).outstanding.lookup t =
      if t ∈ thresholds then some g else session.outstanding.lookup t :=
  Assoc.lookup_foldl_insert thresholds (fun _ => g) session.outstanding t

theorem lookup_adopt (session : SessionAlertState) (newPolicy : List ℕ) (t : ℕ) :
    (session.adopt newPolicy).outstanding.lookup t =
      if t ∈ newPolicy then session.outstanding.lookup t else none := by
  show (Assoc.keep session.outstanding _).lookup t = _
  rw [Assoc.lookup_keep]
  split_ifs with ht
  · cases session.outstanding.lookup t with
    | none => rfl
    | some g => simp [Option.filter, ht]
  · cases session.outstanding.lookup t with
    | none => rfl
    | some g => simp [Option.filter, ht]

end SessionAlertState

namespace Actor
variable (a : Actor)

/-- The batch that a threshold of the session waits for. -/
def heldBy (sessionId : Uuid) (threshold : ℕ) : Option ℕ :=
  (a.sessions.lookup sessionId).bind (·.outstanding.lookup threshold)

def Holds (sessionId : Uuid) (threshold generation : ℕ) : Prop :=
  ∃ batch, a.batches.lookup generation = some batch ∧ batch.sessionId = sessionId ∧
    threshold ∈ batch.thresholds

def slot : Option ℕ := a.inFlight.map (·.generation)

/-- A batch of this generation as it has to be. -/
structure Entered (generation : ℕ) (batch : AlertBatch) : Prop where
  generation : batch.generation = generation
  nonempty : batch.thresholds ≠ []
  increasing : batch.thresholds.Pairwise (· < ·)
  session : ∃ session, a.sessions.lookup batch.sessionId = some session ∧
    session.fingerprint = some batch.fingerprint ∧ ∀ t ∈ batch.thresholds, t ∈ session.policy

structure Accounted : Prop where
  entered : ∀ g batch, a.batches.lookup g = some batch → a.Entered g batch
  disjoint : ∀ g g' batch batch', a.batches.lookup g = some batch →
    a.batches.lookup g' = some batch' → g ≠ g' → batch.sessionId = batch'.sessionId →
    batch.thresholds.Disjoint batch'.thresholds
  outstanding : ∀ sessionId session, a.sessions.lookup sessionId = some session → ∀ t g,
    session.outstanding.lookup t = some g ↔ a.Holds sessionId t g
  single : ∀ g g' batch batch', a.batches.lookup g = some batch →
    a.batches.lookup g' = some batch' → batch.inFlight = true → batch'.inFlight = true → g = g'
  flagged : ∀ g batch, a.batches.lookup g = some batch →
    (batch.inFlight = true ↔ a.slot = some g)
  answered : ∀ g, a.slot = some g →
    a.delivering = some g ∨ a.completion.map (·.generation) = some g

/-- The slot waits for the delivery that runs, or for the completion on its way. -/
inductive Delivery : Option ℕ → Option ℕ → Option ℕ → Prop
  | idle : Delivery none none none
  | running (g : ℕ) : Delivery (some g) (some g) none
  | ended (g : ℕ) : Delivery (some g) none (some g)

structure Books : Prop where
  batch : ∀ g batch, a.batches.lookup g = some batch → batch.generation = g ∧
    batch.thresholds ≠ [] ∧ batch.thresholds.Pairwise (· < ·)
  known : ∀ g batch, a.batches.lookup g = some batch →
    a.fingerprintOf batch.sessionId = some batch.fingerprint ∧
      ∀ t ∈ batch.thresholds, t ∈ a.policyOf batch.sessionId
  held : ∀ sessionId t g, a.heldBy sessionId t = some g ↔ a.Holds sessionId t g
  flagged : ∀ g batch, a.batches.lookup g = some batch →
    (batch.inFlight = true ↔ a.slot = some g)
  fresh : ∀ n, a.nextGeneration = some n → (∀ g batch, a.batches.lookup g = some batch → g < n) ∧
    ∀ g, a.slot = some g → g < n
  distinct : ∀ sessionId, (a.policyOf sessionId).Nodup
  delivery : Delivery a.slot a.delivering (a.completion.map (·.generation))

variable {a}

theorem Books.accounted (h : a.Books) : a.Accounted where
  entered g batch hb := by
    obtain ⟨hgen, hne, hinc⟩ := h.batch g batch hb
    obtain ⟨hfp, hpol⟩ := h.known g batch hb
    obtain ⟨session, hs, hsfp⟩ := Option.bind_eq_some_iff.mp hfp
    refine ⟨hgen, hne, hinc, session, hs, hsfp, fun t ht => ?_⟩
    have := hpol t ht
    rwa [policyOf, hs] at this
  disjoint g g' batch batch' hb hb' hne hsid := fun t ht ht' => by
    have h₁ := (h.held batch.sessionId t g).mpr ⟨batch, hb, rfl, ht⟩
    have h₂ := (h.held batch.sessionId t g').mpr ⟨batch', hb', hsid.symm, ht'⟩
    exact hne (Option.some.inj (h₁.symm.trans h₂))
  outstanding sessionId session hs t g := by
    rw [← h.held, heldBy, hs]
    rfl
  single g g' batch batch' hb hb' hf hf' := by
    have h₁ := (h.flagged g batch hb).mp hf
    have h₂ := (h.flagged g' batch' hb').mp hf'
    exact Option.some.inj (h₁.symm.trans h₂)
  flagged := h.flagged
  answered g hg := by
    have hd := h.delivery
    generalize a.slot = slot, a.delivering = delivering,
      a.completion.map (·.generation) = completion at hd hg ⊢
    cases hd with
    | idle => cases hg
    | running => exact Or.inl hg
    | ended => exact Or.inr hg

theorem Books.new : Actor.new.Books where
  batch _ _ h := nomatch h
  known _ _ h := nomatch h
  held _ _ _ := ⟨nofun, fun ⟨_, h, _⟩ => nomatch h⟩
  flagged _ _ h := nomatch h
  fresh _ _ := ⟨nofun, nofun⟩
  distinct _ := .nil
  delivery := .idle

end Actor

/-- What is left of a batch. -/
structure AlertBatch.Within (batch' batch : AlertBatch) : Prop where
  generation : batch'.generation = batch.generation
  sessionId : batch'.sessionId = batch.sessionId
  fingerprint : batch'.fingerprint = batch.fingerprint
  inFlight : batch'.inFlight = batch.inFlight
  thresholds : batch'.thresholds.Sublist batch.thresholds
  nonempty : batch.thresholds ≠ [] → batch'.thresholds ≠ []

/-- What the accounts know of a batch. -/
def AlertBatch.core (batch : AlertBatch) :
    ℕ × Uuid × MemberIdentityFingerprint × List ℕ × Bool :=
  (batch.generation, batch.sessionId, batch.fingerprint, batch.thresholds, batch.inFlight)

theorem AlertBatch.within_of_core {batch' batch : AlertBatch} (h : batch'.core = batch.core) :
    batch'.Within batch := by
  simp only [core, Prod.mk.injEq] at h
  obtain ⟨hgen, hsid, hfp, hthresholds, hflag⟩ := h
  exact ⟨hgen, hsid, hfp, hflag, hthresholds ▸ .refl _, fun hne => hthresholds.symm ▸ hne⟩

namespace Actor
variable {a a' a'' : Actor}

/-- A step that touches only batches and what is outstanding. -/
structure Framed (a a' : Actor) : Prop where
  fingerprintOf : a'.fingerprintOf = a.fingerprintOf
  policyOf : a'.policyOf = a.policyOf
  slot : a'.slot = a.slot
  nextGeneration : a'.nextGeneration = a.nextGeneration
  delivering : a'.delivering = a.delivering
  completion : a'.completion = a.completion

/-- A step that changes nothing of what the accounts know. -/
structure Quiet (a a' : Actor) : Prop extends Framed a a' where
  heldBy : a'.heldBy = a.heldBy
  batches : ∀ g, (a'.batches.lookup g).map (·.core) = (a.batches.lookup g).map (·.core)

theorem Framed.refl (a : Actor) : Framed a a := ⟨rfl, rfl, rfl, rfl, rfl, rfl⟩

theorem Framed.trans (h : Framed a a') (h' : Framed a' a'') : Framed a a'' where
  fingerprintOf := h'.fingerprintOf.trans h.fingerprintOf
  policyOf := h'.policyOf.trans h.policyOf
  slot := h'.slot.trans h.slot
  nextGeneration := h'.nextGeneration.trans h.nextGeneration
  delivering := h'.delivering.trans h.delivering
  completion := h'.completion.trans h.completion

theorem Quiet.refl (a : Actor) : Quiet a a := ⟨.refl a, rfl, fun _ => rfl⟩

theorem Quiet.trans (h : Quiet a a') (h' : Quiet a' a'') : Quiet a a'' where
  toFramed := h.toFramed.trans h'.toFramed
  heldBy := h'.heldBy.trans h.heldBy
  batches g := (h'.batches g).trans (h.batches g)

theorem Quiet.of_lookup (h : Quiet a a') {g : ℕ} {batch' : AlertBatch}
    (hb : a'.batches.lookup g = some batch') :
    ∃ batch, a.batches.lookup g = some batch ∧ batch'.core = batch.core := by
  have hmap := h.batches g
  rw [hb] at hmap
  obtain ⟨batch, hbatch, hcore⟩ := Option.map_eq_some_iff.mp hmap.symm
  exact ⟨batch, hbatch, hcore.symm⟩

theorem Books.framed (h : a.Books) (hf : Framed a a')
    (hbatches : ∀ g batch', a'.batches.lookup g = some batch' →
      ∃ batch, a.batches.lookup g = some batch ∧ batch'.Within batch)
    (hheld : ∀ sessionId t g, a'.heldBy sessionId t = some g ↔ a'.Holds sessionId t g) :
    a'.Books where
  batch g batch' hb' := by
    obtain ⟨batch, hb, hw⟩ := hbatches g batch' hb'
    obtain ⟨hgen, hne, hinc⟩ := h.batch g batch hb
    exact ⟨hw.generation.trans hgen, hw.nonempty hne, hinc.sublist hw.thresholds⟩
  known g batch' hb' := by
    obtain ⟨batch, hb, hw⟩ := hbatches g batch' hb'
    obtain ⟨hfp, hpol⟩ := h.known g batch hb
    rw [hf.fingerprintOf, hf.policyOf, hw.sessionId, hw.fingerprint]
    exact ⟨hfp, fun t ht => hpol t (hw.thresholds.subset ht)⟩
  held := hheld
  flagged g batch' hb' := by
    obtain ⟨batch, hb, hw⟩ := hbatches g batch' hb'
    rw [hw.inFlight, hf.slot]
    exact h.flagged g batch hb
  fresh n hn := by
    obtain ⟨hlt, hslot⟩ := h.fresh n (hf.nextGeneration ▸ hn)
    refine ⟨fun g batch' hb' => ?_, fun g hg => hslot g (hf.slot ▸ hg)⟩
    obtain ⟨batch, hb, -⟩ := hbatches g batch' hb'
    exact hlt g batch hb
  distinct sessionId := by
    rw [hf.policyOf]
    exact h.distinct sessionId
  delivery := by
    rw [hf.slot, hf.delivering, hf.completion]
    exact h.delivery

theorem Quiet.holds (h : Quiet a a') {sessionId : Uuid} {t g : ℕ} :
    a'.Holds sessionId t g ↔ a.Holds sessionId t g := by
  constructor
  · rintro ⟨batch', hb', hsid, ht⟩
    obtain ⟨batch, hb, hcore⟩ := h.of_lookup hb'
    have hw := AlertBatch.within_of_core hcore
    exact ⟨batch, hb, hw.sessionId.symm.trans hsid, hw.thresholds.subset ht⟩
  · rintro ⟨batch, hb, hsid, ht⟩
    have hmap := h.batches g
    rw [hb] at hmap
    obtain ⟨batch', hb', hcore⟩ := Option.map_eq_some_iff.mp hmap
    have hw := AlertBatch.within_of_core hcore.symm
    exact ⟨batch', hb', hw.sessionId.symm.trans hsid, hw.thresholds.subset ht⟩

theorem Books.quiet (h : a.Books) (hq : Quiet a a') : a'.Books := by
  refine h.framed hq.toFramed (fun g batch' hb' => ?_) fun sessionId t g => ?_
  · obtain ⟨batch, hb, hcore⟩ := hq.of_lookup hb'
    exact ⟨batch, hb, AlertBatch.within_of_core hcore⟩
  · rw [hq.heldBy, hq.holds]
    exact h.held sessionId t g

end Actor

end AgentsCommander.ContextAlerts
