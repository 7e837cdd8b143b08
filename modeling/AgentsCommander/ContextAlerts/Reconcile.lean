import AgentsCommander.ContextAlerts.Cutting

/-! A change of policy: what it does to the batches of its session, and to the delivery. -/
namespace AgentsCommander.ContextAlerts
open Foundation

namespace Actor
variable {a a' : Actor}

/-- The batches of the session hold none of the removed thresholds. -/
structure Dropped (sessionId : Uuid) (removed : List ℕ) (a a' : Actor) : Prop where
  books : a'.Books
  fingerprintOf : a'.fingerprintOf = a.fingerprintOf
  policyOf : a'.policyOf = a.policyOf
  delivers : Delivers a a'
  onward : Onward a a'
  latch : a'.latchOf = a.latchOf
  logged : a.generationExhaustionLogged = true → a'.generationExhaustionLogged = true
  others : ∀ sid t, sid ≠ sessionId → a'.heldBy sid t = a.heldBy sid t
  clean : ∀ t g, a'.heldBy sessionId t = some g → t ∉ removed
  unheld : ∀ t, a.heldBy sessionId t = none → a'.heldBy sessionId t = none
  held : ∀ t g, t ∉ removed → a.heldBy sessionId t = some g →
    a'.heldBy sessionId t = some g ∨ a.slot = some g ∧ a'.Cancelled ∧
      (a'.generationExhaustionLogged = false → ∃ g', a'.heldBy sessionId t = some g')
  tracked : ∀ t g, a.slot = some g → a.heldBy sessionId t = some g →
    a'.heldBy sessionId t = some g ∨ a'.Cancelled

theorem dropped_nil (h : a.Books) (sessionId : Uuid) : Dropped sessionId [] a a :=
  ⟨h, rfl, rfl, .refl a, .of_eq rfl, rfl, id, fun _ _ _ => rfl, fun _ _ _ => nofun, fun _ ht => ht,
    fun _ _ _ hg => Or.inl hg, fun _ _ _ hg => Or.inl hg⟩

theorem dropped_dropRemoved (h : a.Books) {sessionId : Uuid}
    {fingerprint : MemberIdentityFingerprint}
    (hfp : a.fingerprintOf sessionId = some fingerprint) (removed : List ℕ) (now : ℤ) :
    Dropped sessionId removed a (a.dropRemoved sessionId fingerprint removed now) := by
  have hcut := (cutting_affected sessionId removed h).run
  unfold dropRemoved
  generalize (a.affected sessionId removed).foldl (cutBatch sessionId removed) (a, []) = cut at hcut
  obtain ⟨cut, replacements⟩ := cut
  dsimp only at hcut ⊢
  have hplaced := place_all hcut.books (hcut.framed.fingerprintOf ▸ hfp)
    (fun r hr => ⟨(hcut.replaces r hr).1, (hcut.replaces r hr).2.1,
      fun t ht => ((hcut.replaces r hr).2.2 t ht).2⟩) hcut.apart now
  refine ⟨hplaced.books, hplaced.fingerprintOf.trans hcut.framed.fingerprintOf,
    hplaced.policyOf.trans hcut.framed.policyOf, hcut.delivers.trans hplaced.delivers,
    (Onward.of_eq hcut.framed.nextGeneration).trans hplaced.onward,
    hplaced.latch.trans hcut.latch, fun hl => hplaced.logged (hcut.logged.trans hl),
    fun sid t hne => (hplaced.others sid t hne).trans (hcut.others sid t hne),
    fun t g hg hremoved => ?_, fun t ht => ?_, fun t g ht hg => ?_, fun t g hslot hg => ?_⟩
  · cases hheld : cut.heldBy sessionId t with
    | some g' =>
      obtain ⟨batch, hb, hsid, hmem⟩ := (hcut.books.held sessionId t g').mp hheld
      cases hcut.left g' batch hb hsid ⟨t, hmem, hremoved⟩
    | none =>
      refine absurd (hplaced.unheld t hheld fun r hr hmem => ?_) (by rw [hg]; nofun)
      exact ((hcut.replaces r hr).2.2 t hmem).1 hremoved
  · exact hplaced.unheld t (hcut.unheld t ht).1 (hcut.unheld t ht).2
  · rcases hcut.held t g ht hg with hkept | ⟨hslot, hc, r, hr, htr⟩
    · exact Or.inl (hplaced.held t g hkept)
    · exact Or.inr ⟨hslot, hplaced.delivers.cancelled hc, fun hl => hplaced.placed hl r hr t htr⟩
  · rcases hcut.tracked t g hslot hg with hkept | hc
    · exact Or.inl (hplaced.held t g hkept)
    · exact Or.inr (hplaced.delivers.cancelled hc)

theorem lookup_latches_adopt (session : SessionAlertState) (newPolicy : List ℕ) (t : ℕ) :
    (session.adopt newPolicy).latches.lookup t =
      if t ∈ newPolicy then some ((session.latches.lookup t).getD .armed) else none := by
  have hfold : ∀ (l : List ℕ) (m : AList fun _ : ℕ => LatchState),
      (l.foldl (fun latches threshold =>
        if (latches.lookup threshold).isSome then latches else latches.insert threshold .armed)
        m).lookup t = if t ∈ l then some ((m.lookup t).getD .armed) else m.lookup t := by
    intro l
    induction l with
    | nil => exact fun _ => rfl
    | cons first rest ih =>
      intro m
      rw [List.foldl_cons, ih]
      by_cases hfirst : (m.lookup first).isSome = true
      · rw [if_pos hfirst]
        by_cases ht : t = first
        · subst ht
          obtain ⟨latch, hlatch⟩ := Option.isSome_iff_exists.mp hfirst
          simp [hlatch]
        · simp [ht]
      · rw [if_neg hfirst, Assoc.lookup_insert_eq]
        by_cases ht : t = first
        · subst ht
          rw [Option.not_isSome_iff_eq_none.mp hfirst]
          simp
        · simp [ht]
  show (newPolicy.foldl _ (Assoc.keep session.latches _)).lookup t = _
  rw [hfold, Assoc.lookup_keep]
  split_ifs with ht
  · cases session.latches.lookup t with
    | none => rfl
    | some latch => simp [Option.filter, ht]
  · cases session.latches.lookup t with
    | none => rfl
    | some latch => simp [Option.filter, ht]

theorem fingerprintOf_adopt (sessionId : Uuid) (newPolicy : List ℕ) :
    (a.onEntry sessionId (·.adopt newPolicy)).fingerprintOf = a.fingerprintOf :=
  fingerprintOf_onEntry (f := fun session => session.adopt newPolicy) fun _ => rfl

theorem policyOf_adopt (sessionId : Uuid) (newPolicy : List ℕ) (sid : Uuid) :
    (a.onEntry sessionId (·.adopt newPolicy)).policyOf sid =
      if sid = sessionId then newPolicy else a.policyOf sid := by
  unfold policyOf
  rw [lookup_onEntry]
  split_ifs <;> rfl

theorem heldBy_adopt (sessionId : Uuid) (newPolicy : List ℕ) (sid : Uuid) (t : ℕ) :
    (a.onEntry sessionId (·.adopt newPolicy)).heldBy sid t =
      if sid = sessionId ∧ t ∉ newPolicy then none else a.heldBy sid t := by
  unfold heldBy
  rw [lookup_onEntry]
  by_cases hsid : sid = sessionId
  · subst hsid
    rw [if_pos rfl, Option.bind_some, SessionAlertState.lookup_adopt]
    by_cases ht : t ∈ newPolicy
    · rw [if_pos ht, if_neg fun hand => hand.2 ht]
      cases a.sessions.lookup sid <;> rfl
    · rw [if_neg ht, if_pos ⟨rfl, ht⟩]
  · rw [if_neg hsid, if_neg fun hand => hsid hand.1]

theorem latchOf_adopt (sessionId : Uuid) (newPolicy : List ℕ) (sid : Uuid) (t : ℕ) :
    (a.onEntry sessionId (·.adopt newPolicy)).latchOf sid t =
      if sid = sessionId ∧ t ∉ newPolicy then .armed else a.latchOf sid t := by
  unfold latchOf
  rw [lookup_onEntry]
  by_cases hsid : sid = sessionId
  · subst hsid
    rw [if_pos rfl, Option.bind_some, lookup_latches_adopt]
    by_cases ht : t ∈ newPolicy
    · rw [if_pos ht, if_neg fun hand => hand.2 ht]
      cases a.sessions.lookup sid <;> rfl
    · rw [if_neg ht, if_pos ⟨rfl, ht⟩]
      rfl
  · rw [if_neg hsid, if_neg fun hand => hsid hand.1]

/-- The policy of a session has been replaced. -/
structure Reconciled (sessionId : Uuid) (newPolicy : List ℕ) (a a' : Actor) : Prop where
  books : a'.Books
  fingerprintOf : a'.fingerprintOf = a.fingerprintOf
  policyOf : ∀ sid, a'.policyOf sid = if sid = sessionId then newPolicy else a.policyOf sid
  delivers : Delivers a a'
  onward : Onward a a'
  latch : ∀ sid t, a'.latchOf sid t =
    if sid = sessionId ∧ t ∉ newPolicy then .armed else a.latchOf sid t
  logged : a.generationExhaustionLogged = true → a'.generationExhaustionLogged = true
  others : ∀ sid t, sid ≠ sessionId → a'.heldBy sid t = a.heldBy sid t
  unheld : ∀ t, a.heldBy sessionId t = none → a'.heldBy sessionId t = none
  held : ∀ t g, t ∈ newPolicy → a.heldBy sessionId t = some g →
    a'.heldBy sessionId t = some g ∨ a.slot = some g ∧ a'.Cancelled ∧
      (a'.generationExhaustionLogged = false → ∃ g', a'.heldBy sessionId t = some g')
  tracked : ∀ t g, a.slot = some g → a.heldBy sessionId t = some g →
    a'.heldBy sessionId t = some g ∨ a'.Cancelled

theorem Books.adopt (h : a.Books) {sessionId : Uuid} {newPolicy : List ℕ}
    (hnew : newPolicy.Nodup)
    (hcover : ∀ t g, a.heldBy sessionId t = some g → t ∈ newPolicy) :
    (a.onEntry sessionId (·.adopt newPolicy)).Books where
  batch := h.batch
  known g batch hb := by
    obtain ⟨hfp, hpol⟩ := h.known g batch hb
    rw [fingerprintOf_adopt, policyOf_adopt]
    refine ⟨hfp, fun t ht => ?_⟩
    split_ifs with hsid
    · exact hcover t g ((h.held sessionId t g).mpr ⟨batch, hb, hsid, ht⟩)
    · exact hpol t ht
  held sid t g := by
    refine Iff.trans ?_ (h.held sid t g)
    rw [heldBy_adopt]
    split_ifs with hand
    · obtain ⟨rfl, ht⟩ := hand
      exact ⟨nofun, fun hg => absurd (hcover t g hg) ht⟩
    · exact Iff.rfl
  flagged := h.flagged
  fresh := h.fresh
  distinct sid := by
    rw [policyOf_adopt]
    split_ifs
    · exact hnew
    · exact h.distinct sid
  delivery := h.delivery

theorem mem_policyOf_of_held (h : a.Books) {sid : Uuid} {t g : ℕ}
    (hg : a.heldBy sid t = some g) : t ∈ a.policyOf sid := by
  obtain ⟨batch, hb, rfl, ht⟩ := (h.held sid t g).mp hg
  exact (h.known g batch hb).2 t ht

theorem Dropped.adopt {sessionId : Uuid} {removed newPolicy : List ℕ}
    (h : Dropped sessionId removed a a')
    (hremoved : removed = (a.policyOf sessionId).filter fun t => t ∉ newPolicy)
    (hnew : newPolicy.Nodup) :
    Reconciled sessionId newPolicy a (a'.onEntry sessionId (·.adopt newPolicy)) := by
  have hcover : ∀ t g, a'.heldBy sessionId t = some g → t ∈ newPolicy := by
    intro t g hg
    by_contra hnot
    refine h.clean t g hg ?_
    rw [hremoved, List.mem_filter]
    refine ⟨?_, decide_eq_true hnot⟩
    rw [← h.policyOf]
    exact mem_policyOf_of_held h.books hg
  refine ⟨h.books.adopt hnew hcover, (fingerprintOf_adopt ..).trans h.fingerprintOf,
    fun sid => ?_, h.delivers.trans (.of_inFlight rfl rfl rfl), h.onward, fun sid t => ?_, h.logged,
    fun sid t hne => ?_, fun t ht => ?_, fun t g ht hg => ?_, fun t g hslot hg => ?_⟩
  · rw [policyOf_adopt, h.policyOf]
  · rw [latchOf_adopt, h.latch]
  · rw [heldBy_adopt, if_neg fun hand => hne hand.1]
    exact h.others sid t hne
  · rw [heldBy_adopt, h.unheld t ht]
    exact ite_self none
  · have hnot : t ∉ removed := by
      rw [hremoved, List.mem_filter]
      exact fun hand => of_decide_eq_true hand.2 ht
    have hsame : (a'.onEntry sessionId (·.adopt newPolicy)).heldBy sessionId t =
        a'.heldBy sessionId t := by
      rw [heldBy_adopt]
      exact if_neg fun hand => hand.2 ht
    rw [hsame]
    exact h.held t g hnot hg
  · rcases h.tracked t g hslot hg with hkept | hc
    · left
      rw [heldBy_adopt, if_neg fun hand => hand.2 (hcover t g hkept), hkept]
    · exact Or.inr hc

theorem reconciled_reconcilePolicy (h : a.Books) {sessionId : Uuid}
    {fingerprint : MemberIdentityFingerprint}
    (hfp : a.fingerprintOf sessionId = some fingerprint) {newPolicy : List ℕ}
    (hnew : newPolicy.Nodup) (now : ℤ) :
    Reconciled sessionId newPolicy a (a.reconcilePolicy sessionId fingerprint newPolicy now) := by
  unfold reconcilePolicy
  dsimp only
  generalize hremoved : (a.policyOf sessionId).filter (fun t => t ∉ newPolicy) = removed
  split_ifs with hnil
  · exact (hnil ▸ dropped_nil h sessionId : Dropped sessionId removed a a).adopt hremoved.symm hnew
  · exact (dropped_dropRemoved h hfp removed now).adopt hremoved.symm hnew

end Actor

end AgentsCommander.ContextAlerts
