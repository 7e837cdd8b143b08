import AgentsCommander.ContextAlerts.Ledgers

/-! Thresholds leave a policy: the loop over the batches that hold them, and what replaces them. -/
namespace AgentsCommander.ContextAlerts
open Foundation

namespace Actor
variable {a a' : Actor}

/-- A threshold that has not been looked at is armed. -/
def latchOf (a : Actor) (sessionId : Uuid) (threshold : ℕ) : LatchState :=
  ((a.sessions.lookup sessionId).bind (·.latches.lookup threshold)).getD .armed

theorem latchOf_adjust {sessionId : Uuid} {f : SessionAlertState → SessionAlertState}
    (hs : a'.sessions = Assoc.adjust a.sessions sessionId f)
    (hf : ∀ s, (f s).latches = s.latches) : a'.latchOf = a.latchOf := by
  funext sid t
  unfold latchOf
  rw [hs, Assoc.lookup_adjust]
  split_ifs
  · cases a.sessions.lookup sid with
    | none => rfl
    | some session =>
      rw [Option.map_some, Option.bind_some, hf]
      rfl
  · rfl

theorem latchOf_removeBatch (g : ℕ) : (a.removeBatch g).latchOf = a.latchOf := by
  unfold removeBatch
  cases a.batches.lookup g with
  | none => rfl
  | some batch => exact latchOf_adjust rfl fun _ => rfl

theorem latchOf_shrink (g : ℕ) (batch : AlertBatch) (kept : List ℕ) :
    (a.shrink g batch kept).latchOf = a.latchOf := by
  funext sid t
  unfold latchOf
  rw [lookup_shrink]
  split_ifs
  · cases a.sessions.lookup sid <;> rfl
  · rfl

/-- The slot is left alone, or its token is cancelled. -/
structure Delivers (a a' : Actor) : Prop where
  slot : a'.slot = a.slot
  delivering : a'.delivering = a.delivering
  completion : a'.completion = a.completion
  kept : ∀ slot ∈ a.inFlight, ∃ slot' ∈ a'.inFlight, slot.cancelled = true → slot'.cancelled = true

/-- The generations that are left only become fewer. -/
def Onward (a a' : Actor) : Prop :=
  ∀ n', a'.nextGeneration = some n' → ∃ n, a.nextGeneration = some n ∧ n ≤ n'

theorem Onward.of_eq (h : a'.nextGeneration = a.nextGeneration) : Onward a a' :=
  fun n hn => ⟨n, h.symm.trans hn, le_rfl⟩

theorem Onward.trans {a'' : Actor} (h : Onward a a') (h' : Onward a' a'') : Onward a a'' := by
  intro n'' hn''
  obtain ⟨n', hn', hle'⟩ := h' n'' hn''
  obtain ⟨n, hn, hle⟩ := h n' hn'
  exact ⟨n, hn, hle.trans hle'⟩

/-- The delivery under way has been cancelled. -/
def Cancelled (a : Actor) : Prop := ∃ slot ∈ a.inFlight, slot.cancelled = true

theorem Delivers.refl (a : Actor) : Delivers a a :=
  ⟨rfl, rfl, rfl, fun slot hslot => ⟨slot, hslot, id⟩⟩

theorem Delivers.of_inFlight (h : a'.inFlight = a.inFlight) (hd : a'.delivering = a.delivering)
    (hc : a'.completion = a.completion) : Delivers a a' :=
  ⟨congrArg (Option.map InFlightSlot.generation) h, hd, hc, fun slot hslot => ⟨slot, h ▸ hslot, id⟩⟩

theorem Delivers.trans {a'' : Actor} (h : Delivers a a') (h' : Delivers a' a'') :
    Delivers a a'' where
  slot := h'.slot.trans h.slot
  delivering := h'.delivering.trans h.delivering
  completion := h'.completion.trans h.completion
  kept slot hslot := by
    obtain ⟨slot', hslot', hkept⟩ := h.kept slot hslot
    obtain ⟨slot'', hslot'', hkept'⟩ := h'.kept slot' hslot'
    exact ⟨slot'', hslot'', fun hc => hkept' (hkept hc)⟩

theorem Delivers.cancelInFlight : Delivers a a.cancelInFlight := by
  refine ⟨Quiet.cancelInFlight.slot, rfl, rfl, fun slot hslot => ⟨slot.cancel, ?_, fun _ => rfl⟩⟩
  show a.inFlight.map InFlightSlot.cancel = some slot.cancel
  rw [hslot]
  rfl

theorem Delivers.cancelled (h : Delivers a a') (hc : a.Cancelled) : a'.Cancelled := by
  obtain ⟨slot, hslot, hcancelled⟩ := hc
  obtain ⟨slot', hslot', hkept⟩ := h.kept slot hslot
  exact ⟨slot', hslot', hkept hcancelled⟩

theorem cancelled_cancelInFlight (h : a.inFlight.isSome = true) : a.cancelInFlight.Cancelled := by
  obtain ⟨slot, hslot⟩ := Option.isSome_iff_exists.mp h
  refine ⟨slot.cancel, ?_, rfl⟩
  show a.inFlight.map InFlightSlot.cancel = some slot.cancel
  rw [hslot]
  rfl

theorem delivers_removeBatch (g : ℕ) : Delivers a (a.removeBatch g) := by
  unfold removeBatch
  cases a.batches.lookup g with
  | none => exact .refl a
  | some batch => exact .of_inFlight rfl rfl rfl

theorem inFlight_any (g : ℕ) :
    (a.inFlight.any fun slot => slot.generation = g) = true ↔ a.slot = some g := by
  unfold slot
  cases a.inFlight with
  | none => exact ⟨nofun, nofun⟩
  | some slot => simp

/-- What one round of the loop does. -/
theorem cutBatch_cases (sessionId : Uuid) (removed : List ℕ) (replacements : List Replacement)
    {g : ℕ} {batch : AlertBatch} (hb : a.batches.lookup g = some batch)
    (hsid : batch.sessionId = sessionId) {kept : List ℕ}
    (hkept : kept = batch.thresholds.filter fun t => t ∉ removed) :
    a.slot = some g ∧ cutBatch sessionId removed (a, replacements) g =
        ((a.removeBatch g).cancelInFlight, if kept = [] then replacements
          else replacements ++ [⟨batch.observed, kept, batch.failureCount⟩]) ∨
      a.slot ≠ some g ∧ kept = [] ∧ cutBatch sessionId removed (a, replacements) g =
        (a.removeBatch g, replacements) ∨
      a.slot ≠ some g ∧ kept ≠ [] ∧ cutBatch sessionId removed (a, replacements) g =
        (a.shrink g batch kept, replacements) := by
  subst hsid hkept
  unfold cutBatch removeBatch
  dsimp only
  rw [hb]
  dsimp only
  by_cases hslot : a.slot = some g
  · rw [if_pos ((inFlight_any g).mpr hslot)]
    exact Or.inl ⟨hslot, rfl⟩
  · rw [if_neg fun hany => hslot ((inFlight_any g).mp hany)]
    split_ifs with hnil
    · exact Or.inr (Or.inl ⟨hslot, hnil, rfl⟩)
    · exact Or.inr (Or.inr ⟨hslot, hnil, rfl⟩)

/-- The loop over the batches, with `rest` of them still to come. -/
structure Cutting (sessionId : Uuid) (removed : List ℕ) (a₀ : Actor) (rest : List ℕ)
    (a : Actor) (replacements : List Replacement) : Prop where
  books : a.Books
  ours : ∀ g ∈ rest, ∀ batch, a.batches.lookup g = some batch → batch.sessionId = sessionId
  framed : Framed a₀ a
  delivers : Delivers a₀ a
  latch : a.latchOf = a₀.latchOf
  logged : a.generationExhaustionLogged = a₀.generationExhaustionLogged
  left : ∀ g batch, a.batches.lookup g = some batch → batch.sessionId = sessionId →
    (∃ t ∈ batch.thresholds, t ∈ removed) → g ∈ rest
  replaces : ∀ r ∈ replacements, r.thresholds ≠ [] ∧ r.thresholds.Pairwise (· < ·) ∧
    ∀ t ∈ r.thresholds, t ∉ removed ∧ t ∈ a.policyOf sessionId ∧ a.heldBy sessionId t = none
  apart : replacements.Pairwise fun r r' => r.thresholds.Disjoint r'.thresholds
  others : ∀ sid t, sid ≠ sessionId → a.heldBy sid t = a₀.heldBy sid t
  unheld : ∀ t, a₀.heldBy sessionId t = none → a.heldBy sessionId t = none ∧
    ∀ r ∈ replacements, t ∉ r.thresholds
  held : ∀ t g, t ∉ removed → a₀.heldBy sessionId t = some g →
    a.heldBy sessionId t = some g ∨
      a₀.slot = some g ∧ a.Cancelled ∧ ∃ r ∈ replacements, t ∈ r.thresholds
  tracked : ∀ t g, a₀.slot = some g → a₀.heldBy sessionId t = some g →
    a.heldBy sessionId t = some g ∨ a.Cancelled

section cutting
variable {sessionId : Uuid} {removed rest : List ℕ} {a₀ : Actor}
variable {replacements : List Replacement} {g : ℕ}

theorem logged_removeBatch :
    (a.removeBatch g).generationExhaustionLogged = a.generationExhaustionLogged := by
  unfold removeBatch
  cases a.batches.lookup g <;> rfl

theorem Cutting.gone (h : Cutting sessionId removed a₀ (g :: rest) a replacements)
    (hb : a.batches.lookup g = none) : Cutting sessionId removed a₀ rest a replacements where
  books := h.books
  ours g' hg' := h.ours g' (List.mem_cons_of_mem g hg')
  framed := h.framed
  delivers := h.delivers
  latch := h.latch
  logged := h.logged
  left g' batch hb' hsid ht := by
    rcases List.mem_cons.mp (h.left g' batch hb' hsid ht) with rfl | hrest
    · cases hb.symm.trans hb'
    · exact hrest
  replaces := h.replaces
  apart := h.apart
  others := h.others
  unheld := h.unheld
  held := h.held
  tracked := h.tracked

/-- A batch leaves; what is kept of it is to be replaced if it was being delivered. -/
theorem Cutting.remove (h : Cutting sessionId removed a₀ (g :: rest) a replacements)
    {batch : AlertBatch} (hb : a.batches.lookup g = some batch) {more : List Replacement}
    (hq : Quiet (a.removeBatch g) a') (hd : Delivers (a.removeBatch g) a')
    (hlatch : a'.latchOf = (a.removeBatch g).latchOf)
    (hlogged : a'.generationExhaustionLogged = (a.removeBatch g).generationExhaustionLogged)
    (hmore : ∀ r ∈ more, r.thresholds ≠ [] ∧ r.thresholds.Pairwise (· < ·) ∧
      ∀ t ∈ r.thresholds, t ∉ removed ∧ t ∈ batch.thresholds)
    (hone : more.Pairwise fun r r' => r.thresholds.Disjoint r'.thresholds)
    (hcancel : a.slot = some g → a'.Cancelled)
    (hkept : ∀ t ∈ batch.thresholds, t ∉ removed →
      a.slot = some g ∧ ∃ r ∈ more, t ∈ r.thresholds) :
    Cutting sessionId removed a₀ rest a' (replacements ++ more) := by
  have hsid := h.ours g List.mem_cons_self batch hb
  have hheldG : ∀ t, a.heldBy sessionId t = some g ↔ t ∈ batch.thresholds := by
    intro t
    rw [h.books.held]
    constructor
    · rintro ⟨batch', hb', -, ht⟩
      cases hb.symm.trans hb'
      exact ht
    · exact fun ht => ⟨batch, hb, hsid, ht⟩
  have hheld : ∀ sid t, a'.heldBy sid t =
      if a.heldBy sid t = some g then none else a.heldBy sid t := fun sid t => by
    rw [hq.heldBy, heldBy_removeBatch h.books]
  have hlookup : ∀ g' batch', a'.batches.lookup g' = some batch' → g' ≠ g ∧
      ∃ old, a.batches.lookup g' = some old ∧ batch'.core = old.core := by
    intro g' batch' hb'
    obtain ⟨old, hold, hcore⟩ := hq.of_lookup hb'
    rw [lookup_removeBatch] at hold
    split_ifs at hold with hg
    exact ⟨hg, old, hold, hcore⟩
  have hframed : Framed a a' := (framed_removeBatch g).trans hq.toFramed
  have hdelivers : Delivers a a' := (delivers_removeBatch g).trans hd
  refine ⟨(h.books.removeBatch g).quiet hq, fun g' hg' batch' hb' => ?_, h.framed.trans hframed,
    h.delivers.trans hdelivers, ?_, ?_, fun g' batch' hb' hsid' ht => ?_, fun r hr => ?_, ?_,
    fun sid t hne => ?_, fun t ht => ?_, fun t g' ht hg' => ?_, fun t g' hslot hg' => ?_⟩
  · obtain ⟨-, old, hold, hcore⟩ := hlookup g' batch' hb'
    rw [(AlertBatch.within_of_core hcore).sessionId]
    exact h.ours g' (List.mem_cons_of_mem g hg') old hold
  · rw [hlatch, latchOf_removeBatch, h.latch]
  · rw [hlogged, logged_removeBatch, h.logged]
  · obtain ⟨hne, old, hold, hcore⟩ := hlookup g' batch' hb'
    have hw := AlertBatch.within_of_core hcore
    obtain ⟨t, ht, hremoved⟩ := ht
    exact (List.mem_cons.mp (h.left g' old hold (hw.sessionId.symm.trans hsid')
      ⟨t, hw.thresholds.subset ht, hremoved⟩)).resolve_left hne
  · rw [hframed.policyOf]
    rcases List.mem_append.mp hr with hr | hr
    · obtain ⟨hne, hinc, hall⟩ := h.replaces r hr
      refine ⟨hne, hinc, fun t ht => ⟨(hall t ht).1, (hall t ht).2.1, ?_⟩⟩
      rw [hheld, (hall t ht).2.2]
      rfl
    · obtain ⟨hne, hinc, hall⟩ := hmore r hr
      refine ⟨hne, hinc, fun t ht => ⟨(hall t ht).1, ?_, ?_⟩⟩
      · rw [← hsid]
        exact (h.books.known g batch hb).2 t (hall t ht).2
      · rw [hheld, if_pos ((hheldG t).mpr (hall t ht).2)]
  · refine List.pairwise_append.mpr ⟨h.apart, hone, fun r hr r' hr' t ht ht' => ?_⟩
    have hnone := ((h.replaces r hr).2.2 t ht).2.2
    rw [(hheldG t).mpr ((hmore r' hr').2.2 t ht').2] at hnone
    cases hnone
  · rw [hheld, ← h.others sid t hne]
    refine if_neg fun hh => ?_
    obtain ⟨batch', hb', hsid', -⟩ := (h.books.held sid t g).mp hh
    cases hb.symm.trans hb'
    exact hne (hsid'.symm.trans hsid)
  · obtain ⟨hnone, hreps⟩ := h.unheld t ht
    refine ⟨?_, fun r hr hmem => ?_⟩
    · rw [hheld, hnone]
      rfl
    · rcases List.mem_append.mp hr with hr | hr
      · exact hreps r hr hmem
      · rw [(hheldG t).mpr ((hmore r hr).2.2 t hmem).2] at hnone
        cases hnone
  · rw [hheld]
    rcases h.held t g' ht hg' with hold | ⟨hslot, hc, r, hr, htr⟩
    · rw [hold]
      by_cases hg : g' = g
      · subst hg
        obtain ⟨hslot, r, hr, htr⟩ := hkept t ((hheldG t).mp hold) ht
        exact Or.inr ⟨h.framed.slot.symm.trans hslot, hcancel hslot, r,
          List.mem_append_right _ hr, htr⟩
      · exact Or.inl (if_neg fun he => hg (Option.some.inj he))
    · exact Or.inr ⟨hslot, hdelivers.cancelled hc, r, List.mem_append_left _ hr, htr⟩
  · rw [hheld]
    rcases h.tracked t g' hslot hg' with hold | hc
    · rw [hold]
      by_cases hg : g' = g
      · exact Or.inr (hcancel (hg ▸ h.framed.slot.trans hslot))
      · exact Or.inl (if_neg fun he => hg (Option.some.inj he))
    · exact Or.inr (hdelivers.cancelled hc)

/-- A batch that is not being delivered is cut down. -/
theorem Cutting.shrink (h : Cutting sessionId removed a₀ (g :: rest) a replacements)
    {batch : AlertBatch} (hb : a.batches.lookup g = some batch) {kept : List ℕ}
    (hkept : kept = batch.thresholds.filter fun t => t ∉ removed) (hne : kept ≠ [])
    (hidle : a.slot ≠ some g) :
    Cutting sessionId removed a₀ rest (a.shrink g batch kept) replacements := by
  have hsid := h.ours g List.mem_cons_self batch hb
  have hsub : kept.Sublist batch.thresholds := hkept ▸ List.filter_sublist
  have hmem : ∀ t, t ∈ kept ↔ t ∈ batch.thresholds ∧ t ∉ removed := fun t => by
    rw [hkept, List.mem_filter, decide_eq_true_iff]
  have hheld := heldBy_shrink h.books hb fun t ht => hsub.subset ht
  have hframed := framed_shrink (a := a) g batch kept
  have hfree : ∀ sid t, a.heldBy sid t = none → (a.shrink g batch kept).heldBy sid t = none :=
    fun sid t hnone => by
      rw [hheld, hnone]
      exact ite_self none
  refine ⟨h.books.shrink hb hsub hne, fun g' hg' batch' hb' => ?_, h.framed.trans hframed,
    h.delivers.trans (.of_inFlight rfl rfl rfl), (latchOf_shrink ..).trans h.latch, h.logged,
    fun g' batch' hb' hsid' ht => ?_, fun r hr => ?_, h.apart, fun sid t hne' => ?_,
    fun t ht => ?_, fun t g' ht hg' => ?_, fun t g' hslot hg' => ?_⟩
  · rw [lookup_batches_shrink] at hb'
    split_ifs at hb' with hg
    · cases hb'
      exact hsid
    · exact h.ours g' (List.mem_cons_of_mem g hg') batch' hb'
  · rw [lookup_batches_shrink] at hb'
    split_ifs at hb' with hg
    · cases hb'
      obtain ⟨t, ht, hremoved⟩ := ht
      exact absurd hremoved ((hmem t).mp ht).2
    · exact (List.mem_cons.mp (h.left g' batch' hb' hsid' ht)).resolve_left hg
  · rw [hframed.policyOf]
    obtain ⟨hne', hinc, hall⟩ := h.replaces r hr
    exact ⟨hne', hinc, fun t ht => ⟨(hall t ht).1, (hall t ht).2.1, hfree _ t (hall t ht).2.2⟩⟩
  · rw [hheld, ← h.others sid t hne']
    refine if_neg fun hand => ?_
    obtain ⟨batch', hb', hsid', -⟩ := (h.books.held sid t g).mp hand.1
    cases hb.symm.trans hb'
    exact hne' (hsid'.symm.trans hsid)
  · exact ⟨hfree _ t (h.unheld t ht).1, (h.unheld t ht).2⟩
  · rw [hheld]
    rcases h.held t g' ht hg' with hold | ⟨hslot, hc, hr⟩
    · rw [hold]
      refine Or.inl (if_neg fun hand => hand.2 ?_)
      obtain ⟨batch', hb', -, ht'⟩ := (h.books.held sessionId t g').mp hold
      cases Option.some.inj hand.1
      cases hb.symm.trans hb'
      exact (hmem t).mpr ⟨ht', ht⟩
    · exact Or.inr ⟨hslot, hc, hr⟩
  · rw [hheld]
    rcases h.tracked t g' hslot hg' with hold | hc
    · rw [hold]
      refine Or.inl (if_neg fun hand => hidle ?_)
      rw [← Option.some.inj hand.1]
      exact h.framed.slot.trans hslot
    · exact Or.inr hc

theorem Cutting.step (h : Cutting sessionId removed a₀ (g :: rest) a replacements) :
    Cutting sessionId removed a₀ rest (cutBatch sessionId removed (a, replacements) g).1
      (cutBatch sessionId removed (a, replacements) g).2 := by
  cases hb : a.batches.lookup g with
  | none =>
    have hsame : cutBatch sessionId removed (a, replacements) g = (a, replacements) := by
      unfold cutBatch
      dsimp only
      rw [hb]
    rw [hsame]
    exact h.gone hb
  | some batch =>
    have hsid := h.ours g List.mem_cons_self batch hb
    have hmem : ∀ t, t ∈ batch.thresholds.filter (fun t => t ∉ removed) ↔
        t ∈ batch.thresholds ∧ t ∉ removed := fun t => by
      rw [List.mem_filter, decide_eq_true_iff]
    have hinc := (h.books.batch g batch hb).2.2
    rcases cutBatch_cases sessionId removed replacements hb hsid rfl with
      ⟨hslot, heq⟩ | ⟨hslot, hnil, heq⟩ | ⟨hslot, hne, heq⟩
    · rw [heq]
      have hsome : (a.removeBatch g).inFlight.isSome = true := by
        have hslot' := (delivers_removeBatch g).slot.trans hslot
        unfold slot at hslot'
        cases hin : (a.removeBatch g).inFlight with
        | none =>
          rw [hin] at hslot'
          cases hslot'
        | some _ => rfl
      have hcancelled := cancelled_cancelInFlight hsome
      by_cases hnil : batch.thresholds.filter (fun t => t ∉ removed) = []
      · rw [if_pos hnil, ← List.append_nil replacements]
        refine h.remove hb .cancelInFlight .cancelInFlight rfl rfl nofun .nil
          (fun _ => hcancelled) fun t ht hkeep => ?_
        have := (hmem t).mpr ⟨ht, hkeep⟩
        rw [hnil] at this
        cases this
      · rw [if_neg hnil]
        refine h.remove hb .cancelInFlight .cancelInFlight rfl rfl (fun r hr => ?_)
          (List.pairwise_singleton ..) (fun _ => hcancelled) fun t ht hkeep =>
            ⟨hslot, _, List.mem_singleton_self _, (hmem t).mpr ⟨ht, hkeep⟩⟩
        rw [List.mem_singleton.mp hr]
        exact ⟨hnil, hinc.filter _, fun t ht => ((hmem t).mp ht).symm⟩
    · rw [heq, ← List.append_nil replacements]
      refine h.remove hb (.refl _) (.refl _) rfl rfl nofun .nil (fun hs => absurd hs hslot)
        fun t ht hkeep => ?_
      have := (hmem t).mpr ⟨ht, hkeep⟩
      rw [hnil] at this
      cases this
    · rw [heq]
      exact h.shrink hb rfl hne hslot

theorem Cutting.run (h : Cutting sessionId removed a₀ rest a replacements) :
    Cutting sessionId removed a₀ [] (rest.foldl (cutBatch sessionId removed) (a, replacements)).1
      (rest.foldl (cutBatch sessionId removed) (a, replacements)).2 := by
  induction rest generalizing a replacements with
  | nil => exact h
  | cons g rest ih => exact ih h.step

variable (sessionId removed) in
theorem cutting_affected (h : a.Books) :
    Cutting sessionId removed a (a.affected sessionId removed) a [] where
  books := h
  ours g hg batch hb := by
    obtain ⟨batch', hbatch', hgen⟩ := List.mem_map.mp hg
    obtain ⟨hvalue, hcond⟩ := List.mem_filter.mp hbatch'
    obtain ⟨g', hg'⟩ := Assoc.mem_values.mp hvalue
    have hg'' : g' = g := (h.batch g' batch' hg').1.symm.trans hgen
    subst hg''
    cases hb.symm.trans hg'
    exact of_decide_eq_true (Bool.and_eq_true_iff.mp hcond).1
  framed := .refl a
  delivers := .refl a
  latch := rfl
  logged := rfl
  left g batch hb hsid ht := by
    refine List.mem_map.mpr ⟨batch, List.mem_filter.mpr ⟨Assoc.mem_values.mpr ⟨g, hb⟩, ?_⟩,
      (h.batch g batch hb).1⟩
    obtain ⟨t, ht, hremoved⟩ := ht
    rw [decide_eq_true hsid, Bool.true_and, List.any_eq_true]
    exact ⟨t, ht, decide_eq_true hremoved⟩
  replaces := nofun
  apart := .nil
  others _ _ _ := rfl
  unheld _ ht := ⟨ht, nofun⟩
  held _ _ _ hg := Or.inl hg
  tracked _ _ _ hg := Or.inl hg

end cutting

/-- The replacements are created. -/
structure Placed (sessionId : Uuid) (replacements : List Replacement) (a a' : Actor) : Prop where
  books : a'.Books
  fingerprintOf : a'.fingerprintOf = a.fingerprintOf
  policyOf : a'.policyOf = a.policyOf
  delivers : Delivers a a'
  onward : Onward a a'
  latch : a'.latchOf = a.latchOf
  logged : a.generationExhaustionLogged = true → a'.generationExhaustionLogged = true
  others : ∀ sid t, sid ≠ sessionId → a'.heldBy sid t = a.heldBy sid t
  held : ∀ t g, a.heldBy sessionId t = some g → a'.heldBy sessionId t = some g
  unheld : ∀ t, a.heldBy sessionId t = none → (∀ r ∈ replacements, t ∉ r.thresholds) →
    a'.heldBy sessionId t = none
  placed : a'.generationExhaustionLogged = false → ∀ r ∈ replacements, ∀ t ∈ r.thresholds,
    ∃ g, a'.heldBy sessionId t = some g

theorem Creates.latch {batch : AlertBatch} (h : Creates a batch a') : a'.latchOf = a.latchOf := by
  funext sid t
  have hmap := h.latchesOf sid
  unfold latchOf
  cases hs : a.sessions.lookup sid with
  | none =>
    rw [hs] at hmap
    rw [Option.map_eq_none_iff.mp hmap]
  | some session =>
    rw [hs] at hmap
    obtain ⟨session', hs', hlatches⟩ := Option.map_eq_some_iff.mp hmap
    rw [hs', Option.bind_some, Option.bind_some, hlatches]

theorem place (h : a.Books) {sessionId : Uuid} {fingerprint : MemberIdentityFingerprint}
    (hfp : a.fingerprintOf sessionId = some fingerprint) {r : Replacement} (hne : r.thresholds ≠ [])
    (hinc : r.thresholds.Pairwise (· < ·)) (hpol : ∀ t ∈ r.thresholds, t ∈ a.policyOf sessionId)
    (hfree : ∀ t ∈ r.thresholds, a.heldBy sessionId t = none) (now : ℤ) :
    Placed sessionId [r] a (a.createBatch sessionId fingerprint r.observed r.thresholds
      r.failureCount now) := by
  have hbooks := h.createBatch hfp r.observed hne hinc hpol hfree r.failureCount now
  rcases createBatch_spec hfp r.observed r.thresholds r.failureCount now with heq | ⟨n, hc⟩
  · rw [heq] at hbooks ⊢
    exact ⟨hbooks, rfl, rfl, .of_inFlight rfl rfl rfl, .of_eq rfl, rfl, fun _ => rfl,
      fun _ _ _ => rfl, fun _ _ hg => hg, fun _ ht _ => ht, nofun⟩
  · refine ⟨hbooks, hc.fingerprintOf, hc.policyOf,
      .of_inFlight hc.inFlight hc.delivering hc.completion,
      fun n' hn' => ⟨n, hc.next, by rw [hc.onward n' hn']; exact Nat.le_succ n⟩, hc.latch,
      fun hl => hc.logged.trans hl,
      fun sid t hne' => ?_, fun t g hg => ?_, fun t ht hnot => ?_, fun _ r' hr' t ht => ?_⟩
    · rw [hc.heldBy]
      exact if_neg fun hand => hne' hand.1
    · rw [hc.heldBy, if_neg fun hand => ?_]
      · exact hg
      · cases (hfree t hand.2).symm.trans hg
    · rw [hc.heldBy, if_neg fun hand => hnot r (List.mem_singleton_self r) hand.2]
      exact ht
    · rw [List.mem_singleton.mp hr'] at ht
      exact ⟨n, by rw [hc.heldBy, if_pos ⟨rfl, ht⟩]⟩

theorem Placed.cons {sessionId : Uuid} {r : Replacement} {rest : List Replacement} {a'' : Actor}
    (h : Placed sessionId [r] a a') (h' : Placed sessionId rest a' a'') :
    Placed sessionId (r :: rest) a a'' where
  books := h'.books
  fingerprintOf := h'.fingerprintOf.trans h.fingerprintOf
  policyOf := h'.policyOf.trans h.policyOf
  delivers := h.delivers.trans h'.delivers
  onward := h.onward.trans h'.onward
  latch := h'.latch.trans h.latch
  logged hl := h'.logged (h.logged hl)
  others sid t hne := (h'.others sid t hne).trans (h.others sid t hne)
  held t g hg := h'.held t g (h.held t g hg)
  unheld t ht hnot := by
    refine h'.unheld t (h.unheld t ht fun r' hr' => ?_) fun r' hr' =>
      hnot r' (List.mem_cons_of_mem r hr')
    rw [List.mem_singleton.mp hr']
    exact hnot r List.mem_cons_self
  placed hl r' hr' t ht := by
    rcases List.mem_cons.mp hr' with rfl | hr'
    · have hl' : a'.generationExhaustionLogged = false :=
        Bool.eq_false_iff.mpr fun hlogged => by cases hl.symm.trans (h'.logged hlogged)
      obtain ⟨g, hg⟩ := h.placed hl' r' (List.mem_singleton_self r') t ht
      exact ⟨g, h'.held t g hg⟩
    · exact h'.placed hl r' hr' t ht

theorem place_all (h : a.Books) {sessionId : Uuid} {fingerprint : MemberIdentityFingerprint}
    (hfp : a.fingerprintOf sessionId = some fingerprint) {replacements : List Replacement}
    (hreps : ∀ r ∈ replacements, r.thresholds ≠ [] ∧ r.thresholds.Pairwise (· < ·) ∧
      ∀ t ∈ r.thresholds, t ∈ a.policyOf sessionId ∧ a.heldBy sessionId t = none)
    (hapart : replacements.Pairwise fun r r' => r.thresholds.Disjoint r'.thresholds) (now : ℤ) :
    Placed sessionId replacements a (replacements.foldl (fun a r =>
      a.createBatch sessionId fingerprint r.observed r.thresholds r.failureCount now) a) := by
  induction replacements generalizing a with
  | nil =>
    exact ⟨h, rfl, rfl, .refl a, .of_eq rfl, rfl, id, fun _ _ _ => rfl, fun _ _ hg => hg,
      fun _ ht _ => ht, nofun⟩
  | cons r rest ih =>
    obtain ⟨hne, hinc, hall⟩ := hreps r List.mem_cons_self
    obtain ⟨hfirst, hrest⟩ := List.pairwise_cons.mp hapart
    have hplaced := place h hfp hne hinc (fun t ht => (hall t ht).1) (fun t ht => (hall t ht).2) now
    refine hplaced.cons (ih hplaced.books (hplaced.fingerprintOf ▸ hfp) (fun r' hr' => ?_) hrest)
    obtain ⟨hne', hinc', hall'⟩ := hreps r' (List.mem_cons_of_mem r hr')
    refine ⟨hne', hinc', fun t ht => ⟨?_, hplaced.unheld t (hall' t ht).2 fun x hx => ?_⟩⟩
    · rw [hplaced.policyOf]
      exact (hall' t ht).1
    · rw [List.mem_singleton.mp hx]
      exact fun htr => hfirst r' hr' htr ht

end Actor

end AgentsCommander.ContextAlerts
