import AgentsCommander.MessageStore.TargetLocks

/-! Every step of a caller keeps the locks coherent, and coherent locks keep their promises. -/
namespace AgentsCommander.MessageStore
open Foundation

namespace PtyInputTargetLocks

namespace Coherent
variable {s : PtyInputTargetLocks} {c : Caller}

theorem default : PtyInputTargetLocks.default.Coherent where
  gated := {
    nodup := fun _ => List.nodup_nil
    mem := fun _ _ => iff_of_false (fun h => nomatch h) fun ⟨_, h, _⟩ => nomatch h
    head := fun _ _ ⟨_, h, _⟩ => nomatch h }
  counted _ := ⟨∅, (fun _ => iff_of_false (fun h => nomatch h) fun ⟨_, h, _⟩ => (nomatch h)), rfl⟩
  mapped := {
    current := fun _ _ h => nomatch h
    backed := fun _ _ h => nomatch h
    claimFor := fun _ _ h => nomatch h
    entryFor := fun _ _ h => nomatch h
    claimFresh := fun _ _ h => nomatch h
    entryFresh := fun _ _ h => nomatch h }

/-- A move of a caller that changes neither what it reserves nor where it queues. -/
theorem claims_same {p : LockPhase → Bool} {k : LockClaim} (hk : s.claims c = some k)
    {phase : LockPhase} (hp : p phase = p k.phase) (e : EntryId) :
    (∃ k' ∈ (some { k with phase } : Option LockClaim), k'.entry = e ∧ p k'.phase = true) ↔
      s.Claims p e c := by
  constructor
  · rintro ⟨k', hk', rfl, hphase⟩
    cases hk'
    exact ⟨k, hk, rfl, hp ▸ hphase⟩
  · rintro ⟨k', hk', rfl, hphase⟩
    cases hk.symm.trans hk'
    exact ⟨_, rfl, rfl, hp.trans hphase⟩

theorem claims_none {p : LockPhase → Bool} {k : LockClaim} (hk : s.claims c = some k)
    (hp : p k.phase = false) (e : EntryId) :
    (∃ k' ∈ (none : Option LockClaim), k'.entry = e ∧ p k'.phase = true) ↔ s.Claims p e c := by
  refine iff_of_false (fun ⟨_, hk', _⟩ => nomatch hk') ?_
  rintro ⟨k', hk', rfl, hphase⟩
  cases hk.symm.trans hk'
  rw [hp] at hphase
  cases hphase

theorem acquire (h : s.Coherent) (hk : s.claims c = none) (target : String) :
    (s.acquire c target).Coherent := by
  have hgated : ∀ e, (∃ k' ∈ (some ⟨target, e, .reserved⟩ : Option LockClaim),
      k'.phase.owns = true) → False := by
    rintro e ⟨k', hk', hphase⟩
    cases hk'
    cases hphase
  have hin : ∀ e e', (∃ k' ∈ (some ⟨target, e, .reserved⟩ : Option LockClaim),
      k'.entry = e' ∧ k'.phase.inGate = true) ↔ s.Claims LockPhase.inGate e' c := by
    intro e e'
    refine iff_of_false ?_ fun ⟨_, hk', _⟩ => nomatch hk.symm.trans hk'
    rintro ⟨k', hk', -, hphase⟩
    cases hk'
    cases hphase
  unfold PtyInputTargetLocks.acquire PtyInputTargetLocks.entryFor
  cases hl : s.entries.lookup target with
  | some e =>
    have hg := h.gated.setClaim (hin e) fun k' hk' howns => (hgated e ⟨k', hk', howns⟩).elim
    exact ⟨⟨hg.nodup, hg.mem, hg.head⟩, h.counted.reserve hk target e,
      h.mapped.reserve h.counted.nonneg hk hl⟩
  | none =>
    have hg := h.gated.setClaim (hin s.fresh) fun k' hk' howns =>
      (hgated s.fresh ⟨k', hk', howns⟩).elim
    exact ⟨⟨hg.nodup, hg.mem, hg.head⟩, h.counted.reserve hk target s.fresh,
      h.mapped.make h.counted.nonneg hk hl⟩

theorem lockOwned (h : s.Coherent) {k : LockClaim} (hk : s.claims c = some k)
    (hphase : k.phase = .reserved) :
    ({ s with gate := Function.update s.gate k.entry (s.gate k.entry ++ [c]) }.setPhase c k
      .queued).Coherent where
  gated := h.gated.join hk (by rw [hphase]; rfl)
  counted := h.counted.setClaim (claims_same hk (by rw [hphase]; rfl))
  mapped := by
    have hm : (s.setClaim c (some { k with phase := .queued })).Mapped := h.mapped.setClaim hk
      (fun held heq => nomatch hphase.symm.trans heq)
      (fun k' hk' => by cases hk'; exact ⟨rfl, rfl, fun _ => by rw [hphase]; rfl⟩)
    exact ⟨hm.current, hm.backed, hm.claimFor, hm.entryFor, hm.claimFresh, hm.entryFresh⟩

theorem finish (h : s.Coherent) {k : LockClaim} (hk : s.claims c = some k)
    (hphase : k.phase = .queued) (hhead : (s.gate k.entry).head? = some c) :
    (s.setPhase c k .guarding).Coherent where
  gated := h.gated.setClaim (claims_same hk (by rw [hphase]; rfl)) fun k' hk' _ => by
    cases hk'
    exact hhead
  counted := h.counted.setClaim (claims_same hk (by rw [hphase]; rfl))
  mapped := h.mapped.setClaim hk (fun held heq => nomatch hphase.symm.trans heq)
    (fun k' hk' => by cases hk'; exact ⟨rfl, rfl, fun _ => by rw [hphase]; rfl⟩)

theorem cancel (h : s.Coherent) {k : LockClaim} (hk : s.claims c = some k)
    (hphase : k.phase = .queued) : ((s.leave c k.entry).setPhase c k .cancelled).Coherent where
  gated := h.gated.leave hk fun k' hk' => by
    cases hk'
    rfl
  counted := h.counted.setClaim (claims_same hk (by rw [hphase]; rfl))
  mapped := by
    have hm : (s.setClaim c (some { k with phase := .cancelled })).Mapped := h.mapped.setClaim hk
      (fun held heq => nomatch hphase.symm.trans heq)
      (fun k' hk' => by cases hk'; exact ⟨rfl, rfl, fun _ => by rw [hphase]; rfl⟩)
    exact ⟨hm.current, hm.backed, hm.claimFor, hm.entryFor, hm.claimFresh, hm.entryFresh⟩

theorem unlock (h : s.Coherent) {k : LockClaim} (hk : s.claims c = some k)
    (hphase : k.phase = .unlocking) : ((s.leave c k.entry).setClaim c none).Coherent where
  gated := h.gated.leave hk fun _ hk' => nomatch hk'
  counted := h.counted.setClaim (claims_none hk (by rw [hphase]; rfl))
  mapped := by
    have hm : (s.setClaim c none).Mapped := h.mapped.setClaim hk
      (fun held heq => nomatch hphase.symm.trans heq) (fun _ hk' => nomatch hk')
    exact ⟨hm.current, hm.backed, hm.claimFor, hm.entryFor, hm.claimFresh, hm.entryFresh⟩

/-- What is left of a claim once its reservation is released. -/
theorem gated_after (h : s.Gated) {k : LockClaim} (hk : s.claims c = some k) {held : Bool}
    (hin : k.phase.inGate = held) (howns : k.phase.owns = held) {next : Option LockClaim}
    (hnext : ∀ k' ∈ next, k'.entry = k.entry ∧ k'.phase.inGate = held ∧ k'.phase.owns = held)
    (hsome : held = true → next ≠ none) : (s.setClaim c next).Gated := by
  refine h.setClaim (fun e => ?_) fun k' hk' hown => ?_
  · constructor
    · rintro ⟨k', hk', rfl, hphase⟩
      obtain ⟨hentry, hin', -⟩ := hnext k' hk'
      exact ⟨k, hk, hentry.symm, hin.trans (hin'.symm.trans hphase)⟩
    · rintro ⟨k', hk', rfl, hphase⟩
      cases hk.symm.trans hk'
      obtain ⟨k', hk'⟩ := Option.ne_none_iff_exists'.mp (hsome (hin.symm.trans hphase))
      obtain ⟨hentry, hin', -⟩ := hnext k' hk'
      exact ⟨k', hk', hentry, hin'.trans (hin.symm.trans hphase)⟩
  · obtain ⟨hentry, -, hown'⟩ := hnext k' hk'
    rw [hentry]
    exact h.head k.entry c ⟨k, hk, rfl, howns.trans (hown'.symm.trans hown)⟩

theorem fetchSub (h : s.Coherent) {k : LockClaim} (hk : s.claims c = some k)
    (hphase : k.phase = .guarding ∨ k.phase = .cancelled) : (s.fetchSub c k).Coherent := by
  have hres : k.phase.reserves = true := by rcases hphase with hp | hp <;> rw [hp] <;> rfl
  have hnot : ∀ held, k.phase ≠ .removing held := by
    intro held heq
    rcases hphase with hp | hp <;> exact nomatch hp.symm.trans heq
  have hin : k.phase.inGate = decide (k.phase = .guarding) := by
    rcases hphase with hp | hp <;> rw [hp] <;> rfl
  have howns : k.phase.owns = decide (k.phase = .guarding) := by
    rcases hphase with hp | hp <;> rw [hp] <;> rfl
  have hpos := h.counted.pos hk hres
  have hmain : ∀ next : Option LockClaim,
      (∀ k' ∈ next, k'.target = k.target ∧ k'.entry = k.entry ∧ k'.phase.reserves = false ∧
        k'.phase.inGate = decide (k.phase = .guarding) ∧
        k'.phase.owns = decide (k.phase = .guarding)) →
      (decide (k.phase = .guarding) = true → next ≠ none) →
      (s.reservations k.entry = 1 → ∃ k' ∈ next, ∃ held, k'.phase = .removing held) →
      ({ s with reservations :=
          Function.update s.reservations k.entry (s.reservations k.entry - 1) }.setClaim c
        next).Coherent := by
    intro next hnext hsome hlast
    have hg := gated_after h.gated hk hin howns
      (fun k' hk' => ⟨(hnext k' hk').2.1, (hnext k' hk').2.2.2.1, (hnext k' hk').2.2.2.2⟩) hsome
    exact ⟨⟨hg.nodup, hg.mem, hg.head⟩, h.counted.release hk hres fun k' hk' => (hnext k' hk').2.2.1,
      h.mapped.release hk hpos hnot
        (fun k' hk' => ⟨(hnext k' hk').1, (hnext k' hk').2.1, (hnext k' hk').2.2.1⟩) hlast⟩
  unfold PtyInputTargetLocks.fetchSub
  dsimp only
  split_ifs with hone hheld
  · refine hmain _ (fun k' hk' => ?_) (fun _ => Option.some_ne_none _) fun _ => ⟨_, rfl, _, rfl⟩
    cases hk'
    exact ⟨rfl, rfl, rfl, rfl, rfl⟩
  · refine hmain _ (fun k' hk' => ?_) (fun _ => Option.some_ne_none _) fun h1 => absurd h1 hone
    cases hk'
    rw [hheld]
    exact ⟨rfl, rfl, rfl, rfl, rfl⟩
  · exact hmain none (fun _ hk' => nomatch hk') (fun hg => absurd hg hheld) fun h1 => absurd h1 hone

theorem removeEntry (h : s.Coherent) {k : LockClaim} (hk : s.claims c = some k) {held : Bool}
    (hphase : k.phase = .removing held) : (s.removeEntry c k held).Coherent := by
  have hres : k.phase.reserves = false := by rw [hphase]; rfl
  have hmain : ∀ next : Option LockClaim,
      (∀ k' ∈ next, k'.target = k.target ∧ k'.entry = k.entry ∧ k'.phase.reserves = false ∧
        k'.phase.inGate = held ∧ k'.phase.owns = held) → (held = true → next ≠ none) →
      ((if s.entries.lookup k.target = some k.entry ∧ s.reservations k.entry = 0 then
        { s with entries := s.entries.erase k.target } else s).setClaim c next).Coherent := by
    intro next hnext hsome
    have hg := gated_after h.gated hk (by rw [hphase]; rfl) (by rw [hphase]; rfl)
      (fun k' hk' => ⟨(hnext k' hk').2.1, (hnext k' hk').2.2.2.1, (hnext k' hk').2.2.2.2⟩) hsome
    have hmove : ∀ k' ∈ next,
        k'.target = k.target ∧ k'.entry = k.entry ∧ k'.phase.reserves = false :=
      fun k' hk' => ⟨(hnext k' hk').1, (hnext k' hk').2.1, (hnext k' hk').2.2.1⟩
    have hc : (s.setClaim c next).Counted := h.counted.setClaim fun e => by
      constructor
      · rintro ⟨k', hk', -, hr⟩
        rw [(hmove k' hk').2.2] at hr
        cases hr
      · rintro ⟨k', hk', -, hr⟩
        cases hk.symm.trans hk'
        rw [hres] at hr
        cases hr
    split_ifs with hlast
    · exact ⟨⟨hg.nodup, hg.mem, hg.head⟩, hc, h.mapped.erase h.counted hk hlast.2 hlast.1 hmove⟩
    · exact ⟨hg, hc, h.mapped.keep h.counted hk hlast hmove⟩
  unfold PtyInputTargetLocks.removeEntry
  dsimp only
  cases held with
  | true =>
    refine hmain _ (fun k' hk' => ?_) fun _ => Option.some_ne_none _
    cases hk'
    exact ⟨rfl, rfl, rfl, rfl, rfl⟩
  | false => exact hmain none (fun _ hk' => nomatch hk') fun hheld => nomatch hheld

theorem step (h : s.Coherent) (e : LockEvent) : (s.step e).Coherent := by
  cases e with
  | acquire c target =>
    simp only [PtyInputTargetLocks.step]
    cases hk : s.claims c with
    | none => exact h.acquire hk target
    | some k => exact h
  | lockOwned c =>
    simp only [PtyInputTargetLocks.step]
    split
    · rename_i target e hk
      exact h.lockOwned hk rfl
    · exact h
  | finish c =>
    simp only [PtyInputTargetLocks.step]
    split
    · rename_i target e hk
      split_ifs with hhead
      · exact h.finish hk rfl hhead
      · exact h
    · exact h
  | cancel c =>
    simp only [PtyInputTargetLocks.step]
    split
    · rename_i target e hk
      exact h.cancel hk rfl
    · exact h
  | fetchSub c =>
    simp only [PtyInputTargetLocks.step]
    split
    · rename_i target e hk
      exact h.fetchSub hk (Or.inl rfl)
    · rename_i target e hk
      exact h.fetchSub hk (Or.inr rfl)
    · exact h
  | removeEntry c =>
    simp only [PtyInputTargetLocks.step]
    split
    · rename_i target e held hk
      exact h.removeEntry hk rfl
    · exact h
  | unlock c =>
    simp only [PtyInputTargetLocks.step]
    split
    · rename_i target e hk
      exact h.unlock hk rfl
    · exact h

/-- Nobody is before a caller whose predecessors are gone. -/
theorem head_of_gone (h : s.Coherent) {target : String} {e : EntryId}
    (hk : s.claims c = some ⟨target, e, .queued⟩)
    (hgone : ∀ c' ∈ (s.gate e).takeWhile (· ≠ c), s.claims c' = none) :
    (s.gate e).head? = some c := by
  have hmem : c ∈ s.gate e := (h.gated.mem e c).mpr ⟨_, hk, rfl, rfl⟩
  cases hg : s.gate e with
  | nil =>
    rw [hg] at hmem
    cases hmem
  | cons a l =>
    by_cases ha : a = c
    · rw [ha]
      rfl
    · have hfirst : a ∈ (s.gate e).takeWhile (· ≠ c) := by
        rw [hg, List.takeWhile_cons_of_pos (by simpa using ha)]
        exact List.mem_cons_self
      obtain ⟨k, hk', -⟩ := (h.gated.mem e a).mp (by rw [hg]; exact List.mem_cons_self)
      cases (hgone a hfirst).symm.trans hk'

theorem law (h : s.Coherent) : TargetLockLaw s where
  exclusive c c' target e e' hc hc' := by
    have hcur : s.entries.lookup target = some e := h.mapped.current c _ hc rfl
    have hcur' : s.entries.lookup target = some e' := h.mapped.current c' _ hc' rfl
    obtain rfl : e = e' := Option.some.inj (hcur.symm.trans hcur')
    have hhead := h.gated.head e c ⟨_, hc, rfl, rfl⟩
    have hhead' := h.gated.head e c' ⟨_, hc', rfl, rfl⟩
    exact Option.some.inj (hhead.symm.trans hhead')
  current := h.mapped.current
  obtains c target e hk hgone := by
    have hhead := h.head_of_gone hk hgone
    have hstep : s.step (.finish c) = s.setPhase c ⟨target, e, .queued⟩ .guarding := by
      simp only [PtyInputTargetLocks.step, hk, hhead, if_true]
    rw [hstep]
    exact ⟨claims_setClaim_self _, h.mapped.current c _ hk rfl⟩
  counted := h.counted.nonneg
  released _ _ hk hres := h.counted.pos hk hres
  emptied target hgone := by
    cases hl : s.entries.lookup target with
    | none => rfl
    | some e =>
      exfalso
      have hmade := h.mapped.entryFor target e hl
      rcases h.mapped.backed target e hl with hpos | ⟨c, k, held, hk, he, hphase⟩
      · obtain ⟨H, hH, hcard⟩ := h.counted e
        have hcard' : 0 < H.card := by omega
        obtain ⟨c, hc⟩ := Finset.card_pos.mp hcard'
        obtain ⟨k, hk, he, hres⟩ := (hH c).mp hc
        have htarget := (h.mapped.claimFor c k hk).symm.trans (he ▸ hmade)
        rw [hgone c k hk htarget] at hres
        cases hres
      · have htarget := (h.mapped.claimFor c k hk).symm.trans (he ▸ hmade)
        exact nomatch hphase.symm.trans (hgone c k hk htarget)

end Coherent
end PtyInputTargetLocks

/-- The law holds after any sequence of steps of any callers. -/
theorem targetLockLaw_run (es : List LockEvent) :
    TargetLockLaw (targetLocks.run PtyInputTargetLocks.default es) :=
  (Machine.run_inv_free (M := targetLocks) (P := PtyInputTargetLocks.Coherent)
    (fun _ e h => h.step e) .default es).law

/-- A caller comes while the last one before it is about to look after the map. -/
example : (targetLocks.run .default [.acquire 0 "dev", .lockOwned 0, .finish 0, .fetchSub 0,
    .acquire 1 "dev", .removeEntry 0, .unlock 0]).entries.lookup "dev" = some 0 := by decide

end AgentsCommander.MessageStore
