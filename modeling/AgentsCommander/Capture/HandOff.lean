import Mathlib.Data.List.Infix
import AgentsCommander.Capture.Slot

/-! Each candidate is handed out at most once, and under a sequence number the slot has not
moved on from, until the numbers wrap around. -/
namespace AgentsCommander.Capture
open Foundation

/-- What was handed out had been published and not handed out before, under the number and
the key the caller gave; each transition takes the next number, and as long as none has come
round again the numbers rise, and the slot has not moved on from the caller's. -/
structure HandOffLaw (s : SlotSystem) : Prop where
  once : ∀ h earlier, .handed h :: earlier <:+ s.history → ∀ h', .handed h' ∈ earlier →
    h'.publication ≠ h.publication
  published : ∀ h earlier, .handed h :: earlier <:+ s.history →
    .published h.publication h.arc ∈ earlier
  agreed : ∀ h, .handed h ∈ s.history → h.seq = h.expectedSeq ∧ h.key = h.expectedKey
  next : ∀ before after, .moved before after ∈ s.history → after = (before + 1) % u64Modulus
  increasing : s.moves < u64Modulus → ∀ before after, .moved before after ∈ s.history →
    before < after
  unmoved : s.moves < u64Modulus → ∀ h earlier, .handed h :: earlier <:+ s.history →
    ∀ after, .moved h.expectedSeq after ∉ earlier

structure SlotInv (heap : Arc → SequencedRecord) (s : SlotSystem) : Prop extends HandOffLaw s where
  seq : s.slot.seq = s.moves % u64Modulus
  moved : ∀ before after, .moved before after ∈ s.history →
    ∃ i < s.moves, before = i % u64Modulus ∧ after = (i + 1) % u64Modulus
  valid : ∀ arc, s.slot.value = .valid arc → .published s.publications arc ∈ s.history ∧
    ∀ h, .handed h ∈ s.history → h.publication ≠ s.publications
  handed_le : ∀ h, .handed h ∈ s.history → h.publication ≤ s.publications
  consuming : ∀ call c, s.consuming call = some c →
    SlotSystem.keyOf heap c.normalisePath c.candidate c.epoch = c.expectedKey

namespace SlotInv
variable {heap : Arc → SequencedRecord} {s t : SlotSystem}

theorem init : SlotInv heap {} where
  once := by intro _ _ h; cases List.suffix_nil.mp h
  published := by intro _ _ h; cases List.suffix_nil.mp h
  agreed := by intro _ h; cases h
  next := by intro _ _ h; cases h
  increasing := by intro _ _ _ h; cases h
  unmoved := by intro _ _ _ h; cases List.suffix_nil.mp h
  seq := rfl
  moved := by intro _ _ h; cases h
  valid := by intro _ h; cases h
  handed_le := by intro _ h; cases h
  consuming := by intro _ _ h; cases h

/-- Neither the candidate nor its number changes. -/
theorem kept (h : SlotInv heap s) (hh : t.history = s.history) (hm : t.moves = s.moves)
    (hp : t.publications = s.publications) (hs : t.slot.seq = s.slot.seq)
    (hv : t.slot.value = s.slot.value)
    (hc : ∀ call c, t.consuming call = some c →
      SlotSystem.keyOf heap c.normalisePath c.candidate c.epoch = c.expectedKey) :
    SlotInv heap t := by
  constructor
  · constructor
    · rw [hh]
      exact h.once
    · rw [hh]
      exact h.published
    · rw [hh]
      exact h.agreed
    · rw [hh]
      exact h.next
    · rw [hh, hm]
      exact h.increasing
    · rw [hh, hm]
      exact h.unmoved
  · rw [hs, hm]
    exact h.seq
  · rw [hh, hm]
    exact h.moved
  · rw [hh, hp, hv]
    exact h.valid
  · rw [hh, hp]
    exact h.handed_le
  · exact hc

theorem handed_suffix {x : SlotHappened} {history : List SlotHappened} {h : HandOff}
    {earlier : List SlotHappened} (hs : .handed h :: earlier <:+ x :: history) :
    (x = .handed h ∧ earlier = history) ∨ .handed h :: earlier <:+ history := by
  rcases List.suffix_cons_iff.mp hs with he | hs
  · obtain ⟨hx, rfl⟩ := List.cons_eq_cons.mp he
    exact .inl ⟨hx.symm, rfl⟩
  · exact .inr hs

theorem moved_lt (h : SlotInv heap s) (hm : s.moves < u64Modulus) {before after : ℕ}
    (hb : .moved before after ∈ s.history) : before < s.slot.seq := by
  obtain ⟨i, hi, rfl, -⟩ := h.moved before after hb
  have hmod : i % u64Modulus = i := Nat.mod_eq_of_lt (hi.trans hm)
  have hseq : s.slot.seq = s.moves := h.seq.trans (Nat.mod_eq_of_lt hm)
  omega

/-- A transition that leaves no candidate. -/
theorem publish (h : SlotInv heap s) (value : Held) (hv : value.record = none) :
    SlotInv heap (s.publish value) := by
  have hold {x : SlotHappened} (hx : x ∈ (s.publish value).history) :
      x = .moved s.slot.seq ((s.slot.seq + 1) % u64Modulus) ∨ x ∈ s.history := List.mem_cons.mp hx
  have hhanded {y : HandOff} {earlier : List SlotHappened}
      (hs : .handed y :: earlier <:+ (s.publish value).history) :
      .handed y :: earlier <:+ s.history := by
    rcases handed_suffix hs with ⟨hx, -⟩ | hs
    · cases hx
    · exact hs
  constructor
  · constructor
    · exact fun y earlier hs => h.once y earlier (hhanded hs)
    · exact fun y earlier hs => h.published y earlier (hhanded hs)
    · intro y hy
      rcases hold hy with hy | hy
      · cases hy
      · exact h.agreed y hy
    · intro before after hb
      rcases hold hb with hb | hb
      · cases hb
        rfl
      · exact h.next before after hb
    · intro hm before after hb
      have hlt : s.moves + 1 < u64Modulus := hm
      rcases hold hb with hb | hb
      · cases hb
        have hseq : s.slot.seq = s.moves := h.seq.trans (Nat.mod_eq_of_lt (by omega))
        rw [hseq, Nat.mod_eq_of_lt hlt]
        exact Nat.lt_succ_self _
      · exact h.increasing (by omega) before after hb
    · intro hm y earlier hs
      have hlt : s.moves + 1 < u64Modulus := hm
      exact h.unmoved (by omega) y earlier (hhanded hs)
  · show (s.slot.seq + 1) % u64Modulus = (s.moves + 1) % u64Modulus
    rw [h.seq, Nat.mod_add_mod]
  · intro before after hb
    rcases hold hb with hb | hb
    · cases hb
      refine ⟨s.moves, Nat.lt_succ_self _, h.seq, ?_⟩
      rw [h.seq, Nat.mod_add_mod]
    · obtain ⟨i, hi, hbefore, hafter⟩ := h.moved before after hb
      exact ⟨i, hi.trans (Nat.lt_succ_self _), hbefore, hafter⟩
  · intro arc ha
    have ha : value = .valid arc := ha
    rw [ha] at hv
    cases hv
  · intro y hy
    rcases hold hy with hy | hy
    · cases hy
    · exact h.handed_le y hy
  · exact h.consuming

/-- The slot has taken in a candidate of its own publication. -/
theorem hold (h : SlotInv heap s) (arc : Arc) (offering : ℕ → Option Arc) :
    SlotInv heap { s with
      slot := { s.slot with value := .valid arc }
      offering := offering
      publications := s.publications + 1
      history := .published (s.publications + 1) arc :: s.history } := by
  have hhanded {y : HandOff} (hy : .handed y ∈ .published (s.publications + 1) arc :: s.history) :
      .handed y ∈ s.history := by
    rcases List.mem_cons.mp hy with hy | hy
    · cases hy
    · exact hy
  have hmoved {a b : ℕ} (hm : .moved a b ∈ .published (s.publications + 1) arc :: s.history) :
      .moved a b ∈ s.history := by
    rcases List.mem_cons.mp hm with hm | hm
    · cases hm
    · exact hm
  have hsuffix {y : HandOff} {earlier : List SlotHappened}
      (hs : .handed y :: earlier <:+ .published (s.publications + 1) arc :: s.history) :
      .handed y :: earlier <:+ s.history := by
    rcases handed_suffix hs with ⟨hx, -⟩ | hs
    · cases hx
    · exact hs
  constructor
  · constructor
    · exact fun y earlier hs => h.once y earlier (hsuffix hs)
    · exact fun y earlier hs => h.published y earlier (hsuffix hs)
    · exact fun y hy => h.agreed y (hhanded hy)
    · exact fun a b hm => h.next a b (hmoved hm)
    · exact fun hlt a b hm => h.increasing hlt a b (hmoved hm)
    · exact fun hlt y earlier hs => h.unmoved hlt y earlier (hsuffix hs)
  · exact h.seq
  · exact fun a b hm => h.moved a b (hmoved hm)
  · intro arc' ha
    cases ha
    refine ⟨List.mem_cons_self, fun y hy => ?_⟩
    have hle := h.handed_le y (hhanded hy)
    show y.publication ≠ s.publications + 1
    omega
  · intro y hy
    have hle := h.handed_le y (hhanded hy)
    show y.publication ≤ s.publications + 1
    omega
  · exact h.consuming

/-- The candidate goes to the caller whose number and key it has. -/
theorem hand (h : SlotInv heap s) {arc : Arc} (ha : s.slot.value = .valid arc) {y : HandOff}
    (hp : y.publication = s.publications) (harc : y.arc = arc) (hseq : y.seq = s.slot.seq)
    (hexp : y.expectedSeq = s.slot.seq) (hkey : y.key = y.expectedKey)
    {consuming : ℕ → Option Consumption}
    (hc : ∀ call c, consuming call = some c →
      SlotSystem.keyOf heap c.normalisePath c.candidate c.epoch = c.expectedKey) :
    SlotInv heap { s with
      slot := { s.slot with value := .empty }
      consuming := consuming
      history := .handed y :: s.history } := by
  obtain ⟨hpub, hfresh⟩ := h.valid arc ha
  have hmoved {a b : ℕ} (hm : .moved a b ∈ .handed y :: s.history) : .moved a b ∈ s.history := by
    rcases List.mem_cons.mp hm with hm | hm
    · cases hm
    · exact hm
  have hold {z : HandOff} (hz : .handed z ∈ .handed y :: s.history) :
      z = y ∨ .handed z ∈ s.history := by
    rcases List.mem_cons.mp hz with hz | hz
    · cases hz
      exact .inl rfl
    · exact .inr hz
  constructor
  · constructor
    · intro z earlier hs z' hz'
      rcases handed_suffix hs with ⟨hx, rfl⟩ | hs
      · cases hx
        rw [hp]
        exact hfresh z' hz'
      · exact h.once z earlier hs z' hz'
    · intro z earlier hs
      rcases handed_suffix hs with ⟨hx, rfl⟩ | hs
      · cases hx
        rw [hp, harc]
        exact hpub
      · exact h.published z earlier hs
    · intro z hz
      rcases hold hz with rfl | hz
      · exact ⟨hseq.trans hexp.symm, hkey⟩
      · exact h.agreed z hz
    · exact fun a b hm => h.next a b (hmoved hm)
    · exact fun hlt a b hm => h.increasing hlt a b (hmoved hm)
    · intro hlt z earlier hs after hm
      rcases handed_suffix hs with ⟨hx, rfl⟩ | hs
      · cases hx
        have hb := h.moved_lt hlt hm
        omega
      · exact h.unmoved hlt z earlier hs after hm
  · exact h.seq
  · exact fun a b hm => h.moved a b (hmoved hm)
  · intro _ hv
    cases hv
  · intro z hz
    rcases hold hz with rfl | hz
    · exact hp.le
    · exact h.handed_le z hz
  · exact hc

theorem consuming_update (h : SlotInv heap s) (call : ℕ) {x : Option Consumption}
    (hx : ∀ c, x = some c →
      SlotSystem.keyOf heap c.normalisePath c.candidate c.epoch = c.expectedKey) :
    ∀ call' c, Function.update s.consuming call x call' = some c →
      SlotSystem.keyOf heap c.normalisePath c.candidate c.epoch = c.expectedKey := by
  intro call' c hc
  by_cases hcall : call' = call
  · rw [hcall, Function.update_self] at hc
    exact hx c hc
  · rw [Function.update_of_ne hcall] at hc
    exact h.consuming call' c hc

theorem offer (h : SlotInv heap s) (call : ℕ) (arc : Arc) (epoch : ℕ)
    (normalisePath : String → String) :
    SlotInv heap (s.offer heap call arc epoch normalisePath).1 := by
  unfold SlotSystem.offer SlotSystem.offerGuard
  dsimp only
  split
  · exact h
  · split
    · rename_i hg
      split at hg
      · cases hg
        exact h.kept rfl rfl rfl rfl rfl h.consuming
      · split at hg
        · split at hg
          · cases hg
            exact h.kept rfl rfl rfl rfl rfl h.consuming
          · cases hg
        · cases hg
    · rename_i hg
      split at hg
      · cases hg
      · split at hg
        · split at hg
          · cases hg
          · cases hg
            exact h.kept rfl rfl rfl rfl rfl h.consuming
        · cases hg
          exact h.kept rfl rfl rfl rfl rfl h.consuming

theorem tryConsume (h : SlotInv heap s) (call expectedSeq : ℕ) (expectedKey : ConsumptionKey)
    (epoch : ℕ) (normalisePath : String → String) :
    SlotInv heap (s.tryConsume heap call expectedSeq expectedKey epoch normalisePath).1 := by
  unfold SlotSystem.tryConsume
  split
  · exact h
  · split
    · exact h
    · split
      · exact h
      · rename_i candidate _
        split
        · exact h
        · rename_i hkey
          refine h.kept rfl rfl rfl rfl rfl (h.consuming_update _ fun c hc => ?_)
          cases hc
          exact not_not.mp hkey

theorem tryConsumeTake (h : SlotInv heap s) (call : ℕ) :
    SlotInv heap (s.tryConsumeTake heap call).1 := by
  have hnone : ∀ c, (none : Option Consumption) = some c →
      SlotSystem.keyOf heap c.normalisePath c.candidate c.epoch = c.expectedKey := by
    intro c hc
    cases hc
  have hdone : SlotInv heap { s with consuming := Function.update s.consuming call none } :=
    h.kept rfl rfl rfl rfl rfl (h.consuming_update _ hnone)
  unfold SlotSystem.tryConsumeTake
  split
  · exact h
  · rename_i c hc
    dsimp only
    split
    · exact hdone
    · rename_i hseq
      split
      · rename_i arc harc
        split
        · rename_i hcand
          have hkey : SlotSystem.keyOf heap c.normalisePath arc c.epoch = c.expectedKey := by
            rw [hcand]
            exact h.consuming call c hc
          exact (h.hand harc rfl rfl rfl (not_not.mp hseq).symm hkey
            (h.consuming_update call hnone)).publish .empty rfl
        · exact hdone
      · exact hdone

theorem next' (h : SlotInv heap s) (e : SlotEvent) :
    SlotInv heap ((captureSlot heap).next s e) := by
  cases e with
  | setCut cut => exact h.kept rfl rfl rfl rfl rfl h.consuming
  | supersedeCutSequence => exact h.kept rfl rfl rfl rfl rfl h.consuming
  | offer call arc epoch normalisePath => exact h.offer call arc epoch normalisePath
  | offerPublish call =>
    show SlotInv heap (s.offerPublish call).1
    unfold SlotSystem.offerPublish
    split
    · exact h
    · rename_i arc _
      exact (h.publish .empty rfl).hold arc (Function.update s.offering call none)
  | invalidate reason => exact h.publish (.invalid reason) rfl
  | clear => exact h.publish .empty rfl
  | tryConsume call expectedSeq expectedKey epoch normalisePath =>
    exact h.tryConsume call expectedSeq expectedKey epoch normalisePath
  | tryConsumeTake call => exact h.tryConsumeTake call

end SlotInv

section
variable (heap : Arc → SequencedRecord)

/-- Over any interleaving of the calls on the slot. -/
theorem handOffLaw_run (es : List SlotEvent) : HandOffLaw ((captureSlot heap).run {} es) := by
  have h : SlotInv heap ((captureSlot heap).run {} es) :=
    Machine.run_inv_free (P := SlotInv heap) (fun _ e hs => hs.next' e) SlotInv.init es
  exact h.toHandOffLaw

theorem run_clear (n : ℕ) : ((captureSlot heap).run {} (List.replicate n .clear)).slot.seq =
    n % u64Modulus := by
  induction n with
  | zero => rfl
  | succ n ih =>
    rw [List.replicate_succ', Machine.run_append]
    show (((captureSlot heap).run {} (List.replicate n .clear)).slot.seq + 1) % u64Modulus = _
    rw [ih, Nat.mod_add_mod]

end

def someRecord : SequencedRecord where
  sessionId := "s"
  file := "f"
  recordStart := none
  textSha256 := Vector.replicate 32 0
  origin := .live
  readerSeq := 0

/-- The last number is followed by the first one. -/
theorem not_increasing : ¬ ∀ heap es before after,
    .moved before after ∈ ((captureSlot heap).run {} es).history → before < after := by
  intro h
  have hpos : 0 < u64Modulus := by decide
  have hseq : ((captureSlot fun _ => someRecord).run {}
      (List.replicate (u64Modulus - 1) .clear)).slot.seq = u64Modulus - 1 := by
    rw [run_clear, Nat.mod_eq_of_lt]
    omega
  have hnext : (u64Modulus - 1 + 1) % u64Modulus = 0 := by
    rw [Nat.sub_add_cancel hpos, Nat.mod_self]
  have hlast : .moved (u64Modulus - 1) 0 ∈ ((captureSlot fun _ => someRecord).run {}
      (List.replicate (u64Modulus - 1) .clear ++ [.clear])).history := by
    rw [Machine.run_append]
    apply List.mem_cons.mpr
    left
    rw [hseq, hnext]
  exact absurd (h _ _ _ _ hlast) (Nat.not_lt_zero _)

end AgentsCommander.Capture
