import AgentsCommander.Sessions.CarrierSteps

/-! The version of a row is a witness: while it stands still, nothing a carrier relies on has
changed in the row. -/
namespace AgentsCommander.Sessions
open Foundation
namespace SessionManagerState
variable {s s' : SessionManagerState} {op : ManagerOp}

/-- What every reachable state of the manager is like. -/
structure Carried (s : SessionManagerState) : Prop where
  valid : s.roster.Valid
  keyed : s.Keyed
  tidy : s.Tidy
  version_le : ∀ id, s.version id ≤ u64Max

theorem Effect.keyed (h : s.Effect op s') (hk : s.Keyed) : s'.Keyed := by
  cases h with
  | kept => exact hk
  | aside hop retained writable reusable => exact hk
  | edited t h => exact keyed_drop h.keyed
  | claimed hop t h => exact keyed_drop h.keyed
  | raised t h id nonce hid => exact keyed_drop h.keyed

theorem Effect.tidy (h : s.Effect op s') (ht : s.Tidy) (hr : s'.Rostered) : s'.Tidy := by
  have hpending : ∀ t : SessionManagerState, (drop s t).Rostered →
      ∀ id ∈ (drop s t).pendingCreate, id ∈ t.sessions := by
    intro t hr id hid
    exact mem_drop.mp (hr.pending id (AList.lookup_isSome.mpr hid))
  cases h with
  | kept => exact ht
  | aside hop retained writable reusable =>
    exact ⟨⟨ht.pendingPrompts, ht.promptSeedBlocked, ht.raiseNonces⟩, ht.promptKeys,
      ht.pendingCreate⟩
  | edited t h => exact tidy_drop h.toWritten (hpending t hr)
  | claimed hop t h => exact tidy_drop h (hpending t hr)
  | raised t h id nonce hid =>
    have hdrop := tidy_drop h.toWritten (hpending t ⟨hr.pending, hr.selected⟩)
    refine ⟨⟨hdrop.pendingPrompts, hdrop.promptSeedBlocked, ?_⟩, hdrop.promptKeys,
      hdrop.pendingCreate⟩
    intro j hj
    rcases AList.mem_insert _ |>.mp hj with rfl | hj
    · exact mem_drop.mpr hid
    · exact hdrop.raiseNonces j hj

theorem Effect.le_version (h : s.Effect op s') (id : Uuid) : s.version id ≤ s'.version id := by
  cases h with
  | kept => exact le_rfl
  | aside hop retained writable reusable => exact le_rfl
  | edited t h => exact le_version_drop h.toWritten id
  | claimed hop t h => exact le_version_drop h id
  | raised t h j nonce hid => exact le_version_drop h.toWritten id

theorem Effect.version_le (h : s.Effect op s') (hs : ∀ id, s.version id ≤ u64Max) (id : Uuid) :
    s'.version id ≤ u64Max := by
  cases h with
  | kept => exact hs id
  | aside hop retained writable reusable => exact hs id
  | edited t h => exact version_drop_le h.toWritten hs id
  | claimed hop t h => exact version_drop_le h hs id
  | raised t h j nonce hid => exact version_drop_le h.toWritten hs id

theorem stableCarrierEqual_self (row : Session) : stableCarrierEqual row row = true := by
  unfold stableCarrierEqual
  cases row.status <;> simp

theorem stableChanged_self (s : SessionManagerState) (id : Uuid) :
    stableChanged s s id = false := by
  unfold stableChanged
  cases s.sessions.lookup id with
  | none => simp
  | some row => simp [stableCarrierEqual_self]

theorem Effect.lt_version (h : s.Effect op s') (hs : s.Rostered) (hs' : s'.Rostered) {id : Uuid}
    (hchanged : stableChanged s s' id = true) (hv : s.version id < u64Max) :
    s.version id < s'.version id := by
  cases h with
  | kept =>
    rw [stableChanged_self] at hchanged
    cases hchanged
  | aside hop retained writable reusable =>
    have hsame := stableChanged_self s id
    exact absurd (hsame.symm.trans hchanged) Bool.false_ne_true
  | edited t h => exact lt_version_drop h.toWritten hs hs' hchanged hv
  | claimed hop t h => exact lt_version_drop h hs hs' hchanged hv
  | raised t h j nonce hid =>
    exact lt_version_drop h.toWritten hs ⟨hs'.pending, hs'.selected⟩ hchanged hv

theorem Carried.step (h : s.Carried) (op : ManagerOp) : (s.step op).1.Carried := by
  have heffect := effect_step h.keyed h.tidy op
  have hvalid := valid_step h.valid op
  constructor
  · exact hvalid
  · exact heffect.keyed h.keyed
  · exact heffect.tidy h.tidy (rostered_of_valid hvalid)
  · exact heffect.version_le h.version_le

theorem carried_new (epoch : Uuid) : (new epoch).Carried where
  valid := valid_new epoch
  keyed _ _ h := by cases h
  tidy := by
    refine ⟨⟨?_, ?_, ?_⟩, ?_, ?_⟩ <;>
    · intro id h
      cases h
  version_le _ := Nat.zero_le _

theorem carried_run (epoch : Uuid) (ops : List ManagerOp) :
    (sessionManager.run (new epoch) ops).Carried :=
  Machine.run_inv_free (M := sessionManager) (P := Carried) (fun _ op h => h.step op)
    (carried_new epoch) ops

/-- No operation of a run changes what a carrier of the row relies on. -/
def Undisturbed (id : Uuid) : SessionManagerState → List ManagerOp → Prop :=
  sessionManager.Along fun s op => stableChanged s (s.step op).1 id = false

theorem Carried.le_version_run (h : s.Carried) (ops : List ManagerOp) (id : Uuid) :
    s.version id ≤ (sessionManager.run s ops).version id := by
  induction ops generalizing s with
  | nil => exact le_rfl
  | cons op ops ih =>
    have hstep := (effect_step h.keyed h.tidy op).le_version id
    exact hstep.trans (ih (h.step op))

theorem Carried.lt_version_step (h : s.Carried) (op : ManagerOp) {id : Uuid}
    (hchanged : stableChanged s (s.step op).1 id = true) (hv : s.version id < u64Max) :
    s.version id < (s.step op).1.version id :=
  (effect_step h.keyed h.tidy op).lt_version (rostered_of_valid h.valid)
    (rostered_of_valid (valid_step h.valid op)) hchanged hv

/-- While the version of a row stands still, short of the end of its range, the row is left
alone. -/
theorem Carried.undisturbed (h : s.Carried) {ops : List ManagerOp} {id : Uuid}
    (hv : s.version id < u64Max)
    (hend : (sessionManager.run s ops).version id = s.version id) : Undisturbed id s ops := by
  induction ops generalizing s with
  | nil => trivial
  | cons op ops ih =>
    have hend : (sessionManager.run (s.step op).1 ops).version id = s.version id := hend
    have hrest := (h.step op).le_version_run ops id
    have hfirst := (effect_step h.keyed h.tidy op).le_version id
    constructor
    · show stableChanged s (s.step op).1 id = false
      rw [Bool.eq_false_iff]
      intro hchanged
      have hlt := h.lt_version_step op hchanged hv
      omega
    · apply ih (h.step op)
      · show (s.step op).1.version id < u64Max
        omega
      · show (sessionManager.run (s.step op).1 ops).version id = (s.step op).1.version id
        omega

/-- After a run, as far as versions count. -/
structure CarrierLaw (counted : ℕ → Prop) (epoch : Uuid) (ops : List ManagerOp) : Prop where
  tidy : (sessionManager.run (new epoch) ops).Tidy
  le : ∀ op id, (sessionManager.run (new epoch) ops).version id ≤
    (sessionManager.run (new epoch) (ops ++ [op])).version id
  lt : ∀ op id, stableChanged (sessionManager.run (new epoch) ops)
      (sessionManager.run (new epoch) (ops ++ [op])) id = true →
    counted ((sessionManager.run (new epoch) ops).version id) →
    (sessionManager.run (new epoch) ops).version id <
      (sessionManager.run (new epoch) (ops ++ [op])).version id
  reverted : ∀ before since receipt, ops = before ++ since →
    (sessionManager.run (new epoch) before).version receipt.uuid = receipt.version →
    counted receipt.version →
    sessionManager.answer (sessionManager.run (new epoch) ops) (.rollbackRaise receipt) =
      .changed true →
    Undisturbed receipt.uuid (sessionManager.run (new epoch) before) since
  applied : ∀ before since carry, ops = before ++ since →
    (sessionManager.run (new epoch) before).version carry.sessionId = carry.expectedVersion →
    sessionManager.answer (sessionManager.run (new epoch) ops)
      (.applyFinalizedOwnedReplacementCarry carry) = .changed true →
    Undisturbed carry.sessionId (sessionManager.run (new epoch) before) since

theorem version_of_lookup {id : Uuid} {v : ℕ} (h : s.carrierVersions.lookup id = some v) :
    s.version id = v := by
  unfold version
  rw [h]
  rfl

theorem version_of_reverted {receipt : RaiseMutationReceipt}
    (h : (s.rollbackRaise receipt).2 = true) : s.version receipt.uuid = receipt.version := by
  unfold rollbackRaise at h
  split_ifs at h with hmatch
  rw [Bool.and_eq_true, decide_eq_true_eq] at hmatch
  exact version_of_lookup hmatch.2

theorem version_of_applied {carry : FinalizedOwnedCarry}
    (h : (s.applyFinalizedOwnedReplacementCarry carry).2 = true) :
    s.version carry.sessionId = carry.expectedVersion ∧ carry.expectedVersion ≠ u64Max := by
  unfold applyFinalizedOwnedReplacementCarry at h
  split_ifs at h with hrefused hstale
  simp only [Bool.or_eq_true, not_or, decide_eq_true_eq, Bool.not_eq_true', ne_eq,
    not_not] at hrefused hstale
  exact ⟨version_of_lookup hstale.1.2, hrefused.2⟩

theorem carrierLaw_run (epoch : Uuid) (ops : List ManagerOp) :
    CarrierLaw (· < u64Max) epoch ops := by
  have hcarried := carried_run epoch ops
  have hend : ∀ before since, ops = before ++ since → sessionManager.run (new epoch) ops =
      sessionManager.run (sessionManager.run (new epoch) before) since := by
    rintro before since rfl
    exact Machine.run_append (new epoch) before since
  constructor
  · exact hcarried.tidy
  · intro op id
    rw [Machine.run_append]
    exact (effect_step hcarried.keyed hcarried.tidy op).le_version id
  · intro op id hchanged hv
    rw [Machine.run_append] at hchanged ⊢
    exact hcarried.lt_version_step op hchanged hv
  · intro before since receipt hops hgiven hcounted hanswer
    have hnow := version_of_reverted (ManagerReply.changed.inj hanswer)
    rw [hend before since hops] at hnow
    apply (carried_run epoch before).undisturbed
    · rw [hgiven]
      exact hcounted
    · rw [hgiven, hnow]
  · intro before since carry hops hgiven hanswer
    obtain ⟨hnow, hne⟩ := version_of_applied (ManagerReply.changed.inj hanswer)
    rw [hend before since hops] at hnow
    have hle := (carried_run epoch before).version_le carry.sessionId
    apply (carried_run epoch before).undisturbed
    · omega
    · rw [hgiven, hnow]

/-! A version that has come to the end of its range counts no more. -/

/-- The name a pending session is given the `n`-th time. -/
def nextName (n : ℕ) : String := if n % 2 = 0 then "a" else "b"

/-- One session, renamed over and over. -/
def renames (n : ℕ) : List ManagerOp :=
  .createPendingSession ⟨1, 2⟩ ⟨"sh", [], "/", none, none, [], false, .localProcess⟩ 3 0 ::
    (List.range n).map fun i => .renamePendingSession ⟨1, 2⟩ (nextName i)

/-- The pending session of the run, under some name that is not the next one. -/
structure Renamed (s : SessionManagerState) (n : ℕ) : Prop where
  pending : s.bindingMatches ⟨1, 2⟩ = true
  row : ∃ row, s.sessions.lookup 1 = some row ∧ row.name ≠ nextName n

theorem nextName_ne (n : ℕ) : nextName n ≠ nextName (n + 1) := by
  unfold nextName
  split_ifs with h h'
  · omega
  · decide
  · decide
  · omega

theorem pendingCreate_drop (before t : SessionManagerState) :
    (drop before t).pendingCreate = t.pendingCreate :=
  congrArg (·.2.1) (rowFrame_drop before t)

theorem Renamed.step {n : ℕ} (h : s.Renamed n) :
    (s.step (.renamePendingSession ⟨1, 2⟩ (nextName n))).1.Renamed (n + 1) ∧
      stableChanged s (s.step (.renamePendingSession ⟨1, 2⟩ (nextName n))).1 1 = true := by
  obtain ⟨row, hrow, hname⟩ := h.row
  have hstep : (s.step (.renamePendingSession ⟨1, 2⟩ (nextName n))).1 =
      drop s (s.editRow 1 fun row => { row with name := nextName n }) := by
    show drop s (if s.bindingMatches ⟨1, 2⟩ then _ else s) = _
    rw [if_pos h.pending]
  have hedit : (s.editRow 1 fun row => { row with name := nextName n }).sessions.lookup 1 =
      some { row with name := nextName n } := by
    rw [editRow, Assoc.lookup_adjust, if_pos rfl, hrow]
    rfl
  obtain ⟨prompt, hdrop⟩ := lookup_drop s hedit
  rw [hstep]
  constructor
  · constructor
    · unfold bindingMatches
      rw [pendingCreate_drop]
      exact h.pending
    · exact ⟨_, hdrop, nextName_ne n⟩
  · have hdiffer : stableCarrierEqual row { row with name := nextName n, lastPrompt := prompt } =
        false := by
      unfold stableCarrierEqual
      simp [hname]
    unfold stableChanged
    rw [hrow, hdrop]
    simp only [hdiffer, Bool.not_false, Bool.true_or]

theorem renames_succ (n : ℕ) :
    renames (n + 1) = renames n ++ [.renamePendingSession ⟨1, 2⟩ (nextName n)] := by
  unfold renames
  rw [List.range_succ, List.map_append, List.cons_append]
  rfl

theorem renamed_run (n : ℕ) : (sessionManager.run (new 0) (renames n)).Renamed n ∧
    min n u64Max ≤ (sessionManager.run (new 0) (renames n)).version 1 := by
  induction n with
  | zero =>
    refine ⟨⟨by decide, ?_⟩, Nat.zero_le _⟩
    exact ⟨_, rfl, by decide⟩
  | succ n ih =>
    obtain ⟨hnext, hchanged⟩ := ih.1.step
    have hcarried := carried_run 0 (renames n)
    rw [renames_succ, Machine.run_append]
    refine ⟨hnext, ?_⟩
    have hle := (effect_step hcarried.keyed hcarried.tidy
      (.renamePendingSession ⟨1, 2⟩ (nextName n))).le_version 1
    show min (n + 1) u64Max ≤ (SessionManagerState.step _ _).1.version 1
    rcases lt_or_ge ((sessionManager.run (new 0) (renames n)).version 1) u64Max with hv | hv
    · have hlt := hcarried.lt_version_step _ hchanged hv
      omega
    · omega

/-- Once the version stands at the end of its range, the next change is not counted. -/
theorem not_carrierLaw_renames {n : ℕ} (hn : u64Max ≤ n) :
    ¬ CarrierLaw (fun _ => True) 0 (renames n) := by
  intro h
  obtain ⟨hrenamed, hmin⟩ := renamed_run n
  obtain ⟨-, hchanged⟩ := hrenamed.step
  have hlt := h.lt (.renamePendingSession ⟨1, 2⟩ (nextName n)) 1
  rw [Machine.run_append] at hlt
  have hcounted := hlt hchanged trivial
  have hle := ((carried_run 0 (renames n)).step
    (.renamePendingSession ⟨1, 2⟩ (nextName n))).version_le 1
  have hcounted : (sessionManager.run (new 0) (renames n)).version 1 <
    (SessionManagerState.step _ _).1.version 1 := hcounted
  omega

theorem not_carrierLaw : ¬ CarrierLaw (fun _ => True) 0 (renames u64Max) :=
  not_carrierLaw_renames le_rfl

end SessionManagerState
end AgentsCommander.Sessions
