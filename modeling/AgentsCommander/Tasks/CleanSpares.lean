import AgentsCommander.Tasks.CleanLaw

/-! A recovery in any folder, whatever its journal says: an edit made by hand is not overwritten,
and no file is touched that is not the transaction's. -/
namespace AgentsCommander.Tasks
open Foundation Foundation.Device Transcript

variable {crates : CleanCrates} {G : IoChoice → Prop} {J P : Folder → Prop}
variable {fs s : Folder} {j : CleanJournal} {bytes : Bytes}

/-! ### Steps that change nothing -/

theorem sourceState_keeps {name : FileName} {e : TaskOpError} (hJ : ∀ s, P s → J s) :
    IoTriple crates G J P (taskSourceState name e)
      (fun hash s => P s ∧ hash = Folder.digest crates s name) (fun _ => P) :=
  (taskSourceState_triple hJ).errors fun _ _ hs => hs.1

theorem demand_keeps {c : Prop} [Decidable c] {e : TaskOpError} :
    IoTriple crates G J P (demand c e) (fun _ s => P s ∧ c) (fun _ => P) :=
  demand_triple.errors fun _ _ hs => hs.1

theorem verifyBackup_keeps {side : CleanSide} (hJ : ∀ s, P s → J s) :
    IoTriple crates G J P (verifyBackup crates side) (fun _ => P) (fun _ => P) := by
  unfold verifyBackup
  cases side.backup with
  | none => exact Triple.pure fun s hs => hs
  | some backup =>
    refine Triple.bind (sourceState_keeps hJ) fun found => ?_
    exact demand_keeps.post (fun _ _ hs => hs.1.1) fun _ _ hs => hs.1

theorem verifyStage_keeps {side : CleanSide} {reason : String} (hJ : ∀ s, P s → J s) :
    IoTriple crates G J P (verifyStage side reason)
      (fun _ s => P s ∧ Folder.digest crates s side.stage = some side.targetHash) (fun _ => P) := by
  refine Triple.bind (sourceState_keeps hJ) fun found => ?_
  exact demand_keeps.post (fun _ _ hs => ⟨hs.1.1, hs.1.2.symm.trans hs.2⟩) fun _ _ hs => hs.1

theorem checkTarget_keeps {side : CleanSide} {target : FileName} {reason : String}
    (hJ : ∀ s, P s → J s) :
    IoTriple crates G J P (checkTarget side target reason)
      (fun _ s => P s ∧ Folder.digest crates s target = some side.targetHash) (fun _ => P) := by
  refine Triple.bind (sourceState_keeps hJ) fun found => ?_
  exact demand_keeps.post (fun _ _ hs => ⟨hs.1.1, hs.1.2.symm.trans hs.2⟩) fun _ _ hs => hs.1

theorem validateCleanSide_keeps {side : CleanSide} {target : FileName} (hJ : ∀ s, P s → J s) :
    IoTriple crates G J P (validateCleanSide crates side target) (fun _ => P) (fun _ => P) := by
  refine Triple.bind (sourceState_keeps hJ) fun current => ?_
  refine Triple.bind (demand_keeps.errors fun _ _ hs => hs.1) fun _ => ?_
  refine Triple.bind (((verifyBackup_keeps hJ).pre fun s hs => hs.1.1)) fun _ => ?_
  split_ifs
  · exact Triple.pure fun s hs => hs
  · exact (verifyStage_keeps hJ).post (fun _ _ hs => hs.1) fun _ _ hs => hs

theorem syncSide_keeps {side : CleanSide} {target : FileName} (hJ : ∀ s, P s → J s) :
    IoTriple crates G J P (syncSide side target) (fun _ => P) (fun _ => P) := by
  refine Triple.bind (checkTarget_keeps hJ) fun _ => ?_
  refine Triple.bind (sync_triple fun s hs => hJ s hs.1) fun synced => ?_
  exact Triple.pure fun s hs => hs.1.1

/-- A target is replaced only while it is what the journal says it was. -/
theorem replaceSide_keeps {side : CleanSide} {target : FileName} (hJ : ∀ s, P s → J s)
    (hrename : ∀ s, P s → Folder.digest crates s target = side.originalHash →
      Folder.digest crates s side.stage = some side.targetHash →
      P (Folder.renamed s side.stage target)) :
    IoTriple crates G J P (replaceSide side target) (fun _ => P) (fun _ => P) := by
  refine Triple.bind (sourceState_keeps hJ) fun current => ?_
  split_ifs
  · exact Triple.pure fun s hs => hs.1
  · refine Triple.bind (demand_keeps.errors fun _ _ hs => hs.1) fun _ => ?_
    refine Triple.bind ((sourceState_keeps hJ).pre fun s hs => hs.1.1) fun again => ?_
    refine Triple.bind (demand_keeps.errors fun _ _ hs => hs.1) fun _ => ?_
    have hJ' : ∀ s, ((P s ∧ again = Folder.digest crates s target) ∧ again = side.originalHash) →
        J s := fun s hs => hJ s hs.1.1
    refine Triple.bind ((verifyStage_keeps hJ').errors fun _ _ hs => hs.1.1) fun _ => ?_
    refine (renameArtifact_triple fun s hs => hJ' s hs.1).post ?_ fun _ _ hs => hs.1.1.1.1
    rintro u s ⟨s₀, content, ⟨⟨⟨hs, hfound⟩, horiginal⟩, hstage⟩, -, rfl⟩
    exact hrename s₀ hs (hfound.symm.trans horiginal) hstage

/-! ### What a recovery may change -/

/-- One half is as it was, or went from what the journal says it was to what it says it becomes. -/
def Spares (crates : CleanCrates) (fs s : Folder) (side : CleanSide) (target : FileName) : Prop :=
  s target = fs target ∨ (fs.digest crates target = side.originalHash ∧
    s.digest crates target = some side.targetHash)

/-- Before the journal is removed. -/
structure Sparing (crates : CleanCrates) (fs : Folder) (j : CleanJournal) (s : Folder) : Prop where
  others : ∀ name, name ≠ .task → name ≠ .status → name ≠ .journal → name ≠ .taskStage j.txId →
    name ≠ .statusStage j.txId → s name = fs name
  task : Spares crates fs s j.task .task
  status : Spares crates fs s j.status .status
  journal : s .journal = fs .journal

/-- The journal is removed only when both halves are what it says they become. -/
structure Spared (crates : CleanCrates) (fs : Folder) (j : CleanJournal) (s : Folder) : Prop where
  others : ∀ name, name ≠ .task → name ≠ .status → name ≠ .journal → name ≠ .taskStage j.txId →
    name ≠ .statusStage j.txId → s name = fs name
  task : Spares crates fs s j.task .task
  status : Spares crates fs s j.status .status
  journal : s .journal = fs .journal ∨ (s .journal = none ∧ pairDigest crates s = j.targets)

theorem Sparing.self : Sparing crates fs j fs := ⟨fun _ _ _ _ _ _ => rfl, .inl rfl, .inl rfl, rfl⟩

theorem Sparing.spared (h : Sparing crates fs j s) : Spared crates fs j s :=
  ⟨h.others, h.task, h.status, .inl h.journal⟩

theorem Spares.original {side : CleanSide} {target : FileName} (h : Spares crates fs s side target)
    (horiginal : s.digest crates target = side.originalHash) :
    fs.digest crates target = side.originalHash := by
  rcases h with hsame | hdone
  · rw [← Folder.digest_congr hsame]
    exact horiginal
  · exact hdone.1

theorem Spares.congr {side : CleanSide} {target : FileName} {s' : Folder}
    (h : Spares crates fs s side target) (hsame : s' target = s target) :
    Spares crates fs s' side target := by
  refine h.imp (fun h => hsame.trans h) fun h => ⟨h.1, ?_⟩
  rw [Folder.digest_congr hsame]
  exact h.2

theorem sparing_task (hn : Named j) (h : Sparing crates fs j s)
    (horiginal : s.digest crates .task = j.task.originalHash)
    (hstage : s.digest crates j.task.stage = some j.task.targetHash) :
    Sparing crates fs j (s.renamed j.task.stage .task) := by
  rw [hn.taskStage] at hstage ⊢
  refine ⟨fun name ht hs hj hts hss => ?_, .inr ⟨h.task.original horiginal, ?_⟩, ?_, ?_⟩
  · rw [Folder.renamed_ne _ hts ht]
    exact h.others name ht hs hj hts hss
  · rw [Folder.digest, Folder.renamed_target _ (by simp)]
    exact hstage
  · exact h.status.congr (Folder.renamed_ne _ (by simp) (by simp))
  · rw [Folder.renamed_ne _ (by simp) (by simp)]
    exact h.journal

theorem sparing_status (hn : Named j) (h : Sparing crates fs j s)
    (horiginal : s.digest crates .status = j.status.originalHash)
    (hstage : s.digest crates j.status.stage = some j.status.targetHash) :
    Sparing crates fs j (s.renamed j.status.stage .status) := by
  rw [hn.statusStage] at hstage ⊢
  refine ⟨fun name ht hs hj hts hss => ?_, ?_, .inr ⟨h.status.original horiginal, ?_⟩, ?_⟩
  · rw [Folder.renamed_ne _ hss hs]
    exact h.others name ht hs hj hts hss
  · exact h.task.congr (Folder.renamed_ne _ (by simp) (by simp))
  · rw [Folder.digest, Folder.renamed_target _ (by simp)]
    exact hstage
  · rw [Folder.renamed_ne _ (by simp) (by simp)]
    exact h.journal

theorem Sparing.removed (h : Sparing crates fs j s)
    (htask : s.digest crates .task = some j.task.targetHash)
    (hstatus : s.digest crates .status = some j.status.targetHash) :
    Spared crates fs j (s.set .journal none) := by
  refine ⟨fun name ht hs hj hts hss => ?_, h.task.congr (s.set_ne _ (by simp)),
    h.status.congr (s.set_ne _ (by simp)), .inr ⟨s.set_self _ _, ?_⟩⟩
  · rw [s.set_ne _ hj]
    exact h.others name ht hs hj hts hss
  · rw [pairDigest, Folder.digest_congr (s.set_ne none (by simp)),
      Folder.digest_congr (s.set_ne none (by simp)), htask, hstatus, CleanJournal.targets]

theorem Spared.cleanup (h : Spared crates fs j s) {name : FileName}
    (hname : name = .taskStage j.txId ∨ name = .statusStage j.txId) :
    Spared crates fs j (s.set name none) := by
  have htask : (.task : FileName) ≠ name := by rcases hname with rfl | rfl <;> simp
  have hstatus : (.status : FileName) ≠ name := by rcases hname with rfl | rfl <;> simp
  have hjournal : (.journal : FileName) ≠ name := by rcases hname with rfl | rfl <;> simp
  refine ⟨fun other ht hs hj hts hss => ?_, h.task.congr (s.set_ne _ htask),
    h.status.congr (s.set_ne _ hstatus), ?_⟩
  · have hne : other ≠ name := by rcases hname with rfl | rfl <;> assumption
    rw [s.set_ne _ hne]
    exact h.others other ht hs hj hts hss
  · rw [s.set_ne _ hjournal, pairDigest, Folder.digest_congr (s.set_ne none htask),
      Folder.digest_congr (s.set_ne none hstatus)]
    exact h.journal

theorem cleanupOwned_spared {name : FileName} {hash : Text}
    (hname : name = .taskStage j.txId ∨ name = .statusStage j.txId) :
    IoTriple crates G (Spared crates fs j) (Spared crates fs j) (cleanupOwned name hash)
      (fun _ => Spared crates fs j) (fun _ => Spared crates fs j) := by
  refine (cleanupOwned_triple fun s hs => hs).post ?_ fun _ _ hs => hs
  rintro u s (hs | ⟨s₀, hs, rfl⟩)
  · exact hs
  · exact hs.cleanup hname

theorem finishClean_spares (hn : Named j) :
    IoTriple crates G (Spared crates fs j) (Sparing crates fs j) (finishClean crates j bytes)
      (fun _ => Spared crates fs j) (fun _ => Spared crates fs j) := by
  have hJ : ∀ s, Sparing crates fs j s → Spared crates fs j s := fun s => Sparing.spared
  have hE : ∀ (e : TaskOpError) s, Sparing crates fs j s → Spared crates fs j s :=
    fun e s => Sparing.spared
  unfold finishClean
  refine Triple.bind ((validateCleanSide_keeps hJ).errors hE) fun _ => ?_
  refine Triple.bind ((validateCleanSide_keeps hJ).errors hE) fun _ => ?_
  refine Triple.bind ((replaceSide_keeps hJ fun s => sparing_task hn).errors hE) fun _ => ?_
  refine Triple.bind ((replaceSide_keeps hJ fun s => sparing_status hn).errors hE) fun _ => ?_
  refine Triple.bind ((syncSide_keeps hJ).errors hE) fun taskSynced => ?_
  refine Triple.bind ((syncSide_keeps hJ).errors hE) fun statusSynced => ?_
  refine Triple.bind (demand_keeps.post (fun _ _ hs => hs.1) hE) fun _ => ?_
  refine Triple.bind ((checkTarget_keeps hJ).errors hE) fun _ => ?_
  refine Triple.bind ((checkTarget_keeps fun s hs => hJ s hs.1).errors fun e s hs => hE e s hs.1)
    fun _ => ?_
  have hdone : ∀ s, ((Sparing crates fs j s ∧ s.digest crates .task = some j.task.targetHash) ∧
      s.digest crates .status = some j.status.targetHash) → Spared crates fs j s :=
    fun s hs => hJ s hs.1.1
  refine Triple.bind ((readTaskArtifact_triple hdone).errors fun e s hs => hdone s hs.1)
    fun found => ?_
  refine Triple.bind (demand_keeps.errors fun e s hs => hdone s hs.1) fun _ => ?_
  refine Triple.bind (R := fun _ => Spared crates fs j)
    ((removeArtifact_triple fun s hs => hdone s hs.1.1).post ?_ fun e s hs => hdone s hs.1.1.1)
    fun _ => ?_
  · rintro u s ⟨s₀, hs, rfl⟩
    exact hs.1.1.1.1.removed hs.1.1.1.2 hs.1.1.2
  · rw [hn.taskStage, hn.statusStage]
    exact Triple.bind (cleanupOwned_spared (.inl rfl)) fun _ => cleanupOwned_spared (.inr rfl)

/-- Nothing was changed, or there is a journal and only what it allows was. -/
def Tended (crates : CleanCrates) (fs s : Folder) : Prop :=
  s = fs ∨ ∃ j bytes, fs .journal = some bytes ∧ decodeJournal crates bytes = .ok j ∧
    Spared crates fs j s

theorem recoverCleanPair_spares :
    IoTriple crates G (Tended crates fs) (· = fs) (recoverCleanPair crates)
      (fun _ => Tended crates fs) (fun _ => Tended crates fs) := by
  have hsame : ∀ s, s = fs → Tended crates fs s := fun s => .inl
  unfold recoverCleanPair
  refine Triple.bind (read_triple hsame) fun read => ?_
  refine Triple.bind (orThrow_triple.errors fun e s hs => hsame s hs.1) fun found => ?_
  cases found with
  | none => exact Triple.pure fun s hs => hsame s hs.1
  | some bytes =>
    refine Triple.of_pre fun s hs => ?_
    obtain ⟨rfl, hjournal⟩ := hs
    cases hdecoded : decodeJournal crates bytes with
    | error e =>
      simp only [hdecoded]
      exact Triple.throw fun t ht => hsame t ht
    | ok j =>
      simp only [hdecoded]
      have hspared : ∀ t, Spared crates s j t → Tended crates s t :=
        fun t ht => .inr ⟨j, bytes, hjournal.symm, hdecoded, ht⟩
      refine Triple.bind (R := fun _ => Sparing crates s j)
        ((syncArtifact_triple fun t ht => hspared t ht.spared).conseq ?_ (fun _ _ ht => ht)
          fun e t ht => hspared t ht.1.spared) fun _ => ?_
      · rintro t rfl
        exact Sparing.self
      · exact ((finishClean_spares (named_of_decoded hdecoded)).weaken hspared).post
          (fun _ t ht => hspared t ht) fun e t ht => hspared t ht

/-- In any folder, with any bytes in its journal, a recovery that may stop or fail anywhere replaces
a half only while it is what the journal says it was, removes the journal only when both halves are
done, and touches nothing else but the stages of the transaction. -/
theorem recovery_spares (fs : Folder) (xs : List IoChoice) :
    Tended crates fs ((folderDevice crates).exec (recoverCleanPair crates).run xs fs).2 := by
  have hafter := (@recoverCleanPair_spares crates (fun _ => True) fs).exec
    (rfl : fs = fs) fun x (_ : x ∈ xs) => trivial
  cases hexec : (folderDevice crates).exec (recoverCleanPair crates).run xs fs with
  | mk found s =>
    rw [hexec] at hafter
    cases found with
    | none => exact hafter
    | some r =>
      cases r with
      | ok u => exact hafter
      | error e => exact hafter

end AgentsCommander.Tasks
