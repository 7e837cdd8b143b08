import AgentsCommander.Tasks.CleanLaw

/-! Whole cleans, and runs of cleans and recoveries that stop or fail anywhere: what stood before is
still there, or archived. -/
namespace AgentsCommander.Tasks
open Foundation Foundation.Device Foundation.Lines Transcript

variable {crates : CleanCrates} {G : IoChoice → Prop} {J P : Folder → Prop}
variable {fs₀ fs : Folder} {pair : Option Text × Option Text} {request : CleanRequest}
variable {existing stamp : Text}

/-! ### Before the journal -/

/-- The errors that leave the pair as it was. -/
def Early (e : TaskOpError) : Prop := e = .writeFailed ∨ e = .backupExhausted ∨ e = .readFailed

theorem early_write : Early .writeFailed := .inl rfl

/-- What a clean takes the description to be. -/
def TextOf (crates : CleanCrates) (pair : Option Text × Option Text) (existing : Text) : Prop :=
  (pair.1 = none → existing = []) ∧ ∀ hash ∈ pair.1, hash = crates.hashBytes (encode existing)

theorem readTaskText_triple (hJ : ∀ s, Done crates fs₀ pair s → J s) :
    IoTriple crates G J (Done crates fs₀ pair) readTaskText
      (fun existing s => Done crates fs₀ pair s ∧ TextOf crates pair existing)
      (fun e s => Done crates fs₀ pair s ∧ Early e) := by
  unfold readTaskText
  refine Triple.bind (read_triple hJ) fun read => ?_
  refine Triple.bind (orThrow_triple.errors
    fun _ _ hs => ⟨hs.1, .inr (.inr hs.2.1)⟩) fun found => ?_
  have hdigest : ∀ s, (Done crates fs₀ pair s ∧ found = s .task) →
      pair.1 = found.map crates.hashBytes := by
    intro s hs
    rw [hs.2]
    exact (congrArg Prod.fst hs.1.pair).symm
  cases found with
  | none =>
    refine Triple.pure fun s hs => ⟨hs.1, fun _ => rfl, fun hash hmem => ?_⟩
    rw [hdigest s hs] at hmem
    cases hmem
  | some bytes =>
    by_cases hvalid : isUtf8 bytes = true
    · simp only [hvalid, if_true]
      refine Triple.pure fun s hs => ⟨hs.1, fun hnone => ?_, fun hash hmem => ?_⟩
      · rw [hdigest s hs] at hnone
        cases hnone
      · rw [hdigest s hs] at hmem
        rw [encode_fromUtf8Lossy hvalid]
        exact (Option.some.inj hmem).symm
    · simp only [hvalid]
      exact Triple.throw fun s hs => ⟨hs.1, .inr (.inr rfl)⟩

theorem cleanStatusIsReset_triple (hJ : ∀ s, P s → J s) :
    IoTriple crates G J P (cleanStatusIsReset crates) (fun _ => P)
      (fun e s => P s ∧ Early e) := by
  unfold cleanStatusIsReset
  refine Triple.bind (read_triple hJ) fun read => ?_
  have hpure : ∀ b : Bool, IoTriple crates G J (fun s => P s ∧ Told G (s .status) read)
      (pure b : TaskIo Bool) (fun _ => P) (fun e s => P s ∧ Early e) :=
    fun b => Triple.pure fun s hs => hs.1
  split
  · split_ifs
    · exact hpure false
    · exact hpure true
    · refine Triple.bind ((readTaskArtifact_triple fun s hs => hJ s hs.1).post
        (fun _ _ hs => hs.1) fun _ _ hs => ⟨hs.1.1, .inl hs.2.1⟩) fun bytes => ?_
      exact hpure _
    · exact hpure false
  · exact hpure false

theorem isReset_triple (hJ : ∀ s, P s → J s) :
    IoTriple crates G J P (isReset crates existing) (fun _ => P) (fun e s => P s ∧ Early e) := by
  unfold isReset
  split_ifs
  · exact cleanStatusIsReset_triple hJ
  · exact Triple.pure fun s hs => hs

/-- A file that was made holds these bytes, and one that could not be made whole does no harm. -/
theorem stageFile_triple {name : FileName} {bytes : Bytes}
    (hset : ∀ s content, P s → P (Folder.set s name content)) (hJ : ∀ s, P s → J s) :
    IoTriple crates G J P (stageFile name bytes) (fun _ s => P s ∧ s name = some bytes)
      (fun e s => P s ∧ Early e) := by
  have hcreate : IoTriple crates G J P (createOrFail name) (fun _ s => P s ∧ s name = some [])
      (fun e s => P s ∧ Early e) := by
    refine Triple.bind (createTaskArtifact_triple hJ) fun created => ?_
    cases created with
    | ok u =>
      refine Triple.pure fun s hs => ?_
      obtain ⟨s₀, hs₀, -, rfl⟩ := hs
      exact ⟨hset s₀ _ hs₀, s₀.set_self _ _⟩
    | error e =>
      cases e with
      | alreadyExists => exact Triple.throw fun s hs => ⟨hs.1, early_write⟩
      | other => exact Triple.throw fun s hs => ⟨hs.1, early_write⟩
  have hJ' : ∀ s : Folder, (P s ∧ s name = some []) → J s := fun s hs => hJ s hs.1
  unfold stageFile
  refine Triple.bind hcreate fun _ => ?_
  refine Triple.bind (R := fun _ (s : Folder) => P s ∧ s name = some bytes)
    ((writeArtifact_triple hJ').post ?_ ?_) fun _ => ?_
  · rintro u s ⟨s₀, hs, rfl⟩
    refine ⟨hset s₀ _ hs.1, ?_⟩
    rw [s₀.append_self, hs.2]
    rfl
  · rintro e s ⟨he, s₀, written, hs, rfl⟩
    exact ⟨hset s₀ _ hs.1, .inl he⟩
  · exact (syncArtifact_triple fun s hs => hJ s hs.1).errors
      fun _ _ hs => ⟨hs.1.1, .inl hs.2.1⟩

/-! ### Archives -/

/-- Two backups that were made for this clean, still empty. -/
structure Reserved (crates : CleanCrates) (fs₀ : Folder) (pair : Option Text × Option Text)
    (stamp : Text) (k : ℕ) (fs : Folder) : Prop where
  done : Done crates fs₀ pair fs
  task : Own fs₀ (.taskBackup stamp k)
  status : Own fs₀ (.statusBackup stamp k)
  taskEmpty : fs (.taskBackup stamp k) = some []
  statusEmpty : fs (.statusBackup stamp k) = some []

theorem own_of_absent {name : FileName} (h : Done crates fs₀ pair fs) (hnone : fs name = none)
    (hbackup : name.isBackup = true) : Own fs₀ name := by
  refine ⟨?_, ?_, ?_, fun _ => ?_⟩
  · rintro rfl
    cases hbackup
  · rintro rfl
    cases hbackup
  · rintro rfl
    cases hbackup
  · by_contra hsome
    have hsame := h.backups name hbackup hsome
    rw [hnone] at hsame
    exact hsome hsame.symm

theorem reserveBackups_triple (hJ : ∀ s, Done crates fs₀ pair s → J s) (n left : ℕ) :
    IoTriple crates G J (Done crates fs₀ pair) (reserveBackups crates stamp n left)
      (fun k s => Reserved crates fs₀ pair stamp k s ∧ k < n + left)
      (fun e s => Done crates fs₀ pair s ∧ Early e) := by
  induction left generalizing n with
  | zero => exact Triple.throw fun s hs => ⟨hs, .inr (.inl rfl)⟩
  | succ left ih =>
    have hnext : IoTriple crates G J (Done crates fs₀ pair)
        (reserveBackups crates stamp (n + 1) left)
        (fun k s => Reserved crates fs₀ pair stamp k s ∧ k < n + (left + 1))
        (fun e s => Done crates fs₀ pair s ∧ Early e) := by
      refine (ih (n + 1)).post (fun k s hs => ⟨hs.1, ?_⟩) fun _ _ hs => hs
      have := hs.2
      omega
    unfold reserveBackups
    refine Triple.bind (createTaskArtifact_triple hJ) fun created => ?_
    cases created with
    | error e =>
      cases e with
      | alreadyExists => exact hnext.pre (fun _ hs => hs.1)
      | other => exact Triple.throw fun s hs => ⟨hs.1, early_write⟩
    | ok u =>
      refine Triple.of_pre fun s hs => ?_
      obtain ⟨s₀, hs₀, hnone, rfl⟩ := hs
      have hown : Own fs₀ (.taskBackup stamp n) := own_of_absent hs₀ hnone rfl
      have hdone := hs₀.own hown (some [])
      have hfirst : ∀ t, t = s₀.set (.taskBackup stamp n) (some []) →
          Done crates fs₀ pair t ∧ t (.taskBackup stamp n) = some [] := by
        rintro t rfl
        exact ⟨hdone, s₀.set_self _ _⟩
      refine Triple.bind ((createTaskArtifact_triple (P := fun t => Done crates fs₀ pair t ∧
        t (.taskBackup stamp n) = some []) fun t ht => hJ t ht.1).pre hfirst) fun created => ?_
      cases created with
      | ok u =>
        refine Triple.pure fun t ht => ?_
        obtain ⟨t₀, ht₀, hnone', rfl⟩ := ht
        have hown' : Own fs₀ (.statusBackup stamp n) := own_of_absent ht₀.1 hnone' rfl
        refine ⟨⟨ht₀.1.own hown' _, hown, hown', ?_, t₀.set_self _ _⟩, by omega⟩
        rw [t₀.set_ne _ (by simp)]
        exact ht₀.2
      | error e =>
        cases e with
        | alreadyExists =>
          exact Triple.bind ((cleanup_own_triple hJ hown).pre (fun t ht => ht.1.1)) fun _ => hnext
        | other =>
          exact Triple.bind ((cleanup_own_triple hJ hown).pre (fun t ht => ht.1.1)) fun _ =>
            Triple.throw fun t ht => ⟨ht, early_write⟩

/-- A copy into an empty file, whole or cut short. -/
theorem copyBackup_triple {source target : FileName} {existed : Bool}
    {E : TaskOpError → Folder → Prop} (hJ : ∀ s, P s → J s)
    (hempty : ∀ s, P s → s target = some []) (hexisted : ∀ s, P s → existed = (s source).isSome) :
    IoTriple crates G J P (perform (.copyArchive source target existed))
      (fun (copied : Except Text Unit) s =>
        (copied = .ok () → ∃ s₀ content, P s₀ ∧ s = s₀.set target (some content) ∧
          crates.hashBytes content = (s₀.digest crates source).getD (crates.hashBytes [])) ∧
        (∀ owned, copied = .error owned → ∃ s₀ content, P s₀ ∧ s = s₀.set target content)) E := by
  refine Triple.call _ hJ fun s x hs hx => ?_
  have hset : ∀ written, s.append target written = s.set target (some written) := by
    intro written
    rw [Folder.append, hempty s hs, Option.map_some, List.nil_append]
  have hsame : s = Folder.set s target (some []) := by
    rw [← hset, Folder.append_nil]
  have hexists := hexisted s hs
  cases x with
  | ok =>
    simp only [folderAct, copyAct]
    cases hsource : s source with
    | none =>
      rw [hsource] at hexists
      rw [hexists]
      refine ⟨fun _ => ⟨s, [], hs, hsame, ?_⟩, fun owned h => by cases h⟩
      rw [Folder.digest, hsource]
      rfl
    | some content =>
      rw [hsource] at hexists
      rw [hexists]
      refine ⟨fun _ => ⟨s, content, hs, hset content, ?_⟩, fun owned h => by cases h⟩
      rw [Folder.digest, hsource]
      rfl
  | fail => exact ⟨fun h => (by cases h), fun owned _ => ⟨s, _, hs, hsame⟩⟩
  | part count => exact ⟨fun h => (by cases h), fun owned _ => ⟨s, _, hs, hset _⟩⟩

/-- The two sides of this pair stand in these backups. -/
def ArchivePair (crates : CleanCrates) (fs : Folder) (stamp : Text) (k : ℕ)
    (pair : Option Text × Option Text) : Prop :=
  fs.digest crates (.taskBackup stamp k) = some (pair.1.getD (crates.hashBytes [])) ∧
    fs.digest crates (.statusBackup stamp k) = some (pair.2.getD (crates.hashBytes []))

theorem existed_of_done (h : Done crates fs₀ pair fs) :
    pair.1.isSome = (fs .task).isSome ∧ pair.2.isSome = (fs .status).isSome := by
  rw [← h.pair]
  simp [pairDigest, Folder.digest]

theorem copyPair_triple {j : CleanJournal} {k : ℕ} (hJ : ∀ s, Done crates fs₀ pair s → J s)
    (htask : j.task.existed = pair.1.isSome) (hstatus : j.status.existed = pair.2.isSome)
    (hownTask : Own fs₀ (.taskBackup stamp k)) (hownStatus : Own fs₀ (.statusBackup stamp k)) :
    IoTriple crates G J (Reserved crates fs₀ pair stamp k)
      (copyPair crates j (.taskBackup stamp k) (.statusBackup stamp k))
      (fun _ s => Done crates fs₀ pair s ∧ ArchivePair crates s stamp k pair)
      (fun e s => Done crates fs₀ pair s ∧ Early e) := by
  unfold copyPair
  refine Triple.bind (copyBackup_triple (fun s hs => hJ s hs.done) (fun s hs => hs.taskEmpty)
    fun s hs => htask.trans (existed_of_done hs.done).1) fun copied => ?_
  cases copied with
  | error owned =>
    refine Triple.bind ((cleanup_own_triple hJ hownTask).pre ?_) fun _ =>
      Triple.bind (cleanup_own_triple hJ hownStatus) fun _ =>
      Triple.throw fun s hs => ⟨hs, early_write⟩
    intro s hs
    obtain ⟨s₀, content, hs₀, rfl⟩ := hs.2 owned rfl
    exact hs₀.done.own hownTask content
  | ok u =>
    have hcopied : ∀ s : Folder, (∃ s₀ content, Reserved crates fs₀ pair stamp k s₀ ∧
        s = s₀.set (.taskBackup stamp k) (some content) ∧
        crates.hashBytes content = (s₀.digest crates .task).getD (crates.hashBytes [])) →
        (Done crates fs₀ pair s ∧ s (.statusBackup stamp k) = some []) ∧
        s.digest crates (.taskBackup stamp k) = some (pair.1.getD (crates.hashBytes [])) := by
      rintro s ⟨s₀, content, hs₀, rfl, hhash⟩
      have hpair : s₀.digest crates .task = pair.1 := congrArg Prod.fst hs₀.done.pair
      refine ⟨⟨hs₀.done.own hownTask _, ?_⟩, ?_⟩
      · rw [s₀.set_ne _ (by simp)]
        exact hs₀.statusEmpty
      · rw [Folder.digest, s₀.set_self, Option.map_some, hhash, hpair]
    refine Triple.bind ((copyBackup_triple (fun s hs => hJ s hs.1.1) (fun s hs => hs.1.2)
      fun s hs => hstatus.trans (existed_of_done hs.1.1).2).pre fun s hs =>
      hcopied s (hs.1 rfl)) fun copied => ?_
    cases copied with
    | error owned =>
      refine Triple.bind ((cleanup_own_triple hJ hownStatus).pre ?_) fun _ =>
        Triple.throw fun s hs => ⟨hs, early_write⟩
      intro s hs
      obtain ⟨s₀, content, hs₀, rfl⟩ := hs.2 owned rfl
      exact hs₀.1.1.own hownStatus content
    | ok u =>
      refine Triple.pure fun s hs => ?_
      obtain ⟨s₀, content, ⟨⟨hdone, -⟩, hdigest⟩, rfl, hhash⟩ := hs.1 rfl
      have hpair : s₀.digest crates .status = pair.2 := congrArg Prod.snd hdone.pair
      refine ⟨hdone.own hownStatus _, ?_, ?_⟩
      · rw [Folder.digest_congr (s₀.set_ne _ (by simp))]
        exact hdigest
      · rw [Folder.digest, s₀.set_self, Option.map_some, hhash, hpair]

theorem verifyArchive_triple {backup : FileName} {original : Option Text} (hJ : ∀ s, P s → J s)
    (hbackup : ∀ s, P s → Folder.digest crates s backup =
      some (original.getD (crates.hashBytes []))) :
    IoTriple crates G J P (verifyArchive crates backup original) (fun _ => P)
      (fun e s => P s ∧ Early e) := by
  unfold verifyArchive
  refine Triple.bind ((taskSourceState_triple hJ).errors
    fun _ _ hs => ⟨hs.1, .inl hs.2.1⟩) fun found => ?_
  refine (demand_holds fun s hs => ?_).post (fun _ _ hs => hs.1)
    fun _ _ hs => hs
  rw [hs.2]
  exact hbackup s hs.1

/-- The journal of a clean of this pair, with the backups of this suffix. -/
def draft (crates : CleanCrates) (request : CleanRequest) (existing : Text)
    (pair : Option Text × Option Text) (k : ℕ) : CleanJournal :=
  let base := newJournal crates request existing pair.1 pair.2
  if pair.1.isSome || pair.2.isSome then
    { base with
      suffix := k
      task := { base.task with backup := some (.taskBackup request.stamp k) }
      status := { base.status with backup := some (.statusBackup request.stamp k) } }
  else base

/-- The pair is archived, unless neither half was there. -/
def Archived (crates : CleanCrates) (fs : Folder) (stamp : Text) (k : ℕ)
    (pair : Option Text × Option Text) : Prop :=
  pair = (none, none) ∨ ArchivePair crates fs stamp k pair

structure Drafted (crates : CleanCrates) (fs₀ : Folder) (pair : Option Text × Option Text)
    (request : CleanRequest) (existing : Text) (k : ℕ) (j : CleanJournal) (fs : Folder) : Prop where
  suffix : k ≤ 99
  journal : j = draft crates request existing pair k
  done : Done crates fs₀ pair fs
  archive : Archived crates fs request.stamp k pair

theorem archiveCleanPair_triple (hJ : ∀ s, Done crates fs₀ pair s → J s) :
    IoTriple crates G J (Done crates fs₀ pair)
      (archiveCleanPair crates (newJournal crates request existing pair.1 pair.2))
      (fun j s => ∃ k, Drafted crates fs₀ pair request existing k j s)
      (fun e s => Done crates fs₀ pair s ∧ Early e) := by
  have hexisted : ((newJournal crates request existing pair.1 pair.2).task.existed ||
      (newJournal crates request existing pair.1 pair.2).status.existed) =
      (pair.1.isSome || pair.2.isSome) := rfl
  unfold archiveCleanPair
  rw [hexisted]
  by_cases hany : (pair.1.isSome || pair.2.isSome) = true
  · rw [if_pos hany]
    refine Triple.bind (reserveBackups_triple hJ 0 100) fun k => Triple.of_pre fun s₀ hs₀ => ?_
    have hk : k ≤ 99 := by
      have := hs₀.2
      omega
    have hJ' : ∀ s, (Done crates fs₀ pair s ∧ ArchivePair crates s request.stamp k pair) → J s :=
      fun s hs => hJ s hs.1
    refine Triple.bind ((copyPair_triple hJ rfl rfl hs₀.1.task hs₀.1.status).pre
      fun s hs => hs ▸ hs₀.1) fun _ => ?_
    refine Triple.bind ((verifyArchive_triple hJ' fun s hs => hs.2.1).errors
      fun _ _ hs => ⟨hs.1.1, hs.2⟩) fun _ => ?_
    refine Triple.bind ((verifyArchive_triple hJ' fun s hs => hs.2.2).errors
      fun _ _ hs => ⟨hs.1.1, hs.2⟩) fun _ => Triple.pure fun s hs => ⟨k, hk, ?_, hs.1, .inr hs.2⟩
    rw [draft, if_pos hany]
    rfl
  · rw [if_neg hany]
    refine Triple.pure fun s hs => ⟨0, Nat.zero_le _, ?_, hs, .inl ?_⟩
    · rw [draft, if_neg hany]
    · rw [Bool.or_eq_true, not_or, Bool.not_eq_true, Bool.not_eq_true] at hany
      exact Prod.ext (Option.isSome_eq_false_iff.mp hany.1 |> Option.isNone_iff_eq_none.mp)
        (Option.isSome_eq_false_iff.mp hany.2 |> Option.isNone_iff_eq_none.mp)

/-! ### Stages and the journal -/

theorem ArchivePair.frame {fs' : Folder} {k : ℕ} (h : ArchivePair crates fs stamp k pair)
    (hkeep : KeepsBackups fs fs') : ArchivePair crates fs' stamp k pair := by
  have hsame : ∀ name hash, name.isBackup = true → fs.digest crates name = some hash →
      fs'.digest crates name = some hash := by
    intro name hash hbackup hdigest
    have hsome : fs name ≠ none := by
      intro hnone
      rw [Folder.digest, hnone] at hdigest
      cases hdigest
    rw [Folder.digest_congr (hkeep name hbackup hsome)]
    exact hdigest
  exact ⟨hsame _ _ rfl h.1, hsame _ _ rfl h.2⟩

theorem Archived.frame {fs' : Folder} {k : ℕ} (h : Archived crates fs stamp k pair)
    (hkeep : KeepsBackups fs fs') : Archived crates fs' stamp k pair :=
  h.imp_right fun h => h.frame hkeep

theorem Drafted.set {k : ℕ} {j : CleanJournal} (h : Drafted crates fs₀ pair request existing k j fs)
    {name : FileName} (hown : Own fs₀ name) (hbackup : name.isBackup = false)
    (content : Option Bytes) :
    Drafted crates fs₀ pair request existing k j (fs.set name content) :=
  ⟨h.suffix, h.journal, h.done.own hown content,
    h.archive.frame ((KeepsBackups.refl fs).set hbackup content)⟩

/-- All that the journal is to promise. -/
structure Staged (crates : CleanCrates) (fs₀ : Folder) (pair : Option Text × Option Text)
    (request : CleanRequest) (existing : Text) (k : ℕ) (j : CleanJournal) (fs : Folder) : Prop where
  drafted : Drafted crates fs₀ pair request existing k j fs
  task : fs (.taskStage request.tx) = some (cleanedBytes existing)
  status : fs (.statusStage request.tx) = some (seedBytes crates request)

theorem draft_task (k : ℕ) : (draft crates request existing pair k).task =
    ⟨pair.1.isSome, pair.1, crates.hashBytes (cleanedBytes existing),
      if pair.1.isSome || pair.2.isSome then some (.taskBackup request.stamp k) else none,
      .taskStage request.tx⟩ := by
  unfold draft
  split_ifs <;> rfl

theorem draft_status (k : ℕ) : (draft crates request existing pair k).status =
    ⟨pair.2.isSome, pair.2, crates.hashBytes (seedBytes crates request),
      if pair.1.isSome || pair.2.isSome then some (.statusBackup request.stamp k) else none,
      .statusStage request.tx⟩ := by
  unfold draft
  split_ifs <;> rfl

theorem draft_txId (k : ℕ) : (draft crates request existing pair k).txId = request.tx := by
  unfold draft
  split_ifs <;> rfl

/-- The halves of the pair are found as they were. -/
theorem pairState_triple (hP : ∀ s, P s → Done crates fs₀ pair s) (hJ : ∀ s, P s → J s) :
    IoTriple crates G J P (taskSourceState .task .writeFailed) (fun hash s => P s ∧ hash = pair.1)
      (fun e s => Done crates fs₀ pair s ∧ Early e) ∧
    IoTriple crates G J P (taskSourceState .status .writeFailed) (fun hash s => P s ∧ hash = pair.2)
      (fun e s => Done crates fs₀ pair s ∧ Early e) := by
  refine ⟨(taskSourceState_triple hJ).post (fun _ s hs => ⟨hs.1, ?_⟩) ?_,
    (taskSourceState_triple hJ).post (fun _ s hs => ⟨hs.1, ?_⟩) ?_⟩
  · exact hs.2.trans (congrArg Prod.fst (hP s hs.1).pair)
  · exact fun _ s hs => ⟨hP s hs.1, .inl hs.2.1⟩
  · exact hs.2.trans (congrArg Prod.snd (hP s hs.1).pair)
  · exact fun _ s hs => ⟨hP s hs.1, .inl hs.2.1⟩

theorem prepareClean_triple (hJ : ∀ s, Done crates fs₀ pair s → J s)
    (htext : TextOf crates pair existing) :
    IoTriple crates G J (Done crates fs₀ pair) (prepareClean crates request existing)
      (fun j s => ∃ k, Staged crates fs₀ pair request existing k j s)
      (fun e s => Done crates fs₀ pair s ∧ Early e) := by
  unfold prepareClean
  obtain ⟨hreadTask, hreadStatus⟩ := pairState_triple (G := G) (fun s hs => hs) hJ
  refine Triple.bind hreadTask fun originalTask => Triple.of_fact fun htask => ?_
  refine Triple.bind hreadStatus fun originalStatus => Triple.of_fact fun hstatus => ?_
  rw [htask, hstatus]
  refine Triple.bind (demand_holds fun s hs => htext.2) fun _ => ?_
  refine Triple.bind (archiveCleanPair_triple hJ) fun j => Triple.of_pre fun s₀ hs₀ => ?_
  obtain ⟨k, hk⟩ := hs₀
  have hj := hk.journal
  have htaskStage : j.task.stage = .taskStage request.tx := by rw [hj, draft_task]
  have hstatusStage : j.status.stage = .statusStage request.tx := by rw [hj, draft_status]
  rw [htaskStage, hstatusStage]
  refine Triple.bind ((stageFile_triple (P := Drafted crates fs₀ pair request existing k j)
    (fun s content hs => hs.set (own_taskStage _) rfl content) fun s hs => hJ s hs.done).conseq
    (fun s hs => hs ▸ hk) (fun _ _ hs => hs) fun _ _ hs => ⟨hs.1.done, hs.2⟩) fun _ => ?_
  have hsecond : IoTriple crates G J
      (fun s => Drafted crates fs₀ pair request existing k j s ∧
        s (.taskStage request.tx) = some (cleanedBytes existing))
      (stageFile (.statusStage request.tx) (seedBytes crates request))
      (fun _ => Staged crates fs₀ pair request existing k j)
      (fun e s => Done crates fs₀ pair s ∧ Early e) := by
    refine (stageFile_triple (fun s content hs => ⟨hs.1.set (own_statusStage _) rfl content, ?_⟩)
      fun s hs => hJ s hs.1.done).post
      (fun _ _ hs => ⟨hs.1.1, hs.1.2, hs.2⟩) fun _ _ hs => ⟨hs.1.1.done, hs.2⟩
    rw [Folder.set_ne s content (by simp)]
    exact hs.2
  refine Triple.bind hsecond fun _ => ?_
  have hstaged : ∀ s, Staged crates fs₀ pair request existing k j s → J s :=
    fun s hs => hJ s hs.drafted.done
  obtain ⟨hagainTask, hagainStatus⟩ :=
    pairState_triple (G := G) (fun s hs => hs.drafted.done) hstaged
  refine Triple.bind hagainTask fun task => Triple.of_fact fun hsame => ?_
  refine Triple.bind hagainStatus fun status => Triple.of_fact fun hsame' => ?_
  refine Triple.bind (demand_holds fun s hs => ⟨hsame, hsame'⟩) fun _ => ?_
  exact Triple.pure fun s hs => ⟨k, hs⟩

theorem Staged.set {k : ℕ} {j : CleanJournal} (h : Staged crates fs₀ pair request existing k j fs)
    {name : FileName} (hown : Own fs₀ name) (hbackup : name.isBackup = false)
    (htask : name ≠ .taskStage request.tx) (hstatus : name ≠ .statusStage request.tx)
    (content : Option Bytes) :
    Staged crates fs₀ pair request existing k j (fs.set name content) := by
  refine ⟨h.drafted.set hown hbackup content, ?_, ?_⟩
  · rw [fs.set_ne _ htask.symm]
    exact h.task
  · rw [fs.set_ne _ hstatus.symm]
    exact h.status

theorem Archived.of_some {k : ℕ} (h : Archived crates fs stamp k pair)
    (hany : (pair.1.isSome || pair.2.isSome) = true) : ArchivePair crates fs stamp k pair := by
  rcases h with rfl | h
  · cases hany
  · exact h

/-- The journal is there: the clean will be finished. -/
structure Published (crates : CleanCrates) (fs₀ : Folder) (pair : Option Text × Option Text)
    (request : CleanRequest) (k : ℕ) (j : CleanJournal) (fs : Folder) : Prop where
  pending : Pending crates fs j (crates.journalToVec j)
  backups : KeepsBackups fs₀ fs
  archive : Archived crates fs request.stamp k pair

/-- A side whose target is as it was, with its stage and its archive. -/
theorem ready_side {any : Bool} {original : Option Text} {hash : Text}
    {backup stage target : FileName} (htarget : fs.digest crates target = original)
    (hstage : fs.digest crates stage = some hash)
    (hbackup : any = true →
      fs.digest crates backup = some (original.getD (crates.hashBytes []))) :
    Ready crates fs
      ⟨original.isSome, original, hash, if any then some backup else none, stage⟩ target := by
  refine ⟨.inr htarget, fun other hmem => ?_, fun _ => hstage⟩
  dsimp only at hmem
  split_ifs at hmem with hany
  · cases hmem
    exact hbackup hany
  · cases hmem

theorem Staged.published {k : ℕ} {j : CleanJournal}
    (h : Staged crates fs₀ pair request existing k j fs)
    (hdecoded : decodeJournal crates (crates.journalToVec j) = .ok j)
    (hjournal : fs (.journalStage request.tx) = some (crates.journalToVec j)) :
    Published crates fs₀ pair request k j (fs.renamed (.journalStage request.tx) .journal) := by
  have hsame : ∀ name, name ≠ .journalStage request.tx → name ≠ .journal →
      fs.renamed (.journalStage request.tx) .journal name = fs name :=
    fun name => Folder.renamed_ne fs
  have hkeep : KeepsBackups fs (fs.renamed (.journalStage request.tx) .journal) :=
    ((KeepsBackups.refl fs).set rfl _).set rfl _
  have harchive := h.drafted.archive.frame hkeep
  have hpair := h.drafted.done.pair
  refine ⟨⟨?_, hdecoded, ?_, ?_⟩, h.drafted.done.backups.trans hkeep, harchive⟩
  · rw [Folder.renamed_target _ (by simp)]
    exact hjournal
  · rw [h.drafted.journal, draft_task]
    refine ready_side ?_ ?_ fun hany => (harchive.of_some hany).1
    · rw [Folder.digest_congr (hsame _ (by simp) (by simp))]
      exact congrArg Prod.fst hpair
    · rw [Folder.digest_congr (hsame _ (by simp) (by simp)), Folder.digest, h.task]
      rfl
  · rw [h.drafted.journal, draft_status]
    refine ready_side ?_ ?_ fun hany => (harchive.of_some hany).2
    · rw [Folder.digest_congr (hsame _ (by simp) (by simp))]
      exact congrArg Prod.snd hpair
    · rw [Folder.digest_congr (hsame _ (by simp) (by simp)), Folder.digest, h.status]
      rfl

/-- The journal appears whole or not at all. -/
theorem publishCleanJournal_triple {k : ℕ} {j : CleanJournal}
    (hJ : ∀ s, Done crates fs₀ pair s → J s)
    (hJ' : ∀ s, Published crates fs₀ pair request k j s → J s) (htx : j.txId = request.tx)
    (hdecoded : decodeJournal crates (crates.journalToVec j) = .ok j) :
    IoTriple crates G J (Staged crates fs₀ pair request existing k j) (publishCleanJournal crates j)
      (fun bytes s => Published crates fs₀ pair request k j s ∧ bytes = crates.journalToVec j)
      (fun e s => (Done crates fs₀ pair s ∧ Early e) ∨
        (Published crates fs₀ pair request k j s ∧ e = .cleanRecoveryPending)) := by
  have hstage : ∀ s content, Staged crates fs₀ pair request existing k j s →
      Staged crates fs₀ pair request existing k j
        (Folder.set s (.journalStage request.tx) content) :=
    fun s content hs => hs.set (own_journalStage _) rfl (by simp) (by simp) content
  unfold publishCleanJournal
  rw [htx]
  refine Triple.bind ((stageFile_triple hstage fun s hs => hJ s hs.drafted.done).errors
    fun _ _ hs => .inl ⟨hs.1.drafted.done, hs.2⟩) fun _ => ?_
  have hpresent : IoTriple crates G J
      (fun s => Staged crates fs₀ pair request existing k j s ∧
        s (.journalStage request.tx) = some (crates.journalToVec j))
      (perform (.present .journal))
      (fun (foreign : Bool) s => (Staged crates fs₀ pair request existing k j s ∧
        s (.journalStage request.tx) = some (crates.journalToVec j)) ∧ foreign = false)
      (fun e s => (Done crates fs₀ pair s ∧ Early e) ∨
        (Published crates fs₀ pair request k j s ∧ e = .cleanRecoveryPending)) := by
    refine Triple.call _ (fun s hs => hJ s hs.1.drafted.done) fun s x hs hx => ⟨hs, ?_⟩
    simp [folderAct, hs.1.drafted.done.journal]
  refine Triple.bind hpresent fun foreign => ?_
  refine Triple.bind (demand_holds fun s hs => hs.2) fun _ => ?_
  refine Triple.bind (R := fun _ => Published crates fs₀ pair request k j)
    ((renameArtifact_triple fun s hs => hJ s hs.1.1.drafted.done).post ?_
      fun _ _ hs => .inl ⟨hs.1.1.1.drafted.done, .inl hs.2.1⟩) fun _ => ?_
  · rintro u s ⟨s₀, content, hs, -, rfl⟩
    exact hs.1.1.published hdecoded hs.1.2
  · refine Triple.bind ((syncArtifact_triple hJ').errors
      fun _ _ hs => .inr ⟨hs.1, hs.2.1⟩) fun _ => ?_
    exact Triple.pure fun s hs => ⟨hs, rfl⟩

/-! ### A whole clean -/

/-- The digests of a pair that was cleaned. -/
def cleanedPair (crates : CleanCrates) (request : CleanRequest) (existing : Text) :
    Option Text × Option Text :=
  (some (crates.hashBytes (cleanedBytes existing)),
    some (crates.hashBytes (seedBytes crates request)))

/-- This is what the clean makes of the pair, and the pair is archived. -/
def Cleaned (crates : CleanCrates) (request : CleanRequest) (pair now : Option Text × Option Text)
    (k : ℕ) (fs : Folder) : Prop :=
  ∃ existing, TextOf crates pair existing ∧ now = cleanedPair crates request existing ∧
    Archived crates fs request.stamp k pair

/-- Wherever a clean may stop: what is found next is all old, or all new with the old archived. -/
structure Between (crates : CleanCrates) (fs₀ : Folder) (request : CleanRequest) (fs : Folder) :
    Prop where
  consistent : Consistent crates fs
  backups : KeepsBackups fs₀ fs
  view : view crates fs = view crates fs₀ ∨
    ∃ k, Cleaned crates request (view crates fs₀) (view crates fs) k fs

def Settled (crates : CleanCrates) (fs₀ : Folder) (request : CleanRequest) :
    CleanOutcome → Folder → Prop
  | .noOp, fs => Done crates fs₀ (view crates fs₀) fs
  | .wrote backup, fs => fs .journal = none ∧ KeepsBackups fs₀ fs ∧
      ∃ k, Cleaned crates request (view crates fs₀) (pairDigest crates fs) k fs ∧
        backup = if (view crates fs₀).1.isSome || (view crates fs₀).2.isSome then
          some (.taskBackup request.stamp k) else none

/-- An error before the journal leaves the pair, and one after it the clean to be recovered. None
is a conflict that nobody made. -/
def Refused (crates : CleanCrates) (fs₀ : Folder) (request : CleanRequest) (e : TaskOpError)
    (fs : Folder) : Prop :=
  (Done crates fs₀ (view crates fs₀) fs ∧ Early e) ∨ (Between crates fs₀ request fs ∧
    (e = .cleanRecoveryPending ∨ e = .cleanRecoveryConflict none))

/-- The journals of this clean are read back as they were written. -/
def JournalsRead (crates : CleanCrates) (request : CleanRequest)
    (pair : Option Text × Option Text) : Prop :=
  ∀ existing k, TextOf crates pair existing → k ≤ 99 →
    decodeJournal crates (crates.journalToVec (draft crates request existing pair k)) =
      .ok (draft crates request existing pair k)

theorem targets_draft (k : ℕ) :
    (draft crates request existing pair k).targets = cleanedPair crates request existing := by
  rw [CleanJournal.targets, draft_task, draft_status, cleanedPair]

theorem Holding.between (h : Holding crates fs₀ (Tasks.view crates fs₀) fs) :
    Between crates fs₀ request fs := ⟨h.consistent, h.backups, .inl h.view⟩

theorem Published.between {k : ℕ}
    (h : Published crates fs₀ (view crates fs₀) request k
      (draft crates request existing (view crates fs₀) k) fs)
    (htext : TextOf crates (view crates fs₀) existing) : Between crates fs₀ request fs :=
  ⟨.inr ⟨_, _, h.pending⟩, h.backups,
    .inr ⟨k, existing, htext, (view_of_pending h.pending).trans (targets_draft k), h.archive⟩⟩

theorem finish_triple {k : ℕ} {s₁ : Folder}
    (h : Published crates fs₀ (view crates fs₀) request k
      (draft crates request existing (view crates fs₀) k) s₁)
    (htext : TextOf crates (view crates fs₀) existing) :
    IoTriple crates G (Between crates fs₀ request) (· = s₁)
      (finishClean crates (draft crates request existing (view crates fs₀) k)
        (crates.journalToVec (draft crates request existing (view crates fs₀) k)))
      (fun _ => Settled crates fs₀ request
        (.wrote (draft crates request existing (view crates fs₀) k).task.backup))
      (Refused crates fs₀ request) := by
  have hbetween : ∀ s,
      Holding crates s₁ (draft crates request existing (view crates fs₀) k).targets s →
      Between crates fs₀ request s := fun s hs =>
    ⟨hs.consistent, h.backups.trans hs.backups,
      .inr ⟨k, existing, htext, hs.view.trans (targets_draft k), h.archive.frame hs.backups⟩⟩
  refine ((finishClean_triple (named_of_decoded h.pending.decoded)).weaken hbetween).conseq ?_ ?_ ?_
  · rintro s rfl
    exact ⟨h.pending, KeepsBackups.refl _⟩
  · intro u s hs
    refine ⟨hs.journal, h.backups.trans hs.backups, k, ⟨existing, htext, hs.pair.trans
      (targets_draft k), h.archive.frame hs.backups⟩, ?_⟩
    rw [draft_task]
  · exact fun e s hs => .inr ⟨hbetween s hs.1, hs.2.2⟩

theorem performClean_triple (hjson : JournalsRead crates request (view crates fs₀)) :
    IoTriple crates G (Between crates fs₀ request) (Holding crates fs₀ (view crates fs₀))
      (performClean crates request) (Settled crates fs₀ request) (Refused crates fs₀ request) := by
  have hholding : ∀ s, Holding crates fs₀ (view crates fs₀) s → Between crates fs₀ request s :=
    fun s => Holding.between
  have hdone : ∀ s, Done crates fs₀ (view crates fs₀) s → Between crates fs₀ request s :=
    fun s hs => hs.holding.between
  unfold performClean
  refine Triple.bind ((recoverCleanPair_triple.weaken hholding).errors fun e s hs =>
    .inr ⟨hholding s hs.1, hs.2.2⟩) fun _ => ?_
  refine Triple.bind ((readTaskText_triple hdone).errors
    fun _ _ hs => .inl hs) fun existing => Triple.of_fact fun htext => ?_
  unfold cleanPair
  refine Triple.bind ((isReset_triple hdone).errors
    fun _ _ hs => .inl hs) fun reset => ?_
  cases reset with
  | true => exact Triple.pure fun s hs => hs
  | false =>
    rw [if_neg (by simp)]
    refine Triple.bind ((prepareClean_triple hdone htext).errors fun _ _ hs => .inl hs) fun j =>
      Triple.of_pre fun s₀ hs₀ => ?_
    obtain ⟨k, hk⟩ := hs₀
    obtain rfl := hk.drafted.journal
    refine Triple.bind ((publishCleanJournal_triple hdone (fun s hs => hs.between htext)
      (draft_txId k) (hjson existing k htext hk.drafted.suffix)).conseq (fun s hs => hs ▸ hk)
      (fun _ _ hs => hs) ?_) fun bytes => Triple.of_fact fun hbytes =>
      Triple.of_pre fun s₁ hs₁ => ?_
    · rintro e s (hs | ⟨hs, rfl⟩)
      · exact .inl hs
      · exact .inr ⟨hs.between htext, .inl rfl⟩
    · rw [hbytes]
      exact Triple.bind (finish_triple hs₁ htext) fun _ => Triple.pure fun s hs => hs

inductive Section where
  | recover
  | clean (request : CleanRequest)
  deriving DecidableEq

/-- The folder after a section that may have stopped. -/
def Section.exec (crates : CleanCrates) (xs : List IoChoice) (fs : Folder) : Section → Folder
  | .recover => ((folderDevice crates).exec (recoverCleanPair crates).run xs fs).2
  | .clean request => ((folderDevice crates).exec (performClean crates request).run xs fs).2

def runTurns (crates : CleanCrates) : List (Section × List IoChoice) → Folder → Folder
  | [], fs => fs
  | turn :: rest, fs => runTurns crates rest (turn.1.exec crates turn.2 fs)

def Section.Supplied (crates : CleanCrates) (fs : Folder) : Section → Prop
  | .recover => True
  | .clean request => JournalsRead crates request (view crates fs)

def TurnsSupplied (crates : CleanCrates) : List (Section × List IoChoice) → Folder → Prop
  | [], _ => True
  | turn :: rest, fs =>
    turn.1.Supplied crates fs ∧ TurnsSupplied crates rest (turn.1.exec crates turn.2 fs)

/-- The folder can be recovered, and the pair that was found before is found still, or archived. -/
structure Preserved (crates : CleanCrates) (fs fs' : Folder) : Prop where
  consistent : Consistent crates fs'
  backups : KeepsBackups fs fs'
  pair : view crates fs' = view crates fs ∨ ∃ stamp k, Archived crates fs' stamp k (view crates fs)

theorem Preserved.refl (h : Consistent crates fs) : Preserved crates fs fs :=
  ⟨h, KeepsBackups.refl fs, .inl rfl⟩

theorem Preserved.trans {fs' fs'' : Folder} (h : Preserved crates fs fs')
    (h' : Preserved crates fs' fs'') : Preserved crates fs fs'' := by
  refine ⟨h'.consistent, h.backups.trans h'.backups, ?_⟩
  rcases h.pair with hsame | ⟨stamp, k, harchive⟩
  · rw [← hsame]
    exact h'.pair
  · exact .inr ⟨stamp, k, harchive.frame h'.backups⟩

theorem Between.preserved (h : Between crates fs₀ request fs) : Preserved crates fs₀ fs := by
  refine ⟨h.consistent, h.backups, h.view.imp_right ?_⟩
  rintro ⟨k, existing, -, -, harchive⟩
  exact ⟨request.stamp, k, harchive⟩

theorem Settled.between {outcome : CleanOutcome} (h : Settled crates fs₀ request outcome fs) :
    Between crates fs₀ request fs := by
  cases outcome with
  | noOp => exact (Done.holding h).between
  | wrote backup =>
    obtain ⟨hnone, hbackups, k, hcleaned, -⟩ := h
    rw [← view_of_absent hnone] at hcleaned
    exact ⟨.inl hnone, hbackups, .inr ⟨k, hcleaned⟩⟩

theorem Refused.between {e : TaskOpError} (h : Refused crates fs₀ request e fs) :
    Between crates fs₀ request fs := by
  rcases h with h | h
  · exact h.1.holding.between
  · exact h.1

theorem Holding.preserved (h : Holding crates fs₀ (Tasks.view crates fs₀) fs) :
    Preserved crates fs₀ fs := ⟨h.consistent, h.backups, .inl h.view⟩

theorem holding_of_after {r : Option (Except TaskOpError Unit) × Folder}
    (h : After (D := folderDevice crates) (Holding crates fs₀ pair)
      (Ends (fun _ => Done crates fs₀ pair) (Faulted G (Holding crates fs₀ pair))) r) :
    Holding crates fs₀ pair r.2 := by
  obtain ⟨found, s⟩ := r
  cases found with
  | none => exact h
  | some result =>
    cases result with
    | ok u => exact Done.holding h
    | error e => exact h.1

theorem between_of_after {r : Option (Except TaskOpError CleanOutcome) × Folder}
    (h : After (D := folderDevice crates) (Between crates fs₀ request)
      (Ends (Settled crates fs₀ request) (Refused crates fs₀ request)) r) :
    Between crates fs₀ request r.2 := by
  obtain ⟨found, s⟩ := r
  cases found with
  | none => exact h
  | some result =>
    cases result with
    | ok outcome => exact Settled.between h
    | error e => exact Refused.between h

/-- One section keeps what stood before it. -/
theorem preserved_section (h : Consistent crates fs) {sect : Section}
    (hs : sect.Supplied crates fs) (xs : List IoChoice) :
    Preserved crates fs (sect.exec crates xs fs) := by
  have hxs : ∀ x ∈ xs, (fun _ => True : IoChoice → Prop) x := fun _ _ => trivial
  cases sect with
  | recover =>
    have hafter := recoverCleanPair_triple.exec (Holding.self h) hxs
    exact (holding_of_after hafter).preserved
  | clean request =>
    have hafter := (performClean_triple hs).exec (Holding.self h) hxs
    exact (between_of_after hafter).preserved

theorem preserved_run {turns : List (Section × List IoChoice)} (h : Consistent crates fs)
    (hs : TurnsSupplied crates turns fs) : Preserved crates fs (runTurns crates turns fs) := by
  induction turns generalizing fs with
  | nil => exact Preserved.refl h
  | cons turn rest ih =>
    have hstep := preserved_section h hs.1 turn.2
    exact hstep.trans (ih hstep.consistent hs.2)

theorem turnsSupplied_append {turns rest : List (Section × List IoChoice)}
    (hs : TurnsSupplied crates (turns ++ rest) fs) : TurnsSupplied crates turns fs ∧
      TurnsSupplied crates rest (runTurns crates turns fs) := by
  induction turns generalizing fs with
  | nil => exact ⟨trivial, hs⟩
  | cons turn turns ih =>
    obtain ⟨hturns, hrest⟩ := ih hs.2
    exact ⟨⟨hs.1, hturns⟩, hrest⟩

theorem runTurns_append (turns rest : List (Section × List IoChoice)) (fs : Folder) :
    runTurns crates (turns ++ rest) fs = runTurns crates rest (runTurns crates turns fs) := by
  induction turns generalizing fs with
  | nil => rfl
  | cons turn turns ih => exact ih _

def sampleRequest : CleanRequest where
  tx := "0f8fad5b-d9cb-469f-a165-70867728950e".toList
  stamp := "20260101-000000".toList
  topic := "7c9e6679-7425-40de-944b-e07fc1f90ae7".toList
  recordedAt := "2026-01-01T00:00:00+00:00".toList

def emptyFolder : Folder := fun _ => none

def sampleSeed : Bytes :=
  ["\x7b\"schemaVersion\":1,\"kind\":\"topic_started\",".toList,
    "\"topicId\":\"7c9e6679-7425-40de-944b-e07fc1f90ae7\",\"sequence\":0,".toList,
    "\"requestId\":null,\"baseRevision\":null,".toList,
    "\"recordedAt\":\"2026-01-01T00:00:00+00:00\",\"author\":null,".toList,
    "\"status\":null\x7d".toList].flatten.flatMap String.utf8EncodeChar

def sampleJournal : Bytes :=
  ["\x7b\"schemaVersion\":1,\"txId\":\"0f8fad5b-d9cb-469f-a165-70867728950e\",".toList,
    "\"stamp\":\"20260101-000000\",\"suffix\":0,\"task\":\x7b\"existed\":false,".toList,
    "\"originalHash\":null,".toList,
    "\"targetHash\":\"e29a91207694c243b10c92c29cbbecc03ac7fd409db6bfc8ba788d972793b1a0\",".toList,
    "\"backup\":null,".toList,
    "\"stage\":\"TASK.md.tmp.0f8fad5b-d9cb-469f-a165-70867728950e\"\x7d,".toList,
    "\"status\":\x7b\"existed\":false,\"originalHash\":null,".toList,
    "\"targetHash\":\"12be7cb34d8682dc23b9f69c0b40cba44d812e8872f76d0f701b53b3200e7a1f\",".toList,
    "\"backup\":null,\"stage\":\"TASK-status.jsonl.tmp.".toList,
    "0f8fad5b-d9cb-469f-a165-70867728950e\"\x7d\x7d".toList].flatten.flatMap
    String.utf8EncodeChar

def cleanedHash : Text :=
  "e29a91207694c243b10c92c29cbbecc03ac7fd409db6bfc8ba788d972793b1a0".toList

def seedHash : Text :=
  "12be7cb34d8682dc23b9f69c0b40cba44d812e8872f76d0f701b53b3200e7a1f".toList

def emptyHash : Text :=
  "e3b0c44298fc1c149afbf4c8996fb92427ae41e4649b934ca495991b7852b855".toList

def sampleSide (hash stage : Text) : Value :=
  .object [("existed".toList, .bool false), ("originalHash".toList, .null),
    ("targetHash".toList, .string hash), ("backup".toList, .null), ("stage".toList, .string stage)]

def sampleClean : CleanJournal where
  schemaVersion := 1
  txId := sampleRequest.tx
  stamp := sampleRequest.stamp
  suffix := 0
  task := ⟨false, none, cleanedHash, none, .taskStage sampleRequest.tx⟩
  status := ⟨false, none, seedHash, none, .statusStage sampleRequest.tx⟩

def sampleFields : Value :=
  .object [("schemaVersion".toList, .number "1".toList), ("txId".toList, .string sampleRequest.tx),
    ("stamp".toList, .string sampleRequest.stamp), ("suffix".toList, .number "0".toList),
    ("task".toList, sampleSide cleanedHash ("TASK.md.tmp.".toList ++ sampleRequest.tx)),
    ("status".toList, sampleSide seedHash ("TASK-status.jsonl.tmp.".toList ++ sampleRequest.tx))]

/-- Packages that know one journal, one seed and three hashes. -/
def sampleCleanCrates : CleanCrates where
  fromSlice bytes := if bytes = sampleJournal then .ok sampleFields else .error "expected value"
  fromValue _ := .ok (cleanStatusSeed sampleRequest.topic sampleRequest.recordedAt)
  toVec _ := sampleSeed
  isUuid text := text = sampleRequest.tx
  isUtcTime text := text = sampleRequest.recordedAt
  hashBytes bytes :=
    if bytes = cleanedBytes [] then cleanedHash
    else if bytes = sampleSeed ++ [lineFeed] then seedHash else emptyHash
  parsesStamp text := text = sampleRequest.stamp
  journalFromValue _ := .ok sampleClean
  journalToVec _ := sampleJournal

theorem sample_draft (k : ℕ) :
    draft sampleCleanCrates sampleRequest [] (none, none) k = sampleClean := by
  have htask : sampleCleanCrates.hashBytes (cleanedBytes []) = cleanedHash := by
    simp only [sampleCleanCrates, if_true]
  have hstatus : sampleCleanCrates.hashBytes (seedBytes sampleCleanCrates sampleRequest) =
      seedHash := by decide +kernel
  rw [draft, if_neg (by simp), newJournal, htask, hstatus]
  rfl

theorem sample_decoded : decodeJournal sampleCleanCrates sampleJournal = .ok sampleClean := by
  have hslice : sampleCleanCrates.fromSlice sampleJournal = .ok sampleFields := by
    simp only [sampleCleanCrates, if_true]
  have hvalue : sampleCleanCrates.journalFromValue sampleFields = .ok sampleClean := rfl
  have hvalid : validateJournal sampleCleanCrates sampleClean = .ok () := by decide +kernel
  rw [decodeJournal, if_neg (by decide +kernel), hslice]
  dsimp only
  rw [if_neg (by decide +kernel), if_neg (by decide +kernel), hvalue]
  dsimp only
  rw [hvalid]
  rfl

theorem sample_journalsRead : JournalsRead sampleCleanCrates sampleRequest
    (view sampleCleanCrates emptyFolder) := by
  intro existing k htext hk
  have hview : view sampleCleanCrates emptyFolder = (none, none) := rfl
  rw [hview] at htext ⊢
  rw [htext.1 rfl, sample_draft]
  exact sample_decoded

/-- The folder of a clean that was stopped right after its journal appeared. -/
def pendingFolder : Folder := fun name =>
  if name = .journal then some sampleJournal
  else if name = .taskStage sampleRequest.tx then some (cleanedBytes [])
  else if name = .statusStage sampleRequest.tx then some (sampleSeed ++ [lineFeed])
  else none

theorem consistent_pendingFolder : Consistent sampleCleanCrates pendingFolder := by
  refine .inr ⟨sampleClean, sampleJournal, rfl, sample_decoded, ⟨.inr rfl, ?_, fun _ => ?_⟩,
    ⟨.inr rfl, ?_, fun _ => ?_⟩⟩
  · exact fun backup hmem => by cases hmem
  · have hhash : sampleCleanCrates.hashBytes (cleanedBytes []) = cleanedHash := by
      simp only [sampleCleanCrates, if_true]
    exact congrArg some hhash
  · exact fun backup hmem => by cases hmem
  · have hhash : sampleCleanCrates.hashBytes (sampleSeed ++ [lineFeed]) = seedHash := by
      decide +kernel
    exact congrArg some hhash

end AgentsCommander.Tasks
