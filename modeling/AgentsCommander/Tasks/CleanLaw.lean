import AgentsCommander.Tasks.CleanPair

/-! A clean that may stop or fail at any action: the pair is wholly as it was or wholly cleaned,
whoever looks next finishes it, and no backup that was there is touched. -/
namespace AgentsCommander.Tasks
open Foundation Foundation.Device Transcript

variable {crates : CleanCrates} {G : IoChoice → Prop} {J P : Folder → Prop}

/-- Some of the choices are failures. -/
def Fails (G : IoChoice → Prop) : Prop := ∃ x, G x ∧ x ≠ .ok

abbrev IoTriple {α : Type} (crates : CleanCrates) (G : IoChoice → Prop) (J P : Folder → Prop)
    (p : TaskIo α) (R : α → Folder → Prop) (E : TaskOpError → Folder → Prop) : Prop :=
  Triple (D := folderDevice crates) G J P p R E

/-! ### The folder -/

theorem Folder.set_self (fs : Folder) (name : FileName) (content : Option Bytes) :
    fs.set name content name = content := if_pos rfl

theorem Folder.set_ne (fs : Folder) {name other : FileName} (content : Option Bytes)
    (h : other ≠ name) : fs.set name content other = fs other := if_neg h

theorem Folder.append_ne (fs : Folder) {name other : FileName} (bytes : Bytes) (h : other ≠ name) :
    fs.append name bytes other = fs other := fs.set_ne _ h

theorem Folder.append_self (fs : Folder) (name : FileName) (bytes : Bytes) :
    fs.append name bytes name = (fs name).map (· ++ bytes) := fs.set_self _ _

theorem Folder.append_nil (fs : Folder) (name : FileName) : fs.append name [] = fs := by
  funext other
  by_cases h : other = name
  · rw [h, append_self]
    cases fs name <;> simp
  · exact fs.append_ne [] h

theorem Folder.digest_congr {fs fs' : Folder} {name : FileName} (h : fs' name = fs name) :
    fs'.digest crates name = fs.digest crates name := by rw [Folder.digest, Folder.digest, h]

/-! ### One action -/

/-- The action answered with this value, or failed. -/
def Told {α : Type} (G : IoChoice → Prop) (value : α) : Except Unit α → Prop
  | .ok a => a = value
  | .error () => Fails G

theorem not_ok {x : IoChoice} (hx : G x) (h : ¬x = .ok) : Fails G := ⟨x, hx, h⟩

theorem orThrow_triple {α : Type} {e : TaskOpError} {found : Except Unit α} {value : Folder → α} :
    IoTriple crates G J (fun s => P s ∧ Told G (value s) found) (orThrow e found)
      (fun a s => P s ∧ a = value s) (fun e' s => P s ∧ e' = e ∧ Fails G) := by
  cases found with
  | ok a => exact Triple.pure fun s hs => hs
  | error u => exact Triple.throw fun s hs => ⟨hs.1, rfl, hs.2⟩

theorem taskSourceState_triple {name : FileName} {e : TaskOpError} (hJ : ∀ s, P s → J s) :
    IoTriple crates G J P (taskSourceState name e)
      (fun hash s => P s ∧ hash = Folder.digest crates s name)
      (fun e' s => P s ∧ e' = e ∧ Fails G) := by
  refine Triple.bind (Triple.call _ hJ fun s x hs hx => ?_) fun found => orThrow_triple
  by_cases h : x = .ok
  · simp [folderAct, h, hs, Told]
  · simp [folderAct, h, hs, Told, not_ok hx h]

theorem read_triple {name : FileName} {E : TaskOpError → Folder → Prop} (hJ : ∀ s, P s → J s) :
    IoTriple crates G J P (perform (.read name))
      (fun found s => P s ∧ Told G (s name) found) E := by
  refine Triple.call _ hJ fun s x hs hx => ?_
  by_cases h : x = .ok
  · simp [folderAct, h, hs, Told]
  · simp [folderAct, h, hs, Told, not_ok hx h]

theorem readTaskArtifact_triple {name : FileName} {e : TaskOpError} (hJ : ∀ s, P s → J s) :
    IoTriple crates G J P (readTaskArtifact name e) (fun bytes s => P s ∧ s name = some bytes)
      (fun e' s => P s ∧ e' = e ∧ (Fails G ∨ s name = none)) := by
  refine Triple.bind (read_triple hJ) fun found => ?_
  cases found with
  | error u => exact Triple.throw fun s hs => ⟨hs.1, rfl, .inl hs.2⟩
  | ok content =>
    cases content with
    | none => exact Triple.throw fun s hs => ⟨hs.1, rfl, .inr hs.2.symm⟩
    | some bytes => exact Triple.pure fun s hs => ⟨hs.1, hs.2.symm⟩

theorem sync_triple {name : FileName} {E : TaskOpError → Folder → Prop} (hJ : ∀ s, P s → J s) :
    IoTriple crates G J P (perform (.sync name))
      (fun (found : Except Unit Unit) s =>
        P s ∧ (found = .error () → Fails G ∨ s name = none)) E := by
  refine Triple.call _ hJ fun s x hs hx => ?_
  by_cases h : x = .ok
  · cases hname : s name <;> simp [folderAct, h, hs, hname]
  · simp [folderAct, h, hs, not_ok hx h]

theorem syncArtifact_triple {name : FileName} {e : TaskOpError} (hJ : ∀ s, P s → J s) :
    IoTriple crates G J P (syncArtifact name e) (fun _ s => P s)
      (fun e' s => P s ∧ e' = e ∧ (Fails G ∨ s name = none)) := by
  refine Triple.bind (sync_triple hJ) fun found => ?_
  cases found with
  | ok u => exact Triple.pure fun s hs => hs.1
  | error u => exact Triple.throw fun s hs => ⟨hs.1, rfl, hs.2 rfl⟩

/-- The folder after one file took the place of another. -/
def Folder.renamed (fs : Folder) (source target : FileName) : Folder :=
  (fs.set target (fs source)).set source none

theorem renameArtifact_triple {source target : FileName} {e : TaskOpError} (hJ : ∀ s, P s → J s) :
    IoTriple crates G J P (renameArtifact source target e)
      (fun _ s => ∃ s₀ content, P s₀ ∧ s₀ source = some content ∧ s = s₀.renamed source target)
      (fun e' s => P s ∧ e' = e ∧ (Fails G ∨ s source = none)) := by
  refine Triple.bind (R := fun (found : Except Unit Unit) (s : Folder) =>
    (found = .ok () → ∃ s₀ content, P s₀ ∧ s₀ source = some content ∧
      s = s₀.renamed source target) ∧
    (found = .error () → P s ∧ (Fails G ∨ s source = none)))
    (Triple.call _ hJ fun s x hs hx => ?_) fun found => ?_
  · cases x with
    | ok =>
      cases hsource : s source with
      | none =>
        simp only [folderAct, renameAct, hsource]
        exact ⟨fun h => (by cases h), fun _ => ⟨hs, .inr trivial⟩⟩
      | some content =>
        simp only [folderAct, renameAct, hsource]
        refine ⟨fun _ => ⟨s, content, hs, hsource, ?_⟩, fun h => by cases h⟩
        rw [Folder.renamed, hsource]
    | fail => exact ⟨fun h => (by cases h), fun _ => ⟨hs, .inl (not_ok hx (by simp))⟩⟩
    | part count => exact ⟨fun h => (by cases h), fun _ => ⟨hs, .inl (not_ok hx (by simp))⟩⟩
  · cases found with
    | ok u => exact Triple.pure fun s hs => hs.1 rfl
    | error u => exact Triple.throw fun s hs => ⟨(hs.2 rfl).1, rfl, (hs.2 rfl).2⟩

theorem remove_triple {name : FileName} {E : TaskOpError → Folder → Prop} (hJ : ∀ s, P s → J s) :
    IoTriple crates G J P (perform (.remove name))
      (fun (found : Except Unit Unit) s => (found = .ok () → ∃ s₀, P s₀ ∧ s = s₀.set name none) ∧
        (found = .error () → P s ∧ (Fails G ∨ s name = none))) E := by
  refine Triple.call _ hJ fun s x hs hx => ?_
  by_cases h : x = .ok
  · cases hname : s name with
    | none =>
      simp only [folderAct, h, hname]
      exact ⟨fun h => (by cases h), fun _ => ⟨hs, .inr hname⟩⟩
    | some content =>
      simp only [folderAct, h, hname]
      exact ⟨fun _ => ⟨s, hs, rfl⟩, fun h => by cases h⟩
  · simp only [folderAct, h, false_and, if_false]
    exact ⟨fun h => (by cases h), fun _ => ⟨hs, .inl (not_ok hx h)⟩⟩

theorem removeArtifact_triple {name : FileName} {e : TaskOpError} (hJ : ∀ s, P s → J s) :
    IoTriple crates G J P (removeArtifact name e) (fun _ s => ∃ s₀, P s₀ ∧ s = s₀.set name none)
      (fun e' s => P s ∧ e' = e ∧ (Fails G ∨ s name = none)) := by
  refine Triple.bind (remove_triple hJ) fun found => ?_
  cases found with
  | ok u => exact Triple.pure fun s hs => hs.1 rfl
  | error u => exact Triple.throw fun s hs => ⟨(hs.2 rfl).1, rfl, (hs.2 rfl).2⟩

theorem cleanupOwned_triple {name : FileName} {hash : Text} {E : TaskOpError → Folder → Prop}
    (hJ : ∀ s, P s → J s) :
    IoTriple crates G J P (cleanupOwned name hash)
      (fun _ s => P s ∨ ∃ s₀, P s₀ ∧ s = s₀.set name none) E := by
  refine Triple.bind (R := fun _ s => P s) (Triple.call _ hJ fun s x hs hx => hs) fun found => ?_
  split_ifs
  · refine Triple.bind (remove_triple hJ) fun removed => ?_
    cases removed with
    | ok u => exact Triple.pure fun s hs => .inr (hs.1 rfl)
    | error u => exact Triple.pure fun s hs => .inl (hs.2 rfl).1
  · exact Triple.pure fun s hs => .inl hs

/-- What a file was found to be when it was to be created. -/
def Created (G : IoChoice → Prop) (P : Folder → Prop) (name : FileName) :
    Except CreateError Unit → Folder → Prop
  | .ok (), s => ∃ s₀, P s₀ ∧ s₀ name = none ∧ s = s₀.set name (some [])
  | .error .alreadyExists, s => P s ∧ s name ≠ none
  | .error .other, s => P s ∧ Fails G

theorem createTaskArtifact_triple {name : FileName} {E : TaskOpError → Folder → Prop}
    (hJ : ∀ s, P s → J s) :
    IoTriple crates G J P (createTaskArtifact name) (Created G P name) E := by
  refine Triple.call _ hJ fun s x hs hx => ?_
  by_cases h : x = .ok
  · cases hname : s name with
    | none =>
      simp only [folderAct, h, hname]
      exact ⟨s, hs, hname, rfl⟩
    | some content =>
      simp only [folderAct, h, hname]
      exact ⟨hs, by simp [hname]⟩
  · simp only [folderAct, h]
    exact ⟨hs, not_ok hx h⟩

theorem writeArtifact_triple {name : FileName} {bytes : Bytes} {e : TaskOpError}
    (hJ : ∀ s, P s → J s) :
    IoTriple crates G J P (writeArtifact name bytes e)
      (fun _ s => ∃ s₀, P s₀ ∧ s = s₀.append name bytes)
      (fun e' s => e' = e ∧ ∃ s₀ written, P s₀ ∧ s = s₀.append name written) := by
  refine Triple.bind (R := fun (found : Except Unit Unit) (s : Folder) =>
    (found = .ok () → ∃ s₀, P s₀ ∧ s = s₀.append name bytes) ∧
    (found = .error () → ∃ s₀ written, P s₀ ∧ s = s₀.append name written))
    (Triple.call _ hJ fun s x hs hx => ?_) fun found => ?_
  · cases x with
    | ok => exact ⟨fun _ => ⟨s, hs, rfl⟩, fun h => by cases h⟩
    | fail => exact ⟨fun h => (by cases h), fun _ => ⟨s, [], hs, (s.append_nil name).symm⟩⟩
    | part count => exact ⟨fun h => (by cases h), fun _ => ⟨s, bytes.take count, hs, rfl⟩⟩
  · cases found with
    | ok u => exact Triple.pure fun s hs => hs.1 rfl
    | error u => exact Triple.throw fun s hs => ⟨rfl, hs.2 rfl⟩

/-! ### What a journal promises -/

/-- The target is as it was or as it is to be, its backup is there, and so is the stage while it
is needed. -/
structure Ready (crates : CleanCrates) (fs : Folder) (side : CleanSide) (target : FileName) :
    Prop where
  current : fs.digest crates target = some side.targetHash ∨
    fs.digest crates target = side.originalHash
  backup : ∀ backup ∈ side.backup,
    fs.digest crates backup = some (side.originalHash.getD (crates.hashBytes []))
  staged : fs.digest crates target ≠ some side.targetHash →
    fs.digest crates side.stage = some side.targetHash

/-- A journal is there, and all that it needs. -/
structure Pending (crates : CleanCrates) (fs : Folder) (j : CleanJournal) (bytes : Bytes) :
    Prop where
  journal : fs .journal = some bytes
  decoded : decodeJournal crates bytes = .ok j
  task : Ready crates fs j.task .task
  status : Ready crates fs j.status .status

def Consistent (crates : CleanCrates) (fs : Folder) : Prop :=
  fs .journal = none ∨ ∃ j bytes, Pending crates fs j bytes

def pairDigest (crates : CleanCrates) (fs : Folder) : Option Text × Option Text :=
  (fs.digest crates .task, fs.digest crates .status)

def CleanJournal.targets (j : CleanJournal) : Option Text × Option Text :=
  (some j.task.targetHash, some j.status.targetHash)

/-- The digests of the pair, as the next one to hold the lock will find it. -/
def view (crates : CleanCrates) (fs : Folder) : Option Text × Option Text :=
  match (fs .journal).map (decodeJournal crates) with
  | some (.ok j) => j.targets
  | _ => pairDigest crates fs

def FileName.isBackup : FileName → Bool
  | .taskBackup _ _ | .statusBackup _ _ => true
  | _ => false

/-- The backups that were there are there as they were. -/
def KeepsBackups (fs fs' : Folder) : Prop :=
  ∀ name, name.isBackup = true → fs name ≠ none → fs' name = fs name

/-- The folder can be recovered, to this pair, and no backup was touched. -/
structure Holding (crates : CleanCrates) (fs₀ : Folder) (pair : Option Text × Option Text)
    (fs : Folder) : Prop where
  consistent : Consistent crates fs
  view : view crates fs = pair
  backups : KeepsBackups fs₀ fs

theorem KeepsBackups.refl (fs : Folder) : KeepsBackups fs fs := fun _ _ _ => rfl

theorem KeepsBackups.trans {fs fs' fs'' : Folder} (h : KeepsBackups fs fs')
    (h' : KeepsBackups fs' fs'') : KeepsBackups fs fs'' := by
  intro name hbackup hsome
  have hsame := h name hbackup hsome
  rw [h' name hbackup (hsame ▸ hsome), hsame]

theorem KeepsBackups.set {fs fs' : Folder} (h : KeepsBackups fs fs') {name : FileName}
    (hname : name.isBackup = false) (content : Option Bytes) :
    KeepsBackups fs (fs'.set name content) := by
  intro other hbackup hsome
  have hne : other ≠ name := by
    intro heq
    rw [heq, hname] at hbackup
    cases hbackup
  rw [fs'.set_ne content hne]
  exact h other hbackup hsome

theorem view_of_absent {fs : Folder} (h : fs .journal = none) :
    view crates fs = pairDigest crates fs := by rw [view, h, Option.map_none]

theorem view_of_pending {fs : Folder} {j : CleanJournal} {bytes : Bytes}
    (h : Pending crates fs j bytes) : view crates fs = j.targets := by
  rw [view, h.journal, Option.map_some, h.decoded]

/-- The names that a journal gives are those of its transaction. -/
structure Named (j : CleanJournal) : Prop where
  taskStage : j.task.stage = .taskStage j.txId
  statusStage : j.status.stage = .statusStage j.txId
  taskBackup : ∀ backup ∈ j.task.backup, backup = .taskBackup j.stamp j.suffix
  statusBackup : ∀ backup ∈ j.status.backup, backup = .statusBackup j.stamp j.suffix

theorem backup_of_validSide {side : CleanSide} {stage backup : FileName} {any : Bool}
    (h : validSide side stage backup any = true) :
    side.stage = stage ∧ ∀ other ∈ side.backup, other = backup := by
  simp only [validSide, Bool.and_eq_true, decide_eq_true_eq] at h
  obtain ⟨⟨⟨⟨hstage, hbackup⟩, -⟩, -⟩, -⟩ := h
  refine ⟨hstage, fun other hother => ?_⟩
  rw [hbackup] at hother
  split_ifs at hother
  · exact (Option.some.inj hother).symm
  · cases hother

theorem named_of_decoded {bytes : Bytes} {j : CleanJournal}
    (h : decodeJournal crates bytes = .ok j) : Named j := by
  have hvalid : validateJournal crates j = .ok () := by
    unfold decodeJournal at h
    split_ifs at h with hsize
    cases hslice : crates.fromSlice bytes with
    | error e => simp [hslice] at h
    | ok value =>
      simp only [hslice] at h
      split_ifs at h with hfields hsides
      cases hvalue : crates.journalFromValue value with
      | error e => simp [hvalue] at h
      | ok journal =>
        simp only [hvalue] at h
        cases hcheck : validateJournal crates journal with
        | error e => rw [hcheck] at h; cases h
        | ok u =>
          rw [hcheck] at h
          rw [← Except.ok.inj h]
          exact hcheck
  unfold validateJournal at hvalid
  split_ifs at hvalid with hheader
  dsimp only at hvalid
  split_ifs at hvalid with hsides
  simp only [not_or, Bool.not_eq_true', Bool.not_eq_false] at hsides
  obtain ⟨htask, hstatus⟩ := hsides
  obtain ⟨htaskStage, htaskBackup⟩ := backup_of_validSide htask
  obtain ⟨hstatusStage, hstatusBackup⟩ := backup_of_validSide hstatus
  exact ⟨htaskStage, hstatusStage, htaskBackup, hstatusBackup⟩

/-! ### Finishing -/

theorem demand_holds {c : Prop} [Decidable c] {e : TaskOpError} {E : TaskOpError → Folder → Prop}
    (h : ∀ s, P s → c) : IoTriple crates G J P (demand c e) (fun _ => P) E := by
  unfold demand
  by_cases hc : c
  · rw [if_pos hc]
    exact Triple.pure fun s hs => hs
  · rw [if_neg hc]
    exact Triple.throw fun s hs => absurd (h s hs) hc

theorem demand_triple {c : Prop} [Decidable c] {e : TaskOpError} :
    IoTriple crates G J P (demand c e) (fun _ s => P s ∧ c) (fun e' s => P s ∧ e' = e ∧ ¬c) := by
  unfold demand
  by_cases hc : c
  · rw [if_pos hc]
    exact Triple.pure fun s hs => ⟨hs, hc⟩
  · rw [if_neg hc]
    exact Triple.throw fun s hs => ⟨hs, rfl, hc⟩

/-- An error that failed input or output alone can bring about, with the folder as it was. -/
def Faulted (G : IoChoice → Prop) (P : Folder → Prop) (e : TaskOpError) (s : Folder) : Prop :=
  P s ∧ Fails G ∧ (e = .cleanRecoveryPending ∨ e = .cleanRecoveryConflict none)

theorem sourceState_faulted {name : FileName} {e : TaskOpError} (hJ : ∀ s, P s → J s)
    (he : e = .cleanRecoveryPending ∨ e = .cleanRecoveryConflict none) :
    IoTriple crates G J P (taskSourceState name e)
      (fun hash s => P s ∧ hash = Folder.digest crates s name) (Faulted G P) :=
  (taskSourceState_triple hJ).errors
    fun _ _ hs => ⟨hs.1, hs.2.2, hs.2.1 ▸ he⟩

theorem verifyBackup_triple {side : CleanSide} (hJ : ∀ s, P s → J s)
    (hbackup : ∀ s, P s → ∀ backup ∈ side.backup,
      Folder.digest crates s backup = some (side.originalHash.getD (crates.hashBytes []))) :
    IoTriple crates G J P (verifyBackup crates side) (fun _ => P) (Faulted G P) := by
  unfold verifyBackup
  cases hside : side.backup with
  | none => exact Triple.pure fun s hs => hs
  | some backup =>
    refine Triple.bind (sourceState_faulted hJ (.inr rfl)) fun found => ?_
    refine (demand_holds fun s hs => ?_).post (fun _ _ hs => hs.1)
      fun _ _ hs => hs
    rw [hs.2]
    exact hbackup s hs.1 backup hside

theorem verifyStage_triple {side : CleanSide} {reason : String} (hJ : ∀ s, P s → J s)
    (hstage : ∀ s, P s → Folder.digest crates s side.stage = some side.targetHash) :
    IoTriple crates G J P (verifyStage side reason) (fun _ => P) (Faulted G P) := by
  refine Triple.bind (sourceState_faulted hJ (.inr rfl)) fun found => ?_
  refine (demand_holds fun s hs => ?_).post (fun _ _ hs => hs.1) fun _ _ hs => hs
  rw [hs.2]
  exact hstage s hs.1

/-- A pair that is ready passes every check. -/
theorem validateCleanSide_triple {side : CleanSide} {target : FileName} (hJ : ∀ s, P s → J s)
    (hready : ∀ s, P s → Ready crates s side target) :
    IoTriple crates G J P (validateCleanSide crates side target) (fun _ => P) (Faulted G P) := by
  refine Triple.bind (sourceState_faulted hJ (.inl rfl)) fun current => ?_
  have hJ' : ∀ s, (P s ∧ current = Folder.digest crates s target) → J s := fun s hs => hJ s hs.1
  have hfault : ∀ e s, Faulted G (fun s => P s ∧ current = Folder.digest crates s target) e s →
      Faulted G P e s := fun e s hs => ⟨hs.1.1, hs.2⟩
  refine Triple.bind (demand_holds fun s hs => ?_) fun _ => ?_
  · rw [hs.2]
    exact (hready s hs.1).current
  · refine Triple.bind ((verifyBackup_triple hJ' fun s hs => (hready s hs.1).backup).errors
      hfault) fun _ => ?_
    by_cases htarget : current = some side.targetHash
    · rw [if_pos htarget]
      exact Triple.pure fun s hs => hs.1
    · rw [if_neg htarget]
      refine (verifyStage_triple hJ' fun s hs => ?_).post
        (fun _ _ hs => hs.1) hfault
      refine (hready s hs.1).staged ?_
      rw [← hs.2]
      exact htarget

theorem checkTarget_triple {side : CleanSide} {target : FileName} {reason : String}
    (hJ : ∀ s, P s → J s)
    (hdone : ∀ s, P s → Folder.digest crates s target = some side.targetHash) :
    IoTriple crates G J P (checkTarget side target reason) (fun _ => P) (Faulted G P) := by
  refine Triple.bind (sourceState_faulted hJ (.inl rfl)) fun current => ?_
  refine (demand_holds fun s hs => ?_).post (fun _ _ hs => hs.1) fun _ _ hs => hs
  rw [hs.2]
  exact hdone s hs.1

/-- A target that is done can be synced unless the sync fails. -/
theorem syncSide_triple {side : CleanSide} {target : FileName} (hJ : ∀ s, P s → J s)
    (hdone : ∀ s, P s → Folder.digest crates s target = some side.targetHash) :
    IoTriple crates G J P (syncSide side target) (fun synced s => P s ∧ (synced = false → Fails G))
      (Faulted G P) := by
  refine Triple.bind (checkTarget_triple hJ hdone) fun _ =>
    Triple.bind (sync_triple hJ) fun synced => ?_
  cases synced with
  | ok u => exact Triple.pure fun s hs => ⟨hs.1, fun h => by cases h⟩
  | error u =>
    refine Triple.pure fun s hs => ⟨hs.1, fun _ => ?_⟩
    rcases hs.2 rfl with hfails | hnone
    · exact hfails
    · have := hdone s hs.1
      rw [Folder.digest, hnone] at this
      cases this

/-- The stage takes the place of the target, once. -/
theorem replaceSide_triple {side : CleanSide} {target : FileName} {Q : Folder → Prop}
    (hJ : ∀ s, P s → J s) (hready : ∀ s, P s → Ready crates s side target)
    (hdone : ∀ s, P s → Folder.digest crates s target = some side.targetHash → Q s)
    (hrename : ∀ s, P s → Folder.digest crates s side.stage = some side.targetHash →
      Q (Folder.renamed s side.stage target)) :
    IoTriple crates G J P (replaceSide side target) (fun _ => Q) (Faulted G P) := by
  refine Triple.bind (sourceState_faulted hJ (.inl rfl)) fun current => ?_
  by_cases htarget : current = some side.targetHash
  · rw [if_pos htarget]
    refine Triple.pure fun s hs => hdone s hs.1 ?_
    rw [← hs.2, htarget]
  · rw [if_neg htarget]
    have hstage : ∀ s, (P s ∧ current = Folder.digest crates s target) →
        Folder.digest crates s side.stage = some side.targetHash := by
      intro s hs
      refine (hready s hs.1).staged ?_
      rw [← hs.2]
      exact htarget
    have horiginal : ∀ s, (P s ∧ current = Folder.digest crates s target) →
        current = side.originalHash := by
      intro s hs
      rcases (hready s hs.1).current with h | h
      · exact absurd (hs.2.trans h) htarget
      · exact hs.2.trans h
    have hJ' : ∀ s, (P s ∧ current = Folder.digest crates s target) → J s := fun s hs => hJ s hs.1
    have hfault : ∀ e s, Faulted G (fun s => P s ∧ current = Folder.digest crates s target) e s →
        Faulted G P e s := fun e s hs => ⟨hs.1.1, hs.2⟩
    refine Triple.bind (demand_holds horiginal) fun _ => ?_
    refine Triple.bind ((sourceState_faulted hJ' (.inl rfl)).errors hfault) fun again => ?_
    refine Triple.bind (demand_holds fun s hs => ?_) fun _ => ?_
    · rw [hs.2, ← hs.1.2]
      exact horiginal s hs.1
    · refine Triple.bind ((verifyStage_triple (fun s hs => hJ' s hs.1) fun s hs =>
        hstage s hs.1).post (fun _ _ hs => hs.1) fun e s hs =>
        hfault e s ⟨hs.1.1, hs.2⟩) fun _ => ?_
      refine (renameArtifact_triple hJ').post ?_ ?_
      · rintro u s ⟨s₀, content, hs, -, rfl⟩
        exact hrename s₀ hs.1 (hstage s₀ hs)
      · rintro e s ⟨hs, rfl, hfails⟩
        refine ⟨hs.1, ?_, .inl rfl⟩
        rcases hfails with hfails | hnone
        · exact hfails
        · have := hstage s hs
          rw [Folder.digest, hnone] at this
          cases this

theorem Folder.renamed_ne (fs : Folder) {source target other : FileName} (hs : other ≠ source)
    (ht : other ≠ target) : fs.renamed source target other = fs other := by
  rw [Folder.renamed, Folder.set_ne _ _ hs, Folder.set_ne _ _ ht]

theorem Folder.renamed_target (fs : Folder) {source target : FileName} (h : target ≠ source) :
    fs.renamed source target target = fs source := by
  rw [Folder.renamed, Folder.set_ne _ _ h, Folder.set_self]

theorem Ready.frame {fs fs' : Folder} {side : CleanSide} {target : FileName}
    (h : Ready crates fs side target) (ht : fs' target = fs target)
    (hs : fs' side.stage = fs side.stage) (hb : ∀ backup ∈ side.backup, fs' backup = fs backup) :
    Ready crates fs' side target := by
  have hdigest : fs'.digest crates target = fs.digest crates target := Folder.digest_congr ht
  refine ⟨?_, fun backup hmem => ?_, fun hne => ?_⟩
  · rw [hdigest]
    exact h.current
  · rw [Folder.digest_congr (hb backup hmem)]
    exact h.backup backup hmem
  · rw [hdigest] at hne
    rw [Folder.digest_congr hs]
    exact h.staged hne

/-- A target that is done needs its backup alone. -/
theorem Ready.done {fs fs' : Folder} {side : CleanSide} {target : FileName}
    (h : Ready crates fs side target) (hdone : fs'.digest crates target = some side.targetHash)
    (hb : ∀ backup ∈ side.backup, fs' backup = fs backup) : Ready crates fs' side target := by
  refine ⟨.inl hdone, fun backup hmem => ?_, fun hne => absurd hdone hne⟩
  rw [Folder.digest_congr (hb backup hmem)]
  exact h.backup backup hmem

/-- A journal that is being finished. -/
structure Mid (crates : CleanCrates) (fs₀ : Folder) (j : CleanJournal) (bytes : Bytes)
    (fs : Folder) : Prop where
  pending : Pending crates fs j bytes
  backups : KeepsBackups fs₀ fs

/-- There is no journal, and this is the pair. -/
structure Done (crates : CleanCrates) (fs₀ : Folder) (pair : Option Text × Option Text)
    (fs : Folder) : Prop where
  journal : fs .journal = none
  pair : pairDigest crates fs = pair
  backups : KeepsBackups fs₀ fs

variable {fs₀ : Folder} {j : CleanJournal} {bytes : Bytes} {pair : Option Text × Option Text}

theorem Mid.holding {fs : Folder} (h : Mid crates fs₀ j bytes fs) :
    Holding crates fs₀ j.targets fs :=
  ⟨.inr ⟨j, bytes, h.pending⟩, view_of_pending h.pending, h.backups⟩

theorem Done.holding {fs : Folder} (h : Done crates fs₀ pair fs) : Holding crates fs₀ pair fs :=
  ⟨.inl h.journal, (view_of_absent h.journal).trans h.pair, h.backups⟩

theorem mid_task {fs : Folder} (h : Mid crates fs₀ j bytes fs)
    (hstage : fs.digest crates j.task.stage = some j.task.targetHash) :
    Mid crates fs₀ j bytes (fs.renamed j.task.stage .task) ∧
      (fs.renamed j.task.stage .task).digest crates .task = some j.task.targetHash := by
  have hn := named_of_decoded h.pending.decoded
  rw [hn.taskStage] at hstage ⊢
  have hdone : (fs.renamed (.taskStage j.txId) .task).digest crates .task =
      some j.task.targetHash := by
    rw [Folder.digest, Folder.renamed_target _ (by simp)]
    exact hstage
  refine ⟨⟨⟨?_, h.pending.decoded, ?_, ?_⟩, ?_⟩, hdone⟩
  · rw [Folder.renamed_ne _ (by simp) (by simp)]
    exact h.pending.journal
  · refine h.pending.task.done hdone fun backup hmem => ?_
    rw [hn.taskBackup backup hmem]
    exact Folder.renamed_ne _ (by simp) (by simp)
  · refine h.pending.status.frame (Folder.renamed_ne _ (by simp) (by simp)) ?_ fun backup hmem => ?_
    · rw [hn.statusStage]
      exact Folder.renamed_ne _ (by simp) (by simp)
    · rw [hn.statusBackup backup hmem]
      exact Folder.renamed_ne _ (by simp) (by simp)
  · exact (h.backups.set rfl _).set rfl _

theorem mid_status {fs : Folder} (h : Mid crates fs₀ j bytes fs)
    (hstage : fs.digest crates j.status.stage = some j.status.targetHash) :
    Mid crates fs₀ j bytes (fs.renamed j.status.stage .status) ∧
      (fs.renamed j.status.stage .status).digest crates .status = some j.status.targetHash ∧
      (fs.renamed j.status.stage .status) .task = fs .task := by
  have hn := named_of_decoded h.pending.decoded
  rw [hn.statusStage] at hstage ⊢
  have hdone : (fs.renamed (.statusStage j.txId) .status).digest crates .status =
      some j.status.targetHash := by
    rw [Folder.digest, Folder.renamed_target _ (by simp)]
    exact hstage
  refine ⟨⟨⟨?_, h.pending.decoded, ?_, ?_⟩, ?_⟩, hdone, Folder.renamed_ne _ (by simp) (by simp)⟩
  · rw [Folder.renamed_ne _ (by simp) (by simp)]
    exact h.pending.journal
  · refine h.pending.task.frame (Folder.renamed_ne _ (by simp) (by simp)) ?_ fun backup hmem => ?_
    · rw [hn.taskStage]
      exact Folder.renamed_ne _ (by simp) (by simp)
    · rw [hn.taskBackup backup hmem]
      exact Folder.renamed_ne _ (by simp) (by simp)
  · refine h.pending.status.done hdone fun backup hmem => ?_
    rw [hn.statusBackup backup hmem]
    exact Folder.renamed_ne _ (by simp) (by simp)
  · exact (h.backups.set rfl _).set rfl _

/-- Both targets are done, and the journal is still there. -/
structure Replaced (crates : CleanCrates) (fs₀ : Folder) (j : CleanJournal) (bytes : Bytes)
    (fs : Folder) : Prop where
  mid : Mid crates fs₀ j bytes fs
  task : fs.digest crates .task = some j.task.targetHash
  status : fs.digest crates .status = some j.status.targetHash

/-- A file that a clean may make and take away: none of those it is about, and no backup that was
there. -/
structure Own (fs₀ : Folder) (name : FileName) : Prop where
  journal : name ≠ .journal
  task : name ≠ .task
  status : name ≠ .status
  backup : name.isBackup = true → fs₀ name = none

theorem KeepsBackups.own {fs : Folder} (h : KeepsBackups fs₀ fs) {name : FileName}
    (hown : Own fs₀ name) (content : Option Bytes) : KeepsBackups fs₀ (fs.set name content) := by
  intro other hbackup hsome
  have hne : other ≠ name := by
    intro heq
    rw [heq] at hbackup hsome
    exact hsome (hown.backup hbackup)
  rw [fs.set_ne content hne]
  exact h other hbackup hsome

theorem Done.own {fs : Folder} (h : Done crates fs₀ pair fs) {name : FileName}
    (hown : Own fs₀ name) (content : Option Bytes) :
    Done crates fs₀ pair (fs.set name content) := by
  refine ⟨?_, ?_, h.backups.own hown content⟩
  · rw [fs.set_ne _ hown.journal.symm]
    exact h.journal
  · have hpair := h.pair
    rw [pairDigest] at hpair ⊢
    rw [Folder.digest_congr (fs.set_ne content hown.task.symm), Folder.digest_congr
      (fs.set_ne content hown.status.symm), hpair]

/-- Removing the journal is what ends the clean. -/
theorem Replaced.removed {fs : Folder} (h : Replaced crates fs₀ j bytes fs) :
    Done crates fs₀ j.targets (fs.set .journal none) := by
  refine ⟨fs.set_self _ _, ?_, h.mid.backups.set rfl none⟩
  rw [pairDigest, Folder.digest_congr (fs.set_ne none (by simp)),
    Folder.digest_congr (fs.set_ne none (by simp)), h.task, h.status, CleanJournal.targets]

theorem cleanup_own_triple {name : FileName} {hash : Text} {E : TaskOpError → Folder → Prop}
    (hJ : ∀ s, Done crates fs₀ pair s → J s) (hown : Own fs₀ name) :
    IoTriple crates G J (Done crates fs₀ pair) (cleanupOwned name hash)
      (fun _ => Done crates fs₀ pair) E := by
  refine (cleanupOwned_triple hJ).post ?_ fun _ _ hs => hs
  rintro u s (hs | ⟨s₀, hs, rfl⟩)
  · exact hs
  · exact hs.own hown none

theorem own_taskStage (id : Text) : Own fs₀ (.taskStage id) :=
  ⟨by simp, by simp, by simp, by simp [FileName.isBackup]⟩

theorem own_statusStage (id : Text) : Own fs₀ (.statusStage id) :=
  ⟨by simp, by simp, by simp, by simp [FileName.isBackup]⟩

theorem own_journalStage (id : Text) : Own fs₀ (.journalStage id) :=
  ⟨by simp, by simp, by simp, by simp [FileName.isBackup]⟩

/-- Finishing a journal, wherever it stops: the pair will be what the journal says. -/
theorem finishClean_triple (hn : Named j) :
    IoTriple crates G (Holding crates fs₀ j.targets) (Mid crates fs₀ j bytes)
      (finishClean crates j bytes) (fun _ => Done crates fs₀ j.targets)
      (Faulted G (Holding crates fs₀ j.targets)) := by
  have hmid : ∀ s, Mid crates fs₀ j bytes s → Holding crates fs₀ j.targets s := fun s => Mid.holding
  have hfault : ∀ e s, Faulted G (Mid crates fs₀ j bytes) e s →
      Faulted G (Holding crates fs₀ j.targets) e s := fun e s hs => ⟨hs.1.holding, hs.2⟩
  have hreplaced : ∀ s, Replaced crates fs₀ j bytes s → Holding crates fs₀ j.targets s :=
    fun s hs => hs.mid.holding
  have hfault' : ∀ e s, Faulted G (Replaced crates fs₀ j bytes) e s →
      Faulted G (Holding crates fs₀ j.targets) e s := fun e s hs => ⟨hreplaced s hs.1, hs.2⟩
  unfold finishClean
  refine Triple.bind ((validateCleanSide_triple hmid fun s hs => hs.pending.task).errors hfault)
    fun _ => ?_
  refine Triple.bind ((validateCleanSide_triple hmid fun s hs => hs.pending.status).errors hfault)
    fun _ => ?_
  refine Triple.bind ((replaceSide_triple
    (Q := fun s => Mid crates fs₀ j bytes s ∧ Folder.digest crates s .task = some j.task.targetHash)
    hmid (fun s hs => hs.pending.task) (fun s hs hdone => ⟨hs, hdone⟩)
    fun s hs hstage => mid_task hs hstage).errors hfault)
    fun _ => ?_
  refine Triple.bind ((replaceSide_triple (Q := Replaced crates fs₀ j bytes)
    (fun s hs => hmid s hs.1) (fun s hs => hs.1.pending.status)
    (fun s hs hdone => ⟨hs.1, hs.2, hdone⟩) fun s hs hstage => ?_).errors fun e s hs =>
    hfault e s ⟨hs.1.1, hs.2⟩) fun _ => ?_
  · obtain ⟨hmid', hdone, hsame⟩ := mid_status hs.1 hstage
    refine ⟨hmid', ?_, hdone⟩
    rw [Folder.digest_congr hsame]
    exact hs.2
  refine Triple.bind ((syncSide_triple hreplaced fun s hs => hs.task).errors hfault')
    fun taskSynced => ?_
  refine Triple.bind ((syncSide_triple (fun s hs => hreplaced s hs.1)
    fun s hs => hs.1.status).errors
    fun e s hs => hfault' e s ⟨hs.1.1, hs.2⟩) fun statusSynced => ?_
  have hsynced : IoTriple crates G (Holding crates fs₀ j.targets)
      (fun s => (Replaced crates fs₀ j bytes s ∧ (taskSynced = false → Fails G)) ∧
        (statusSynced = false → Fails G))
      (demand (taskSynced = true ∧ statusSynced = true) .cleanRecoveryPending)
      (fun _ => Replaced crates fs₀ j bytes) (Faulted G (Holding crates fs₀ j.targets)) := by
    refine demand_triple.post (fun _ _ hs => hs.1.1.1) ?_
    rintro e s ⟨hs, rfl, hfalse⟩
    refine ⟨hreplaced s hs.1.1, ?_, .inl rfl⟩
    cases taskSynced with
    | false => exact hs.1.2 rfl
    | true =>
      cases statusSynced with
      | false => exact hs.2 rfl
      | true => exact absurd ⟨rfl, rfl⟩ hfalse
  refine Triple.bind hsynced fun _ => ?_
  refine Triple.bind ((checkTarget_triple hreplaced fun s hs => hs.task).errors hfault') fun _ => ?_
  refine Triple.bind ((checkTarget_triple hreplaced fun s hs => hs.status).errors hfault')
    fun _ => ?_
  refine Triple.bind ((readTaskArtifact_triple hreplaced).errors ?_) fun found => ?_
  · rintro e s ⟨hs, rfl, hfails⟩
    refine ⟨hreplaced s hs, ?_, .inl rfl⟩
    rcases hfails with hfails | hnone
    · exact hfails
    · rw [hs.mid.pending.journal] at hnone
      cases hnone
  refine Triple.bind (demand_holds fun s hs => ?_) fun _ => ?_
  · have hsome := hs.2
    rw [hs.1.mid.pending.journal] at hsome
    exact (Option.some.inj hsome).symm
  have hremove : IoTriple crates G (Holding crates fs₀ j.targets)
      (fun s => Replaced crates fs₀ j bytes s ∧ s .journal = some found)
      (removeArtifact .journal .cleanRecoveryPending) (fun _ => Done crates fs₀ j.targets)
      (Faulted G (Holding crates fs₀ j.targets)) := by
    refine (removeArtifact_triple fun s hs => hreplaced s hs.1).post ?_ ?_
    · rintro u s ⟨s₀, hs, rfl⟩
      exact hs.1.removed
    · rintro e s ⟨hs, rfl, hfails⟩
      refine ⟨hreplaced s hs.1, ?_, .inl rfl⟩
      rcases hfails with hfails | hnone
      · exact hfails
      · rw [hs.2] at hnone
        cases hnone
  refine Triple.bind hremove fun _ => ?_
  rw [hn.taskStage, hn.statusStage]
  exact Triple.bind (cleanup_own_triple (fun s => Done.holding) (own_taskStage _)) fun _ =>
    cleanup_own_triple (fun s => Done.holding) (own_statusStage _)

theorem Holding.self {fs : Folder} (h : Consistent crates fs) :
    Holding crates fs (Tasks.view crates fs) fs := ⟨h, rfl, KeepsBackups.refl fs⟩

theorem Holding.done {fs : Folder} (h : Holding crates fs₀ pair fs) (hnone : fs .journal = none) :
    Done crates fs₀ pair fs :=
  ⟨hnone, (view_of_absent hnone).symm.trans h.view, h.backups⟩

theorem Holding.pending {fs : Folder} (h : Holding crates fs₀ pair fs)
    (hsome : fs .journal = some bytes) : ∃ j, Pending crates fs j bytes := by
  rcases h.consistent with hnone | ⟨j, found, hpending⟩
  · rw [hnone] at hsome
    cases hsome
  · have hfound := hpending.journal
    rw [hsome] at hfound
    rw [Option.some.inj hfound]
    exact ⟨j, hpending⟩

/-- A recovery changes what is found next not at all, wherever it stops, and fails only where an
action does. -/
theorem recoverCleanPair_triple :
    IoTriple crates G (Holding crates fs₀ pair) (Holding crates fs₀ pair) (recoverCleanPair crates)
      (fun _ => Done crates fs₀ pair) (Faulted G (Holding crates fs₀ pair)) := by
  unfold recoverCleanPair
  refine Triple.bind (read_triple fun s hs => hs) fun read => ?_
  refine Triple.bind (orThrow_triple.errors ?_) fun found => ?_
  · rintro e s ⟨hs, rfl, hfails⟩
    exact ⟨hs, hfails, .inl rfl⟩
  · cases found with
    | none => exact Triple.pure fun s hs => hs.1.done hs.2.symm
    | some bytes =>
      refine Triple.of_pre fun s hs => ?_
      obtain ⟨j, hpending⟩ := hs.1.pending hs.2.symm
      have htargets : pair = j.targets := hs.1.view.symm.trans (view_of_pending hpending)
      have hpre : ∀ t, t = s → Mid crates fs₀ j bytes t := by
        rintro t rfl
        exact ⟨hpending, hs.1.backups⟩
      simp only [hpending.decoded]
      rw [htargets]
      refine Triple.bind (((syncArtifact_triple fun t ht => ht.holding).conseq hpre
        (fun _ _ ht => ht) ?_)) fun _ => finishClean_triple (named_of_decoded hpending.decoded)
      rintro e t ⟨ht, rfl, hfails⟩
      refine ⟨ht.holding, ?_, .inl rfl⟩
      rcases hfails with hfails | hnone
      · exact hfails
      · rw [ht.pending.journal] at hnone
        cases hnone

end AgentsCommander.Tasks
