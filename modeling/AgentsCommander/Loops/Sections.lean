import AgentsCommander.Loops.CommitSafety

/-! The sections of code that hold a lock, and the one that commits for a scan. -/
namespace AgentsCommander.Loops
open Foundation Program Protocol

namespace Station

/-- In a scan or a manual run, with what it read. -/
def scanning (reading : Option Reading) : Station := ⟨true, false, false, reading, none⟩

def withScan (σ : Station) : Station := { σ with scan := true }

def withIo (σ : Station) : Station := { σ with io := true }

def withLoop (σ : Station) : Station := { σ with loop := true }

def within (σ : Station) (n : ℕ) : Station := { σ with commit := some n }

end Station

section
variable {t : Thread} {σ : Station} {x : Choice} {s s' : System}

theorem stands_acquireScanLock {r : Act.acquireScanLock.Res} (h : Stands t σ s)
    (ha : s.act t .acquireScanLock x = some (r, s')) : Stands t σ.withScan s' := by
  obtain ⟨hw, htr⟩ := act_eq ha
  simp only [World.act] at hw
  split_ifs at hw
  obtain ⟨-, hw⟩ := Prod.mk.inj (Option.some.inj hw)
  rw [← hw] at htr
  exact ⟨by simp [← hw, Station.withScan], hw ▸ h.io, hw ▸ h.loop, htr ▸ h.snapshot,
    htr ▸ h.commit⟩

theorem stands_acquireIoLock {r : Act.acquireIoLock.Res} (h : Stands t σ s)
    (ha : s.act t .acquireIoLock x = some (r, s')) : Stands t σ.withIo s' := by
  obtain ⟨hw, htr⟩ := act_eq ha
  simp only [World.act] at hw
  split_ifs at hw
  obtain ⟨-, hw⟩ := Prod.mk.inj (Option.some.inj hw)
  rw [← hw] at htr
  exact ⟨hw ▸ h.scan, by simp [← hw, Station.withIo], hw ▸ h.loop, htr ▸ h.snapshot,
    htr ▸ h.commit⟩

theorem stands_openLoopLock {r : Act.openLoopLock.Res} (h : Stands t σ s)
    (ha : s.act t .openLoopLock x = some (r, s')) :
    post (fun (_ : Unit) => Stands t σ.withLoop) (fun (_ : IoError) => Stands t σ) r s' := by
  obtain ⟨hw, htr⟩ := act_eq ha
  simp only [World.act] at hw
  split_ifs at hw
  · obtain ⟨hr, hw⟩ := Prod.mk.inj (Option.some.inj hw)
    rw [← hr]
    rw [← hw] at htr
    exact ⟨hw ▸ h.scan, hw ▸ h.io, hw ▸ h.loop, htr ▸ h.snapshot, htr ▸ h.commit⟩
  · obtain ⟨hr, hw⟩ := Prod.mk.inj (Option.some.inj hw)
    rw [← hr]
    rw [← hw] at htr
    exact ⟨hw ▸ h.scan, hw ▸ h.io, by simp [← hw, Station.withLoop], htr ▸ h.snapshot,
      htr ▸ h.commit⟩

theorem stands_releaseScanLock {r : Act.releaseScanLock.Res} (hσ : σ.scan = false)
    (h : Stands t σ.withScan s) (ha : s.act t .releaseScanLock x = some (r, s')) :
    Stands t σ s' := by
  obtain ⟨hw, htr⟩ := act_eq ha
  obtain ⟨-, hw⟩ := Prod.mk.inj (Option.some.inj hw)
  rw [if_pos (h.scan.mpr rfl)] at hw
  rw [← hw] at htr
  exact ⟨by simp [← hw, hσ], hw ▸ h.io, hw ▸ h.loop, htr ▸ h.snapshot, htr ▸ h.commit⟩

theorem stands_releaseIoLock {r : Act.releaseIoLock.Res} (hσ : σ.io = false)
    (h : Stands t σ.withIo s) (ha : s.act t .releaseIoLock x = some (r, s')) :
    Stands t σ s' := by
  obtain ⟨hw, htr⟩ := act_eq ha
  obtain ⟨-, hw⟩ := Prod.mk.inj (Option.some.inj hw)
  rw [if_pos (h.io.mpr rfl)] at hw
  rw [← hw] at htr
  exact ⟨hw ▸ h.scan, by simp [← hw, hσ], hw ▸ h.loop, htr ▸ h.snapshot, htr ▸ h.commit⟩

theorem stands_releaseLoopLock {r : Act.releaseLoopLock.Res} (hσ : σ.loop = false)
    (h : Stands t σ.withLoop s) (ha : s.act t .releaseLoopLock x = some (r, s')) :
    Stands t σ s' := by
  obtain ⟨hw, htr⟩ := act_eq ha
  obtain ⟨-, hw⟩ := Prod.mk.inj (Option.some.inj hw)
  rw [if_pos (h.loop.mpr rfl)] at hw
  rw [← hw] at htr
  exact ⟨hw ▸ h.scan, hw ▸ h.io, by simp [← hw, hσ], htr ▸ h.snapshot, htr ▸ h.commit⟩

/-- The number a commit section gets is new, and the Loop it finds is recorded. -/
theorem stands_commitEntered {r : (Act.note .commitEntered).Res} (h : Stands t σ s)
    (ha : s.act t (.note .commitEntered) x = some (r, s')) :
    Stands t (σ.within s.trace.entered) s' ∧
      .entered s.trace.entered σ.snapshot s'.world.reading ∈ s'.trace.history := by
  obtain ⟨hw, htr⟩ := act_eq ha
  have hworld : s'.world = s.world := (world_eq hw).symm
  rw [Trace.observe_note, hworld, keepUndisturbed_same] at htr
  refine ⟨⟨hworld ▸ h.scan, hworld ▸ h.io, hworld ▸ h.loop, htr ▸ h.snapshot, ?_⟩, ?_⟩
  · rw [htr]
    exact Function.update_self ..
  · rw [htr, hworld, ← h.snapshot]
    exact List.mem_cons_self

theorem stands_commitLeft {n : ℕ} {r : (Act.note .commitLeft).Res} (hσ : σ.commit = none)
    (h : Stands t (σ.within n) s) (ha : s.act t (.note .commitLeft) x = some (r, s')) :
    Stands t σ s' := by
  obtain ⟨hw, htr⟩ := act_eq ha
  have hworld : s'.world = s.world := (world_eq hw).symm
  rw [Trace.observe_note, hworld, keepUndisturbed_same] at htr
  refine ⟨hworld ▸ h.scan, hworld ▸ h.io, hworld ▸ h.loop, htr ▸ h.snapshot, ?_⟩
  rw [htr, hσ]
  exact Function.update_self ..

end

/-- Actions that take or give back a lock, and the marks of a section. -/
def Act.sectional : Act → Bool
  | .acquireScanLock | .releaseScanLock | .acquireIoLock | .releaseIoLock | .openLoopLock
  | .releaseLoopLock | .note (.snapshot _ _) | .note .commitEntered | .note .commitLeft => true
  | _ => false

theorem not_delivering_of_sectional {o : Act} (ho : o.sectional = true) : o.delivering = false := by
  cases o with
  | note n => cases n <;> first | rfl | exact absurd ho Bool.false_ne_true
  | _ => first | rfl | exact absurd ho Bool.false_ne_true

section
variable {crates : Crates} {place : Place} {strict : Prop} {t : Thread} {σ : Station} {n : ℕ}
variable {A B : System → Prop} {α : Type}

theorem allowed_of_sectional {o : Act} {s : System} (ho : o.sectional = true)
    (happ : o = .acquireScanLock ∨ o = .acquireIoLock → t.isApp = true) :
    LoopAllowed crates strict t o s where
  commit := by
    refine ⟨⟨?_, ?_, ?_, ?_, fun h => happ (.inl h), fun h => happ (.inr h)⟩, ?_, ?_⟩
    · intro h
      cases o <;> first | exact absurd ho Bool.false_ne_true | exact absurd h Bool.false_ne_true
    · rintro rfl
      exact absurd ho Bool.false_ne_true
    · intro h
      cases o <;> first | exact absurd ho Bool.false_ne_true | exact absurd h Bool.false_ne_true
    · intro h
      cases o with
      | note n => cases n <;> first
        | exact absurd ho Bool.false_ne_true
        | exact absurd h Bool.false_ne_true
      | _ => exact absurd h Bool.false_ne_true
    · rintro f bytes rfl
      exact absurd ho Bool.false_ne_true
    · rintro entry rfl
      exact absurd ho Bool.false_ne_true
  delivery _ := deliveryAllowed_of_other s (not_delivering_of_sectional ho)

/-- One action at the border of a section. -/
theorem safely_sectional {o : Act} {C : o.Res → System → Prop} (hA : Durable t σ.scan A)
    (ho : o.sectional = true) (happ : o = .acquireScanLock ∨ o = .acquireIoLock → t.isApp = true)
    (hC : ∀ s x r s', At t σ A s → A s' → s.act t o x = some (r, s') → C r s') :
    Safely crates place strict t (At t σ A) (call o) C :=
  Triple.call (enduring_at hA).kept.1 (fun _ _ _ => allowed_of_sectional ho happ)
    fun s x r s' _ h _ hact => hC s x r s' h
      (hA.onward s s' (onward_of_act (not_delivering_of_sectional ho) hact) h.holds) hact

theorem safely_acquireLoopLock (hA : Durable t σ.scan A) (id : String) :
    Safely crates place strict t (At t σ A) (acquireLoopLock id).run
      (post (fun _ => At t σ.withLoop A) fun _ => At t σ A) := by
  have hk : (loopProtocol crates place strict).Kept t Light _ := (enduring_at hA).kept
  have hk' : (loopProtocol crates place strict).Kept t Light _ :=
    (enduring_at (σ := σ.withLoop) hA).kept
  refine Triple.except_bind (Triple.uses_except hk (uses_ofExcept _)) (fun _ => ?_) fun _ _ _ h => h
  refine Triple.except_bind (Triple.uses_except hk (uses_attempt (uses_call rfl))) (fun _ => ?_)
    fun _ _ _ h => h
  have hopen : Safely crates place strict t (At t σ A) (call .openLoopLock)
      (post (fun (_ : Unit) => At t σ.withLoop A) fun (_ : IoError) => At t σ A) := by
    refine safely_sectional hA rfl nofun fun s x r s' h hA' hact => ?_
    have hs := stands_openLoopLock h.stands hact
    cases r with
    | ok u => exact ⟨hs, hA'⟩
    | error e => exact ⟨hs, hA'⟩
  refine Triple.except_bind (triple_attempt hopen) (fun _ => ?_) fun _ _ _ h => h
  refine Triple.except_bind (Triple.lift (E := fun (_ : String) => At t σ A)
    (Triple.uses hk' uses_isDir)) (fun exist => ?_) fun _ _ _ h => h
  split_ifs
  · exact Triple.lift (safely_disk hA rfl rfl (fun _ _ => Act.noConfusion) fun _ => Act.noConfusion)
  · exact Triple.done (a := Except.ok ()) fun _ _ h => h

/-- A section under the Loop lock, which may not be had. -/
theorem safely_withLoopLock {id : String} {body : LoopM α} {τ : Except String α → Station}
    {C : Except String α → System → Prop} (hA : Durable t σ.scan A)
    (hτ : ∀ r, (τ r).loop = false) (hC : ∀ r, Durable t (τ r).scan (C r))
    (he : ∀ e, τ (.error e) = σ ∧ ∀ s, A s → C (.error e) s)
    (hbody : Safely crates place strict t (At t σ.withLoop A) body.run
      fun r => At t (τ r).withLoop (C r)) :
    Safely crates place strict t (At t σ A) (withLoopLock id body).run fun r => At t (τ r) (C r) := by
  refine Triple.bind (safely_acquireLoopLock hA id) fun r => ?_
  cases r with
  | error e =>
    exact Triple.done (a := Except.error e) fun s _ h =>
      ⟨(he e).1.symm ▸ h.stands, (he e).2 s h.holds⟩
  | ok u =>
    refine Triple.bind hbody fun r => ?_
    refine Triple.bind (B := fun _ => At t (τ r) (C r))
      (safely_sectional (σ := (τ r).withLoop) (hC r) rfl nofun fun s x u s' h hC' hact => ?_)
      fun _ => Triple.done (a := r) fun _ _ h => h
    exact ⟨stands_releaseLoopLock (hτ r) h.stands hact, hC'⟩

/-- A section under the I/O lock. -/
theorem safely_withIoLock {p : LoopProgram α} {τ : α → Station} {C : α → System → Prop}
    (happ : t.isApp = true) (hσ : ∀ r, (τ r).io = false) (hA : Durable t σ.scan A)
    (hC : ∀ r, Durable t (τ r).scan (C r))
    (hp : Safely crates place strict t (At t σ.withIo A) p fun r => At t (τ r).withIo (C r)) :
    Safely crates place strict t (At t σ A) (withIoLock p) fun r => At t (τ r) (C r) := by
  refine Triple.bind (B := fun _ => At t σ.withIo A) (safely_sectional hA rfl (fun _ => happ)
    fun s x r s' h hA' hact => ⟨stands_acquireIoLock h.stands hact, hA'⟩) fun _ => ?_
  refine Triple.bind hp fun r => ?_
  refine Triple.bind (B := fun _ => At t (τ r) (C r))
    (safely_sectional (σ := (τ r).withIo) (hC r) rfl nofun fun s x u s' h hC' hact => ?_)
    fun _ => Triple.done (a := r) fun _ _ h => h
  exact ⟨stands_releaseIoLock (hσ r) h.stands hact, hC'⟩

/-- A scan or a manual run, from where the thread holds no lock to where it holds none. -/
theorem safely_withScanLock {p : LoopProgram α} (happ : t.isApp = true)
    (hp : ∀ m, Safely crates place strict t (At t (.scanning m) fun _ => True) p
      fun _ s => ∃ m, Stands t (.scanning m) s) :
    Safely crates place strict t (AtRest t) (withScanLock p) fun _ => AtRest t := by
  refine Triple.named (fun s : System => s.trace.snapshot t) fun m => ?_
  have hrest : ∀ s : System, AtRest t s ∧ s.trace.snapshot t = m →
      At t ⟨false, false, false, m, none⟩ (fun _ => True) s := fun s h =>
    ⟨⟨by simp [h.1.scan], by simp [h.1.io], by simp [h.1.loop], h.2, h.1.commit⟩, trivial⟩
  refine Triple.conseq (A := At t ⟨false, false, false, m, none⟩ fun _ => True) ?_
    (fun s _ h => hrest s h) fun _ _ h => h
  refine Triple.bind (B := fun _ => At t (.scanning m) fun _ => True)
    (safely_sectional (durable_true t false) rfl (fun _ => happ)
      fun s x r s' h _ hact => ⟨stands_acquireScanLock h.stands hact, trivial⟩) fun _ => ?_
  refine Triple.bind (hp m) fun r => ?_
  rintro s hi ⟨m', h⟩
  have hrelease : Safely crates place strict t (At t (.scanning m') fun _ => True)
      (call .releaseScanLock) fun _ => AtRest t := by
    refine safely_sectional (durable_true t true) rfl nofun fun s x u s' h _ hact => ?_
    have hs := stands_releaseScanLock (σ := ⟨false, false, false, m', none⟩) rfl h.stands hact
    exact ⟨by simp [hs.scan], by simp [hs.io], by simp [hs.loop], hs.commit⟩
  exact Triple.bind hrelease (fun _ => Triple.done (a := r) fun _ _ h => h) s hi ⟨h, trivial⟩

/-- In a commit section, before the Loop is compared. -/
structure Entered (t : Thread) (n : ℕ) (σ : Station) (A : System → Prop) (s : System) :
    Prop extends At t σ A s where
  entered : .entered n σ.snapshot s.world.reading ∈ s.trace.history

theorem enduring_entered (hσ : σ.Inside n) (hA : Durable t σ.scan A) :
    Enduring t (Entered t n σ A) where
  rely s s' hr h := ⟨(enduring_at hA).rely s s' hr h.toAt,
    reading_of_rely hσ h.stands hr ▸ hr.trace.history.subset h.entered⟩
  still s s' hs h := ⟨(enduring_at hA).still s s' hs h.toAt,
    hs.world ▸ hs.history.subset h.entered⟩

/-- Finding the Loop fresh means finding what the scan read. -/
theorem safely_scanWriteIsFresh {g : ℕ} {raw : Option Bytes} (hσ : σ.Inside n)
    (hread : σ.snapshot = some (g, raw)) (hA : Durable t σ.scan A) :
    Safely crates place strict t (Entered t n σ A) (scanWriteIsFresh g raw).run
      (post (fun fresh s => if fresh then Committing t n σ A s else At t σ A s)
        fun _ => At t σ A) := by
  have he := enduring_entered hσ hA
  refine Triple.except_bind (B := fun r (s : System) => Entered t n σ A s ∧ s.world.generation = r)
    (Triple.lift (E := fun (_ : String) => At t σ A) ?_) (fun r => ?_) fun _ _ _ h => h
  · refine (triple_call he.kept (o := .loopGeneration) rfl).conseq (fun _ _ h => h) fun r s h => ?_
    obtain ⟨h, x, hact⟩ := h
    exact ⟨h, (Prod.mk.inj (Option.some.inj hact)).1⟩
  by_cases hg : r = g
  · subst hg
    rw [if_neg fun h => h rfl]
    refine Triple.named (fun s : System => s.world.disk) fun d => ?_
    have hgen : Enduring t fun s : System => Entered t n σ A s ∧ s.world.generation = r :=
      ⟨fun s s' hr h => ⟨he.rely s s' hr h.1,
        (hr.generation (h.1.stands.io.mpr hσ.io)).trans h.2⟩,
        fun s s' hs h => ⟨he.still s s' hs h.1, hs.world ▸ h.2⟩⟩
    have hd := hgen.frozen (fun s h => h.1.stands.loop.mpr hσ.loop) d
    refine Triple.except_bind (triple_readRawLoopState hd.kept) (fun raw' => ?_)
      fun _ _ _ h => h.1.1.toAt
    refine Triple.done (a := Except.ok (decide (raw' = raw))) fun s _ h => ?_
    obtain ⟨⟨⟨hent, hg⟩, hdisk⟩, hraw⟩ := h
    by_cases hr : raw' = raw
    · subst hr
      have hreading : s.world.reading = (r, raw') := by
        simp only [World.reading, World.raw, hg, hdisk, hraw]
      refine (if_pos (decide_eq_true rfl)).mpr ⟨hent.toAt, hreading ▸ hread, ?_⟩
      have hin := hent.entered
      rw [hread, hreading] at hin
      rw [hreading]
      exact hin
    · exact (if_neg (by simp [hr])).mpr hent.toAt
  · rw [if_pos hg]
    exact Triple.done (a := Except.ok false) fun _ _ h => h.1.toAt

theorem safely_markCommit {body : LoopM α} {C : Except String α → System → Prop}
    (hσ : σ.commit = none) (hA : Durable t σ.scan A) (hC : ∀ r, Durable t σ.scan (C r))
    (hbody : ∀ n, Safely crates place strict t (Entered t n (σ.within n) A) body.run
      fun r => At t (σ.within n) (C r)) :
    Safely crates place strict t (At t σ A) (markCommit body).run fun r => At t σ (C r) := by
  refine Triple.bind (B := fun _ s => ∃ n, Entered t n (σ.within n) A s)
    (safely_sectional (o := .note .commitEntered) hA rfl nofun fun s x r s' h hA' hact => ?_)
    fun _ => ?_
  · obtain ⟨hs, hent⟩ := stands_commitEntered h.stands hact
    exact ⟨_, ⟨hs, hA'⟩, hent⟩
  · rintro s hi ⟨n, h⟩
    refine Triple.bind (hbody n) (fun r => ?_) s hi h
    refine Triple.bind (B := fun _ => At t σ (C r))
      (safely_sectional (σ := σ.within n) (o := .note .commitLeft) (hC r) rfl nofun
        fun s x u s' h hC' hact => ⟨stands_commitLeft hσ h.stands hact, hC'⟩)
      fun _ => Triple.done (a := r) fun _ _ h => h

/-- What is known after a commit: where the state was written, nothing is owed. -/
def committed (A : System → Prop) : Except String LoopStateWrite → System → Prop
  | .ok .written => fun s => A s ∧ Paid s
  | _ => A

theorem durable_and (hA : Durable t true A) (hB : Durable t true B) :
    Durable t true fun s => A s ∧ B s :=
  ⟨fun s s' ho h => ⟨hA.onward s s' ho h.1, hB.onward s s' ho h.2⟩,
    fun s s' hl hr h => ⟨hA.rely s s' hl hr h.1, hB.rely s s' hl hr h.2⟩⟩

theorem durable_committed (hA : Durable t true A) (r : Except String LoopStateWrite) :
    Durable t true (committed A r) := by
  match r with
  | .ok .written => exact durable_and hA durable_paid
  | .ok .stale => exact hA
  | .error e => exact hA

/-- What the commit of a scan does once nothing is left to check but the file. -/
def guardedScanWrite (crates : Crates) (state : LoopState) (raw : Option Bytes)
    (audit : Option LoopAuditEntry) : LoopM LoopStateWrite := do
  if (← guardedStateWrite crates state raw) = .stale then return .stale
  if let some entry := audit then auditAfterWrite crates entry
  return .written

/-- The commit of a scan: the state and its row, or neither. -/
theorem safely_commitScanSectionChecked {g : ℕ} {raw : Option Bytes} (hA : Durable t true A)
    (audit : Option LoopAuditEntry) (state : LoopState) (config : Option LoopConfigToml) :
    Safely crates place strict t (At t (Station.scanning (some (g, raw))).withIo A)
      (commitScanSectionChecked crates place g raw audit state config).run
      fun r => At t (Station.scanning (some (g, raw))).withIo (committed A r) := by
  refine safely_withLoopLock (τ := fun _ => (Station.scanning (some (g, raw))).withIo) hA
    (fun _ => rfl) (durable_committed hA) (fun e => ⟨rfl, fun _ h => h⟩) ?_
  refine safely_markCommit rfl hA (durable_committed hA) fun n => ?_
  generalize hσ : ((Station.scanning (some (g, raw))).withIo.withLoop.within n) = σ
  have hin : σ.Inside n := hσ ▸ ⟨rfl, rfl, rfl⟩
  have hscan : σ.scan = true := hσ ▸ rfl
  have hA' : Durable t σ.scan A := hscan ▸ hA
  have hpaid : Durable t σ.scan fun s => A s ∧ Paid s := hscan ▸ durable_and hA durable_paid
  have hc : (loopProtocol crates place strict).Kept t Light _ := (enduring_committing hin hA').kept
  refine Triple.except_bind (safely_scanWriteIsFresh hin (hσ ▸ rfl) hA') (fun fresh => ?_)
    fun _ _ _ h => h
  cases fresh with
  | false => exact Triple.done (a := Except.ok LoopStateWrite.stale) fun _ _ h => h
  | true =>
    have hwrite : Safely crates place strict t (Committing t n σ A)
        (guardedScanWrite crates state raw audit).run fun r => At t σ (committed A r) := by
      refine Triple.except_bind (safely_guardedStateWrite (B := WroteState t n σ fun s => A s ∧ Paid s)
        (enduring_committing hin hA') (fun s h => h.stands.loop.mpr hin.loop)
        (fun s h => h.writes hin) (fun f s bytes x s' hf h ha => h.wrote hin hA' hf ha) raw)
        (fun outcome => ?_) fun _ _ _ h => h.toAt
      cases outcome with
      | stale => exact Triple.done (a := Except.ok LoopStateWrite.stale) fun _ _ h => h.toAt
      | written =>
        cases audit with
        | none =>
          exact Triple.done (a := Except.ok LoopStateWrite.written) fun _ _ h => h.toAt
        | some entry =>
          refine Triple.except_bind (safely_auditAfterWrite hin hpaid) (fun _ => ?_)
            fun _ _ _ h => ⟨h.stands, h.holds.1⟩
          exact Triple.done (a := Except.ok LoopStateWrite.written) fun _ _ h => h
    cases config with
    | none => exact hwrite
    | some config =>
      refine Triple.except_bind (Triple.uses_except hc (uses_revalidateLoopCurrent crates config))
        (fun found => ?_) fun _ _ _ h => h.toAt
      split_ifs
      · exact Triple.done (a := Except.ok LoopStateWrite.stale) fun _ _ h => h.toAt
      · exact hwrite

end
end AgentsCommander.Loops
