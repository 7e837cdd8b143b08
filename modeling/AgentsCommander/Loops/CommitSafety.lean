import AgentsCommander.Loops.Stations

/-! Every program of the Loop's threads is safe for the commits. -/
namespace AgentsCommander.Loops
open Foundation Program Protocol

/-- Neither what the others do nor light actions end the assertion. -/
structure Enduring (t : Thread) (A : System → Prop) : Prop where
  rely : ∀ s s', Rely t s s' → A s → A s'
  still : ∀ s s', Still t s s' → A s → A s'

theorem enduring_stands (t : Thread) (σ : Station) : Enduring t (Stands t σ) :=
  ⟨fun _ _ hr h => h.rely hr, fun _ _ hs h => h.still hs⟩

theorem Enduring.frozen {t : Thread} {A : System → Prop} (h : Enduring t A)
    (hl : ∀ s, A s → s.world.loopLock = some t) (d : Option LoopDirectory) :
    Enduring t fun s => A s ∧ s.world.disk = d where
  rely s s' hr hA := ⟨h.rely s s' hr hA.1, (hr.disk (hl s hA.1)).trans hA.2⟩
  still s s' hs hA := ⟨h.still s s' hs hA.1, hs.world ▸ hA.2⟩

theorem allowed_of_light {crates : Crates} {strict : Prop} {t : Thread} {o : Act} (ho : Light o)
    (s : System) : LoopAllowed crates strict t o s where
  commit := by
    refine ⟨disciplined_of_light ho t s.world, fun f bytes h => ?_, fun entry h => ?_⟩ <;>
    · subst h
      exact absurd ho Bool.false_ne_true
  delivery _ := by
    constructor
    · rintro record rfl
      exact absurd ho Bool.false_ne_true
    · rintro rfl
      exact absurd ho Bool.false_ne_true
    · rintro config run due rfl
      exact absurd ho Bool.false_ne_true
    · rintro u config generation raw - - - rfl
      exact absurd ho Bool.false_ne_true

/-- An action that is none of those on deliveries. -/
theorem deliveryAllowed_of_other {crates : Crates} {t : Thread} {o : Act} (s : System)
    (ho : o.delivering = false) : DeliveryAllowed crates t o s := by
  constructor
  · rintro record rfl
    exact absurd ho.symm Bool.false_ne_true
  · rintro rfl
    exact absurd ho.symm Bool.false_ne_true
  · rintro config run due rfl
    exact absurd ho.symm Bool.false_ne_true
  · rintro u config generation raw - - - rfl
    exact absurd ho.symm Bool.false_ne_true

theorem disciplined_of_disk {t : Thread} {o : Act} {w : World} (hl : w.loopLock = some t)
    (ho : o.changesDisk = true) : Disciplined t o w := by
  refine ⟨fun _ => hl, ?_, ?_, ?_, ?_, ?_⟩ <;> intro h <;> cases o <;> first
    | exact absurd ho Bool.false_ne_true
    | exact absurd h Bool.false_ne_true
    | exact Act.noConfusion h

theorem not_delivering_of_disk {o : Act} (ho : o.changesDisk = true) : o.delivering = false := by
  cases o <;> first | rfl | exact absurd ho Bool.false_ne_true

/-- A change of the directory that is neither the state's nor the audit log's. -/
theorem allowed_of_disk {crates : Crates} {strict : Prop} {t : Thread} {o : Act} {s : System}
    (hl : s.world.loopLock = some t) (ho : o.changesDisk = true)
    (hr : ∀ f bytes, o = .replace f bytes → f = .config)
    (ha : ∀ entry, o ≠ .appendLine entry) : LoopAllowed crates strict t o s where
  commit := ⟨disciplined_of_disk hl ho, fun f bytes h hf => absurd (hr f bytes h) hf,
    fun entry h => absurd h (ha entry)⟩
  delivery _ := deliveryAllowed_of_other s (not_delivering_of_disk ho)

/-- What is known of the deliveries outlasts what the thread does besides, and what the
others do. -/
structure Durable (t : Thread) (scan : Bool) (A : System → Prop) : Prop where
  onward : ∀ s s', Onward t s s' → A s → A s'
  rely : ∀ s s', (s.world.scanLock = some t ↔ scan = true) → Rely t s s' → A s → A s'

theorem durable_of_onward {t : Thread} {A : System → Prop}
    (h : ∀ s s', Onward t s s' → A s → A s') : Durable t true A :=
  ⟨h, fun s s' hl hr => h s s' (hr.onward (hl.mpr rfl))⟩

theorem durable_true (t : Thread) (scan : Bool) : Durable t scan fun _ => True :=
  ⟨fun _ _ _ _ => trivial, fun _ _ _ _ _ => trivial⟩

/-- Where the thread stands, and what it knows there. -/
structure At (t : Thread) (σ : Station) (A : System → Prop) (s : System) : Prop where
  stands : Stands t σ s
  holds : A s

theorem enduring_at {t : Thread} {σ : Station} {A : System → Prop} (hA : Durable t σ.scan A) :
    Enduring t (At t σ A) where
  rely s s' hr h := ⟨h.stands.rely hr, hA.rely s s' h.stands.scan hr h.holds⟩
  still s s' hs h := ⟨h.stands.still hs, hA.onward s s' hs.onward h.holds⟩

section
variable {crates : Crates} {place : Place} {strict : Prop} {t : Thread} {σ : Station} {n : ℕ}
variable {A B : System → Prop} {α : Type}

/-- The program is safe from the one assertion to the other. -/
abbrev Safely (crates : Crates) (place : Place) (strict : Prop) (t : Thread) (A : System → Prop)
    (p : LoopProgram α) (B : α → System → Prop) : Prop :=
  (loopProtocol crates place strict).Triple t A p B

theorem Enduring.kept (h : Enduring t A) : (loopProtocol crates place strict).Kept t Light A :=
  ⟨fun s s' _ _ hr => h.rely s s' hr, fun _ ho s _ hA =>
    ⟨allowed_of_light ho s, fun _ _ s' _ hact => h.still s s' (still_of_light ho hact) hA⟩⟩

/-- One change of the directory, of a thread that stands under the Loop lock. -/
theorem safely_disk {o : Act} (hA : Durable t σ.scan A) (hσ : σ.loop = true)
    (ho : o.changesDisk = true) (hr : ∀ f bytes, o = .replace f bytes → f = .config)
    (ha : ∀ entry, o ≠ .appendLine entry) :
    Safely crates place strict t (At t σ A) (call o) fun _ => At t σ A :=
  Triple.call (enduring_at hA).kept.1
    (fun _ _ h => allowed_of_disk (h.stands.loop.mpr hσ) ho hr ha) fun s _ _ s' _ h _ hact =>
      ⟨h.stands.disk ho hact, hA.onward s s' (onward_of_act (not_delivering_of_disk ho) hact)
        h.holds⟩

theorem still_of_refused {f : LoopFile} {bytes : Bytes} {x : Choice} {e : IoError}
    {s s' : System} (h : s.act t (.replace f bytes) x = some (.error e, s')) : Still t s s' := by
  obtain ⟨hw, htr⟩ := act_eq h
  have hworld : s'.world = s.world := by
    have hact : s.world.change x (·.put bytes f) = (.error e, s'.world) := Option.some.inj hw
    obtain hc | ⟨d, -, hc⟩ := change_world s.world x (·.put bytes f)
    · rw [hact] at hc
      exact hc
    · rw [hact] at hc
      exact absurd (Prod.mk.inj hc).1 nofun
  have hsame : s'.trace = s.trace := by
    rw [htr, hworld]
    have hkeep := keepUndisturbed_same s.trace s.world
    cases f <;> exact hkeep
  exact ⟨hworld, hsame ▸ rfl, hsame ▸ rfl, hsame ▸ rfl, hsame ▸ rfl, hsame ▸ rfl,
    hsame ▸ List.suffix_refl _⟩

/-- The state is replaced, or it stays and so does the assertion. -/
theorem safely_replace {f : LoopFile} {bytes : Bytes} (hA : Enduring t A)
    (hl : ∀ s, A s → s.world.loopLock = some t) (hw : ∀ s, A s → Writes t s)
    (hB : ∀ s x s', A s → s.act t (.replace f bytes) x = some (.ok (), s') → B s') :
    Safely crates place strict t A (call (.replace f bytes))
      (post (fun (_ : Unit) => B) fun (_ : IoError) => A) := by
  refine Triple.call hA.kept.1 (fun s _ h => ?_) fun s x r s' _ h _ hact => ?_
  · exact ⟨⟨disciplined_of_disk (hl s h) rfl, fun _ _ _ _ => hw s h, fun _ => Act.noConfusion⟩,
      fun _ => deliveryAllowed_of_other s rfl⟩
  · cases r with
    | ok u => exact hB s x s' h hact
    | error e => exact hA.still s s' (still_of_refused hact) h

variable {path : LoopFile} {state : LoopState}

theorem safely_writeLoopStateAtomicAt (hA : Enduring t A)
    (hl : ∀ s, A s → s.world.loopLock = some t) (hw : ∀ s, A s → Writes t s)
    (hB : ∀ s bytes x s', A s → s.act t (.replace path bytes) x = some (.ok (), s') → B s') :
    Safely crates place strict t A (writeLoopStateAtomicAt crates path state).run
      (post (fun _ => B) fun _ => A) := by
  refine Triple.except_bind (Triple.uses_except hA.kept uses_ensureLoopConfigPresent)
    (fun _ => ?_) fun _ _ _ h => h
  refine Triple.except_bind (Triple.uses_except hA.kept (uses_ofExcept _))
    (fun content => ?_) fun _ _ _ h => h
  refine Triple.except_bind (Triple.uses_except hA.kept (uses_attempt (uses_call rfl)))
    (fun _ => ?_) fun _ _ _ h => h
  exact triple_attempt (safely_replace hA hl hw fun s x s' h => hB s content x s' h)

theorem stateName_ne_config (d : Option LoopDirectory) : stateName d ≠ .config := by
  unfold stateName
  split_ifs <;> exact LoopFile.noConfusion

section
variable (hA : Enduring t A) (hl : ∀ s, A s → s.world.loopLock = some t)
variable (hw : ∀ s, A s → Writes t s)
variable (hB : ∀ f s bytes x s', f ≠ .config → A s →
  s.act t (.replace f bytes) x = some (.ok (), s') → B s')
include hA hl hw hB

theorem safely_writeLoopStateAtomic :
    Safely crates place strict t A (writeLoopStateAtomic crates state).run
      (post (fun _ => B) fun _ => A) := by
  refine Triple.named (fun s : System => s.world.disk) fun d => ?_
  have hd := hA.frozen hl d
  refine Triple.except_bind
    (Triple.lift (E := fun (_ : String) => A) (triple_resolvedLoopStatePath hd.kept))
    (fun path => ?_) fun _ _ _ h => h
  rintro s hi ⟨h, rfl⟩
  exact safely_writeLoopStateAtomicAt hA hl hw
    (fun s bytes x s' => hB _ s bytes x s' (stateName_ne_config d)) s hi h.1

/-- What is known after a guarded write. -/
def afterWrite (A B : System → Prop) : LoopStateWrite → System → Prop
  | .written => B
  | .stale => A

theorem safely_writeLoopStateIfUnchanged (expected : Option Bytes) :
    Safely crates place strict t A (writeLoopStateIfUnchanged crates state expected).run
      (post (afterWrite A B) fun _ => A) := by
  refine Triple.named (fun s : System => s.world.disk) fun d => ?_
  have hd := hA.frozen hl d
  refine Triple.except_bind
    (Triple.lift (E := fun (_ : String) => A) (triple_resolvedLoopStatePath hd.kept))
    (fun path => ?_) fun _ _ _ h => h
  rintro s hi ⟨h, rfl⟩
  refine Triple.except_bind (G := loopProtocol crates place strict)
    (Triple.uses_except hA.kept (uses_currentRaw _ uses_readDocument)) (fun raw => ?_)
    (fun _ _ _ h => h) s hi h.1
  split_ifs
  · exact Triple.done (a := Except.ok LoopStateWrite.stale) fun _ _ h => h
  · refine Triple.except_bind
      (safely_writeLoopStateAtomicAt hA hl hw
        fun s bytes x s' => hB _ s bytes x s' (stateName_ne_config d))
      (fun _ => ?_) fun _ _ _ h => h
    exact Triple.done (a := Except.ok LoopStateWrite.written) fun _ _ h => h

theorem safely_guardedStateWrite (s0Raw : Option Bytes) :
    Safely crates place strict t A (guardedStateWrite crates state s0Raw).run
      (post (afterWrite A B) fun _ => A) := by
  refine Triple.except_bind (Triple.uses_except hA.kept (uses_readLoopConfigIfPresent crates))
    (fun config => ?_) fun _ _ _ h => h
  split_ifs
  · exact Triple.done (a := Except.ok LoopStateWrite.stale) fun _ _ h => h
  cases s0Raw with
  | none => exact safely_writeLoopStateIfUnchanged hA hl hw hB none
  | some bytes =>
    dsimp only
    split_ifs
    · exact safely_writeLoopStateIfUnchanged hA hl hw hB (some bytes)
    refine Triple.except_bind (Triple.uses_except hA.kept uses_readRawLoopState)
      (fun raw => ?_) fun _ _ _ h => h
    split_ifs
    · exact Triple.done (a := Except.ok LoopStateWrite.stale) fun _ _ h => h
    · refine Triple.except_bind (safely_writeLoopStateAtomic hA hl hw hB)
        (fun _ => ?_) fun _ _ _ h => h
      exact Triple.done (a := Except.ok LoopStateWrite.written) fun _ _ h => h

end
/-- Every outstanding delivery has its state on disk. -/
def Paid (s : System) : Prop := ∀ d ∈ s.trace.outstanding, s.world.raw = d.after

theorem durable_paid : Durable t true Paid :=
  durable_of_onward fun s s' ho h d hd => by
    have hl := ho.lasting d hd
    exact hl.raw.elim (fun hr => hr.trans (h d hl.mem)) id

theorem paid_of_write {o : Act} {r : o.Res} {bytes : Bytes} {x : Choice} {s s' : System}
    (ho : o.reports = false) (hw : stateWrite o r = some bytes)
    (h : s.act t o x = some (r, s')) : Paid s' := by
  intro d hd
  rw [(act_eq h).2, Trace.observe, Trace.outstanding_record _ _ _ _ _ ho, hw] at hd
  have hu := (List.mem_filter.mp hd).2
  simp only [Delivery.undisturbed, Bool.and_eq_true, beq_iff_eq] at hu
  exact hu.2.2.trans hu.2.1.symm

theorem paid_of_replace {f : LoopFile} {bytes : Bytes} {x : Choice} {s s' : System}
    (hf : f ≠ .config) (h : s.act t (.replace f bytes) x = some (.ok (), s')) : Paid s' := by
  cases f with
  | config => exact absurd rfl hf
  | state => exact paid_of_write (o := .replace .state bytes) rfl rfl h
  | legacyState => exact paid_of_write (o := .replace .legacyState bytes) rfl rfl h

/-- In a commit section, with the Loop as its scan read it. -/
structure Committing (t : Thread) (n : ℕ) (σ : Station) (A : System → Prop) (s : System) :
    Prop extends At t σ A s where
  snapshot : σ.snapshot = some s.world.reading
  entered : .entered n (some s.world.reading) s.world.reading ∈ s.trace.history

/-- In a commit section that has written the state. -/
structure WroteState (t : Thread) (n : ℕ) (σ : Station) (A : System → Prop) (s : System) :
    Prop extends At t σ A s where
  entered : ∃ now, .entered n (some now) now ∈ s.trace.history
  written : ∃ scanSide read now, .stateWritten (some n) scanSide read now ∈ s.trace.history

/-- The station of a commit section. -/
structure Station.Inside (σ : Station) (n : ℕ) : Prop where
  io : σ.io = true
  loop : σ.loop = true
  commit : σ.commit = some n

theorem reading_of_rely {s s' : System} (hσ : σ.Inside n) (hs : Stands t σ s) (hr : Rely t s s') :
    s'.world.reading = s.world.reading := by
  have hg := hr.generation (hs.io.mpr hσ.io)
  have hd := hr.disk (hs.loop.mpr hσ.loop)
  simp only [World.reading, World.raw, hg, hd]

theorem enduring_committing (hσ : σ.Inside n) (hA : Durable t σ.scan A) :
    Enduring t (Committing t n σ A) where
  rely s s' hr h := by
    have hread := reading_of_rely hσ h.stands hr
    exact ⟨(enduring_at hA).rely s s' hr h.toAt, hread ▸ h.snapshot,
      hread ▸ hr.trace.history.subset h.entered⟩
  still s s' hs h := by
    have hw := hs.world
    exact ⟨(enduring_at hA).still s s' hs h.toAt, hw ▸ h.snapshot,
      hw ▸ hs.history.subset h.entered⟩

theorem WroteState.grow {s s' : System} (h : WroteState t n σ A s) (hs : At t σ B s')
    (hh : s.trace.history <:+ s'.trace.history) : WroteState t n σ B s' :=
  ⟨hs, h.entered.imp fun _ h => hh.subset h,
    h.written.imp fun _ => Exists.imp fun _ => Exists.imp fun _ h => hh.subset h⟩

theorem enduring_wroteState (hA : Durable t σ.scan A) : Enduring t (WroteState t n σ A) :=
  ⟨fun s s' hr h => h.grow ((enduring_at hA).rely s s' hr h.toAt) hr.trace.history,
    fun s s' hs h => h.grow ((enduring_at hA).still s s' hs h.toAt) hs.history⟩

theorem Committing.writes {s : System} (hσ : σ.Inside n) (h : Committing t n σ A s) :
    Writes t s where
  scanSide _ := h.stands.snapshot.trans h.snapshot
  commit m hm := by
    obtain rfl := Option.some.inj (hm.symm.trans (h.stands.commit.trans hσ.commit))
    exact h.entered

theorem Committing.wrote {f : LoopFile} {bytes : Bytes} {x : Choice} {s s' : System}
    (hσ : σ.Inside n) (hA : Durable t σ.scan A) (hf : f ≠ .config) (h : Committing t n σ A s)
    (ha : s.act t (.replace f bytes) x = some (.ok (), s')) :
    WroteState t n σ (fun s => A s ∧ Paid s) s' := by
  have htr := (act_eq ha).2
  have hh : s'.trace.history = .stateWritten (some n) (s.world.scanLock = some t)
      (s.trace.snapshot t) s.world.reading :: s.trace.history := by
    rw [htr, ← h.stands.commit.trans hσ.commit]
    cases f with
    | config => exact absurd rfl hf
    | state => rfl
    | legacyState => rfl
  have hkeep := hA.onward s s' (onward_of_act rfl ha) h.holds
  refine ⟨⟨h.stands.disk rfl ha, hkeep, paid_of_replace hf ha⟩, ⟨s.world.reading, ?_⟩, _, _, _,
    hh ▸ List.mem_cons_self⟩
  exact hh ▸ List.mem_cons_of_mem _ h.entered

/-- The row is not there yet, and the state it goes with is. -/
structure RowDue (t : Thread) (n : ℕ) (σ : Station) (A : System → Prop) (entry : LoopAuditEntry)
    (s : System) : Prop extends WroteState t n σ A s where
  absent : ∀ row ∈ s.world.rows, row.key ≠ entry.key

theorem enduring_rowDue {entry : LoopAuditEntry} (hσ : σ.Inside n) (hA : Durable t σ.scan A) :
    Enduring t (RowDue t n σ A entry) where
  rely s s' hr h := by
    refine ⟨(enduring_wroteState hA).rely s s' hr h.toWroteState, ?_⟩
    have hd := hr.disk (h.stands.loop.mpr hσ.loop)
    simpa only [World.rows, hd] using h.absent
  still s s' hs h :=
    ⟨(enduring_wroteState hA).still s s' hs h.toWroteState, hs.world ▸ h.absent⟩

theorem safely_appendLoopAuditLine {entry : LoopAuditEntry} (hσ : σ.Inside n)
    (hA : Durable t σ.scan A) :
    Safely crates place strict t (RowDue t n σ A entry) (appendLoopAuditLine entry).run
      (post (fun _ => At t σ A) fun _ => At t σ A) := by
  have happend : Safely crates place strict t (RowDue t n σ A entry) (call (.appendLine entry))
      (post (fun (_ : Unit) => At t σ A) fun (_ : IoError) => At t σ A) := by
    refine Triple.call (enduring_rowDue hσ hA).kept.1 (fun s _ h => ?_)
      fun s x r s' _ h _ hact => ?_
    · refine ⟨⟨disciplined_of_disk (h.stands.loop.mpr hσ.loop) rfl,
        fun _ _ => Act.noConfusion, fun e he => ?_⟩, fun _ => deliveryAllowed_of_other s rfl⟩
      obtain rfl := Act.appendLine.inj he
      exact ⟨⟨n, h.stands.commit.trans hσ.commit, h.entered, h.written⟩, h.absent⟩
    · have hs : At t σ A s' := ⟨h.stands.disk (o := .appendLine entry) rfl hact,
        hA.onward s s' (onward_of_act (o := .appendLine entry) rfl hact) h.holds⟩
      cases r with
      | ok u => exact hs
      | error e => exact hs
  have hnewline : Safely crates place strict t (At t σ A) (call .appendNewline)
      (post (fun (_ : Unit) => At t σ A) fun (_ : IoError) => At t σ A) :=
    (safely_disk hA hσ.loop rfl (fun _ _ => Act.noConfusion) fun _ => Act.noConfusion).conseq
      (fun _ _ h => h) fun r s h => by
        cases r with
        | ok u => exact h
        | error e => exact h
  exact Triple.except_bind (triple_attempt happend) (fun _ => triple_attempt hnewline)
    fun _ _ _ h => h

theorem rows_of_lines {w : World} {x : Choice} {lines : List AuditLine}
    (h : w.readAudit x = .ok lines) : w.rows = lines.filterMap AuditLine.entry := by
  unfold World.readAudit at h
  split_ifs at h with hx
  cases ha : w.disk.bind (·.audit) with
  | none => rw [ha] at h; cases h
  | some file =>
    rw [ha] at h
    dsimp only at h
    split_ifs at h
    obtain rfl := Except.ok.inj h
    simp only [World.rows, ha, Option.map_some, Option.getD_some, AuditFile.rows]

theorem rows_of_absent {w : World} (h : (w.disk.bind (·.audit)).isSome = false) : w.rows = [] := by
  have hn : w.disk.bind (·.audit) = none := Option.not_isSome_iff_eq_none.mp (by simp [h])
  simp only [World.rows, hn, Option.map_none, Option.getD_none]

theorem safely_appendLoopAuditOnce {entry : LoopAuditEntry} (hσ : σ.Inside n)
    (hA : Durable t σ.scan A) :
    Safely crates place strict t (WroteState t n σ A) (appendLoopAuditOnce entry).run
      (post (fun _ => At t σ A) fun _ => At t σ A) := by
  have hk : (loopProtocol crates place strict).Kept t Light _ :=
    (enduring_wroteState (t := t) (n := n) hA).kept
  refine Triple.except_bind (Triple.uses_except hk uses_ensureLoopConfigPresent)
    (fun _ => ?_) fun _ _ _ h => h.toAt
  refine Triple.except_bind
    (Triple.lift (E := fun (_ : String) => At t σ A) (triple_call hk (o := .auditExists) rfl))
    (fun exist => ?_) fun _ _ _ h => h
  cases exist with
  | false =>
    refine (safely_appendLoopAuditLine hσ hA).conseq (fun s _ h => ?_) fun _ _ h => h
    obtain ⟨h, x, hact⟩ := h
    have hr := (Prod.mk.inj (Option.some.inj hact)).1
    refine ⟨h, ?_⟩
    rw [rows_of_absent hr]
    exact List.forall_mem_nil _
  | true =>
    refine Triple.except_bind (B := fun lines (s : System) => WroteState t n σ A s ∧
      s.world.rows = lines.filterMap AuditLine.entry) (E := fun _ => At t σ A)
      (triple_attempt ?_) (fun lines => ?_) fun _ _ _ h => h
    · refine (triple_call hk (o := .readAudit) rfl).conseq (fun _ _ h => h.1) fun r s h => ?_
      obtain ⟨h, x, hact⟩ := h
      have hr := (Prod.mk.inj (Option.some.inj hact)).1
      cases r with
      | error e => exact h.toAt
      | ok lines => exact ⟨h, rows_of_lines hr⟩
    · split_ifs with hany
      · exact Triple.done (a := Except.ok ()) fun _ _ h => h.1.toAt
      · refine (safely_appendLoopAuditLine hσ hA).conseq
          (fun s _ h => ⟨h.1, fun row hrow hkey => ?_⟩) fun _ _ h => h
        refine hany (List.any_eq_true.mpr ⟨row, h.2 ▸ hrow, ?_⟩)
        exact decide_eq_true hkey

theorem safely_auditAfterWrite {entry : LoopAuditEntry} (hσ : σ.Inside n)
    (hA : Durable t σ.scan A) :
    Safely crates place strict t (WroteState t n σ A) (auditAfterWrite crates entry).run
      (post (fun _ => At t σ A) fun _ => At t σ A) := by
  refine Triple.except_bind (B := fun _ => At t σ A) (E := fun _ => At t σ A)
    (Triple.lift ((safely_appendLoopAuditOnce hσ hA).conseq (fun _ _ h => h) fun r _ h => ?_))
    (fun r => ?_) fun _ _ _ h => h
  · cases r <;> exact h
  · cases r with
    | ok u => exact Triple.done (a := Except.ok ()) fun _ _ h => h
    | error e =>
      refine Triple.except_bind (Triple.uses_except (enduring_at hA).kept
        (uses_readLoopConfigIfPresent crates)) (fun config => ?_) fun _ _ _ h => h
      split_ifs
      · exact Triple.done (a := Except.error e) fun _ _ h => h
      · exact Triple.done (a := Except.ok ()) fun _ _ h => h

end
end AgentsCommander.Loops
