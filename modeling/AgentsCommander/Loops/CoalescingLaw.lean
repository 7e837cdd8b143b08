import AgentsCommander.Foundation.Transaction
import AgentsCommander.Loops.CommitSafety
import AgentsCommander.Loops.Coalescing

/-! What one scan may write over the stored state, and the due times a run of scans coalesces. -/
namespace AgentsCommander.Loops
open Foundation Program Protocol

/-- What a scan may write over the state in these bytes. -/
structure Follows (crates : Crates) (raw : Option Bytes) (state : LoopState) : Prop where
  coalesced : state.coalesced = true → ∃ content before due, raw = some content ∧
    crates.jsonFromStr content = .ok before ∧ state.lastDueAt = some due ∧
    ∀ last ∈ before.lastDueAt, last < due
  ended : state.coalesced = false → state.pendingDueAt = none ∨
    ∀ content ∈ raw, ∀ before, crates.jsonFromStr content = .ok before →
      before.pendingDueAt = none ∨ before.pendingRunId = none

/-- The scan has not written the state. -/
structure Unwritten (raw config : Option Bytes) (n : ℕ) (s : System) : Prop where
  raw : s.world.raw = raw
  config : s.world.config = config
  settled : Settled s.world
  writes : s.writes = n

/-- The scan has written the state once at most... -/
structure Left (crates : Crates) (raw : Option Bytes) (n : ℕ) (s : System) : Prop where
  settled : Settled s.world
  outcome : s.world.raw = raw ∧ s.writes = n ∨ n < s.writes ∧ ∃ state bytes,
    s.world.raw = some bytes ∧ crates.jsonToString state = .ok bytes ∧ Follows crates raw state

theorem settled_of_record {w w' : World} (h : Settled w)
    (hr : w'.unrecordedDelivery = w.unrecordedDelivery ∨ w'.unrecordedDelivery = none) :
    Settled w' := by
  intro record hrecord
  rcases hr with hr | hr
  · exact h record (hr ▸ hrecord)
  · rw [hr] at hrecord
    exact absurd hrecord (Option.not_mem_none record)

theorem Unwritten.held {raw config : Option Bytes} {n : ℕ} {s s' : System}
    (h : Unwritten raw config n s) (hs : Held s s') : Unwritten raw config n s' :=
  ⟨hs.raw.trans h.raw, hs.config.trans h.config, settled_of_record h.settled hs.record,
    hs.writes.trans h.writes⟩

section
variable {crates : Crates} {raw config : Option Bytes} {n : ℕ}

theorem Left.held {s s' : System} (h : Left crates raw n s) (hs : Held s s') :
    Left crates raw n s' := by
  refine ⟨settled_of_record h.settled hs.record, ?_⟩
  rw [hs.raw, hs.writes]
  exact h.outcome

theorem Unwritten.left {s : System} (h : Unwritten raw config n s) : Left crates raw n s :=
  ⟨h.settled, .inl ⟨h.raw, h.writes⟩⟩

variable {place : Place} {ok : (loopPlatform crates place).Guard} {t : Thread}
variable {A B : System → Prop}

theorem kept_of_alone (h : ∀ s s', Alone t s s' → A s → A s') :
    (solo crates place ok t).Kept t Light A :=
  ⟨fun s s' _ _ hr hA => h s s' (hr rfl) hA,
    fun _ ho s _ hA => ⟨rfl, fun _ _ s' _ hact => h s s' (alone_of_light ho hact) hA⟩⟩

theorem kept_of_held (h : ∀ s s', Held s s' → A s → A s') :
    (solo crates place ok t).Kept t Harmless A :=
  ⟨fun s s' _ _ hr hA => h s s' (hr rfl).held hA,
    fun _ ho s _ hA => ⟨rfl, fun _ _ s' _ hact => h s s' (held_of_harmless ho hact) hA⟩⟩

theorem light_call {o : Act} (ho : Light o) : Uses Light (call o) := uses_call ho

theorem harmless_call {o : Act} (ho : Harmless o) : Uses Harmless (call o) := uses_call ho

theorem harmless_of_light {o : Act} (ho : Light o) : Harmless o := by
  cases o <;> first
    | rfl
    | exact absurd ho Bool.false_ne_true

theorem kept_left : (solo crates place ok t).Kept t Harmless (Left crates raw n) :=
  kept_of_held fun _ _ hs h => h.held hs

theorem keptLight_left : (solo crates place ok t).Kept t Light (Left crates raw n) :=
  kept_of_alone fun _ _ hs h => h.held hs.held

/-- The directory stays while the thread only reads. -/
theorem kept_left_disk (d : Option LoopDirectory) : (solo crates place ok t).Kept t Light
    fun s => Left crates raw n s ∧ s.world.disk = d :=
  kept_of_alone fun _ _ hs h => ⟨h.1.held hs.held, hs.disk.trans h.2⟩

theorem raw_put (d : LoopDirectory) (bytes : Bytes) :
    (d.put bytes (stateName (some d))).raw = some bytes := by
  obtain ⟨config, state, legacyState, audit⟩ := d
  cases state <;> cases legacyState <;> rfl

theorem writes_of_replace {f : LoopFile} {bytes : Bytes} {x : Choice} {s s' : System}
    {r : (Act.replace f bytes).Res} (hf : f ≠ .config)
    (h : s.act t (.replace f bytes) x = some (r, s')) :
    s'.writes = s.writes + (if r.toBool then 1 else 0) := by
  have htr := (act_eq h).2
  unfold System.writes
  rw [htr]
  cases r with
  | error e => cases f <;> rfl
  | ok u =>
    cases f with
    | config => exact absurd rfl hf
    | state => exact List.countP_cons_of_pos rfl
    | legacyState => exact List.countP_cons_of_pos rfl

variable {state : LoopState}

/-- The state is replaced, or it stays. -/
theorem solo_replace {d : Option LoopDirectory} {bytes : Bytes}
    (hbytes : crates.jsonToString state = .ok bytes) (hfollows : Follows crates raw state) :
    (solo crates place ok t).Triple t (fun s => Left crates raw n s ∧ s.world.disk = d)
      (call (.replace (stateName d) bytes))
      (post (fun (_ : Unit) => Left crates raw n) fun (_ : IoError) => Left crates raw n) := by
  refine Triple.call (kept_left_disk d).1 (fun _ _ _ => rfl) fun s x r s' _ h _ hact => ?_
  obtain ⟨h, rfl⟩ := h
  have hact : s.act t (.replace (stateName s.world.disk) bytes) x = some (r, s') := hact
  have hstep := worldStep (act_eq hact).1
  have hsettled := settled_of_record h.settled (.inl (hstep.record rfl))
  have hwrites := writes_of_replace (stateName_ne_config _) hact
  have hle : n ≤ s.writes := by
    rcases h.outcome with ⟨-, hn⟩ | ⟨hn, -⟩ <;> omega
  cases r with
  | error e =>
    have hw := (still_of_refused hact).world
    rw [Except.toBool, if_neg Bool.false_ne_true, Nat.add_zero] at hwrites
    refine ⟨hsettled, ?_⟩
    rw [hw, hwrites]
    exact h.outcome
  | ok u =>
    refine ⟨hsettled, .inr ⟨?_, state, bytes, ?_, hbytes, hfollows⟩⟩
    · rw [hwrites, Except.toBool, if_pos rfl]
      omega
    · have hw : s.world.change x (·.put bytes (stateName s.world.disk)) = (.ok (), s'.world) :=
        Option.some.inj (act_eq hact).1
      unfold World.change at hw
      split_ifs at hw with hx
      · exact nomatch (Prod.mk.inj hw).1
      · cases hd : s.world.disk with
        | none =>
          rw [hd] at hw
          exact nomatch (Prod.mk.inj hw).1
        | some dir =>
          rw [hd] at hw
          rw [← (Prod.mk.inj hw).2]
          exact raw_put dir bytes

/-- A program of which every action is harmless keeps what is known of the scan's write. -/
theorem solo_left {α : Type} {p : LoopM α} (hp : Uses Harmless p.run) :
    (solo crates place ok t).Triple t (Left crates raw n) p.run
      (post (fun _ => Left crates raw n) fun _ => Left crates raw n) :=
  Triple.uses_except kept_left hp

theorem uses_harmless {α : Type} {p : LoopM α} (hp : Uses Light p.run) : Uses Harmless p.run :=
  Uses.mono (fun _ => harmless_of_light) hp

section
variable (hfollows : Follows crates raw state)
include hfollows

theorem solo_writeLoopStateAtomicAt {d : Option LoopDirectory} :
    (solo crates place ok t).Triple t (fun s => Left crates raw n s ∧ s.world.disk = d)
      (writeLoopStateAtomicAt crates (stateName d) state).run
      (post (fun _ => Left crates raw n) fun _ => Left crates raw n) := by
  have hkept : (solo crates place ok t).Kept t Light
      fun s => Left crates raw n s ∧ s.world.disk = d := kept_left_disk d
  refine Triple.except_bind (Triple.uses_except hkept uses_ensureLoopConfigPresent)
    (fun _ => ?_) fun _ _ _ h => h.1
  refine Triple.except_bind (Triple.ofExcept _) (fun content => ?_) fun _ _ _ h => h.1.1
  intro s hi h
  obtain ⟨h, hcontent⟩ := h
  have hbytes : crates.jsonToString state = .ok content := by
    cases hj : crates.jsonToString state with
    | error e =>
      rw [hj] at hcontent
      exact nomatch hcontent
    | ok bytes =>
      rw [hj] at hcontent
      exact hcontent
  refine Triple.except_bind (Triple.uses_except hkept (uses_attempt (light_call rfl)))
    (fun _ => ?_) (fun _ _ _ h => h.1) s hi h
  exact triple_attempt (solo_replace hbytes hfollows)

theorem solo_writeLoopStateAtomic :
    (solo crates place ok t).Triple t (Left crates raw n)
      (writeLoopStateAtomic crates state).run
      (post (fun _ => Left crates raw n) fun _ => Left crates raw n) := by
  refine Triple.named (fun s : System => s.world.disk) fun d => ?_
  refine Triple.except_bind (Triple.lift (E := fun (_ : String) => Left crates raw n)
    (triple_resolvedLoopStatePath (kept_left_disk d))) (fun path => ?_) fun _ _ _ h => h
  rintro s hi ⟨h, rfl⟩
  exact solo_writeLoopStateAtomicAt hfollows s hi h

theorem solo_writeLoopStateIfUnchanged (expected : Option Bytes) :
    (solo crates place ok t).Triple t (Left crates raw n)
      (writeLoopStateIfUnchanged crates state expected).run
      (post (fun _ => Left crates raw n) fun _ => Left crates raw n) := by
  refine Triple.named (fun s : System => s.world.disk) fun d => ?_
  refine Triple.except_bind (Triple.lift (E := fun (_ : String) => Left crates raw n)
    (triple_resolvedLoopStatePath (kept_left_disk d))) (fun path => ?_) fun _ _ _ h => h
  rintro s hi ⟨h, rfl⟩
  refine Triple.except_bind (G := solo crates place ok t)
    (Triple.uses_except (kept_left_disk d) (uses_currentRaw _ uses_readDocument))
    (fun bytes => ?_) (fun _ _ _ h => h.1) s hi h
  split_ifs
  · exact Triple.done (a := Except.ok LoopStateWrite.stale) fun _ _ h => h.1
  · refine Triple.except_bind (solo_writeLoopStateAtomicAt hfollows) (fun _ => ?_) fun _ _ _ h => h
    exact Triple.done (a := Except.ok LoopStateWrite.written) fun _ _ h => h

theorem solo_guardedStateWrite (s0Raw : Option Bytes) :
    (solo crates place ok t).Triple t (Left crates raw n)
      (guardedStateWrite crates state s0Raw).run
      (post (fun _ => Left crates raw n) fun _ => Left crates raw n) := by
  refine Triple.except_bind (solo_left (uses_harmless (uses_readLoopConfigIfPresent crates)))
    (fun config => ?_) fun _ _ _ h => h
  split_ifs
  · exact Triple.done (a := Except.ok LoopStateWrite.stale) fun _ _ h => h
  cases s0Raw with
  | none => exact solo_writeLoopStateIfUnchanged hfollows none
  | some bytes =>
    dsimp only
    split_ifs
    · exact solo_writeLoopStateIfUnchanged hfollows (some bytes)
    refine Triple.except_bind (solo_left (uses_harmless uses_readRawLoopState))
      (fun raw' => ?_) fun _ _ _ h => h
    split_ifs
    · exact Triple.done (a := Except.ok LoopStateWrite.stale) fun _ _ h => h
    · refine Triple.except_bind (solo_writeLoopStateAtomic hfollows) (fun _ => ?_)
        fun _ _ _ h => h
      exact Triple.done (a := Except.ok LoopStateWrite.written) fun _ _ h => h

end

section
variable {α : Type} {body : LoopM α} {C : Except String α → System → Prop}

/-- The lock is taken, and given back whatever the section ends in. -/
theorem solo_withLoopLock {id : String} (hA : (solo crates place ok t).Kept t Harmless A)
    (hC : ∀ r, (solo crates place ok t).Kept t Harmless (C r)) (he : ∀ e s, A s → C (.error e) s)
    (hbody : (solo crates place ok t).Triple t A body.run C) :
    (solo crates place ok t).Triple t A (withLoopLock id body).run C := by
  refine Triple.bind (B := fun _ => A) (Triple.uses hA ?_) fun r => ?_
  · refine Uses.except_bind (uses_ofExcept _) fun _ => ?_
    refine Uses.except_bind (uses_attempt (harmless_call rfl)) fun _ => ?_
    refine Uses.except_bind (uses_attempt (harmless_call rfl)) fun _ => ?_
    refine Uses.except_bind (uses_up (harmless_call rfl)) fun found => ?_
    split_ifs
    · exact uses_up (harmless_call rfl)
    · exact uses_pure ()
  · cases r with
    | error e => exact Triple.done (a := Except.error e) fun s _ h => he e s h
    | ok u =>
      refine Triple.bind hbody fun r => ?_
      refine Triple.bind (Triple.uses (hC r) (harmless_call rfl)) fun _ => ?_
      exact Triple.done (a := r) fun _ _ h => h

theorem solo_bracket {β : Type} {p : LoopProgram β} {D : β → System → Prop} {o q : Act}
    (ho : Harmless o) (hq : Harmless q) (hA : (solo crates place ok t).Kept t Harmless A)
    (hD : ∀ r, (solo crates place ok t).Kept t Harmless (D r))
    (hbody : (solo crates place ok t).Triple t A p D) :
    (solo crates place ok t).Triple t A
      (do let _ ← call o; let r ← p; let _ ← call q; return r) D := by
  refine Triple.bind (Triple.uses hA (harmless_call ho)) fun _ => ?_
  refine Triple.bind hbody fun r => ?_
  refine Triple.bind (Triple.uses (hD r) (harmless_call hq)) fun _ => ?_
  exact Triple.done fun _ _ h => h

end

theorem uses_scanWriteIsFresh (g : ℕ) (bytes : Option Bytes) :
    Uses Light (scanWriteIsFresh g bytes).run := by
  refine Uses.except_bind (uses_up (light_call rfl)) fun r => ?_
  split_ifs
  · exact uses_pure false
  · exact Uses.except_bind uses_readRawLoopState fun _ => uses_pure _

theorem uses_appendLoopAuditOnce (entry : LoopAuditEntry) :
    Uses Harmless (appendLoopAuditOnce entry).run := by
  have hline : Uses Harmless (appendLoopAuditLine entry).run :=
    Uses.except_bind (uses_attempt (harmless_call rfl)) fun _ =>
      uses_attempt (harmless_call rfl)
  refine Uses.except_bind (uses_harmless uses_ensureLoopConfigPresent) fun _ => ?_
  refine Uses.except_bind (uses_up (harmless_call rfl)) fun found => ?_
  split_ifs
  · refine Uses.except_bind (uses_attempt (harmless_call rfl)) fun content => ?_
    split_ifs
    · exact uses_pure ()
    · exact hline
  · exact hline

theorem uses_auditAfterWrite (entry : LoopAuditEntry) :
    Uses Harmless (auditAfterWrite crates entry).run := by
  refine Uses.except_bind (uses_up (uses_appendLoopAuditOnce entry)) fun r => ?_
  cases r with
  | ok u => exact uses_pure ()
  | error e =>
    refine Uses.except_bind (uses_harmless (uses_readLoopConfigIfPresent crates)) fun config => ?_
    split_ifs
    · exact uses_throw e
    · exact uses_pure ()

/-- A commit section writes what follows the stored state, or nothing. -/
theorem solo_commitScanSectionChecked (hfollows : Follows crates raw state) (g : ℕ)
    (s0Raw : Option Bytes) (audit : Option LoopAuditEntry) (config : Option LoopConfigToml) :
    (solo crates place ok t).Triple t (Left crates raw n)
      (commitScanSectionChecked crates place g s0Raw audit state config).run
      (post (fun _ => Left crates raw n) fun _ => Left crates raw n) := by
  have hkept : ∀ r : Except String LoopStateWrite, (solo crates place ok t).Kept t Harmless
      (post (fun _ => Left crates raw n) (fun _ => Left crates raw n) r) := fun r => by
    cases r <;> exact kept_left
  refine solo_withLoopLock kept_left hkept (fun _ _ h => h) ?_
  refine solo_bracket (o := .note .commitEntered) (q := .note .commitLeft) rfl rfl kept_left
    hkept ?_
  refine Triple.except_bind (solo_left (uses_harmless (uses_scanWriteIsFresh g s0Raw)))
    (fun fresh => ?_) fun _ _ _ h => h
  split_ifs
  · exact Triple.done (a := Except.ok LoopStateWrite.stale) fun _ _ h => h
  have hwrite : (solo crates place ok t).Triple t (Left crates raw n)
      (guardedScanWrite crates state s0Raw audit).run
      (post (fun _ => Left crates raw n) fun _ => Left crates raw n) := by
    refine Triple.except_bind (solo_guardedStateWrite hfollows s0Raw) (fun outcome => ?_)
      fun _ _ _ h => h
    split_ifs
    · exact Triple.done (a := Except.ok LoopStateWrite.stale) fun _ _ h => h
    · cases audit with
      | none => exact Triple.done (a := Except.ok LoopStateWrite.written) fun _ _ h => h
      | some entry =>
        refine Triple.except_bind (solo_left (uses_auditAfterWrite entry)) (fun _ => ?_)
          fun _ _ _ h => h
        exact Triple.done (a := Except.ok LoopStateWrite.written) fun _ _ h => h
  cases config with
  | none => exact hwrite
  | some config =>
    refine Triple.except_bind
      (solo_left (uses_harmless (uses_revalidateLoopCurrent crates config)))
      (fun found => ?_) fun _ _ _ h => h
    split_ifs
    · exact Triple.done (a := Except.ok LoopStateWrite.stale) fun _ _ h => h
    · exact hwrite

/-- A scan that leaves no run pending, and is no coalescing one, follows any state. -/
theorem follows_of_ended (hc : state.coalesced = false) (hp : state.pendingDueAt = none) :
    Follows crates raw state :=
  ⟨fun h => absurd (hc.symm.trans h) Bool.false_ne_true, fun _ => .inl hp⟩

/-- The I/O lock around a section that keeps what is known of the scan's write. -/
theorem solo_io {α : Type} {p : LoopM α} (hp : (solo crates place ok t).Triple t
      (Left crates raw n) p.run (post (fun _ => Left crates raw n) fun _ => Left crates raw n)) :
    (solo crates place ok t).Triple t (Left crates raw n)
      (ExceptT.mk (withIoLock (ExceptT.run p))).run
      (post (fun _ => Left crates raw n) fun _ => Left crates raw n) :=
  solo_bracket (o := .acquireIoLock) (q := .releaseIoLock) rfl rfl kept_left
    (fun r => by cases r <;> exact kept_left) hp

theorem solo_commitScanBaseline (config : LoopConfigToml) (g : ℕ) (s0Raw : Option Bytes) :
    (solo crates place ok t).Triple t (Left crates raw n)
      (commitScanBaseline crates place config g s0Raw).run
      (post (fun _ => Left crates raw n) fun _ => Left crates raw n) := by
  refine solo_io ?_
  refine Triple.except_bind
    (solo_left (uses_harmless (uses_loopIsCurrentForDelivery crates config)))
    (fun current => ?_) fun _ _ _ h => h
  split_ifs
  · exact Triple.done (a := Except.ok ()) fun _ _ h => h
  refine Triple.except_bind
    (solo_left (uses_up (light_call rfl |>.mono fun _ => harmless_of_light)))
    (fun now => ?_) fun _ _ _ h => h
  refine Triple.except_bind (Triple.ofExcept _) (fun state => ?_) fun _ _ _ h => h.1
  rintro s hi ⟨h, hstate⟩
  have hended : state.coalesced = false ∧ state.pendingDueAt = none := by
    obtain ⟨next, -, hnext⟩ := bind_eq_ok.mp hstate
    obtain rfl := Except.ok.inj hnext
    exact ⟨rfl, rfl⟩
  refine Triple.except_bind (solo_commitScanSectionChecked
    (follows_of_ended hended.1 hended.2) g s0Raw none none) (fun _ => ?_) (fun _ _ _ h => h) s hi h
  exact Triple.done (a := Except.ok ()) fun _ _ h => h

theorem solo_retryUnrecordedDelivery (record : UnrecordedDelivery) (g : ℕ) (s0Raw : Option Bytes)
    (hc : record.delivered.coalesced = false) (hp : record.delivered.pendingDueAt = none) :
    (solo crates place ok t).Triple t (Left crates raw n)
      (retryUnrecordedDelivery crates place record g s0Raw).run
      (post (fun _ => Left crates raw n) fun _ => Left crates raw n) := by
  refine Triple.except_bind (solo_io (solo_commitScanSectionChecked (follows_of_ended hc hp) g s0Raw
    (some record.entry) (some record.config))) (fun outcome => ?_) fun _ _ _ h => h
  split_ifs
  · refine solo_left (Uses.except_bind (uses_up (harmless_call rfl)) fun _ => ?_)
    exact uses_up (harmless_call rfl)
  · exact Triple.done (a := Except.ok ()) fun _ _ h => h

theorem solo_recordMissedWhileClosed (config : LoopConfigToml) (runId : Uuid) (dueAt : DateTime)
    (g : ℕ) (s0Raw : Option Bytes)
    (hended : state.pendingDueAt = none ∨ ∀ content ∈ raw, ∀ before,
      crates.jsonFromStr content = .ok before →
        before.pendingDueAt = none ∨ before.pendingRunId = none) :
    (solo crates place ok t).Triple t (Left crates raw n)
      (recordMissedWhileClosed crates place config state runId dueAt g s0Raw).run
      (post (fun _ => Left crates raw n) fun _ => Left crates raw n) := by
  refine Triple.except_bind (solo_io ?_) (fun outcome => ?_) fun _ _ _ h => h
  · refine Triple.except_bind
      (solo_left (uses_harmless (uses_loopIsCurrentForDelivery crates config)))
      (fun current => ?_) fun _ _ _ h => h
    split_ifs
    · exact Triple.done (a := Except.ok LoopStateWrite.stale) fun _ _ h => h
    refine Triple.except_bind
      (solo_left (uses_up (light_call rfl |>.mono fun _ => harmless_of_light)))
      (fun now => ?_) fun _ _ _ h => h
    refine Triple.except_bind (solo_left (uses_ofExcept _)) (fun nextDue => ?_) fun _ _ _ h => h
    have hfollows : Follows crates raw { state with
        lastCheckedAt := some now
        lastDueAt := some dueAt
        lastMissedClosedAt := some dueAt
        nextDueAt := nextDue
        lastResult := some
          { kind := "missedWhileClosed"
            message := "Loop was due while AgentsCommander was closed; " ++
              "no catch-up run was injected" } } :=
      ⟨fun h => absurd (of_decide_eq_true h : "missedWhileClosed" = "coalescedPending") (by decide),
        fun _ => hended⟩
    exact solo_commitScanSectionChecked hfollows g s0Raw _ none
  · split_ifs
    · exact solo_left (uses_up (harmless_call rfl))
    · exact Triple.done (a := Except.ok ()) fun _ _ h => h

section
variable {report : LoopDeliveryReport} {runId : Uuid} {dueAt now : DateTime}
  {nextDue : Option DateTime}

theorem coalesced_reportedState (h : report.ends = true) :
    (reportedState state report runId dueAt now nextDue).coalesced = false := by
  unfold LoopDeliveryReport.ends at h
  unfold reportedState LoopState.coalesced
  cases hk : report.kind <;> rw [hk] at h <;> first
    | rfl
    | exact absurd h (by decide)

theorem pendingDueAt_reportedState (h : report.ends = true) (hk : report.kind ≠ .pendingBusy) :
    (reportedState state report runId dueAt now nextDue).pendingDueAt = none := by
  unfold LoopDeliveryReport.ends at h
  unfold reportedState
  cases hr : report.kind <;> rw [hr] at h hk <;> first
    | rfl
    | exact absurd rfl hk
    | exact absurd h (by decide)

end

theorem solo_keepUnrecordedDelivery {record : UnrecordedDelivery}
    (hp : record.delivered.pendingDueAt = none) (hc : record.delivered.coalesced = false) :
    (solo crates place ok t).Triple t (Left crates raw n) (keepUnrecordedDelivery record)
      fun _ => Left crates raw n := by
  refine Triple.call keptLight_left.1 (fun _ _ _ => rfl) fun s x r s' _ h _ hact => ?_
  have hact : s.act t (.keepUnrecordedDelivery record) x = some (r, s') := hact
  have hw := world_eq (act_eq hact).1
  have hwrites := writes_of_act (fun _ _ => Act.noConfusion) hact
  refine ⟨?_, ?_⟩
  · rw [← hw]
    intro kept hkept
    obtain rfl := Option.some.inj hkept
    exact ⟨hp, hc⟩
  · have hraw : s'.world.raw = s.world.raw := by rw [← hw]; rfl
    rw [hraw, hwrites]
    exact h.outcome

theorem solo_recordUnrecordedDelivery {g : ℕ} {config : LoopConfigToml} {entry : LoopAuditEntry}
    {message : String} {s0Raw : Option Bytes} (hp : state.pendingDueAt = none)
    (hc : state.coalesced = false) :
    (solo crates place ok t).Triple t (Left crates raw n)
      (recordUnrecordedDelivery crates g config entry message state s0Raw)
      fun _ => Left crates raw n := by
  unfold recordUnrecordedDelivery
  cases crates.jsonToString state with
  | error e => exact Triple.done fun _ _ h => h
  | ok bytes => exact solo_keepUnrecordedDelivery hp hc

/-- What a report leaves may be written, and kept for later where the write fails. -/
theorem solo_applyDeliveryReport (config : LoopConfigToml) {report : LoopDeliveryReport}
    (runId : Uuid) (dueAt startedAt : DateTime) (g : ℕ) (s0Raw : Option Bytes)
    (hends : report.ends = true)
    (hended : report.kind = .pendingBusy → ∀ content ∈ raw, ∀ before,
      crates.jsonFromStr content = .ok before →
        before.pendingDueAt = none ∨ before.pendingRunId = none) :
    (solo crates place ok t).Triple t (Left crates raw n)
      (applyDeliveryReport crates place config state report runId dueAt startedAt g s0Raw).run
      (post (fun _ => Left crates raw n) fun _ => Left crates raw n) := by
  have hcommit : (solo crates place ok t).Triple t (Left crates raw n)
      (commitDeliveryReport crates place config state report runId dueAt startedAt g s0Raw).run
      (post (fun _ => Left crates raw n) fun _ => Left crates raw n) := by
    refine Triple.except_bind
      (solo_left (uses_harmless (uses_loopIsCurrentForDelivery crates config)))
      (fun current => ?_) fun _ _ _ h => h
    by_cases hcurrent : (!current) = true
    · rw [if_pos hcurrent]
      exact Triple.done (a := Except.ok none) fun _ _ h => h
    rw [if_neg hcurrent]
    refine Triple.except_bind
      (solo_left (uses_up (light_call rfl |>.mono fun _ => harmless_of_light)))
      (fun now => ?_) fun _ _ _ h => h
    refine Triple.except_bind (solo_left (uses_ofExcept _)) (fun nextDue => ?_) fun _ _ _ h => h
    refine Triple.except_bind (solo_left (uses_up (harmless_call rfl))) (fun _ => ?_)
      fun _ _ _ h => h
    have hfollows : Follows crates raw
        (reportedState state report runId dueAt now nextDue) := by
      refine ⟨fun h => absurd ((coalesced_reportedState hends).symm.trans h) Bool.false_ne_true,
        fun _ => ?_⟩
      by_cases hk : report.kind = .pendingBusy
      · exact .inr (hended hk)
      · exact .inl (pendingDueAt_reportedState hends hk)
    refine Triple.except_bind (B := fun _ => Left crates raw n)
      (Triple.lift (E := fun (_ : String) => Left crates raw n)
        ((solo_commitScanSectionChecked hfollows g s0Raw _ none).conseq (fun _ _ h => h)
          fun r _ h => by cases r <;> exact h))
      (fun r => ?_) fun _ _ _ h => h
    cases r with
    | ok outcome => exact Triple.done (a := Except.ok (some _)) fun _ _ h => h
    | error e =>
      dsimp only
      split_ifs with hdelivered
      · refine Triple.except_bind (B := fun _ => Left crates raw n)
          (Triple.lift (E := fun (_ : String) => Left crates raw n)
            (solo_recordUnrecordedDelivery (pendingDueAt_reportedState hends ?_)
              (coalesced_reportedState hends)))
          (fun _ => solo_left (uses_throw e)) fun _ _ _ h => h
        rw [hdelivered]
        exact LoopAuditKind.noConfusion
      · exact solo_left (uses_throw e)
  refine Triple.except_bind (solo_io ?_) (fun outcome => ?_) fun _ _ _ h => h
  · refine Triple.bind (B := fun _ => Left crates raw n)
      (hcommit.conseq (fun _ _ h => h) fun r _ h => by cases r <;> exact h) fun r => ?_
    refine Triple.bind (Triple.uses kept_left (harmless_call rfl)) fun _ => ?_
    exact Triple.done (a := r) fun _ _ h => by cases r <;> exact h
  · match outcome with
    | none | some (.stale, _) => exact solo_left (uses_pure state)
    | some (.written, next) =>
      refine solo_left (Uses.except_bind (uses_up (harmless_call rfl)) fun _ => ?_)
      split_ifs
      · exact uses_pure next
      · exact Uses.except_bind (uses_up (harmless_call rfl)) fun _ => uses_pure next

end
end AgentsCommander.Loops
