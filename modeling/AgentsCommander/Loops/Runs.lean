import AgentsCommander.Loops.Reports

/-! Every program a thread of the Loop may run keeps the agreement. -/
namespace AgentsCommander.Loops
open Foundation Program Protocol

section
variable {crates : Crates} {place : Place} {strict : Prop} {t : Thread} {σ : Station}
variable {A : System → Prop} {α : Type} {snapshot : LoopScanSnapshot}

/-- In a scan, whatever it has read. -/
def InScan (t : Thread) (s : System) : Prop := ∃ m, Stands t (.scanning m) s

theorem inScan_of_at (s : System) (h : At t (after snapshot) A s) : InScan t s := ⟨_, h.stands⟩

/-- What holds where a scan goes on to deliver. -/
def Ready (crates : Crates) (strict : Prop) (snapshot : LoopScanSnapshot) (s : System) : Prop :=
  Seen crates strict snapshot s ∧ Clear strict snapshot s

theorem persistent_ready : Persistent (Ready crates strict snapshot) :=
  persistent_seen.and persistent_clear

theorem kept_ready : (loopProtocol crates place strict).Kept t Light
    (At t (after snapshot) (Ready crates strict snapshot)) :=
  (enduring_at persistent_ready.durable).kept

/-- A delivery of a scan, and what becomes of its report. -/
theorem safely_deliverDue (happ : t.isApp = true) (hreads : strict → crates.ReadsBack)
    (run : Uuid) (due started : DateTime) {next : LoopDeliveryReport → LoopM Unit}
    (hnew : ∀ s, Clear strict snapshot s → strict → ∀ d ∈ s.trace.outstanding, d.dueAt ≠ due)
    (hnext : ∀ report, next report =
        (do let _ ← applyDeliveryReport crates place snapshot.config snapshot.state report run due
              started snapshot.generation snapshot.raw) ∨
      Through crates place strict t (after snapshot) (next report)) :
    Safely crates place strict t (At t (after snapshot) (Ready crates strict snapshot))
      (up (deliver .scan snapshot.config run due) >>= next).run
      fun _ => At t (after snapshot) fun _ => True := by
  refine Triple.except_bind (Triple.lift (E := fun (_ : String) => At t (after snapshot)
    fun _ => True) (safely_deliver rfl persistent_ready .scan snapshot.config run due
      fun s h hs _ => hnew s h.2 hs)) (fun report => ?_) fun _ _ _ h => h
  rcases hnext report with hr | hthrough
  · rw [hr]
    refine Triple.except_bind (B := fun _ => At t (after snapshot) fun _ => True)
      (E := fun _ => At t (after snapshot) fun _ => True)
      ((safely_applyDeliveryReport happ hreads).conseq
        (fun s _ h => h.mono fun s h => ⟨h.1.1, h.2⟩) fun _ _ h => post_const h)
      (fun _ => Triple.done (a := Except.ok ()) fun _ _ h => h) fun _ _ _ h => h
  · exact hthrough.conseq (fun s _ h => h.mono fun _ _ => trivial) fun _ _ h => h

theorem ready_through {p : LoopM α} (hp : Uses Light p.run) :
    Safely crates place strict t (At t (after snapshot) (Ready crates strict snapshot)) p.run
      (post (fun _ => At t (after snapshot) (Ready crates strict snapshot))
        fun _ => At t (after snapshot) fun _ => True) :=
  (Triple.uses kept_ready hp).conseq (fun _ _ h => h) fun r _ h => by
    cases r with
    | ok a => exact h
    | error e => exact h.mono fun _ _ => trivial

theorem safely_scanPending (happ : t.isApp = true) (hreads : strict → crates.ReadsBack)
    {pendingDue : DateTime} {pendingRun : Uuid} (hp : snapshot.state.pendingDueAt = some pendingDue)
    (hchecked : snapshot.state.lastCheckedAt.isSome = true) :
    Safely crates place strict t (At t (after snapshot) (Ready crates strict snapshot))
      (scanPending crates place snapshot pendingDue pendingRun).run
      fun _ => At t (after snapshot) fun _ => True := by
  refine Triple.except_bind (ready_through (uses_loopIsCurrentForDelivery crates _))
    (fun here => ?_) fun _ _ _ h => h
  split_ifs
  · exact Triple.done (a := Except.ok ()) fun _ _ h => h.mono fun _ _ => trivial
  refine Triple.except_bind (ready_through (uses_up uses_utcNow)) (fun started => ?_)
    fun _ _ _ h => h
  refine safely_deliverDue happ hreads pendingRun pendingDue started
    (fun s hclear hs d hd _ => ?_) fun report => ?_
  · rcases hclear hs d hd with hfirst | ⟨hnone, -⟩
    · rw [hfirst] at hchecked
      cases hchecked
    · rw [hp] at hnone
      cases hnone
  · split_ifs
    · exact .inr (through_maybeCoalescePending happ _ _)
    · exact .inl rfl

/-- A run found due lies after the last check. -/
theorem safely_dueScanRun :
    Safely crates place strict t (At t (after snapshot) (Ready crates strict snapshot))
      (dueScanRun crates snapshot.config snapshot.state).run
      (post (fun found s => At t (after snapshot) (Ready crates strict snapshot) s ∧
        ∀ run due, found = some (run, due) → ∀ checked,
          snapshot.state.lastCheckedAt = some checked → checked < due)
        fun _ => At t (after snapshot) fun _ => True) := by
  refine Triple.except_bind (ready_through (uses_up uses_utcNow)) (fun now => ?_) fun _ _ _ h => h
  refine Triple.except_bind (Triple.ofExcept _) (fun due => ?_)
    fun _ _ _ h => h.1.mono fun _ _ => trivial
  rintro s hi ⟨h, hdue⟩
  cases due with
  | none =>
    exact Triple.done (a := Except.ok none) (fun _ _ h => ⟨h, by intro _ _ he; cases he⟩) s hi h
  | some due =>
    refine Triple.except_bind (ready_through (uses_up uses_newUuid)) (fun run => ?_)
      (fun _ _ _ h => h) s hi h
    refine Triple.done (a := Except.ok (some (run, due))) fun s _ h => ⟨h, ?_⟩
    intro run' due' he checked hc
    obtain ⟨rfl, rfl⟩ := Prod.mk.inj (Option.some.inj he)
    rw [hc] at hdue
    exact lt_of_latestDueBetween hdue

theorem safely_scanDue (happ : t.isApp = true) (hreads : strict → crates.ReadsBack)
    (startup : Bool) (hchecked : snapshot.state.lastCheckedAt.isSome = true) :
    Safely crates place strict t (At t (after snapshot) (Ready crates strict snapshot))
      (scanDue crates place snapshot startup).run
      fun _ => At t (after snapshot) fun _ => True := by
  refine Triple.except_bind safely_dueScanRun (fun found => ?_) fun _ _ _ h => h
  match found with
  | none => exact Triple.done (a := Except.ok ()) fun _ _ h => h.1.mono fun _ _ => trivial
  | some (runId, dueAt) =>
    rintro s hi ⟨h, hdue⟩
    revert s
    cases startup with
    | true =>
      intro s hi h
      refine Triple.except_bind (C := fun _ => At t (after snapshot) fun _ => True)
        (ready_through (uses_loopIsCurrentForDelivery crates _))
        (fun here => ?_) (fun _ _ _ h => h) s hi h
      split_ifs
      · exact Triple.done (a := Except.ok ()) fun _ _ h => h.mono fun _ _ => trivial
      · exact (through_recordMissedWhileClosed happ _ _ _ _).conseq
          (fun _ _ h => h.mono fun _ _ => trivial) fun _ _ h => h
    | false =>
      intro s hi h
      refine Triple.except_bind (C := fun _ => At t (after snapshot) fun _ => True)
        (ready_through (uses_up uses_utcNow)) (fun started => ?_) (fun _ _ _ h => h) s hi h
      refine Triple.except_bind (ready_through (uses_loopIsCurrentForDelivery crates _))
        (fun here => ?_) fun _ _ _ h => h
      split_ifs
      · exact Triple.done (a := Except.ok ()) fun _ _ h => h.mono fun _ _ => trivial
      refine safely_deliverDue happ hreads runId dueAt started
        (fun s hclear hs d hd heq => ?_) fun report => .inl rfl
      rcases hclear hs d hd with hfirst | ⟨-, checked, hc, hle⟩
      · rw [hfirst] at hchecked
        cases hchecked
      · have hlt := hdue runId dueAt rfl checked hc
        exact absurd (heq ▸ hle) (not_le.mpr hlt)

theorem safely_scanLoop (happ : t.isApp = true) (hreads : strict → crates.ReadsBack)
    (startup pendingOnly : Bool) {m : Option Reading} :
    Safely crates place strict t (At t (.scanning m) fun _ => True)
      (scanLoop crates place startup pendingOnly).run fun _ => InScan t := by
  refine Triple.except_bind (B := fun found s => match found with
      | none => InScan t s
      | some snapshot => At t (after snapshot) (Ready crates strict snapshot) s ∧
          snapshot.state.lastCheckedAt.isSome = true) (E := fun _ => InScan t) ?_ (fun found => ?_)
    fun _ _ _ h => h
  · refine Triple.bind (safely_scanSnapshot happ) fun r => ?_
    match r with
    | .error e => exact Triple.done (a := Except.error e) fun s _ h => ⟨_, h.stands⟩
    | .ok none => exact Triple.done (a := Except.ok none) fun s _ h => ⟨_, h.stands⟩
    | .ok (some snapshot) =>
      refine Triple.bind (safely_finishScanEntry happ) fun r => ?_
      match r with
      | .error e => exact Triple.done (a := Except.error e) fun s _ h => ⟨_, h.stands⟩
      | .ok true => exact Triple.done (a := Except.ok none) fun s _ h => ⟨_, h.stands⟩
      | .ok false =>
        exact Triple.done (a := Except.ok (some snapshot)) fun s _ h =>
          ⟨h.mono fun s h => ⟨h.1, h.2.1⟩, h.holds.2.2⟩
  · match found with
    | none => exact Triple.done (a := Except.ok ()) fun _ _ h => h
    | some snapshot =>
      rintro s hi ⟨h, hchecked⟩
      revert s
      have hdue : Safely crates place strict t (At t (after snapshot) (Ready crates strict snapshot))
          (if !pendingOnly then scanDue crates place snapshot startup else pure () : LoopM Unit).run
          fun _ => InScan t := by
        split_ifs
        · exact (safely_scanDue happ hreads startup hchecked).conseq (fun _ _ h => h)
            fun _ s h => inScan_of_at s h
        · exact Triple.done (a := Except.ok ()) fun s _ h => inScan_of_at s h
      intro s hi h
      cases hp : snapshot.state.pendingDueAt with
      | none =>
        simp only [hp]
        exact hdue s hi h
      | some pendingDue =>
        cases hr : snapshot.state.pendingRunId with
        | none =>
          simp only [hp, hr]
          exact hdue s hi h
        | some pendingRun =>
          simp only [hp, hr]
          exact ((safely_scanPending happ hreads hp hchecked).conseq (fun _ _ h => h)
            fun _ s h => inScan_of_at s h) s hi h

theorem safely_scanOnce (happ : t.isApp = true) (hreads : strict → crates.ReadsBack)
    (startup pendingOnly : Bool) :
    Safely crates place strict t (AtRest t) (scanOnce crates place startup pendingOnly)
      fun _ => AtRest t :=
  safely_withScanLock happ fun _ => Triple.bind (safely_scanLoop happ hreads startup pendingOnly)
    fun _ => Triple.done fun _ _ h => h

theorem safely_runLoopNow (happ : t.isApp = true) (hreads : strict → crates.ReadsBack) :
    Safely crates place strict t (AtRest t) (runLoopNow crates place) fun _ => AtRest t := by
  refine safely_withScanLock happ fun m => Triple.bind (B := fun _ => InScan t) ?_
    fun _ => Triple.done fun _ _ h => h
  refine Triple.bind (safely_scanSnapshot happ) fun r => ?_
  match r with
  | .error e => exact Triple.done (a := Except.error e) fun s _ h => ⟨_, h.stands⟩
  | .ok none => exact Triple.done (a := Except.error _) fun s _ h => ⟨_, h.stands⟩
  | .ok (some snapshot) =>
    have hk : (loopProtocol crates place strict).Kept t Light
        (At t (after snapshot) (Seen crates strict snapshot)) :=
      (enduring_at persistent_seen.durable).kept
    have hlight : ∀ {β : Type} {p : LoopM β}, Uses Light p.run →
        Safely crates place strict t (At t (after snapshot) (Seen crates strict snapshot)) p.run
          (post (fun _ => At t (after snapshot) (Seen crates strict snapshot))
            fun _ => InScan t) := fun hp =>
      (Triple.uses hk hp).conseq (fun _ _ h => h) fun r s h => by
        cases r with
        | ok a => exact h
        | error e => exact inScan_of_at s h
    refine Triple.conseq (A := At t (after snapshot) (Seen crates strict snapshot)) ?_
      (fun s _ h => ⟨h.stands, h.holds.1⟩) fun _ _ h => h
    refine Triple.except_bind (hlight (uses_refuse _ _)) (fun _ => ?_) fun _ _ _ h => h
    refine Triple.except_bind (hlight (uses_up uses_newUuid)) (fun runId => ?_) fun _ _ _ h => h
    refine Triple.except_bind (hlight (uses_up uses_utcNow)) (fun dueAt => ?_) fun _ _ _ h => h
    refine Triple.except_bind (hlight (uses_up uses_utcNow)) (fun started => ?_) fun _ _ _ h => h
    refine Triple.except_bind (hlight (uses_loopIsCurrentForDelivery crates _)) (fun here => ?_)
      fun _ _ _ h => h
    refine Triple.except_bind (hlight (uses_refuse _ _)) (fun _ => ?_) fun _ _ _ h => h
    refine Triple.except_bind (Triple.lift (E := fun (_ : String) => InScan t)
      (safely_deliver rfl persistent_seen .runLoopNow snapshot.config runId dueAt
        fun _ _ _ h => by cases h)) (fun report => ?_) fun _ _ _ h => h
    exact (safely_applyDeliveryReport happ hreads).conseq (fun _ _ h => h)
      fun _ s h => inScan_of_at s h

/-- In a command, of the application or of the CLI. -/
abbrev commanding (io : Bool) (m : Option Reading) : Station := ⟨false, io, false, m, none⟩

theorem safely_atRest {p : LoopProgram α}
    (hp : ∀ m, Safely crates place strict t (At t (commanding false m) fun _ => True) p
      fun _ => At t (commanding false m) fun _ => True) :
    Safely crates place strict t (AtRest t) p fun _ => AtRest t := by
  refine Triple.named (fun s : System => s.trace.snapshot t) fun m => ?_
  refine (hp m).conseq (fun s _ h => ?_) fun _ s h => ?_
  · exact ⟨⟨by simp [h.1.scan], by simp [h.1.io], by simp [h.1.loop], h.2, h.1.commit⟩, trivial⟩
  · exact ⟨by simp [h.stands.scan], by simp [h.stands.io], by simp [h.stands.loop],
      h.stands.commit⟩

theorem through_attempt {text : String} {p : LoopProgram (Except IoError α)}
    (hp : Safely crates place strict t (At t σ fun _ => True) p fun _ => At t σ fun _ => True) :
    Through crates place strict t σ (attempt text p) := by
  have h : Safely crates place strict t (At t σ fun _ => True) (attempt text p).run
      (post (fun _ => At t σ fun _ => True) fun _ => At t σ fun _ => True) :=
    triple_attempt (hp.conseq (fun _ _ h => h) fun _ _ h => post_const h)
  exact h.conseq (fun _ _ h => h) fun r s h => by cases r <;> exact h

section
variable {io : Bool} {m : Option Reading}

theorem through_writeLoopConfig (id : String) (config : LoopConfigToml) :
    Through crates place strict t (commanding io m).withLoop (writeLoopConfig crates id config) := by
  refine through_bind (through_ofExcept _) fun _ => ?_
  split_ifs
  · exact through_light (.done _)
  refine through_bind (through_attempt (safely_disk (o := .createDirectory) (durable_true t false)
    rfl rfl (fun _ _ => Act.noConfusion) fun _ => Act.noConfusion)) fun _ => ?_
  refine through_bind (through_ofExcept _) fun content => ?_
  refine through_bind (through_attempt (safely_disk
    (o := .replace .config content) (durable_true t false) rfl rfl (fun f _ h => (Act.replace.inj h).1.symm)
    fun _ => Act.noConfusion)) fun _ => ?_
  exact through_light (.done _)

/-- A command's own write is none of a scan. -/
theorem through_writeLoopStateAtomic (state : LoopState) :
    Through crates place strict t (commanding io m).withLoop
      (writeLoopStateAtomic crates state) := by
  have hwrites : ∀ s, At t (commanding io m).withLoop (fun _ => True) s → Writes t s := by
    refine fun s h => ⟨fun hl => ?_, fun n hn => ?_⟩
    · exact absurd (h.stands.scan.mp hl) Bool.false_ne_true
    · rw [h.stands.commit] at hn
      cases hn
  refine (safely_writeLoopStateAtomic (B := At t (commanding io m).withLoop fun _ => True)
    (enduring_at (durable_true t false)) (fun s h => h.stands.loop.mpr rfl) hwrites
    fun f s bytes x s' _ h ha => ?_).conseq (fun _ _ h => h) fun r s h => ?_
  · exact ⟨h.stands.disk rfl ha, trivial⟩
  · cases r <;> exact h

theorem through_withLoopLock {id : String} {body : LoopM α}
    (hbody : Through crates place strict t (commanding io m).withLoop body) :
    Through crates place strict t (commanding io m) (withLoopLock id body) :=
  safely_withLoopLock (τ := fun _ => commanding io m) (durable_true t false) (fun _ => rfl)
    (fun _ => durable_true t false) (fun _ => ⟨rfl, fun _ _ => trivial⟩) hbody

theorem through_createLoopFiles (id : String) (config : LoopConfigToml) :
    Through crates place strict t (commanding io m) (createLoopFiles crates id config) := by
  refine through_withLoopLock ?_
  refine through_bind (through_light (uses_up uses_isDir)) fun found => ?_
  refine through_bind (through_light (uses_refuse _ _)) fun _ => ?_
  refine through_bind (through_light (uses_validateLoopConfig crates config)) fun _ => ?_
  refine through_bind (through_writeLoopConfig id config) fun here => ?_
  refine through_bind (through_light (uses_up uses_utcNow)) fun now => ?_
  refine through_bind (through_ofExcept _) fun state => ?_
  split_ifs
  · exact through_bind (through_writeLoopStateAtomic state) fun _ => through_light (.done _)
  · exact through_light (.done _)

theorem through_updateLoopFiles (id : String) (patch : LoopUpdatePatch) :
    Through crates place strict t (commanding io m) (updateLoopFiles crates id patch) := by
  refine through_withLoopLock ?_
  refine through_bind (through_light (uses_up uses_isDir)) fun found => ?_
  refine through_bind (through_light (uses_refuse _ _)) fun _ => ?_
  refine through_bind (through_light (uses_readLoopConfig crates)) fun current => ?_
  refine through_bind (through_ofExcept _) fun patched => ?_
  refine through_bind (through_light (uses_validateLoopConfig crates _)) fun _ => ?_
  refine through_bind (through_writeLoopConfig id _) fun here => ?_
  split_ifs
  · refine through_bind (through_light (uses_up uses_utcNow)) fun now => ?_
    refine through_bind (through_ofExcept _) fun state => ?_
    exact through_bind (through_writeLoopStateAtomic state) fun _ => through_light (.done _)
  · refine through_bind (through_light (uses_up uses_utcNow)) fun now => ?_
    exact through_bind (through_ofExcept _) fun state => through_light (.done _)
  · exact through_light (.done _)
  · refine through_bind (through_light (uses_up (uses_readLoopState crates))) fun r => ?_
    cases r <;> exact through_light (.done _)

theorem through_removeLoopFiles (id : String) :
    Through crates place strict t (commanding io m) (removeLoopFiles id) := by
  refine through_withLoopLock ?_
  refine through_bind (through_light (uses_up uses_isDir)) fun found => ?_
  refine through_bind (through_light (uses_refuse _ _)) fun _ => ?_
  exact through_attempt (safely_disk (o := .removeDirectory) (durable_true t false) rfl rfl
    (fun _ _ => Act.noConfusion) fun _ => Act.noConfusion)

end

/-- The generation changes under the I/O lock. -/
theorem safely_bumpLoopGeneration {m : Option Reading} :
    Safely crates place strict t (At t (commanding true m) fun _ => True) bumpLoopGeneration
      fun _ => At t (commanding true m) fun _ => True := by
  refine Triple.call (enduring_at (durable_true t false)).kept.1 (fun s _ h => ?_)
    fun s x r s' _ h _ hact => ?_
  · exact ⟨⟨⟨nofun, fun _ => h.stands.io.mpr rfl, nofun, nofun, Act.noConfusion,
      Act.noConfusion⟩, fun _ _ => Act.noConfusion, fun _ => Act.noConfusion⟩,
      fun _ => deliveryAllowed_of_other s rfl⟩
  · have hact : s.act t .bumpLoopGeneration x = some (r, s') := hact
    obtain ⟨hw, htr⟩ := act_eq hact
    have hworld := world_eq hw
    exact ⟨h.stands.same (hworld ▸ rfl) (hworld ▸ rfl) (hworld ▸ rfl) (htr ▸ rfl) (htr ▸ rfl),
      trivial⟩

theorem safely_loopCommand {files : LoopM α} {here : α → Bool} {kind : String}
    (happ : t.isApp = true)
    (hfiles : ∀ m, Through crates place strict t (commanding true m) files) :
    Safely crates place strict t (AtRest t) (loopCommand files here kind) fun _ => AtRest t := by
  refine safely_atRest fun m => ?_
  refine safely_withIoLock (τ := fun _ => commanding false m) happ (fun _ => rfl)
    (durable_true t false) (fun _ => durable_true t false) ?_
  refine Triple.bind (hfiles m) fun r => ?_
  cases r with
  | error e => exact Triple.done fun _ _ h => h
  | ok a =>
    dsimp only
    split_ifs
    · refine Triple.bind safely_bumpLoopGeneration fun _ => ?_
      exact Triple.uses (enduring_at (durable_true t false)).kept (uses_emitTransition _ _)
    · exact Triple.done fun _ _ h => h

/-- A command of the CLI takes only the Loop lock. -/
theorem safely_cli {files : LoopM α}
    (hfiles : ∀ m, Through crates place strict t (commanding false m) files) :
    Safely crates place strict t (AtRest t) (files.run >>= fun _ => pure ()) fun _ => AtRest t :=
  safely_atRest fun m => Triple.bind (hfiles m) fun _ => Triple.done fun _ _ h => h

/-- Every program a thread may run keeps the agreement. -/
theorem safely_starts (hreads : strict → crates.ReadsBack) {p : LoopProgram Unit}
    (hp : Starts crates place t p) :
    Safely crates place strict t (AtRest t) p fun _ => AtRest t := by
  cases hp with
  | scanOnce n startup pendingOnly => exact safely_scanOnce rfl hreads startup pendingOnly
  | runLoopNow n => exact safely_runLoopNow rfl hreads
  | createLoop n config _ => exact safely_loopCommand rfl fun _ => through_createLoopFiles _ config
  | updateLoop n patch => exact safely_loopCommand rfl fun _ => through_updateLoopFiles _ patch
  | deleteLoop n => exact safely_loopCommand rfl fun _ => through_removeLoopFiles _
  | toggleLoop n enabled => exact safely_loopCommand rfl fun _ => through_updateLoopFiles _ _
  | cliCreate n config _ => exact safely_cli fun _ => through_createLoopFiles _ config
  | cliUpdate n patch => exact safely_cli fun _ => through_updateLoopFiles _ patch
  | cliRemove n => exact safely_cli fun _ => through_removeLoopFiles _

end

end AgentsCommander.Loops
