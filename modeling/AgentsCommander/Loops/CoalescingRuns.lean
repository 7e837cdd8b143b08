import AgentsCommander.Loops.CoalescingLaw
import AgentsCommander.Loops.Laws

/-! Runs of scans: when each coalescing scan has a new due time, none is coalesced twice. -/
namespace AgentsCommander.Loops
open Foundation Program Protocol

/-- The environment answers as it can, and each coalescing scan has a new due time. -/
abbrev Timely (crates : Crates) (place : Place) : (loopPlatform crates place).Guard :=
  fun t o x s => timely crates t o x s = true

/-- The scan's snapshot is of the stored state and the configuration on disk. -/
structure Known (crates : Crates) (raw config : Option Bytes) (snapshot : LoopScanSnapshot) :
    Prop where
  state : StateOf crates raw snapshot.state
  config : ∃ content, config = some content ∧ crates.tomlFromStr content = .ok snapshot.config

/-- Nothing is written yet, and the last delivery found the orchestrator busy. -/
structure Busy (raw config : Option Bytes) (n : ℕ) (t : Thread) (s : System) : Prop
    extends Unwritten raw config n s where
  busy : (s.trace.underway t).any (·.kind = .pendingBusy) = true

section
variable {crates : Crates} {place : Place} {t : Thread} {raw config : Option Bytes} {n : ℕ}
variable {snapshot : LoopScanSnapshot}

theorem Known.stored (h : Known crates raw config snapshot) {due : DateTime}
    (hp : snapshot.state.pendingDueAt = some due) :
    ∃ content, raw = some content ∧ crates.jsonFromStr content = .ok snapshot.state := by
  rcases h.state with hd | hs
  · rw [hd] at hp
    exact nomatch hp
  · exact hs

/-- The stored state is the one read, or the scan read none. -/
theorem Known.rested (h : Known crates raw config snapshot)
    (hrest : snapshot.state.pendingDueAt = none ∨ snapshot.state.pendingRunId = none)
    (hchecked : snapshot.state.lastCheckedAt.isSome = true) :
    ∀ content ∈ raw, ∀ before, crates.jsonFromStr content = .ok before →
      before.pendingDueAt = none ∨ before.pendingRunId = none := by
  intro content hcontent before hbefore
  rcases h.state with hd | ⟨bytes, hbytes, hstate⟩
  · rw [hd] at hchecked
    exact nomatch hchecked
  · obtain rfl := Option.some.inj (hbytes.symm.trans hcontent)
    obtain rfl := Except.ok.inj (hstate.symm.trans hbefore)
    exact hrest

theorem Busy.alone {s s' : System} (h : Busy raw config n t s) (hs : Alone t s s') :
    Busy raw config n t s' :=
  ⟨h.toUnwritten.held hs.held, hs.underway ▸ h.busy⟩

theorem kept_busy_io : (solo crates place (Timely crates place) t).Kept t Light
    fun s => Busy raw config n t s ∧ s.world.ioLock = some t :=
  kept_of_alone fun _ _ hs h => ⟨h.1.alone hs, hs.io.mpr h.2⟩

/-- The condition, at the clock reading of the coalescing section. -/
theorem new_of_timely {now pendingDue due : DateTime} {pendingRun : Uuid} {s : System}
    (hknown : Known crates raw config snapshot) (hp : snapshot.state.pendingDueAt = some pendingDue)
    (hr : snapshot.state.pendingRunId = some pendingRun) (h : Busy raw config n t s)
    (hio : s.world.ioLock = some t) (hok : timely crates t .now (.time now) s = true)
    (hdue : latestDueBetween crates snapshot.config.trigger.expr pendingDue now =
      .ok (some due)) :
    ∀ last ∈ snapshot.state.lastDueAt, last < due := by
  obtain ⟨content, hcontent, hconfig⟩ := hknown.config
  obtain ⟨bytes, hbytes, hstate⟩ := hknown.stored hp
  have hbusy : foundBusy t s = true := by
    rw [foundBusy, decide_eq_true_eq]
    exact ⟨hio, h.busy⟩
  have hhandled : handled crates now s.world = snapshot.state.lastDueAt.any (due ≤ ·) := by
    unfold handled
    rw [h.raw, h.config, hcontent, hbytes, Option.map_some, Option.map_some, hconfig, hstate]
    simp only [hp, hr, hdue]
  have hfresh : handled crates now s.world = false := by
    simp only [timely, reportable, Bool.true_and, hbusy] at hok
    simpa using hok
  intro last hlast
  rw [hhandled, Option.mem_def.mp hlast, Option.any_some, decide_eq_false_iff_not] at hfresh
  exact not_le.mp hfresh

/-- What is known of the clock reading of a coalescing section. -/
abbrev New (crates : Crates) (snapshot : LoopScanSnapshot) (pendingDue now : DateTime) : Prop :=
  ∀ due, latestDueBetween crates snapshot.config.trigger.expr pendingDue now = .ok (some due) →
    ∀ last ∈ snapshot.state.lastDueAt, last < due

theorem solo_coalescingClock {pendingDue : DateTime} {pendingRun : Uuid}
    (hknown : Known crates raw config snapshot) (hp : snapshot.state.pendingDueAt = some pendingDue)
    (hr : snapshot.state.pendingRunId = some pendingRun) :
    (solo crates place (Timely crates place) t).Triple t
      (fun s => Busy raw config n t s ∧ s.world.ioLock = some t) utcNow
      fun now s => Left crates raw n s ∧ New crates snapshot pendingDue now := by
  refine Triple.call kept_busy_io.1 (fun _ _ _ => rfl) fun s x r s' _ h hok hact => ?_
  have hact : s.act t .now x = some (r, s') := hact
  have hleft : Left crates raw n s' := h.1.toUnwritten.left.held (alone_of_light rfl hact).held
  have hw := (act_eq hact).1
  cases x with
  | time now =>
    have hnow : now = r := (Prod.mk.inj (Option.some.inj hw)).1
    exact ⟨hleft, hnow ▸ fun due => new_of_timely hknown hp hr h.1 h.2 hok⟩
  | _ => exact nomatch hw

theorem solo_acquireBusy : (solo crates place (Timely crates place) t).Triple t
    (Busy raw config n t) (call .acquireIoLock)
    fun _ s => Busy raw config n t s ∧ s.world.ioLock = some t := by
  refine Triple.call (fun s s' _ _ hr h => h.alone (hr rfl)) (fun _ _ _ => rfl)
    fun s x r s' _ h _ hact => ?_
  have hact : s.act t .acquireIoLock x = some (r, s') := hact
  obtain ⟨hw, htr⟩ := act_eq hact
  refine ⟨⟨h.toUnwritten.held (held_of_harmless rfl hact), ?_⟩, ?_⟩
  · rw [htr]
    exact h.busy
  · simp only [World.act] at hw
    split_ifs at hw
    rw [← (Prod.mk.inj (Option.some.inj hw)).2]

/-- A pending run found busy is coalesced with a due time it has not been coalesced with. -/
theorem solo_maybeCoalescePending {pendingDue : DateTime} {pendingRun : Uuid} (g : ℕ)
    (s0Raw : Option Bytes) (hknown : Known crates raw config snapshot)
    (hp : snapshot.state.pendingDueAt = some pendingDue)
    (hr : snapshot.state.pendingRunId = some pendingRun) :
    (solo crates place (Timely crates place) t).Triple t (Busy raw config n t)
      (maybeCoalescePending crates place snapshot.config snapshot.state g s0Raw).run
      (post (fun _ => Left crates raw n) fun _ => Left crates raw n) := by
  refine Triple.except_bind (B := fun _ => Left crates raw n) (E := fun _ => Left crates raw n)
    ?_ (fun outcome => ?_) fun _ _ _ h => h
  · refine Triple.bind (B := fun _ (s : System) => Busy raw config n t s ∧
      s.world.ioLock = some t) solo_acquireBusy fun _ => ?_
    refine Triple.bind (B := post (fun _ => Left crates raw n) fun _ => Left crates raw n) ?_
      fun r => Triple.bind (Triple.uses (by cases r <;> exact kept_left) (harmless_call rfl))
        fun _ => Triple.done (a := r) fun _ _ h => h
    refine Triple.except_bind (Triple.uses_except kept_busy_io
      (uses_loopIsCurrentForDelivery crates _)) (fun here => ?_) fun _ _ _ h => h.1.toUnwritten.left
    by_cases hhere : (!here) = true
    · rw [if_pos hhere]
      exact Triple.done (a := Except.ok none) fun _ _ h => h.1.toUnwritten.left
    rw [if_neg hhere, hp, hr]
    refine Triple.except_bind (B := fun now s => Left crates raw n s ∧
        New crates snapshot pendingDue now) (E := fun _ => Left crates raw n)
      (Triple.lift (solo_coalescingClock hknown hp hr)) (fun now => ?_) fun _ _ _ h => h
    rintro s hi ⟨h, hnew⟩
    refine Triple.except_bind (C := post (fun _ => Left crates raw n) fun _ => Left crates raw n)
      (Triple.ofExcept _) (fun found => ?_) (fun _ _ _ h => h.1) s hi h
    rintro s hi ⟨h, hfound⟩
    match found with
    | none => exact Triple.done (a := Except.ok none) (fun _ _ h => h) s hi h
    | some due =>
      by_cases hle : due ≤ pendingDue
      · dsimp only
        rw [if_pos hle]
        exact Triple.done (a := Except.ok none) (fun _ _ h => h) s hi h
      dsimp only
      rw [if_neg hle]
      refine Triple.except_bind (solo_left (uses_pure pendingRun)) (fun runId => ?_)
        (fun _ _ _ h => h) s hi h
      refine Triple.except_bind (solo_left (uses_ofExcept _)) (fun nextDue => ?_) fun _ _ _ h => h
      refine Triple.except_bind (solo_commitScanSectionChecked ?_ g s0Raw _ none) (fun _ => ?_)
        fun _ _ _ h => h
      · obtain ⟨bytes, hbytes, hstate⟩ := hknown.stored hp
        exact ⟨fun _ => ⟨bytes, _, due, hbytes, hstate, rfl, hnew due hfound⟩,
          fun h => nomatch h⟩
      · exact Triple.done (a := Except.ok (some _)) fun _ _ h => h
  · split_ifs
    · exact solo_left (uses_up (harmless_call rfl))
    · exact solo_left (uses_pure ())

theorem kept_unwritten : (solo crates place (Timely crates place) t).Kept t Harmless
    (Unwritten raw config n) := kept_of_held fun _ _ hs h => h.held hs

theorem solo_unwritten {α : Type} {p : LoopM α} (hp : Uses Light p.run) :
    (solo crates place (Timely crates place) t).Triple t (Unwritten raw config n) p.run
      (post (fun _ => Unwritten raw config n) fun _ => Unwritten raw config n) :=
  Triple.uses_except kept_unwritten (uses_harmless hp)

theorem solo_deliver (cfg : LoopConfigToml) (runId : Uuid) (dueAt : DateTime) :
    (solo crates place (Timely crates place) t).Triple t (Unwritten raw config n)
      (deliver .scan cfg runId dueAt) fun report s => Unwritten raw config n s ∧
        report.ends = true ∧ (report.kind = .pendingBusy → Busy raw config n t s) := by
  refine Triple.call kept_unwritten.1 (fun _ _ _ => rfl) fun s x r s' _ h hok hact => ?_
  have hact : s.act t (.deliver .scan cfg runId dueAt) x = some (r, s') := hact
  have hleft : Unwritten raw config n s' := h.held (held_of_harmless rfl hact)
  obtain ⟨hw, htr⟩ := act_eq hact
  cases x with
  | report report =>
    obtain rfl : report = r := (Prod.mk.inj (Option.some.inj hw)).1
    refine ⟨hleft, ?_, fun hk => ⟨hleft, ?_⟩⟩
    · have hok : timely crates t (.deliver .scan cfg runId dueAt) (.report report) s = true := hok
      exact (Bool.and_eq_true_iff.mp hok).1
    · have hunder : s'.trace.underway t = some ⟨.scan, cfg, runId, dueAt, report.kind⟩ := by
        rw [htr]
        exact Function.update_self ..
      rw [hunder, Option.any_some, hk]
      rfl
  | _ => exact nomatch hw

theorem solo_scanPending {pendingDue : DateTime} {pendingRun : Uuid}
    (hknown : Known crates raw config snapshot)
    (hp : snapshot.state.pendingDueAt = some pendingDue)
    (hr : snapshot.state.pendingRunId = some pendingRun) :
    (solo crates place (Timely crates place) t).Triple t (Unwritten raw config n)
      (scanPending crates place snapshot pendingDue pendingRun).run
      (post (fun _ => Left crates raw n) fun _ => Left crates raw n) := by
  refine Triple.except_bind (solo_unwritten (uses_loopIsCurrentForDelivery crates _))
    (fun here => ?_) fun _ _ _ h => h.left
  split_ifs
  · exact Triple.done (a := Except.ok ()) fun _ _ h => h.left
  refine Triple.except_bind (solo_unwritten (uses_up (light_call rfl))) (fun started => ?_)
    fun _ _ _ h => h.left
  refine Triple.except_bind (Triple.lift (E := fun (_ : String) => Left crates raw n)
    (solo_deliver _ pendingRun pendingDue)) (fun report => ?_) fun _ _ _ h => h
  rintro s hi ⟨h, hends, hbusy⟩
  by_cases hk : report.kind = .pendingBusy
  · rw [if_pos hk]
    exact solo_maybeCoalescePending _ _ hknown hp hr s hi (hbusy hk)
  · rw [if_neg hk]
    refine Triple.except_bind (solo_applyDeliveryReport _ _ _ _ _ _ hends fun hb => absurd hb hk)
      (fun _ => ?_) (fun _ _ _ h => h) s hi h.left
    exact Triple.done (a := Except.ok ()) fun _ _ h => h

theorem solo_scanDue (startup : Bool)
    (hrest : ∀ content ∈ raw, ∀ before, crates.jsonFromStr content = .ok before →
      before.pendingDueAt = none ∨ before.pendingRunId = none) :
    (solo crates place (Timely crates place) t).Triple t (Unwritten raw config n)
      (scanDue crates place snapshot startup).run
      (post (fun _ => Left crates raw n) fun _ => Left crates raw n) := by
  refine Triple.except_bind (solo_unwritten (uses_dueScanRun crates _ _)) (fun found => ?_)
    fun _ _ _ h => h.left
  match found with
  | none => exact Triple.done (a := Except.ok ()) fun _ _ h => h.left
  | some (runId, dueAt) =>
    cases startup with
    | true =>
      refine Triple.except_bind (solo_unwritten (uses_loopIsCurrentForDelivery crates _))
        (fun here => ?_) fun _ _ _ h => h.left
      split_ifs
      · exact Triple.done (a := Except.ok ()) fun _ _ h => h.left
      · exact (solo_recordMissedWhileClosed _ _ _ _ _ (.inr hrest)).conseq
          (fun _ _ h => h.left) fun _ _ h => h
    | false =>
      refine Triple.except_bind (solo_unwritten (uses_up (light_call rfl))) (fun started => ?_)
        fun _ _ _ h => h.left
      refine Triple.except_bind (solo_unwritten (uses_loopIsCurrentForDelivery crates _))
        (fun here => ?_) fun _ _ _ h => h.left
      split_ifs
      · exact Triple.done (a := Except.ok ()) fun _ _ h => h.left
      refine Triple.except_bind (Triple.lift (E := fun (_ : String) => Left crates raw n)
        (solo_deliver _ runId dueAt)) (fun report => ?_) fun _ _ _ h => h
      rintro s hi ⟨h, hends, -⟩
      refine Triple.except_bind (solo_applyDeliveryReport _ _ _ _ _ _ hends fun _ => hrest)
        (fun _ => ?_) (fun _ _ _ h => h) s hi h.left
      exact Triple.done (a := Except.ok ()) fun _ _ h => h

/-- What a snapshot tells. -/
def Told (crates : Crates) (raw config : Option Bytes) (n : ℕ)
    (r : Except String (Option LoopScanSnapshot)) (s : System) : Prop :=
  Unwritten raw config n s ∧ ∀ snapshot, r = .ok (some snapshot) → Known crates raw config snapshot

theorem kept_told (r : Except String (Option LoopScanSnapshot)) :
    (solo crates place (Timely crates place) t).Kept t Harmless (Told crates raw config n r) :=
  kept_of_held fun _ _ hs h => ⟨h.1.held hs, h.2⟩

theorem solo_scanSnapshot : (solo crates place (Timely crates place) t).Triple t
    (Unwritten raw config n) (scanSnapshot crates place).run (Told crates raw config n) := by
  refine solo_bracket (o := .acquireIoLock) (q := .releaseIoLock) rfl rfl kept_unwritten
    kept_told ?_
  refine solo_withLoopLock kept_unwritten kept_told (fun _ _ h => ⟨h, fun _ he => nomatch he⟩) ?_
  refine Triple.named (fun s : System => s.world.disk) fun d => ?_
  have hd : (solo crates place (Timely crates place) t).Kept t Light
      fun s => Unwritten raw config n s ∧ s.world.disk = d :=
    kept_of_alone fun _ _ hs h => ⟨h.1.held hs.held, hs.disk.trans h.2⟩
  have hnone : ∀ s : System, Unwritten raw config n s →
      Told crates raw config n (.ok none) s := fun s h => ⟨h, fun _ he => nomatch he⟩
  refine Triple.except_bind (Triple.lift (ε := String)
    (E := fun _ (s : System) => Unwritten raw config n s ∧ s.world.disk = d)
    (Triple.uses hd uses_isDir)) (fun exist => ?_) fun e s _ h => ⟨h.1, fun _ he => nomatch he⟩
  split_ifs
  · exact Triple.done (a := Except.ok none) fun s _ h => hnone s h.1
  refine Triple.except_bind (triple_readLoopConfigIfPresent hd) (fun cfg => ?_)
    fun e s _ h => ⟨h.1, fun _ he => nomatch he⟩
  cases cfg with
  | none => exact Triple.done (a := Except.ok none) fun s _ h => hnone s h.1.1
  | some cfg =>
    rintro s hi ⟨h, hcfg⟩
    obtain ⟨content, hcontent, hparsed⟩ := hcfg cfg rfl
    have hconfig : config = some content := by rw [← h.1.config, World.config, h.2, hcontent]
    have htoml : crates.tomlFromStr content = .ok cfg := by
      unfold parseLoopConfig at hparsed
      cases ht : crates.tomlFromStr content with
      | error e =>
        rw [ht] at hparsed
        cases hparsed
      | ok c =>
        rw [ht] at hparsed
        exact hparsed
    refine Triple.except_bind (triple_readStateSnapshot hd) (fun read => ?_)
      (fun e s _ h => ⟨h.1, fun _ he => nomatch he⟩) s hi h
    rintro s hi ⟨h, hraw, hstate⟩
    have hbytes : read.2 = raw := by rw [hraw, ← h.1.raw, World.raw, h.2]
    have hunwritten := h.1
    refine Triple.except_bind (C := Told crates raw config n)
      (solo_unwritten (uses_up (light_call (o := .loopGeneration) rfl)))
      (fun g => ?_) (fun e s _ h => ⟨h, fun _ he => nomatch he⟩) s hi hunwritten
    refine Triple.except_bind (Triple.uses_except kept_unwritten (uses_up (harmless_call rfl)))
      (fun _ => ?_) fun e s _ h => ⟨h, fun _ he => nomatch he⟩
    refine Triple.done (a := Except.ok (some _)) fun s _ h => ⟨h, fun snapshot he => ?_⟩
    obtain rfl := Option.some.inj (Except.ok.inj he)
    exact ⟨hbytes ▸ hstate, content, hconfig, htoml⟩

/-- What is known when a scan goes on after its entry. -/
theorem solo_replayableDelivery (cfg : LoopConfigToml) (g : ℕ) (s0Raw : Option Bytes) :
    (solo crates place (Timely crates place) t).Triple t (Unwritten raw config n)
      (replayableDelivery cfg g s0Raw) fun found s => Unwritten raw config n s ∧
        ∀ record, found = some record →
          record.delivered.pendingDueAt = none ∧ record.delivered.coalesced = false := by
  refine Triple.bind (B := fun found s => Unwritten raw config n s ∧ ∀ record,
    found = some record → record.delivered.pendingDueAt = none ∧
      record.delivered.coalesced = false) ?_ fun found => ?_
  · refine Triple.call kept_unwritten.1 (fun _ _ _ => rfl) fun s x r s' _ h _ hact => ?_
    have hact : s.act t .peekUnrecordedDelivery x = some (r, s') := hact
    have hr : s.world.unrecordedDelivery = r :=
      (Prod.mk.inj (Option.some.inj (act_eq hact).1)).1
    exact ⟨h.held (held_of_harmless rfl hact), fun record hrecord =>
      h.settled record (hr.trans hrecord)⟩
  cases found with
  | none => exact Triple.done fun s _ h => ⟨h.1, fun _ he => nomatch he⟩
  | some record =>
    have hnone : (solo crates place (Timely crates place) t).Triple t
        (fun s => Unwritten raw config n s ∧ ∀ r, some record = some r →
          r.delivered.pendingDueAt = none ∧ r.delivered.coalesced = false)
        (do let _ ← takeUnrecordedDelivery; return none : LoopProgram (Option UnrecordedDelivery))
        fun found s => Unwritten raw config n s ∧ ∀ r, found = some r →
          r.delivered.pendingDueAt = none ∧ r.delivered.coalesced = false := by
      refine Triple.bind ((Triple.uses kept_unwritten (harmless_call rfl)).conseq
        (fun _ _ h => h.1) fun _ _ h => h) fun _ => ?_
      exact Triple.done fun s _ h => ⟨h, fun _ he => nomatch he⟩
    dsimp only
    split_ifs
    · exact hnone
    · exact hnone
    · exact Triple.done fun s _ h => h

/-- A scan that goes on has written nothing, over a state it has checked before. -/
theorem solo_finishScanEntry : (solo crates place (Timely crates place) t).Triple t
    (Unwritten raw config n) (finishScanEntry crates place snapshot).run
    (post (fun finished s => if finished then Left crates raw n s
      else Unwritten raw config n s ∧ snapshot.state.lastCheckedAt.isSome = true)
      fun _ => Left crates raw n) := by
  refine Triple.except_bind (Triple.lift (E := fun (_ : String) => Left crates raw n)
    (solo_replayableDelivery _ _ _)) (fun found => ?_) fun _ _ _ h => h
  rintro s hi ⟨h, hrecord⟩
  cases found with
  | some record =>
    obtain ⟨hp, hc⟩ := hrecord record rfl
    refine Triple.except_bind (solo_retryUnrecordedDelivery record _ _ hc hp) (fun _ => ?_)
      (fun _ _ _ h => h) s hi h.left
    exact Triple.done (a := Except.ok true) fun _ _ h => h
  | none =>
    dsimp only
    by_cases hon : (!snapshot.config.loopDef.enabled) = true
    · rw [if_pos hon]
      exact Triple.done (a := Except.ok true) (fun _ _ h => h.left) s hi h
    rw [if_neg hon]
    by_cases hchecked : snapshot.state.lastCheckedAt.isNone = true
    · rw [if_pos hchecked]
      refine Triple.except_bind (solo_commitScanBaseline _ _ _) (fun _ => ?_) (fun _ _ _ h => h)
        s hi h.left
      exact Triple.done (a := Except.ok true) fun _ _ h => h
    · rw [if_neg hchecked]
      refine Triple.done (a := Except.ok false) (fun s _ h => ⟨h, ?_⟩) s hi h
      rw [← Option.not_isNone, Bool.eq_false_iff.mpr hchecked]
      rfl

theorem solo_scanLoop (startup pendingOnly : Bool) :
    (solo crates place (Timely crates place) t).Triple t (Unwritten raw config n)
      (scanLoop crates place startup pendingOnly).run
      (post (fun _ => Left crates raw n) fun _ => Left crates raw n) := by
  refine Triple.except_bind (B := fun found s => match found with
      | none => Left crates raw n s
      | some snapshot => Unwritten raw config n s ∧ Known crates raw config snapshot ∧
          snapshot.state.lastCheckedAt.isSome = true) (E := fun _ => Left crates raw n) ?_
    (fun found => ?_) fun _ _ _ h => h
  · refine Triple.bind solo_scanSnapshot fun r => ?_
    match r with
    | .error e => exact Triple.done (a := Except.error e) fun s _ h => h.1.left
    | .ok none => exact Triple.done (a := Except.ok none) fun s _ h => h.1.left
    | .ok (some snapshot) =>
      rintro s hi ⟨h, hknown⟩
      refine Triple.bind solo_finishScanEntry (fun r => ?_) s hi h
      match r with
      | .error e => exact Triple.done (a := Except.error e) fun s _ h => h
      | .ok true => exact Triple.done (a := Except.ok none) fun s _ h => h
      | .ok false =>
        exact Triple.done (a := Except.ok (some snapshot)) fun s _ h =>
          ⟨h.1, hknown snapshot rfl, h.2⟩
  · match found with
    | none => exact Triple.done (a := Except.ok ()) fun _ _ h => h
    | some snapshot =>
      rintro s hi ⟨h, hknown, hchecked⟩
      have hdue (hrest : snapshot.state.pendingDueAt = none ∨
          snapshot.state.pendingRunId = none) :
          (solo crates place (Timely crates place) t).Triple t (Unwritten raw config n)
            (if !pendingOnly then scanDue crates place snapshot startup else pure () :
              LoopM Unit).run
            (post (fun _ => Left crates raw n) fun _ => Left crates raw n) := by
        split_ifs
        · exact solo_scanDue startup (hknown.rested hrest hchecked)
        · exact Triple.done (a := Except.ok ()) fun s _ h => h.left
      cases hp : snapshot.state.pendingDueAt with
      | none =>
        simp only [hp]
        exact hdue (.inl hp) s hi h
      | some pendingDue =>
        cases hr : snapshot.state.pendingRunId with
        | none =>
          simp only [hp, hr]
          exact hdue (.inr hr) s hi h
        | some pendingRun =>
          simp only [hp, hr]
          exact solo_scanPending hknown hp hr s hi h

/-- One scan writes the state once at most, and only what may follow the stored one. -/
theorem solo_scanOnce (startup pendingOnly : Bool) :
    (solo crates place (Timely crates place) t).Triple t (Unwritten raw config n)
      (scanOnce crates place startup pendingOnly) fun _ => Left crates raw n := by
  refine solo_bracket (o := .acquireScanLock) (q := .releaseScanLock) rfl rfl kept_unwritten
    (fun _ => kept_left) ?_
  refine Triple.bind (solo_scanLoop startup pendingOnly) fun r => ?_
  exact Triple.done fun s _ h => by cases r <;> exact h

/-- What a whole scan leaves. -/
theorem left_of_scan {startup pendingOnly : Bool} {choices : List Choice} {s s' : System} {m : ℕ}
    (hs : Settled s.world) (hrun : (loopPlatform crates place).run (timely crates) (.app m)
      (scanOnce crates place startup pendingOnly) choices s = some s') :
    Left crates s.world.raw s.writes s' :=
  Safe.of_run (G := solo crates place (Timely crates place) (.app m)) (fun _ _ _ _ h => h) trivial
    (solo_scanOnce startup pendingOnly s trivial ⟨rfl, rfl, hs, rfl⟩) hrun

/-- The due times of a run, and what is stored of the last of them. -/
structure Dated (crates : Crates) (s : System) (dues : List DateTime) : Prop where
  settled : Settled s.world
  descending : dues.Pairwise (· > ·)
  stored : ∀ due ∈ dues.head?, ∃ content state, s.world.raw = some content ∧
    crates.jsonFromStr content = .ok state ∧ state.lastDueAt = some due

theorem dated_joined (hreads : crates.ReadsBack) {s s' : System} {dues : List DateTime}
    (h : Dated crates s dues) (hleft : Left crates s.world.raw s.writes s') :
    Dated crates s' (joined crates s s' dues) := by
  unfold joined
  rcases hleft.outcome with ⟨hraw, hwrites⟩ | ⟨hwrites, state, bytes, hraw, hbytes, hfollows⟩
  · rw [if_pos hwrites.symm]
    exact ⟨hleft.settled, h.descending, hraw ▸ h.stored⟩
  · obtain ⟨text, htext, -, hparse⟩ := hreads.state state
    obtain rfl := Except.ok.inj (hbytes.symm.trans htext)
    rw [if_neg (Nat.ne_of_lt hwrites), hraw, Option.map_some, hparse]
    dsimp only
    split_ifs with hc
    · obtain ⟨content, before, due, hcontent, hbefore, hdue, hnew⟩ := hfollows.coalesced hc
      rw [hdue, Option.toList_some, List.singleton_append]
      refine ⟨hleft.settled, List.pairwise_cons.mpr ⟨fun old hold => ?_, h.descending⟩,
        fun last hlast => ?_⟩
      · cases dues with
        | nil => exact absurd hold List.not_mem_nil
        | cons last older =>
          obtain ⟨content', before', hcontent', hbefore', hlast⟩ := h.stored last rfl
          obtain rfl := Option.some.inj (hcontent.symm.trans hcontent')
          obtain rfl := Except.ok.inj (hbefore.symm.trans hbefore')
          have hlt := hnew last hlast
          rcases List.mem_cons.mp hold with rfl | hold
          · exact hlt
          · exact ((List.pairwise_cons.mp h.descending).1 old hold).trans hlt
      · obtain rfl := Option.some.inj hlast
        exact ⟨bytes, state, hraw, hparse, hdue⟩
    · exact ⟨hleft.settled, List.Pairwise.nil, fun _ hd => absurd hd (Option.not_mem_none _)⟩

theorem dated_run (hreads : crates.ReadsBack) {s : System} {dues : List DateTime}
    (h : Scans crates place (timely crates) s dues) : Dated crates s dues := by
  induction h with
  | start hs => exact ⟨hs, List.Pairwise.nil, fun _ hd => absurd hd (Option.not_mem_none _)⟩
  | scan m startup pendingOnly choices _ hrun ih =>
    exact dated_joined hreads ih (left_of_scan ih.settled hrun)
  | others _ hs hraw ih => exact ⟨hs, ih.descending, hraw ▸ ih.stored⟩
  | replaced _ hs _ => exact ⟨hs, List.Pairwise.nil, fun _ hd => absurd hd (Option.not_mem_none _)⟩

/-- Where each coalescing scan has a due time after the Loop's last one, none joins the pending
run twice. -/
theorem coalesced_once_run (hreads : crates.ReadsBack) {s : System} {dues : List DateTime}
    (h : Scans crates place (timely crates) s dues) : dues.Nodup :=
  (dated_run hreads h).descending.imp fun hlt => ne_of_gt hlt

end

/-- The bytes of a state: those of the table as they are on disk, the others by number. -/
def tableBytes (table : List (LoopState × String)) (state : LoopState) : Bytes :=
  match table.find? (·.1 = state) with
  | some entry => bytesOf entry.2
  | none => bytesOf (String.ofList (List.replicate (Encodable.encode state) '1'))

def tableState (table : List (LoopState × String)) (bytes : Bytes) : Option LoopState :=
  match table.find? fun entry => bytesOf entry.2 = bytes with
  | some entry => some entry.1
  | none => (textOf bytes).bind fun text => Encodable.decode text.toList.length

theorem tableState_tableBytes {table : List (LoopState × String)}
    (hbrace : ∀ entry ∈ table, (123 : UInt8) ∈ bytesOf entry.2)
    (hinj : ∀ entry ∈ table, ∀ other ∈ table, bytesOf entry.2 = bytesOf other.2 → entry = other)
    (state : LoopState) : tableState table (tableBytes table state) = some state := by
  unfold tableBytes
  cases hs : table.find? (·.1 = state) with
  | some entry =>
    have hmem := List.mem_of_find?_eq_some hs
    have hstate : entry.1 = state := by simpa using List.find?_some hs
    have hfind : table.find? (fun other => bytesOf other.2 = bytesOf entry.2) = some entry := by
      obtain ⟨other, hother⟩ := Option.isSome_iff_exists.mp
        (List.find?_isSome.mpr ⟨entry, hmem, decide_eq_true rfl⟩ :
          (table.find? fun other => bytesOf other.2 = bytesOf entry.2).isSome)
      have heq : bytesOf other.2 = bytesOf entry.2 := by simpa using List.find?_some hother
      rw [hother, hinj other (List.mem_of_find?_eq_some hother) entry hmem heq]
    simp only [tableState, hfind, hstate]
  | none =>
    have hfind : table.find? (fun entry => bytesOf entry.2 =
        bytesOf (String.ofList (List.replicate (Encodable.encode state) '1'))) = none := by
      rw [List.find?_eq_none]
      intro entry hentry heq
      have hone := digits_bytesOf (of_decide_eq_true heq ▸ hbrace entry hentry)
      exact absurd hone (by decide)
    simp only [tableState, hfind, textOf_bytesOf, Option.bind_some, String.toList_ofList,
      List.length_replicate, Encodable.encodek]

theorem valid_tableBytes (table : List (LoopState × String)) (state : LoopState) :
    ByteArray.validateUTF8 ⟨(tableBytes table state).toArray⟩ = true := by
  unfold tableBytes
  split <;> exact valid_bytesOf _

/-- The run of `pendingState`, coalesced with the next minute. -/
def coalescedState (now : DateTime) : LoopState :=
  { pendingState with
    lastCheckedAt := some now
    lastDueAt := some (2 * minute)
    nextDueAt := some (3 * minute)
    lastResult := some
      { kind := "coalescedPending"
        message := "A new due time occurred while the prior run was still pending" } }

def coalescedText (checked : String) : String :=
  "\x7b\n  \"lastCheckedAt\": \"" ++ checked ++ "\",\n" ++
  "  \"lastDueAt\": \"1970-01-01T00:02:00Z\",\n  \"lastDeliveredAt\": null,\n" ++
  "  \"lastResult\": \x7b\n    \"kind\": \"coalescedPending\",\n    \"message\": " ++
  "\"A new due time occurred while the prior run was still pending\"\n  \x7d,\n" ++
  "  \"pendingDueAt\": \"1970-01-01T00:01:00Z\",\n" ++
  "  \"pendingRunId\": \"00000000-0000-0000-0000-000000000007\",\n" ++
  "  \"lastMissedClosedAt\": null,\n  \"nextDueAt\": \"1970-01-01T00:03:00Z\"\n\x7d"

/-- Two scans ten and thirty nanoseconds after the second minute. -/
def coalescedTable : List (LoopState × String) :=
  [(pendingState, pendingText),
    (coalescedState (2 * minute + 10), coalescedText "1970-01-01T00:02:00.000000010Z"),
    (coalescedState (2 * minute + 30), coalescedText "1970-01-01T00:02:00.000000030Z")]

def coalescingCrates : Crates :=
  { minuteCrates with
    jsonFromStr bytes := (tableState coalescedTable bytes).elim (.error "json") .ok
    jsonToString state := .ok (tableBytes coalescedTable state) }

theorem coalescingCrates_readsBack : coalescingCrates.ReadsBack where
  state s := ⟨_, rfl, valid_tableBytes _ s, by
    have hbrace : ∀ entry ∈ coalescedTable, (123 : UInt8) ∈ bytesOf entry.2 := by decide +kernel
    have hinj : ∀ entry ∈ coalescedTable, ∀ other ∈ coalescedTable,
        bytesOf entry.2 = bytesOf other.2 → entry = other := by decide +kernel
    simp only [coalescingCrates, tableState_tableBytes hbrace hinj, Option.elim_some]⟩

def busyReport : LoopDeliveryReport := { dailyReport with kind := .pendingBusy }

/-- One scan that finds the run pending, at the given time. -/
def busyScan (check : Thread → Act → Choice → System → Bool) (now : DateTime) (rest : ℕ)
    (s : System) : Option System :=
  (loopPlatform coalescingCrates dailyPlace).run check (.app 0)
    (scanOnce coalescingCrates dailyPlace false false)
    (List.replicate 19 .ok ++ [.time now, .report busyReport] ++ List.replicate 4 .ok ++
      [.time now] ++ List.replicate rest .ok) s

theorem settled_pendingSystem : Settled pendingSystem.world := by
  have hnone : pendingSystem.world.unrecordedDelivery = none := rfl
  intro record hrecord
  rw [hnone] at hrecord
  exact absurd hrecord (Option.not_mem_none record)

theorem scans_busyScan {check : Thread → Act → Choice → System → Bool} {now : DateTime} {rest : ℕ}
    {s s' : System} {dues : List DateTime} (h : Scans coalescingCrates dailyPlace check s dues)
    (hrun : busyScan check now rest s = some s') :
    Scans coalescingCrates dailyPlace check s' (joined coalescingCrates s s' dues) :=
  .scan 0 false false _ h hrun

theorem coalesced_once_run_minute : ∃ s : System,
    Scans coalescingCrates dailyPlace (timely coalescingCrates) s [2 * minute] ∧
      [2 * minute].Nodup := by
  have hrun : (busyScan (timely coalescingCrates) (2 * minute + 10) 23 pendingSystem).any
      (fun s => joined coalescingCrates pendingSystem s [] = [2 * minute]) = true := by
    decide +kernel
  cases hs : busyScan (timely coalescingCrates) (2 * minute + 10) 23 pendingSystem with
  | none =>
    rw [hs] at hrun
    exact nomatch hrun
  | some s =>
    rw [hs, Option.any_some, decide_eq_true_eq] at hrun
    have hscans := scans_busyScan (.start settled_pendingSystem) hs
    rw [hrun] at hscans
    exact ⟨s, hscans, coalesced_once_run coalescingCrates_readsBack hscans⟩

/-- Two scans of one minute coalesce the same due time, each with its event. -/
theorem coalesced_again : ∃ crates place s dues, crates.ReadsBack ∧
    Scans crates place reportable s dues ∧
      s.trace.history.count (.emitted "coalesced") = 2 ∧ ¬dues.Nodup := by
  have hrun : (busyScan reportable (2 * minute + 10) 23 pendingSystem).any (fun first =>
      (busyScan reportable (2 * minute + 30) 22 first).any fun second =>
        second.trace.history.count (.emitted "coalesced") = 2 ∧
          joined coalescingCrates first second (joined coalescingCrates pendingSystem first []) =
            [2 * minute, 2 * minute]) = true := by decide +kernel
  cases hf : busyScan reportable (2 * minute + 10) 23 pendingSystem with
  | none =>
    rw [hf] at hrun
    exact nomatch hrun
  | some first =>
    rw [hf, Option.any_some] at hrun
    cases hs : busyScan reportable (2 * minute + 30) 22 first with
    | none =>
      rw [hs] at hrun
      exact nomatch hrun
    | some second =>
      rw [hs, Option.any_some, decide_eq_true_eq] at hrun
      have hscans := scans_busyScan (scans_busyScan (.start settled_pendingSystem) hf) hs
      rw [hrun.2] at hscans
      exact ⟨coalescingCrates, dailyPlace, second, _, coalescingCrates_readsBack, hscans, hrun.1,
        by simp⟩

end AgentsCommander.Loops
