import AgentsCommander.Loops.Snapshots

/-! Scans of a Loop one after another: the due times they coalesce into the pending run, and the
thread that scans while no other acts. -/
namespace AgentsCommander.Loops
open Foundation Program Protocol

/-- The state is one a coalescing scan leaves. -/
def LoopState.coalesced (state : LoopState) : Bool :=
  state.lastResult.any (·.kind = "coalescedPending")

/-- The kinds of report a delivery ends in. -/
def LoopDeliveryReport.ends (report : LoopDeliveryReport) : Bool :=
  report.kind ≠ .missedWhileClosed ∧ report.kind ≠ .coalescedPending

/-- The environment answers a delivery with a report it can end in. -/
def reportable (_ : Thread) (o : Act) (x : Choice) (_ : System) : Bool :=
  match o, x with
  | .deliver _ _ _ _, .report report => report.ends
  | _, _ => true

section
variable (crates : Crates)

/-- The latest due time after the pending one was already the Loop's last one. -/
def handled (now : DateTime) (w : World) : Bool :=
  match w.config.map crates.tomlFromStr, w.raw.map crates.jsonFromStr with
  | some (.ok config), some (.ok state) =>
    match state.pendingDueAt, state.pendingRunId with
    | some pendingDue, some _ =>
      match latestDueBetween crates config.trigger.expr pendingDue now with
      | .ok (some newDue) => state.lastDueAt.any (newDue ≤ ·)
      | _ => false
    | _, _ => false
  | _, _ => false

/-- The thread holds the I/O lock after a delivery that found the orchestrator busy. -/
def foundBusy (t : Thread) (s : System) : Bool :=
  s.world.ioLock = some t ∧ (s.trace.underway t).any (·.kind = .pendingBusy)

/-- A scan that found its pending run still busy reads the clock when another due time has come. -/
def timely (t : Thread) (o : Act) (x : Choice) (s : System) : Bool :=
  reportable t o x s &&
    match o, x with
    | .now, .time now => !(foundBusy t s && handled crates now s.world)
    | _, _ => true

end

def Event.writesState : Event → Bool
  | .stateWritten _ _ _ _ => true
  | _ => false

/-- How often the state was written. -/
def System.writes (s : System) : ℕ := s.trace.history.countP Event.writesState

section
variable (crates : Crates) (place : Place)

/-- The due times coalesced into the pending run, newest first, after one more scan. A scan that
writes another state has ended the run. -/
def joined (s s' : System) (dues : List DateTime) : List DateTime :=
  if s.writes = s'.writes then dues
  else match s'.world.raw.map crates.jsonFromStr with
    | some (.ok state) => if state.coalesced then state.lastDueAt.toList ++ dues else []
    | _ => []

/-- A recorded delivery leaves no run pending. -/
def Settled (w : World) : Prop := ∀ record ∈ w.unrecordedDelivery,
  record.delivered.pendingDueAt = none ∧ record.delivered.coalesced = false

/-- Scans of the application, each with what the environment decides. Between two of them others
leave the state as it is, or put another in its place. -/
inductive Scans (check : Thread → Act → Choice → System → Bool) : System → List DateTime → Prop
  | start {s : System} : Settled s.world → Scans check s []
  | scan {s s' : System} {dues : List DateTime} (n : ℕ) (startup pendingOnly : Bool)
      (choices : List Choice) : Scans check s dues →
      (loopPlatform crates place).run check (.app n) (scanOnce crates place startup pendingOnly)
        choices s = some s' →
      Scans check s' (joined crates s s' dues)
  | others {s s' : System} {dues : List DateTime} : Scans check s dues → Settled s'.world →
      s'.world.raw = s.world.raw → Scans check s' dues
  | replaced {s s' : System} {dues : List DateTime} : Scans check s dues → Settled s'.world →
      Scans check s' []

end

/-- What the scanning thread sees of the system stays, whoever dies. -/
structure Alone (t : Thread) (s s' : System) : Prop where
  disk : s'.world.disk = s.world.disk
  io : s'.world.ioLock = some t ↔ s.world.ioLock = some t
  record : s'.world.unrecordedDelivery = s.world.unrecordedDelivery ∨
    s'.world.unrecordedDelivery = none
  underway : s'.trace.underway t = s.trace.underway t
  writes : s'.writes = s.writes

theorem alone_kill {dead : Thread → Bool} {t : Thread} {s : System} (ht : dead t = false) :
    Alone t s (s.kill dead) where
  disk := rfl
  io := by
    change s.world.ioLock.filter (fun u => !dead u) = some t ↔ _
    rw [Option.filter_eq_some_iff, ht]
    exact and_iff_left rfl
  record := by
    change (if dead (.app 0) then none else s.world.unrecordedDelivery) = _ ∨
      (if dead (.app 0) then none else s.world.unrecordedDelivery) = none
    split_ifs
    · exact .inr rfl
    · exact .inl rfl
  underway := by
    change (if dead t then none else s.trace.underway t) = _
    rw [ht]
    rfl
  writes := rfl

/-- One thread acts, and the others at most die. -/
def solo (crates : Crates) (place : Place) (ok : (loopPlatform crates place).Guard) (t : Thread) :
    Protocol (loopPlatform crates place) ok where
  Inv _ := True
  Allowed u _ _ := u = t
  rely u s s' := u = t → Alone t s s'
  Idle _ _ := True
  keeps _ hu _ _ := ⟨trivial, fun _ hv hvt => absurd (hvt.trans hu.symm) hv⟩
  survives _ _ := ⟨trivial, fun _ hu hut => hut ▸ alone_kill hu, fun _ _ => trivial⟩
  idle_keeps _ _ _ _ := trivial

/-- Actions that leave the state, the configuration and what a recorded delivery may be. -/
def Act.harmless : Act → Bool
  | .replace _ _ | .createDirectory | .removeDirectory | .keepUnrecordedDelivery _ => false
  | _ => true

abbrev Harmless (o : Act) : Prop := o.harmless = true

/-- The state and the configuration are the same, and so is the recorded delivery, if any. -/
structure Held (s s' : System) : Prop where
  raw : s'.world.raw = s.world.raw
  config : s'.world.config = s.world.config
  record : s'.world.unrecordedDelivery = s.world.unrecordedDelivery ∨
    s'.world.unrecordedDelivery = none
  writes : s'.writes = s.writes

theorem Alone.held {t : Thread} {s s' : System} (h : Alone t s s') : Held s s' :=
  ⟨by rw [World.raw, h.disk, World.raw], by rw [World.config, h.disk, World.config], h.record,
    h.writes⟩

theorem writes_of_act {t : Thread} {o : Act} {x : Choice} {s s' : System} {r : o.Res}
    (ho : ∀ f bytes, o ≠ .replace f bytes) (h : s.act t o x = some (r, s')) :
    s'.writes = s.writes := by
  unfold System.writes
  cases commitStep h with
  | plain es hes hh _ _ =>
    have hnone : es.countP Event.writesState = 0 := by
      rw [List.countP_eq_zero]
      intro e he
      have hplain := hes e he
      cases e with
      | stateWritten => exact hplain.elim
      | _ => exact Bool.false_ne_true
    rw [hh, List.countP_append, hnone, Nat.zero_add]
  | entered hh _ _ => rw [hh, List.countP_cons_of_neg (by exact Bool.false_ne_true)]
  | stateWritten f bytes hr _ _ _ _ => exact absurd hr (ho f bytes)
  | auditWritten entry _ hh _ _ =>
    rw [hh, List.countP_cons_of_neg (by exact Bool.false_ne_true)]

theorem alone_of_light {t : Thread} {o : Act} {x : Choice} {s s' : System} {r : o.Res}
    (ho : Light o) (h : s.act t o x = some (r, s')) : Alone t s s' where
  disk := by rw [(still_of_light ho h).world]
  io := by rw [(still_of_light ho h).world]
  record := .inl (by rw [(still_of_light ho h).world])
  underway := (still_of_light ho h).underway
  writes := by
    refine writes_of_act (fun f bytes hr => ?_) h
    rw [hr] at ho
    cases ho

theorem raw_linked (d : LoopDirectory) : d.linked.raw = d.raw := by
  obtain ⟨config, state, legacyState, audit⟩ := d
  cases state <;> cases legacyState <;> rfl

theorem raw_migrated (d : LoopDirectory) : d.migrated.raw = d.raw := by
  obtain ⟨config, state, legacyState, audit⟩ := d
  cases state <;> cases legacyState <;> rfl

theorem raw_map {w : World} {f : LoopDirectory → LoopDirectory} (h : ∀ d, (f d).raw = d.raw) :
    (w.disk.map f).bind LoopDirectory.raw = w.raw := by
  unfold World.raw
  cases w.disk with
  | none => rfl
  | some d => exact h d

theorem config_map {w : World} {f : LoopDirectory → LoopDirectory}
    (h : ∀ d, (f d).config = d.config) :
    (w.disk.map f).bind LoopDirectory.config = w.config := by
  unfold World.config
  cases w.disk with
  | none => rfl
  | some d => exact h d

/-- What a harmless change of the directory leaves. -/
theorem files_of_harmless {t : Thread} {o : Act} {x : Choice} {w w' : World} {r : o.Res}
    (ho : Harmless o) (h : w.act t o x = some (r, w')) :
    w'.raw = w.raw ∧ w'.config = w.config := by
  cases hc : o.changesDisk with
  | false =>
    have hd := (worldStep h).disk hc
    exact ⟨by rw [World.raw, hd, World.raw], by rw [World.config, hd, World.config]⟩
  | true =>
    cases o with
    | moveLegacyState =>
      rw [← world_eq h]
      change (w.moveLegacyState x).raw = w.raw ∧ (w.moveLegacyState x).config = w.config
      unfold World.moveLegacyState
      split
      · exact ⟨rfl, rfl⟩
      · exact ⟨raw_map raw_linked, config_map fun _ => rfl⟩
      · exact ⟨raw_map raw_migrated, config_map fun _ => rfl⟩
    | appendLine entry =>
      rw [← world_eq h]
      unfold World.appendLine
      split
      · exact ⟨rfl, rfl⟩
      · exact ⟨rfl, rfl⟩
      · rename_i hd
        rw [World.raw, World.raw, World.config, World.config, hd]
        exact ⟨rfl, rfl⟩
      · rename_i hd
        rw [World.raw, World.raw, World.config, World.config, hd]
        exact ⟨rfl, rfl⟩
    | appendNewline =>
      rw [← world_eq h]
      unfold World.appendNewline
      obtain hs | ⟨d, hd, hs⟩ := change_world w x
        fun d => { d with audit := d.audit.map fun file => { file with terminated := true } }
      · rw [hs]
        exact ⟨rfl, rfl⟩
      · rw [hs, World.raw, World.raw, World.config, World.config, hd]
        exact ⟨rfl, rfl⟩
    | _ => first
      | exact absurd hc Bool.false_ne_true
      | exact absurd ho Bool.false_ne_true

theorem held_of_harmless {t : Thread} {o : Act} {x : Choice} {s s' : System} {r : o.Res}
    (ho : Harmless o) (h : s.act t o x = some (r, s')) : Held s s' := by
  obtain ⟨hraw, hconfig⟩ := files_of_harmless ho (act_eq h).1
  refine ⟨hraw, hconfig, ?_, writes_of_act (fun f bytes hr => ?_) h⟩
  · cases hc : o.changesRecord with
    | false => exact .inl ((worldStep (act_eq h).1).record hc)
    | true =>
      cases o with
      | takeUnrecordedDelivery =>
        refine .inr ?_
        rw [← world_eq (act_eq h).1]
      | _ => first
        | exact absurd hc Bool.false_ne_true
        | exact absurd ho Bool.false_ne_true
  · rw [hr] at ho
    cases ho

end AgentsCommander.Loops
