import AgentsCommander.Loops.Trace

/-! What one action may change, the lock it needs for that, and what the holder of a lock
may rely on. -/
namespace AgentsCommander.Loops
open Foundation

def Thread.isApp : Thread → Bool
  | .app _ => true
  | .cli _ => false

def Act.changesDisk : Act → Bool
  | .createDirectory | .replace _ _ | .removeDirectory | .moveLegacyState | .appendLine _
  | .appendNewline => true
  | _ => false

def Act.changesRecord : Act → Bool
  | .keepUnrecordedDelivery _ | .takeUnrecordedDelivery => true
  | _ => false

def Act.reports : Act → Bool
  | .note (.reportApplied _ _ _ _) => true
  | _ => false

/-- The directory changes under the Loop lock, the generation under the I/O lock, the
recorded delivery under the scan lock, where reports are also applied; only the application
takes the last two. -/
structure Disciplined (t : Thread) (o : Act) (w : World) : Prop where
  disk : o.changesDisk = true → w.loopLock = some t
  generation : o = .bumpLoopGeneration → w.ioLock = some t
  record : o.changesRecord = true → w.scanLock = some t
  report : o.reports = true → w.scanLock = some t
  scanLock : o = .acquireScanLock → t.isApp = true
  ioLock : o = .acquireIoLock → t.isApp = true

/-- A lock is left alone, taken when free, or given back by its holder. -/
def LockStep (t : Thread) (taken given : Prop) (lock lock' : Option Thread) : Prop :=
  lock' = lock ∨ (taken ∧ lock = none ∧ lock' = some t) ∨ (given ∧ lock = some t ∧ lock' = none)

structure WorldStep (t : Thread) (o : Act) (w w' : World) : Prop where
  scan : LockStep t (o = .acquireScanLock) (o = .releaseScanLock) w.scanLock w'.scanLock
  io : LockStep t (o = .acquireIoLock) (o = .releaseIoLock) w.ioLock w'.ioLock
  loop : LockStep t (o = .openLoopLock) (o = .releaseLoopLock) w.loopLock w'.loopLock
  disk : o.changesDisk = false → w'.disk = w.disk
  generation : o ≠ .bumpLoopGeneration → w'.generation = w.generation
  record : o.changesRecord = false → w'.unrecordedDelivery = w.unrecordedDelivery

theorem lockStep_same {t : Thread} {p q : Prop} (lock : Option Thread) : LockStep t p q lock lock :=
  .inl rfl

private theorem worldStep_same (t : Thread) (o : Act) (w : World) : WorldStep t o w w :=
  ⟨lockStep_same _, lockStep_same _, lockStep_same _, fun _ => rfl, fun _ => rfl, fun _ => rfl⟩

private theorem worldStep_disk {t : Thread} {o : Act} (ho : o.changesDisk = true) (w : World)
    (d : Option LoopDirectory) : WorldStep t o w { w with disk := d } :=
  ⟨lockStep_same _, lockStep_same _, lockStep_same _, fun h => absurd (ho.symm.trans h) nofun,
    fun _ => rfl, fun _ => rfl⟩

/-- A change of the directory sets the directory, or nothing. -/
theorem change_world (w : World) (x : Choice) (f : LoopDirectory → LoopDirectory) :
    (w.change x f).2 = w ∨ ∃ d, w.disk = some d ∧ (w.change x f) =
      (.ok (), { w with disk := some (f d) }) := by
  unfold World.change
  split_ifs with hx
  · exact .inl rfl
  · cases hd : w.disk with
    | none => exact .inl rfl
    | some d => exact .inr ⟨d, rfl, rfl⟩

private theorem worldStep_change {t : Thread} {o : Act} (ho : o.changesDisk = true) (w : World)
    (x : Choice) (f : LoopDirectory → LoopDirectory) : WorldStep t o w (w.change x f).2 := by
  obtain h | ⟨d, -, h⟩ := change_world w x f
  · rw [h]
    exact worldStep_same t o w
  · rw [h]
    exact worldStep_disk ho w _

private theorem worldStep_createDirectory (t : Thread) (w : World) (x : Choice) :
    WorldStep t .createDirectory w (w.createDirectory x).2 := by
  unfold World.createDirectory
  split_ifs with hx
  · exact worldStep_same t _ w
  · exact worldStep_disk rfl w _

private theorem worldStep_removeDirectory (t : Thread) (w : World) (x : Choice) :
    WorldStep t .removeDirectory w (w.removeDirectory x).2 := by
  unfold World.removeDirectory
  split
  · exact worldStep_same t _ w
  · exact worldStep_same t _ w
  · exact worldStep_disk rfl w _
  · exact worldStep_disk rfl w _

private theorem worldStep_moveLegacyState (t : Thread) (w : World) (x : Choice) :
    WorldStep t .moveLegacyState w (w.moveLegacyState x) := by
  unfold World.moveLegacyState
  split
  · exact worldStep_same t _ w
  · exact worldStep_disk rfl w _
  · exact worldStep_disk rfl w _

private theorem worldStep_appendLine (t : Thread) (entry : LoopAuditEntry) (w : World) (x : Choice) :
    WorldStep t (.appendLine entry) w (w.appendLine entry x).2 := by
  unfold World.appendLine
  split
  · exact worldStep_same t _ w
  · exact worldStep_same t _ w
  · exact worldStep_disk rfl w _
  · exact worldStep_disk rfl w _

theorem world_eq {α : Type} {p : α × World} {r : α} {w : World}
    (h : some p = some (r, w)) : p.2 = w := congrArg Prod.snd (Option.some.inj h)

/-- What one action may change. -/
theorem worldStep {t : Thread} {o : Act} {x : Choice} {w w' : World} {r : o.Res}
    (h : w.act t o x = some (r, w')) : WorldStep t o w w' := by
  cases o with
  | acquireScanLock =>
    simp only [World.act] at h
    split_ifs at h with hl
    obtain ⟨-, rfl⟩ := Prod.mk.inj (Option.some.inj h)
    exact { worldStep_same t .acquireScanLock w with scan := .inr (.inl ⟨rfl, hl, rfl⟩) }
  | acquireIoLock =>
    simp only [World.act] at h
    split_ifs at h with hl
    obtain ⟨-, rfl⟩ := Prod.mk.inj (Option.some.inj h)
    exact { worldStep_same t .acquireIoLock w with io := .inr (.inl ⟨rfl, hl, rfl⟩) }
  | openLoopLock =>
    simp only [World.act] at h
    split_ifs at h with hx hl
    · obtain ⟨-, rfl⟩ := Prod.mk.inj (Option.some.inj h)
      exact worldStep_same t _ w
    · obtain ⟨-, rfl⟩ := Prod.mk.inj (Option.some.inj h)
      exact { worldStep_same t .openLoopLock w with loop := .inr (.inl ⟨rfl, hl, rfl⟩) }
  | releaseScanLock =>
    obtain ⟨-, rfl⟩ := Prod.mk.inj (Option.some.inj h)
    split_ifs with hl
    · exact { worldStep_same t .releaseScanLock w with scan := .inr (.inr ⟨rfl, hl, rfl⟩) }
    · exact worldStep_same t _ w
  | releaseIoLock =>
    obtain ⟨-, rfl⟩ := Prod.mk.inj (Option.some.inj h)
    split_ifs with hl
    · exact { worldStep_same t .releaseIoLock w with io := .inr (.inr ⟨rfl, hl, rfl⟩) }
    · exact worldStep_same t _ w
  | releaseLoopLock =>
    obtain ⟨-, rfl⟩ := Prod.mk.inj (Option.some.inj h)
    split_ifs with hl
    · exact { worldStep_same t .releaseLoopLock w with loop := .inr (.inr ⟨rfl, hl, rfl⟩) }
    · exact worldStep_same t _ w
  | bumpLoopGeneration =>
    obtain ⟨-, rfl⟩ := Prod.mk.inj (Option.some.inj h)
    exact { worldStep_same t .bumpLoopGeneration w with generation := fun hn => absurd rfl hn }
  | keepUnrecordedDelivery record =>
    obtain ⟨-, rfl⟩ := Prod.mk.inj (Option.some.inj h)
    exact { worldStep_same t (.keepUnrecordedDelivery record) w with record := nofun }
  | takeUnrecordedDelivery =>
    obtain ⟨-, rfl⟩ := Prod.mk.inj (Option.some.inj h)
    exact { worldStep_same t .takeUnrecordedDelivery w with record := nofun }
  | createDirectory =>
    rw [← world_eq h]
    exact worldStep_createDirectory t w x
  | removeDirectory =>
    rw [← world_eq h]
    exact worldStep_removeDirectory t w x
  | moveLegacyState =>
    rw [← world_eq h]
    exact worldStep_moveLegacyState t w x
  | appendLine entry =>
    rw [← world_eq h]
    exact worldStep_appendLine t entry w x
  | replace f bytes =>
    rw [← world_eq h]
    exact worldStep_change rfl w x _
  | appendNewline =>
    rw [← world_eq h]
    exact worldStep_change rfl w x _
  | stage =>
    have hw : w' = w := by
      rw [← world_eq h]
      obtain hc | ⟨d, hd, hc⟩ := change_world w x id
      · exact hc
      · rw [hc, id, ← hd]
    rw [hw]
    exact worldStep_same t _ w
  | now =>
    cases x <;> cases h
    exact worldStep_same t _ w
  | newUuid =>
    cases x <;> cases h
    exact worldStep_same t _ w
  | deliver origin config run due =>
    cases x <;> cases h
    exact worldStep_same t _ w
  | canonicalLoopRoot | loopGeneration | isDir | isFile f | readDocument f | readBytes f
  | auditExists | readAudit | resolveLoopTarget wg | peekUnrecordedDelivery | emit k m | note n =>
    obtain ⟨-, rfl⟩ := Prod.mk.inj (Option.some.inj h)
    exact worldStep_same t _ w

/-- The marks of a thread stay, and the history only grows. -/
structure TraceFrame (u : Thread) (tr tr' : Trace) : Prop where
  snapshot : tr'.snapshot u = tr.snapshot u
  commit : tr'.commit u = tr.commit u
  underway : tr'.underway u = tr.underway u
  prepared : tr'.prepared u = tr.prepared u
  history : tr.history <:+ tr'.history

theorem TraceFrame.refl (u : Thread) (tr : Trace) : TraceFrame u tr tr :=
  ⟨rfl, rfl, rfl, rfl, List.suffix_refl _⟩

private theorem traceFrame_say (u : Thread) (tr : Trace) (e : Event) : TraceFrame u tr (tr.say e) :=
  ⟨rfl, rfl, rfl, rfl, List.suffix_cons e _⟩

private theorem traceFrame_noted {t u : Thread} (hu : u ≠ t) (tr : Trace) (w : World) (n : Note) :
    TraceFrame u tr (tr.noted t w n) := by
  cases n with
  | snapshot generation raw =>
    exact { TraceFrame.refl u tr with snapshot := Function.update_of_ne hu _ _ }
  | commitEntered =>
    exact { TraceFrame.refl u tr with
      commit := Function.update_of_ne hu _ _, history := List.suffix_cons _ _ }
  | commitLeft => exact { TraceFrame.refl u tr with commit := Function.update_of_ne hu _ _ }
  | prepared after => exact { TraceFrame.refl u tr with prepared := Function.update_of_ne hu _ _ }
  | reportApplied config generation raw failed =>
    simp only [Trace.noted, Trace.reported]
    split
    · exact { TraceFrame.refl u tr with underway := Function.update_of_ne hu _ _ }
    · exact { TraceFrame.refl u tr with underway := Function.update_of_ne hu _ _ }

theorem traceFrame_record {t u : Thread} (hu : u ≠ t) (tr : Trace) (w w' : World) (o : Act)
    (r : o.Res) : TraceFrame u tr (tr.record t w w' o r) := by
  unfold Trace.record
  split
  · exact traceFrame_say u tr _
  · exact traceFrame_say u tr _
  · split_ifs
    · exact TraceFrame.refl u tr
    · exact traceFrame_say u tr _
  · refine ⟨rfl, rfl, Function.update_of_ne hu _ _, Function.update_of_ne hu _ _, ?_⟩
    exact (List.suffix_cons _ _).trans (List.suffix_append _ _)
  · exact traceFrame_say u tr _
  · exact traceFrame_noted hu tr w _
  · exact TraceFrame.refl u tr

theorem traceFrame_observe {t u : Thread} (hu : u ≠ t) (tr : Trace) (w w' : World) (o : Act)
    (r : o.Res) : TraceFrame u tr (tr.observe t w w' o r) := by
  have h := traceFrame_record hu (tr.keepUndisturbed w w' (stateWrite o r)) w w' o r
  exact ⟨h.snapshot, h.commit, h.underway, h.prepared, h.history⟩

/-- The delivery is still outstanding, and nothing else of the Loop changed. -/
structure Delivery.Lasts (d : Delivery) (s s' : System) : Prop where
  mem : d ∈ s.trace.outstanding
  config : s'.world.config = s.world.config
  generation : s'.world.generation = s.world.generation
  raw : s'.world.raw = s.world.raw ∨ s'.world.raw = d.after

/-- No delivery was added to those outstanding. -/
def Lasting (s s' : System) : Prop := ∀ d ∈ s'.trace.outstanding, d.Lasts s s'

theorem lasts_of_undisturbed {d : Delivery} {s s' : System} {written : Option Bytes}
    (hm : d ∈ s.trace.outstanding) (h : d.undisturbed s.world s'.world written = true) :
    d.Lasts s s' := by
  unfold Delivery.undisturbed at h
  simp only [Bool.and_eq_true, beq_iff_eq] at h
  refine ⟨hm, h.1.1, h.1.2, ?_⟩
  cases written with
  | none => exact .inl (by simpa using h.2)
  | some bytes =>
    have h := h.2
    simp only [Bool.and_eq_true, beq_iff_eq] at h
    exact .inr (h.2.trans h.1.symm)

theorem Trace.outstanding_record (tr : Trace) (t : Thread) (w w' : World) {o : Act} (r : o.Res)
    (ho : o.reports = false) : (tr.record t w w' o r).outstanding = tr.outstanding := by
  unfold Trace.record
  split
  · rfl
  · rfl
  · split_ifs <;> rfl
  · rfl
  · rfl
  · rename_i n _
    cases n <;> first
      | rfl
      | exact absurd ho.symm Bool.false_ne_true
  · rfl

/-- What a thread may count on while the others act: the locks it holds, what they guard,
and its own marks. -/
structure Rely (t : Thread) (s s' : System) : Prop where
  scan : s'.world.scanLock = some t ↔ s.world.scanLock = some t
  io : s'.world.ioLock = some t ↔ s.world.ioLock = some t
  loop : s'.world.loopLock = some t ↔ s.world.loopLock = some t
  record : s.world.scanLock = some t →
    s'.world.unrecordedDelivery = s.world.unrecordedDelivery
  generation : s.world.ioLock = some t → s'.world.generation = s.world.generation
  disk : s.world.loopLock = some t → s'.world.disk = s.world.disk
  lasting : s.world.scanLock = some t → Lasting s s'
  trace : TraceFrame t s.trace s'.trace

theorem LockStep.other {t u : Thread} (hu : u ≠ t) {p q : Prop} {lock lock' : Option Thread}
    (h : LockStep t p q lock lock') : lock' = some u ↔ lock = some u := by
  rcases h with h | ⟨-, hl, hl'⟩ | ⟨-, hl, hl'⟩
  · rw [h]
  · simp only [hl, hl', Option.some.injEq, reduceCtorEq, iff_false]
    exact fun h => hu h.symm
  · simp only [hl, hl', Option.some.injEq, reduceCtorEq, false_iff]
    exact fun h => hu h.symm

theorem act_eq {t : Thread} {o : Act} {x : Choice} {s s' : System} {r : o.Res}
    (h : s.act t o x = some (r, s')) : s.world.act t o x = some (r, s'.world) ∧
      s'.trace = s.trace.observe t s.world s'.world o r := by
  unfold System.act at h
  cases ha : s.world.act t o x with
  | none => rw [ha] at h; cases h
  | some rw' =>
    rw [ha] at h
    obtain ⟨rfl, rfl⟩ := Prod.mk.inj (Option.some.inj h)
    exact ⟨rfl, rfl⟩

theorem lasting_of_act {t : Thread} {o : Act} {x : Choice} {s s' : System} {r : o.Res}
    (h : s.act t o x = some (r, s')) (ho : o.reports = false) : Lasting s s' := by
  intro d hd
  rw [(act_eq h).2, Trace.observe, Trace.outstanding_record _ _ _ _ _ ho] at hd
  obtain ⟨hm, hu⟩ := List.mem_filter.mp hd
  exact lasts_of_undisturbed hm hu

/-- A disciplined action of one thread leaves the others what they rely on. -/
theorem rely_of_act {t u : Thread} {o : Act} {x : Choice} {s s' : System} {r : o.Res}
    (hd : Disciplined t o s.world) (h : s.act t o x = some (r, s')) (hu : u ≠ t) :
    Rely u s s' := by
  obtain ⟨hw, htr⟩ := act_eq h
  have step := worldStep hw
  have free : ∀ lock : Option Thread, lock = some t → lock ≠ some u :=
    fun lock hl hl' => hu (Option.some.inj (hl'.symm.trans hl))
  refine ⟨step.scan.other hu, step.io.other hu, step.loop.other hu, fun hl => ?_, fun hl => ?_,
    fun hl => ?_, fun hl => ?_, ?_⟩
  · cases hc : o.changesRecord with
    | false => exact step.record hc
    | true => exact absurd hl (free _ (hd.record hc))
  · by_cases hb : o = .bumpLoopGeneration
    · exact absurd hl (free _ (hd.generation hb))
    · exact step.generation hb
  · cases hc : o.changesDisk with
    | false => exact step.disk hc
    | true => exact absurd hl (free _ (hd.disk hc))
  · cases hc : o.reports with
    | false => exact lasting_of_act h hc
    | true => exact absurd hl (free _ (hd.report hc))
  · rw [htr]
    exact traceFrame_observe hu _ _ _ _ _

/-- No CLI command holds the scheduler's locks. -/
def CliFree (w : World) : Prop := ∀ n, w.scanLock ≠ some (.cli n) ∧ w.ioLock ≠ some (.cli n)

theorem LockStep.cliFree {t : Thread} {p q : Prop} {lock lock' : Option Thread}
    (h : LockStep t p q lock lock') (hp : p → t.isApp = true) {n : ℕ}
    (hl : lock ≠ some (.cli n)) : lock' ≠ some (.cli n) := by
  rcases h with h | ⟨ht, -, hl'⟩ | ⟨-, -, hl'⟩
  · rw [h]
    exact hl
  · intro hc
    have he : t = .cli n := Option.some.inj (hl'.symm.trans hc)
    rw [he] at hp
    exact absurd (hp ht) nofun
  · rw [hl']
    exact nofun

theorem cliFree_of_act {t : Thread} {o : Act} {x : Choice} {w w' : World} {r : o.Res}
    (hd : Disciplined t o w) (h : w.act t o x = some (r, w')) (hc : CliFree w) : CliFree w' :=
  fun n => ⟨(worldStep h).scan.cliFree hd.scanLock (hc n).1,
    (worldStep h).io.cliFree hd.ioLock (hc n).2⟩

private theorem filter_alive {dead : Thread → Bool} {u : Thread} (hu : dead u = false)
    (lock : Option Thread) : (lock.filter fun t => !dead t) = some u ↔ lock = some u := by
  cases lock with
  | none => simp
  | some t =>
    simp only [Option.filter]
    constructor
    · intro h
      split_ifs at h
      exact h
    · intro h
      obtain rfl := Option.some.inj h
      simp [hu]

theorem lasting_of_kill (dead : Thread → Bool) (s : System) : Lasting s (s.kill dead) := by
  intro d hm
  cases h0 : dead (.app 0) with
  | false =>
    simp only [System.kill, h0] at hm
    exact ⟨hm, rfl, by simp [System.kill, World.kill, h0], .inl rfl⟩
  | true =>
    simp only [System.kill, h0] at hm
    cases hm

/-- What dies leaves the survivors what they rely on. -/
theorem rely_of_kill {dead : Thread → Bool} {s : System} (hd : MayDie dead)
    (hc : CliFree s.world) {u : Thread} (hu : dead u = false) : Rely u s (s.kill dead) := by
  have hcli : dead (.app 0) = true → ∃ n, u = .cli n := by
    intro h0
    rcases hd with ⟨happ, -⟩ | ⟨n, hn⟩
    · cases u with
      | app n => exact absurd ((happ n).symm.trans hu) nofun
      | cli n => exact ⟨n, rfl⟩
    · rw [hn] at h0
      exact absurd h0 (by simp)
  refine ⟨filter_alive hu _, filter_alive hu _, filter_alive hu _, fun hl => ?_, fun hl => ?_,
    fun _ => rfl, fun _ => lasting_of_kill dead s,
    ⟨rfl, by simp [System.kill, hu], by simp [System.kill, hu], rfl, List.suffix_refl _⟩⟩
  · cases h0 : dead (.app 0) with
    | false => simp [System.kill, World.kill, h0]
    | true =>
      obtain ⟨n, rfl⟩ := hcli h0
      exact absurd hl (hc n).1
  · cases h0 : dead (.app 0) with
    | false => simp [System.kill, World.kill, h0]
    | true =>
      obtain ⟨n, rfl⟩ := hcli h0
      exact absurd hl (hc n).2

theorem filter_dead {dead : Thread → Bool} {u : Thread} (hu : dead u = true)
    (lock : Option Thread) : (lock.filter fun t => !dead t) ≠ some u := by
  intro h
  have := Option.filter_eq_some_iff.mp h
  simp [hu] at this

theorem cliFree_of_kill {dead : Thread → Bool} {w : World} (hc : CliFree w) :
    CliFree (w.kill dead) :=
  fun n => ⟨fun h => (hc n).1 (Option.filter_eq_some_iff.mp h).1,
    fun h => (hc n).2 (Option.filter_eq_some_iff.mp h).1⟩

end AgentsCommander.Loops
