import AgentsCommander.Loops.CommitLaw

/-! A delivered run whose commit failed is not delivered again. -/
namespace AgentsCommander.Loops
open Foundation

/-- No scan delivered again a run whose commit had failed. -/
def DeliveryLaw (s : System) : Prop := ∀ d, .redelivered d ∉ s.trace.history

section
variable (crates : Crates)

/-- The configuration on disk, where it parses and is enabled. -/
def Live (w : World) (config : LoopConfigToml) : Prop :=
  ∃ content, w.config = some content ∧ parseLoopConfig crates content = .ok config ∧
    config.loopDef.enabled = true

/-- A scan that reads the state does not find the due time. -/
def Past (state : LoopState) (due : DateTime) : Prop :=
  state.lastCheckedAt = none ∨
    state.pendingDueAt = none ∧ ∃ checked, state.lastCheckedAt = some checked ∧ due ≤ checked

/-- The state the commit was writing has the due time behind it. -/
def Delivery.Settles (d : Delivery) : Prop :=
  ∃ bytes state, d.after = some bytes ∧ crates.jsonFromStr bytes = .ok state ∧ Past state d.dueAt

/-- The next scan finds the delivery in the state, or in the scheduler's memory. -/
structure Delivery.Remembered (d : Delivery) (w : World) : Prop where
  settles : d.Settles crates
  found : ∀ config, Live crates w config → w.raw = d.after ∨
    ∃ record, w.unrecordedDelivery = some record ∧
      record.replayable config w.generation w.raw = true

/-- A delivered run of a scan whose report is being applied, and not yet prepared. -/
def Pending (tr : Trace) (t : Thread) (u : Underway) : Prop :=
  tr.underway t = some u ∧ u.origin = .scan ∧ u.kind = .delivered ∧ tr.prepared t = none

/-- The Loop is as the scan read it, but for what its own commit wrote. -/
structure AsRead (t : Thread) (config : LoopConfigToml) (generation : ℕ) (raw : Option Bytes)
    (s : System) : Prop where
  generation : s.world.generation = generation
  raw : s.world.raw = raw ∨ s.world.raw = s.trace.prepared t
  config : ∀ current, Live crates s.world current → loopDeliveryConfigMatches current config = true

/-- While a delivered run is being recorded: `config.toml` reads and parses, the clock has
reached the due time and the schedule has a next one, and where the commit fails nobody
else changed the Loop in between. -/
structure Undisturbed (t : Thread) (o : Act) (x : Choice) (s : System) : Prop where
  config : ∀ u, Pending s.trace t u → o = .readDocument .config →
    ∃ content config, s.world.readDocument .config x = .ok content ∧
      parseLoopConfig crates content = .ok config
  clock : ∀ u, Pending s.trace t u → o = .now → ∃ now next, x = .time now ∧ u.dueAt ≤ now ∧
    nextDueAfter crates u.config.trigger.expr now = .ok next
  report : ∀ u config generation raw, s.trace.underway t = some u → u.origin = .scan →
    u.kind = .delivered → o = .note (.reportApplied config generation raw true) →
    AsRead crates t config generation raw s

structure DeliveryInv (s : System) : Prop where
  law : DeliveryLaw s
  remembered : ∀ d ∈ s.trace.outstanding, d.Remembered crates s.world

/-- What a thread must know before it acts on deliveries. -/
structure DeliveryAllowed (t : Thread) (o : Act) (s : System) : Prop where
  keep : ∀ record, o = .keepUnrecordedDelivery record → ∀ d ∈ s.trace.outstanding, ∀ config,
    Live crates s.world config → s.world.raw = d.after ∨
      record.replayable config s.world.generation s.world.raw = true
  take : o = .takeUnrecordedDelivery → ∀ d ∈ s.trace.outstanding, ∀ config,
    Live crates s.world config → s.world.raw = d.after
  deliver : ∀ config run due, o = .deliver .scan config run due → ∀ d ∈ s.trace.outstanding,
    d.dueAt ≠ due
  report : ∀ u config generation raw, s.trace.underway t = some u → u.origin = .scan →
    u.kind = .delivered → o = .note (.reportApplied config generation raw true) →
    AsRead crates t config generation raw s →
    Delivery.Remembered crates ⟨u.dueAt, config, generation, raw, s.trace.prepared t⟩ s.world

end

theorem redelivered_of_act {t : Thread} {o : Act} {x : Choice} {s s' : System} {r : o.Res}
    (h : s.act t o x = some (r, s')) {d : Delivery} (hd : .redelivered d ∈ s'.trace.history) :
    .redelivered d ∈ s.trace.history ∨
      ∃ config run due, o = .deliver .scan config run due ∧ d ∈ s.trace.outstanding ∧
        d.dueAt = due := by
  rw [(act_eq h).2, Trace.observe] at hd
  unfold Trace.record at hd
  split at hd
  · exact .inl ((List.mem_cons.mp hd).resolve_left fun he => by cases he)
  · exact .inl ((List.mem_cons.mp hd).resolve_left fun he => by cases he)
  · split_ifs at hd
    · exact .inl hd
    · exact .inl ((List.mem_cons.mp hd).resolve_left fun he => by cases he)
  · rename_i origin config run due report
    rcases List.mem_append.mp hd with hm | hm
    · obtain ⟨d', hm', he⟩ := List.mem_map.mp hm
      obtain rfl := Event.redelivered.inj he
      obtain ⟨hm', hdue⟩ := List.mem_filter.mp hm'
      obtain ⟨rfl, heq⟩ := of_decide_eq_true hdue
      exact .inr ⟨config, run, due, rfl, (List.mem_filter.mp hm').1, heq⟩
    · exact .inl ((List.mem_cons.mp hm).resolve_left fun he => by cases he)
  · exact .inl ((List.mem_cons.mp hd).resolve_left fun he => by cases he)
  · rename_i n _
    cases n with
    | commitEntered => exact .inl ((List.mem_cons.mp hd).resolve_left fun he => by cases he)
    | reportApplied config g raw failed =>
      simp only [Trace.noted, Trace.reported] at hd
      split at hd <;> exact .inl hd
    | snapshot g raw => exact .inl hd
    | commitLeft => exact .inl hd
    | prepared after => exact .inl hd
  · exact .inl hd

theorem Live.of_config {crates : Crates} {w w' : World} {config : LoopConfigToml}
    (h : Live crates w' config) (hc : w'.config = w.config) : Live crates w config := by
  obtain ⟨content, hw, hp⟩ := h
  exact ⟨content, hc ▸ hw, hp⟩

section
variable {crates : Crates} {t : Thread} {o : Act} {x : Choice} {s s' : System} {r : o.Res}

theorem Delivery.Remembered.lasts {d : Delivery} (h : d.Remembered crates s.world)
    (hl : d.Lasts s s') (hr : s'.world.unrecordedDelivery = s.world.unrecordedDelivery) :
    d.Remembered crates s'.world where
  settles := h.settles
  found config hc := by
    rcases hl.raw with hraw | hraw
    · rw [hraw, hl.generation, hr]
      exact h.found config (hc.of_config hl.config)
    · exact .inl hraw

/-- A report adds at most the delivery whose commit failed. -/
theorem outstanding_reported (tr : Trace) (config : LoopConfigToml) (generation : ℕ)
    (raw : Option Bytes) (failed : Bool) {d : Delivery}
    (hd : d ∈ (tr.reported t config generation raw failed).outstanding) :
    d ∈ tr.outstanding ∨ ∃ u, tr.underway t = some u ∧ u.origin = .scan ∧ u.kind = .delivered ∧
      failed = true ∧ d = ⟨u.dueAt, config, generation, raw, tr.prepared t⟩ := by
  unfold Trace.reported at hd
  split at hd
  · rename_i hu
    rcases List.mem_cons.mp hd with rfl | hm
    · exact .inr ⟨_, hu, rfl, rfl, rfl, rfl⟩
    · exact .inl hm
  · exact .inl hd

private theorem remembered_of_report {config : LoopConfigToml} {generation : ℕ}
    {raw : Option Bytes} {failed : Bool}
    {r : (Act.note (.reportApplied config generation raw failed)).Res}
    (hi : DeliveryInv crates s)
    (ha : DeliveryAllowed crates t (.note (.reportApplied config generation raw failed)) s)
    (hok : Undisturbed crates t (.note (.reportApplied config generation raw failed)) x s)
    (h : s.act t (.note (.reportApplied config generation raw failed)) x = some (r, s')) :
    ∀ d ∈ s'.trace.outstanding, d.Remembered crates s'.world := by
  intro d hd
  obtain ⟨hw, htr⟩ := act_eq h
  have hworld : s'.world = s.world := (world_eq hw).symm
  rw [htr, Trace.observe_note] at hd
  rw [hworld]
  rcases outstanding_reported _ config generation raw failed hd with hm | ⟨u, hu, ho, hk, rfl, rfl⟩
  · exact hi.remembered d (List.mem_filter.mp hm).1
  · have hread := hok.report u config generation raw hu ho hk rfl
    exact ha.report u config generation raw hu ho hk rfl hread

/-- Each allowed action keeps every outstanding delivery remembered. -/
theorem deliveryInv_act (hi : DeliveryInv crates s) (ha : DeliveryAllowed crates t o s)
    (hok : Undisturbed crates t o x s) (h : s.act t o x = some (r, s')) :
    DeliveryInv crates s' where
  law d hd := by
    rcases redelivered_of_act h hd with hold | ⟨config, run, due, rfl, hm, hdue⟩
    · exact hi.law d hold
    · exact ha.deliver config run due rfl d hm hdue
  remembered := by
    cases hr : o.reports with
    | true =>
      cases o with
      | note n =>
        cases n with
        | reportApplied config generation raw failed => exact remembered_of_report hi ha hok h
        | _ => cases hr
      | _ => cases hr
    | false =>
      intro d hd
      have hl := lasting_of_act h hr d hd
      have step := worldStep (act_eq h).1
      cases hc : o.changesRecord with
      | false => exact (hi.remembered d hl.mem).lasts hl (step.record hc)
      | true =>
        refine ⟨(hi.remembered d hl.mem).settles, fun config hlive => ?_⟩
        have hlive := hlive.of_config hl.config
        cases o with
        | keepUnrecordedDelivery record =>
          have hw := world_eq (act_eq h).1
          have hk := ha.keep record rfl d hl.mem config hlive
          rw [← hw]
          exact hk.imp id fun hrep => ⟨record, rfl, hrep⟩
        | takeUnrecordedDelivery =>
          have hw := world_eq (act_eq h).1
          rw [← hw]
          exact .inl (ha.take rfl d hl.mem config hlive)
        | _ => cases hc

theorem deliveryInv_kill {dead : Thread → Bool} (hi : DeliveryInv crates s) :
    DeliveryInv crates (s.kill dead) where
  law := hi.law
  remembered d hd := by
    have hl := lasting_of_kill dead s d hd
    refine (hi.remembered d hl.mem).lasts hl ?_
    cases h0 : dead (.app 0) with
    | false => simp [System.kill, World.kill, h0]
    | true =>
      simp only [System.kill, h0] at hd
      cases hd

end

/-- The thread is in no section and holds no lock. -/
structure AtRest (t : Thread) (s : System) : Prop where
  scan : s.world.scanLock ≠ some t
  io : s.world.ioLock ≠ some t
  loop : s.world.loopLock ≠ some t
  commit : s.trace.commit t = none

theorem AtRest.rely {t : Thread} {s s' : System} (h : AtRest t s) (hr : Rely t s s') :
    AtRest t s' :=
  ⟨fun hl => h.scan (hr.scan.mp hl), fun hl => h.io (hr.io.mp hl), fun hl => h.loop (hr.loop.mp hl),
    hr.trace.commit.trans h.commit⟩

/-- The environment's choices: any, or in the strict reading those that let a delivered run
be recorded. -/
def environment (crates : Crates) (place : Place) (strict : Prop) :
    (loopPlatform crates place).Guard := fun t o x s => strict → Undisturbed crates t o x s

structure LoopAllowed (crates : Crates) (strict : Prop) (t : Thread) (o : Act) (s : System) :
    Prop where
  commit : CommitAllowed t o s
  delivery : strict → DeliveryAllowed crates t o s

/-- What the threads of one Loop agree on: the commits, and in the strict reading the
deliveries too. -/
def loopProtocol (crates : Crates) (place : Place) (strict : Prop) :
    Protocol (loopPlatform crates place) (environment crates place strict) where
  Inv s := CommitInv s ∧ (strict → DeliveryInv crates s)
  Allowed := LoopAllowed crates strict
  rely := Rely
  Idle := AtRest
  keeps := fun {t o x s r s'} hi ha hok h => by
    refine ⟨⟨commitInv_act hi.1 ha.commit h, fun hs => ?_⟩, fun _ hu =>
      rely_of_act ha.commit.disciplined h hu⟩
    exact deliveryInv_act (hi.2 hs) (ha.delivery hs) (hok hs) h
  survives := fun {dead s} hd hi => by
    refine ⟨⟨commitInv_kill hi.1, fun hs => deliveryInv_kill (hi.2 hs)⟩,
      fun u hu => rely_of_kill hd hi.1.cliFree hu, fun u hu => ?_⟩
    exact ⟨filter_dead hu _, filter_dead hu _, filter_dead hu _, by simp [System.kill, hu]⟩
  idle_keeps := fun _ _ hr h => h.rely hr

end AgentsCommander.Loops
