import AgentsCommander.Loops.Deliveries

/-! What a scan reads of the Loop, and how it replays a recorded delivery. -/
namespace AgentsCommander.Loops
open Foundation Program Protocol

section
variable {crates : Crates} {place : Place} {ok : (loopPlatform crates place).Guard}
variable {G : Protocol (loopPlatform crates place) ok} {t : Thread} {A : System → Prop}
variable {d : Option LoopDirectory}

/-- The configuration was parsed from the file as it is. -/
def ParsedFrom (crates : Crates) (d : Option LoopDirectory) (config : LoopConfigToml) : Prop :=
  ∃ content, d.bind (·.config) = some content ∧ parseLoopConfig crates content = .ok config

/-- The state was read from these bytes, or is the default one. -/
def StateOf (crates : Crates) (raw : Option Bytes) (state : LoopState) : Prop :=
  state = {} ∨ ∃ content, raw = some content ∧ crates.jsonFromStr content = .ok state

theorem triple_readLoopConfigIfPresent (hA : G.Kept t Light fun s => A s ∧ s.world.disk = d) :
    G.Triple t (fun s => A s ∧ s.world.disk = d) (readLoopConfigIfPresent crates).run
      (post (fun config s => (A s ∧ s.world.disk = d) ∧ ∀ c ∈ config, ParsedFrom crates d c)
        fun _ s => A s ∧ s.world.disk = d) := by
  refine Triple.except_bind (Triple.lift (ε := String) (triple_readDocument hA .config))
    (fun r => ?_) fun _ _ _ h => h
  match r with
  | .ok content =>
    dsimp only
    cases hp : parseLoopConfig crates content with
    | error e => exact Triple.done (a := Except.error _) fun s _ h => h.1
    | ok config =>
      refine Triple.done (a := Except.ok (some config)) fun s _ h => ⟨h.1, fun c hc => ?_⟩
      obtain rfl := Option.some.inj hc
      exact ⟨content, h.2.1 content rfl, hp⟩
  | .error .notFound => exact Triple.done (a := Except.ok Option.none) fun s _ h => ⟨h.1, nofun⟩
  | .error .invalidData => exact Triple.done (a := Except.error _) fun s _ h => h.1
  | .error .other => exact Triple.done (a := Except.error _) fun s _ h => h.1

theorem triple_readLoopStateWithRaw (hA : G.Kept t Light fun s => A s ∧ s.world.disk = d) :
    G.Triple t (fun s => A s ∧ s.world.disk = d) (readLoopStateWithRaw crates).run
      (post (fun r s => (A s ∧ s.world.disk = d) ∧ r.2 = d.bind (·.raw) ∧ StateOf crates r.2 r.1)
        fun _ s => A s ∧ s.world.disk = d) := by
  refine Triple.except_bind (Triple.lift (ε := String)
    (E := fun _ (s : System) => A s ∧ s.world.disk = d) (triple_resolvedLoopStatePath hA))
    (fun path => ?_) fun _ _ _ h => h
  rintro s hi ⟨h, rfl⟩
  refine Triple.except_bind (Triple.lift (ε := String)
    (E := fun _ (s : System) => A s ∧ s.world.disk = d) (triple_isFile hA (stateName d)))
    (fun found => ?_) (fun _ _ _ h => h) s hi h
  by_cases hf : found = true
  · rw [if_neg (by simp [hf])]
    refine Triple.except_bind (B := fun content (s : System) => (A s ∧ s.world.disk = d) ∧
      d.bind (·.raw) = some content) (E := fun _ (s : System) => A s ∧ s.world.disk = d)
      (triple_attempt ?_) (fun content => ?_) fun _ _ _ h => h
    · refine (triple_readDocument hA (stateName d)).conseq (fun _ _ h => h.1) fun r s h => ?_
      cases r with
      | ok content => exact ⟨h.1, content_stateName d ▸ h.2.1 content rfl⟩
      | error e => exact h.1
    · refine Triple.except_bind (Triple.ofExcept _) (fun state => ?_) fun _ _ _ h => h.1.1
      refine Triple.done (a := Except.ok (state, some content)) fun s _ h => ?_
      refine ⟨h.1.1, h.1.2.symm, .inr ⟨content, rfl, ?_⟩⟩
      cases hj : crates.jsonFromStr content with
      | error e => rw [hj] at h; exact absurd h.2 nofun
      | ok st => rw [hj] at h; exact h.2
  · rw [if_pos (by simp [hf])]
    refine Triple.done (a := Except.ok (({} : LoopState), none)) fun s _ h => ⟨h.1, ?_, .inl rfl⟩
    have hn : ¬ (d.bind (·.raw)).isSome = true := by
      rw [← content_stateName, ← h.2]
      exact hf
    exact (Option.not_isSome_iff_eq_none.mp hn).symm

theorem triple_readStateSnapshot (hA : G.Kept t Light fun s => A s ∧ s.world.disk = d) :
    G.Triple t (fun s => A s ∧ s.world.disk = d) (readStateSnapshot crates).run
      (post (fun r s => (A s ∧ s.world.disk = d) ∧ r.2 = d.bind (·.raw) ∧ StateOf crates r.2 r.1)
        fun _ s => A s ∧ s.world.disk = d) := by
  refine Triple.except_bind (B := fun r (s : System) => (A s ∧ s.world.disk = d) ∧
    ∀ snapshot, r = .ok snapshot → snapshot.2 = d.bind (·.raw) ∧ StateOf crates snapshot.2 snapshot.1)
    (E := fun _ (s : System) => A s ∧ s.world.disk = d) (Triple.lift ?_)
    (fun r => ?_) fun _ _ _ h => h
  · refine (triple_readLoopStateWithRaw hA).conseq (fun _ _ h => h) fun r s h => ?_
    cases r with
    | ok snapshot =>
      refine ⟨h.1, fun snap he => ?_⟩
      obtain rfl := Except.ok.inj he
      exact h.2
    | error e => exact ⟨h, fun _ he => by cases he⟩
  · cases r with
    | ok snapshot =>
      exact Triple.done (a := Except.ok snapshot) fun s _ h => ⟨h.1, h.2 snapshot rfl⟩
    | error e =>
      refine Triple.except_bind ((triple_readRawLoopState hA).conseq (fun _ _ h => h.1)
        fun _ _ h => h) (fun raw => ?_) fun _ _ _ h => h
      exact Triple.done (a := Except.ok (({} : LoopState), raw)) fun s _ h => ⟨h.1, h.2, .inl rfl⟩

end

section
variable {crates : Crates} {place : Place} {strict : Prop} {t : Thread} {m : Option Reading}

theorem seen_of_read {snapshot : LoopScanSnapshot} {s : System}
    (hc : ParsedFrom crates s.world.disk snapshot.config)
    (hraw : snapshot.raw = s.world.raw) (hg : snapshot.generation = s.world.generation) :
    Seen crates strict snapshot s := by
  intro _ d _
  refine ⟨fun config hlive => ?_, hg.symm, .inl hraw.symm⟩
  obtain ⟨content, hw, hp, -⟩ := hlive
  obtain ⟨content', hw', hp'⟩ := hc
  obtain rfl := Option.some.inj (hw.symm.trans hw')
  exact Except.ok.inj (hp.symm.trans hp')

theorem covered_of_read {snapshot : LoopScanSnapshot} {s : System}
    (hi : strict → DeliveryInv crates s) (hc : ParsedFrom crates s.world.disk snapshot.config)
    (hraw : snapshot.raw = s.world.raw) (hg : snapshot.generation = s.world.generation)
    (hstate : StateOf crates snapshot.raw snapshot.state) : Covered strict snapshot s := by
  intro hs he d hd
  have hrem := (hi hs).remembered d hd
  obtain ⟨content, hw, hp⟩ := hc
  rcases hrem.found snapshot.config ⟨content, hw, hp, he⟩ with hafter | ⟨record, hr, hrep⟩
  · refine .inl ⟨hafter, ?_⟩
    obtain ⟨bytes, state, hb, hj, hpast⟩ := hrem.settles
    rcases hstate with hdefault | ⟨content', hc', hj'⟩
    · rw [hdefault]
      exact .inl rfl
    · have hbytes : content' = bytes :=
        Option.some.inj ((hc'.symm.trans hraw).trans (hafter.trans hb))
      rw [hbytes, hj] at hj'
      exact Except.ok.inj hj' ▸ hpast
  · exact .inr ⟨record, hr, by rw [hg, hraw]; exact hrep⟩

/-- Where the thread stands after its snapshot. -/
def stationRead (m : Option Reading) : Except String (Option LoopScanSnapshot) → Station
  | .ok (some snapshot) => .scanning (some (snapshot.generation, snapshot.raw))
  | _ => .scanning m

/-- What the thread knows after its snapshot. -/
def knownRead (crates : Crates) (strict : Prop) :
    Except String (Option LoopScanSnapshot) → System → Prop
  | .ok (some snapshot) => fun s => Seen crates strict snapshot s ∧ Covered strict snapshot s
  | _ => fun _ => True

theorem durable_knownRead (r : Except String (Option LoopScanSnapshot)) :
    Durable t (stationRead m r).scan (knownRead crates strict r) := by
  match r with
  | .ok (some snapshot) => exact durable_and persistent_seen.durable durable_covered
  | .ok none => exact durable_true t true
  | .error e => exact durable_true t true

/-- The snapshot is of one moment: the locks keep the Loop as it is. -/
theorem safely_scanSnapshot (happ : t.isApp = true) :
    Safely crates place strict t (At t (.scanning m) fun _ => True) (scanSnapshot crates place).run
      fun r => At t (stationRead m r) (knownRead crates strict r) := by
  refine safely_withIoLock happ (fun r => ?_) (durable_true t true) durable_knownRead ?_
  · match r with
    | .ok (some snapshot) => rfl
    | .ok none => rfl
    | .error e => rfl
  refine safely_withLoopLock (τ := fun r => (stationRead m r).withIo) (durable_true t true)
    (fun r => ?_) durable_knownRead (fun e => ⟨rfl, fun _ _ => trivial⟩) ?_
  · match r with
    | .ok (some snapshot) => rfl
    | .ok none => rfl
    | .error e => rfl
  generalize hσ : (Station.scanning m).withIo.withLoop = σ
  have hat := enduring_at (σ := σ) (durable_true t σ.scan)
  refine Triple.named (fun s : System => s.world.disk) fun d => ?_
  have hd := hat.frozen (fun s h => h.stands.loop.mpr (hσ ▸ rfl)) d
  have hkd : (loopProtocol crates place strict).Kept t Light _ := hd.kept
  have hstop : ∀ (e : String) (s : System), At t σ (fun _ => True) s ∧ s.world.disk = d →
      At t (stationRead m (.error e)).withIo.withLoop
        (knownRead crates strict (.error e)) s := fun e s h => ⟨hσ ▸ h.1.stands, trivial⟩
  have hgone : ∀ s : System, At t σ (fun _ => True) s ∧ s.world.disk = d →
      At t (stationRead m (.ok none)).withIo.withLoop
        (knownRead crates strict (.ok none)) s := fun s h => ⟨hσ ▸ h.1.stands, trivial⟩
  refine Triple.except_bind (Triple.lift (ε := String)
    (E := fun _ (s : System) => At t σ (fun _ => True) s ∧ s.world.disk = d)
    (Triple.uses hkd uses_isDir)) (fun exist => ?_) fun e s _ h => hstop e s h
  split_ifs
  · exact Triple.done (a := Except.ok none) fun s _ h => hgone s h
  refine Triple.except_bind (triple_readLoopConfigIfPresent hkd) (fun config => ?_)
    fun e s _ h => hstop e s h
  cases config with
  | none => exact Triple.done (a := Except.ok none) fun s _ h => hgone s h.1
  | some config =>
    intro s hi h
    have hparsed := h.2 config rfl
    refine Triple.except_bind (triple_readStateSnapshot hkd) (fun read => ?_)
      (fun e s _ h => hstop e s h) s hi h.1
    intro s hi h
    obtain ⟨h, hraw, hstate⟩ := h
    refine Triple.except_bind (A := fun s : System => At t σ (fun _ => True) s ∧ s.world.disk = d)
      (B := fun g (s : System) => (At t σ (fun _ => True) s ∧
        s.world.disk = d) ∧ s.world.generation = g) (Triple.lift (ε := String)
      (E := fun _ (s : System) => At t σ (fun _ => True) s ∧ s.world.disk = d) ?_)
      (fun g => ?_) (fun e s _ h => hstop e s h) s hi h
    · refine (triple_call hkd (o := .loopGeneration) rfl).conseq (fun _ _ h => h) fun r s h => ?_
      obtain ⟨h, x, hact⟩ := h
      exact ⟨h, (Prod.mk.inj (Option.some.inj hact)).1⟩
    have hend : Enduring t fun s : System => (At t σ (fun _ => True) s ∧ s.world.disk = d) ∧
        s.world.generation = g :=
      ⟨fun s s' hr h => ⟨hd.rely s s' hr h.1,
        (hr.generation (h.1.1.stands.io.mpr (hσ ▸ rfl))).trans h.2⟩,
        fun s s' hs h => ⟨hd.still s s' hs h.1, hs.world ▸ h.2⟩⟩
    let snapshot : LoopScanSnapshot :=
      { config := config, state := read.1, raw := read.2, generation := g }
    refine Triple.except_bind (B := fun _ => At t (stationRead m (.ok (some snapshot))).withIo.withLoop
      (knownRead crates strict (.ok (some snapshot)))) (Triple.lift (ε := String)
      (E := fun _ (s : System) => At t σ (fun _ => True) s ∧ s.world.disk = d) ?_)
      (fun _ => Triple.done (a := Except.ok (some snapshot)) fun _ _ h => h)
      (fun e s _ h => hstop e s h)
    refine Triple.call hend.kept.1 (fun s _ _ => allowed_of_sectional rfl nofun)
      fun s x r s' hi h _ hact => ?_
    obtain ⟨⟨hs, hdisk⟩, hgen⟩ := h
    have hact : s.act t (.note (.snapshot g read.2)) x = some (r, s') := hact
    obtain ⟨hw, htr⟩ := act_eq hact
    have hworld : s'.world = s.world := (world_eq hw).symm
    have ho := onward_of_act (o := .note (.snapshot g read.2)) rfl hact
    have hread : snapshot.raw = s.world.raw := by rw [World.raw, hdisk]; exact hraw
    have hfrom : ParsedFrom crates s.world.disk snapshot.config := hdisk ▸ hparsed
    have hstands : Stands t (Station.scanning m).withIo.withLoop s := hσ.symm ▸ hs.stands
    refine ⟨⟨hworld ▸ hstands.scan, hworld ▸ hstands.io, hworld ▸ hstands.loop, ?_, ?_⟩, ?_, ?_⟩
    · rw [htr, Trace.observe_note]
      exact Function.update_self ..
    · rw [htr, Trace.observe_note]
      exact hstands.commit
    · exact persistent_seen s s' ho.lasting (seen_of_read hfrom hread hgen.symm)
    · exact durable_covered.onward s s' ho (covered_of_read hi.2 hfrom hread hgen.symm hstate)

end
end AgentsCommander.Loops
