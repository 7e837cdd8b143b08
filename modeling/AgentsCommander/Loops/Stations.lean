import AgentsCommander.Loops.DeliveryLaw

/-! Where a thread stands in the code: the locks it holds and the marks it has set. -/
namespace AgentsCommander.Loops
open Foundation Program Protocol

/-- Actions that change neither the Loop nor the marks. -/
def Act.light : Act → Bool
  | .canonicalLoopRoot | .loopGeneration | .isDir | .isFile _ | .readDocument _ | .readBytes _
  | .stage | .auditExists | .readAudit | .now | .newUuid | .resolveLoopTarget _
  | .peekUnrecordedDelivery | .emit _ _ => true
  | _ => false

/-- Actions on the delivery under way and on the recorded one. -/
def Act.delivering : Act → Bool
  | .deliver _ _ _ _ | .keepUnrecordedDelivery _ | .takeUnrecordedDelivery
  | .note (.prepared _) | .note (.reportApplied _ _ _ _) => true
  | _ => false

abbrev Light (o : Act) : Prop := o.light = true

theorem disciplined_of_light {o : Act} (ho : Light o) (t : Thread) (w : World) :
    Disciplined t o w := by
  constructor <;> intro h <;> cases o <;> first
    | exact absurd ho Bool.false_ne_true
    | exact absurd h Bool.false_ne_true
    | exact Act.noConfusion h

theorem world_of_light {t : Thread} {o : Act} {x : Choice} {w w' : World} {r : o.Res}
    (ho : Light o) (h : w.act t o x = some (r, w')) : w' = w := by
  cases o with
  | stage =>
    rw [← world_eq h]
    obtain hc | ⟨d, hd, hc⟩ := change_world w x id
    · exact hc
    · rw [hc, id, ← hd]
  | now => cases x <;> cases h; rfl
  | newUuid => cases x <;> cases h; rfl
  | canonicalLoopRoot | loopGeneration | isDir | isFile f | readDocument f | readBytes f
  | auditExists | readAudit | resolveLoopTarget wg | peekUnrecordedDelivery | emit k m =>
    exact (world_eq h).symm
  | _ => cases ho

/-- A light action adds at most to the history. -/
theorem trace_of_light {t : Thread} {o : Act} (w w' : World) {r : o.Res} (ho : Light o)
    (tr : Trace) : ∃ history, tr.history <:+ history ∧
      tr.record t w w' o r = { tr with history := history } := by
  cases o with
  | emit k m => exact ⟨_, List.suffix_cons _ _, rfl⟩
  | stage | now | newUuid | canonicalLoopRoot | loopGeneration | isDir | isFile f
  | readDocument f | readBytes f | auditExists | readAudit | resolveLoopTarget wg
  | peekUnrecordedDelivery => exact ⟨_, List.suffix_refl _, rfl⟩
  | _ => cases ho

theorem keepUndisturbed_same (tr : Trace) (w : World) : tr.keepUndisturbed w w none = tr := by
  have h : tr.outstanding.filter (fun d => d.undisturbed w w none) = tr.outstanding :=
    List.filter_eq_self.mpr fun d _ => by simp [Delivery.undisturbed]
  rw [Trace.keepUndisturbed, h]

theorem stateWrite_of_light {o : Act} (ho : Light o) (r : o.Res) : stateWrite o r = none := by
  cases o <;> first
    | rfl
    | exact absurd ho Bool.false_ne_true

theorem history_of_act {t : Thread} {o : Act} {x : Choice} {s s' : System} {r : o.Res}
    (h : s.act t o x = some (r, s')) : s.trace.history <:+ s'.trace.history := by
  cases commitStep h with
  | plain es _ hh _ _ => exact hh ▸ List.suffix_append es _
  | entered hh _ _ => exact hh ▸ List.suffix_cons _ _
  | stateWritten f bytes _ _ hh _ _ => exact hh ▸ List.suffix_cons _ _
  | auditWritten entry _ hh _ _ => exact hh ▸ List.suffix_cons _ _

/-- The locks a thread holds, what it last read, and the commit it is in. -/
structure Station where
  scan : Bool
  io : Bool
  loop : Bool
  snapshot : Option Reading
  commit : Option ℕ

structure Stands (t : Thread) (σ : Station) (s : System) : Prop where
  scan : s.world.scanLock = some t ↔ σ.scan = true
  io : s.world.ioLock = some t ↔ σ.io = true
  loop : s.world.loopLock = some t ↔ σ.loop = true
  snapshot : s.trace.snapshot t = σ.snapshot
  commit : s.trace.commit t = σ.commit

theorem Stands.rely {t : Thread} {σ : Station} {s s' : System} (h : Stands t σ s)
    (hr : Rely t s s') : Stands t σ s' :=
  ⟨hr.scan.trans h.scan, hr.io.trans h.io, hr.loop.trans h.loop,
    hr.trace.snapshot.trans h.snapshot, hr.trace.commit.trans h.commit⟩

/-- Locks and marks are where they were. -/
theorem Stands.same {t : Thread} {σ : Station} {s s' : System} (h : Stands t σ s)
    (hs : s'.world.scanLock = s.world.scanLock) (hi : s'.world.ioLock = s.world.ioLock)
    (hl : s'.world.loopLock = s.world.loopLock) (hn : s'.trace.snapshot t = s.trace.snapshot t)
    (hc : s'.trace.commit t = s.trace.commit t) : Stands t σ s' :=
  ⟨hs ▸ h.scan, hi ▸ h.io, hl ▸ h.loop, hn.trans h.snapshot, hc.trans h.commit⟩

section
variable {φ : Act → Prop} {α : Type}

theorem uses_attempt {text : String} {p : LoopProgram (Except IoError α)} (hp : Uses φ p) :
    Uses φ (attempt text p).run := by
  refine Uses.bind hp fun r => ?_
  cases r <;> exact .done _

theorem uses_up {p : LoopProgram α} (hp : Uses φ p) : Uses φ (up p).run := Uses.lift hp

theorem uses_resolvedLoopStatePath : Uses Light resolvedLoopStatePath := by
  refine Uses.bind (uses_call rfl) fun a => ?_
  split_ifs
  · exact .done _
  refine Uses.bind (uses_call rfl) fun b => ?_
  split_ifs <;> exact .done _

theorem uses_readLoopConfig (crates : Crates) : Uses Light (readLoopConfig crates).run :=
  Uses.except_bind (uses_attempt (uses_call rfl)) fun _ => uses_ofExcept _

theorem uses_readLoopConfigIfPresent (crates : Crates) :
    Uses Light (readLoopConfigIfPresent crates).run := by
  refine Uses.except_bind (uses_up (uses_call rfl)) fun r => ?_
  match r with
  | .ok content => exact Uses.bind (uses_ofExcept _) fun r => by cases r <;> exact .done _
  | .error .notFound => exact .done _
  | .error .invalidData => exact .done _
  | .error .other => exact .done _

theorem uses_revalidateLoopCurrent (crates : Crates) (expected : LoopConfigToml) :
    Uses Light (revalidateLoopCurrent crates expected).run := by
  refine Uses.except_bind (uses_up (uses_call rfl)) fun a => ?_
  split_ifs
  · exact .done _
  refine Uses.except_bind (uses_up (uses_call rfl)) fun b => ?_
  split_ifs
  · exact .done _
  refine Uses.except_bind (uses_readLoopConfig crates) fun current => ?_
  split_ifs <;> exact .done _

theorem uses_loopIsCurrentForDelivery (crates : Crates) (expected : LoopConfigToml) :
    Uses Light (loopIsCurrentForDelivery crates expected).run :=
  Uses.except_bind (uses_revalidateLoopCurrent crates expected) fun _ => .done _

theorem uses_ensureLoopConfigPresent : Uses Light ensureLoopConfigPresent.run := by
  refine Uses.except_bind (uses_up (uses_call rfl)) fun a => ?_
  split_ifs <;> exact .done _

theorem uses_currentRaw (path : LoopFile) {read : LoopFile → LoopProgram (Except IoError Bytes)}
    (hr : ∀ f, Uses Light (read f)) : Uses Light (currentRaw path read).run := by
  refine Uses.except_bind (uses_up (hr path)) fun r => ?_
  match r with
  | .ok content => exact .done _
  | .error .notFound => exact .done _
  | .error .invalidData => exact .done _
  | .error .other => exact .done _

theorem uses_isDir : Uses Light isDir := uses_call rfl

theorem uses_isFile (f : LoopFile) : Uses Light (isFile f) := uses_call rfl

theorem uses_readDocument (f : LoopFile) : Uses Light (readDocument f) := uses_call rfl

theorem uses_readRawLoopState : Uses Light readRawLoopState.run :=
  Uses.except_bind (uses_up uses_resolvedLoopStatePath) fun path =>
    uses_currentRaw path fun _ => uses_call rfl

theorem uses_readLoopStateWithRaw (crates : Crates) :
    Uses Light (readLoopStateWithRaw crates).run := by
  refine Uses.except_bind (uses_up uses_resolvedLoopStatePath) fun path => ?_
  refine Uses.except_bind (uses_up (uses_call rfl)) fun b => ?_
  split_ifs
  · exact .done _
  refine Uses.except_bind (uses_attempt (uses_call rfl)) fun content => ?_
  exact Uses.except_bind (uses_ofExcept _) fun state => .done _

theorem uses_readLoopState (crates : Crates) : Uses Light (readLoopState crates).run :=
  Uses.except_bind (uses_readLoopStateWithRaw crates) fun _ => .done _

theorem uses_readStateSnapshot (crates : Crates) : Uses Light (readStateSnapshot crates).run := by
  refine Uses.except_bind (uses_up (uses_readLoopStateWithRaw crates)) fun r => ?_
  match r with
  | .ok snapshot => exact .done _
  | .error e => exact Uses.except_bind uses_readRawLoopState fun _ => .done _

theorem uses_refuse (condition : Bool) (text : String) : Uses φ (refuse condition text).run := by
  cases condition <;> exact .done _

theorem uses_validateLoopConfig (crates : Crates) (config : LoopConfigToml) :
    Uses Light (validateLoopConfig crates config).run := by
  refine Uses.except_bind (uses_ofExcept _) fun _ => ?_
  refine Uses.except_bind (uses_refuse _ _) fun _ => ?_
  refine Uses.except_bind (uses_refuse _ _) fun _ => ?_
  refine Uses.except_bind (uses_ofExcept _) fun _ => ?_
  refine Uses.except_bind (uses_refuse _ _) fun _ => ?_
  refine Uses.except_bind (uses_ofExcept _) fun _ => ?_
  refine Uses.except_bind (uses_refuse _ _) fun _ => ?_
  split_ifs
  · refine Uses.except_bind (uses_up (uses_call rfl)) fun r => ?_
    cases r <;> exact .done _
  · exact .done _

theorem uses_dueScanRun (crates : Crates) (config : LoopConfigToml) (state : LoopState) :
    Uses Light (dueScanRun crates config state).run := by
  refine Uses.except_bind (uses_up (uses_call rfl)) fun now => ?_
  refine Uses.except_bind (uses_ofExcept _) fun due => ?_
  cases due with
  | none => exact .done _
  | some due => exact Uses.except_bind (uses_up (uses_call rfl)) fun _ => .done _

end

/-- The Loop is the same, and so is where the thread stands. -/
structure Still (t : Thread) (s s' : System) : Prop where
  world : s'.world = s.world
  snapshot : s'.trace.snapshot t = s.trace.snapshot t
  commit : s'.trace.commit t = s.trace.commit t
  underway : s'.trace.underway t = s.trace.underway t
  prepared : s'.trace.prepared t = s.trace.prepared t
  outstanding : s'.trace.outstanding = s.trace.outstanding
  history : s.trace.history <:+ s'.trace.history

theorem still_of_light {t : Thread} {o : Act} {x : Choice} {s s' : System} {r : o.Res}
    (ho : Light o) (h : s.act t o x = some (r, s')) : Still t s s' := by
  obtain ⟨hw, htr⟩ := act_eq h
  have hworld := world_of_light ho hw
  rw [hworld, Trace.observe, stateWrite_of_light ho, keepUndisturbed_same] at htr
  obtain ⟨history, hs, hr⟩ := trace_of_light s.world s.world (r := r) ho s.trace
  rw [hr] at htr
  exact ⟨hworld, htr ▸ rfl, htr ▸ rfl, htr ▸ rfl, htr ▸ rfl, htr ▸ rfl, htr ▸ hs⟩

theorem Stands.still {t : Thread} {σ : Station} {s s' : System} (h : Stands t σ s)
    (hs : Still t s s') : Stands t σ s' :=
  h.same (by rw [hs.world]) (by rw [hs.world]) (by rw [hs.world]) hs.snapshot hs.commit

/-- The outstanding deliveries last, and what the thread is delivering stays. -/
structure Onward (t : Thread) (s s' : System) : Prop where
  lasting : Lasting s s'
  record : s'.world.unrecordedDelivery = s.world.unrecordedDelivery
  underway : s'.trace.underway t = s.trace.underway t
  prepared : s'.trace.prepared t = s.trace.prepared t

theorem Still.onward {t : Thread} {s s' : System} (h : Still t s s') : Onward t s s' where
  lasting d hd := ⟨h.outstanding ▸ hd, by rw [h.world], by rw [h.world], .inl (by rw [h.world])⟩
  record := by rw [h.world]
  underway := h.underway
  prepared := h.prepared

theorem Rely.onward {t : Thread} {s s' : System} (h : Rely t s s')
    (hl : s.world.scanLock = some t) : Onward t s s' :=
  ⟨h.lasting hl, h.record hl, h.trace.underway, h.trace.prepared⟩

theorem onward_of_act {t : Thread} {o : Act} {x : Choice} {s s' : System} {r : o.Res}
    (ho : o.delivering = false) (h : s.act t o x = some (r, s')) : Onward t s s' := by
  have hreports : o.reports = false := by
    cases o with
    | note n => cases n <;> first | rfl | exact absurd ho.symm Bool.false_ne_true
    | _ => rfl
  have hrecord : o.changesRecord = false := by
    cases o <;> first | rfl | exact absurd ho.symm Bool.false_ne_true
  obtain ⟨hw, htr⟩ := act_eq h
  refine ⟨lasting_of_act h hreports, (worldStep hw).record hrecord, ?_, ?_⟩ <;>
  · rw [htr, Trace.observe]
    unfold Trace.record
    split <;> first
      | rfl
      | exact absurd ho.symm Bool.false_ne_true
      | split_ifs <;> rfl
      | rename_i n _; cases n <;> first | rfl | exact absurd ho.symm Bool.false_ne_true

/-- The name the state has in a directory. -/
def stateName (d : Option LoopDirectory) : LoopFile :=
  if (d.bind (·.content .state)).isSome then .state
  else if (d.bind (·.content .legacyState)).isSome then .legacyState else .state

theorem content_stateName (d : Option LoopDirectory) :
    d.bind (·.content (stateName d)) = d.bind (·.raw) := by
  cases d with
  | none => rfl
  | some dir =>
    obtain ⟨config, state, legacyState, audit⟩ := dir
    cases state <;> cases legacyState <;> rfl

section
variable {crates : Crates} {place : Place} {ok : (loopPlatform crates place).Guard}
variable {G : Protocol (loopPlatform crates place) ok} {t : Thread} {A : System → Prop}

/-- What a light action answers, it answers of the Loop as it is. -/
theorem triple_call (hA : G.Kept t Light A) {o : Act} (ho : Light o) :
    G.Triple t A (call o) fun r s => A s ∧ ∃ x, s.world.act t o x = some (r, s.world) := by
  refine Triple.call hA.1 (fun s hi h => (hA.2 o ho s hi h).1) fun s x r s' hi h hok hact => ?_
  refine ⟨(hA.2 o ho s hi h).2 x r s' hok hact, x, ?_⟩
  have hw := (still_of_light ho hact).world
  have hact := (act_eq hact).1
  rw [hw] at hact ⊢
  exact hact

variable {d : Option LoopDirectory}

theorem triple_isFile (hA : G.Kept t Light fun s => A s ∧ s.world.disk = d) (f : LoopFile) :
    G.Triple t (fun s => A s ∧ s.world.disk = d) (isFile f) fun r s =>
      (A s ∧ s.world.disk = d) ∧ r = (d.bind (·.content f)).isSome := by
  refine (triple_call hA (o := .isFile f) rfl).conseq (fun _ _ h => h) fun r s h => ?_
  obtain ⟨hA, x, hact⟩ := h
  exact ⟨hA, hA.2 ▸ (Prod.mk.inj (Option.some.inj hact)).1.symm⟩

theorem triple_resolvedLoopStatePath (hA : G.Kept t Light fun s => A s ∧ s.world.disk = d) :
    G.Triple t (fun s => A s ∧ s.world.disk = d) resolvedLoopStatePath fun f s =>
      (A s ∧ s.world.disk = d) ∧ f = stateName d := by
  refine Triple.bind_known _ (triple_isFile hA .state) ?_
  by_cases hs : (d.bind (·.content .state)).isSome = true
  · rw [if_pos hs]
    exact Triple.done fun s _ h => ⟨h, by rw [stateName, if_pos hs]⟩
  · rw [if_neg hs]
    refine Triple.bind_known _ (triple_isFile hA .legacyState) ?_
    by_cases hl : (d.bind (·.content .legacyState)).isSome = true
    · rw [if_pos hl]
      exact Triple.done fun s _ h => ⟨h, by rw [stateName, if_neg hs, if_pos hl]⟩
    · rw [if_neg hl]
      exact Triple.done fun s _ h => ⟨h, by rw [stateName, if_neg hs, if_neg hl]⟩

/-- A read that succeeds gives the content, and one that finds nothing finds no file. -/
def Reads (d : Option LoopDirectory) (f : LoopFile) (r : Except IoError Bytes) : Prop :=
  (∀ bytes, r = .ok bytes → d.bind (·.content f) = some bytes) ∧
    (r = .error .notFound → d.bind (·.content f) = none)

theorem reads_readBytes (w : World) (f : LoopFile) (x : Choice) :
    Reads w.disk f (w.readBytes f x) := by
  unfold World.readBytes
  split_ifs with hx
  · exact ⟨nofun, nofun⟩
  · cases hc : w.disk.bind (·.content f) with
    | none => exact ⟨nofun, fun _ => hc⟩
    | some bytes => exact ⟨fun b h => hc.trans (congrArg some (Except.ok.inj h)), nofun⟩

theorem reads_readDocument (w : World) (f : LoopFile) (x : Choice) :
    Reads w.disk f (w.readDocument f x) := by
  have h := reads_readBytes w f x
  unfold World.readDocument
  cases hr : w.readBytes f x with
  | error e =>
    rw [hr] at h
    exact ⟨nofun, fun he => h.2 he⟩
  | ok bytes =>
    rw [hr] at h
    change Reads w.disk f (if ByteArray.validateUTF8 ⟨bytes.toArray⟩ = true then .ok bytes
      else .error .invalidData)
    split_ifs
    · exact ⟨fun b hb => h.1 b hb, nofun⟩
    · exact ⟨nofun, nofun⟩

theorem triple_readBytes (hA : G.Kept t Light fun s => A s ∧ s.world.disk = d) (f : LoopFile) :
    G.Triple t (fun s => A s ∧ s.world.disk = d) (readBytes f) fun r s =>
      (A s ∧ s.world.disk = d) ∧ Reads d f r := by
  refine (triple_call hA (o := .readBytes f) rfl).conseq (fun _ _ h => h) fun r s h => ?_
  obtain ⟨hA, x, hact⟩ := h
  have hr := (Prod.mk.inj (Option.some.inj hact)).1
  exact ⟨hA, hA.2 ▸ hr ▸ reads_readBytes s.world f x⟩

theorem triple_readDocument (hA : G.Kept t Light fun s => A s ∧ s.world.disk = d) (f : LoopFile) :
    G.Triple t (fun s => A s ∧ s.world.disk = d) (readDocument f) fun r s =>
      (A s ∧ s.world.disk = d) ∧ Reads d f r := by
  refine (triple_call hA (o := .readDocument f) rfl).conseq (fun _ _ h => h) fun r s h => ?_
  obtain ⟨hA, x, hact⟩ := h
  have hr := (Prod.mk.inj (Option.some.inj hact)).1
  exact ⟨hA, hA.2 ▸ hr ▸ reads_readDocument s.world f x⟩

theorem triple_currentRaw {path : LoopFile} {read : LoopFile → LoopProgram (Except IoError Bytes)}
    (hr : G.Triple t (fun s => A s ∧ s.world.disk = d) (read path) fun r s =>
      (A s ∧ s.world.disk = d) ∧ Reads d path r) :
    G.Triple t (fun s => A s ∧ s.world.disk = d) (currentRaw path read).run
      (post (fun raw s => (A s ∧ s.world.disk = d) ∧ raw = d.bind (·.content path))
        fun _ s => A s ∧ s.world.disk = d) := by
  refine Triple.except_bind (Triple.lift (ε := String) hr) (fun r => ?_) fun _ _ _ h => h
  match r with
  | .ok content =>
    exact Triple.done (a := Except.ok (some content)) fun s _ h =>
      ⟨h.1, (h.2.1 content rfl).symm⟩
  | .error .notFound =>
    exact Triple.done (a := Except.ok Option.none) fun s _ h => ⟨h.1, (h.2.2 rfl).symm⟩
  | .error .invalidData => exact Triple.done (a := Except.error _) fun s _ h => h.1
  | .error .other => exact Triple.done (a := Except.error _) fun s _ h => h.1

theorem triple_readRawLoopState (hA : G.Kept t Light fun s => A s ∧ s.world.disk = d) :
    G.Triple t (fun s => A s ∧ s.world.disk = d) readRawLoopState.run
      (post (fun raw s => (A s ∧ s.world.disk = d) ∧ raw = d.bind (·.raw))
        fun _ s => A s ∧ s.world.disk = d) := by
  have hp := Triple.lift (ε := String) (E := fun _ (s : System) => A s ∧ s.world.disk = d)
    (triple_resolvedLoopStatePath hA)
  refine Triple.except_bind hp (fun path => ?_) fun _ _ _ h => h
  intro s hi h
  obtain ⟨hA', rfl⟩ := h
  rw [← content_stateName]
  exact triple_currentRaw (triple_readBytes hA (stateName d)) s hi hA'

theorem triple_attempt {α : Type} {text : String} {p : LoopProgram (Except IoError α)}
    {B : α → System → Prop} {E : System → Prop} (hp : G.Triple t A p (post B fun _ => E)) :
    G.Triple t A (attempt text p).run (post B fun _ => E) := by
  refine Triple.bind hp fun r => ?_
  cases r with
  | ok a => exact Triple.done (a := Except.ok a) fun _ _ h => h
  | error e => exact Triple.done (a := Except.error _) fun _ _ h => h

end

theorem marks_of_disk {t : Thread} {o : Act} {x : Choice} {s s' : System} {r : o.Res}
    (ho : o.changesDisk = true) (h : s.act t o x = some (r, s')) :
    s'.trace.snapshot = s.trace.snapshot ∧ s'.trace.commit = s.trace.commit := by
  obtain ⟨-, htr⟩ := act_eq h
  rw [htr]
  cases o with
  | replace f bytes => cases f <;> cases r <;> exact ⟨rfl, rfl⟩
  | appendLine entry =>
    rw [Trace.observe_appendLine]
    split_ifs <;> exact ⟨rfl, rfl⟩
  | createDirectory | removeDirectory | moveLegacyState | appendNewline => exact ⟨rfl, rfl⟩
  | _ => exact absurd ho Bool.false_ne_true

theorem Stands.disk {t : Thread} {σ : Station} {o : Act} {x : Choice} {s s' : System} {r : o.Res}
    (h : Stands t σ s) (ho : o.changesDisk = true) (ha : s.act t o x = some (r, s')) :
    Stands t σ s' := by
  have step := worldStep (act_eq ha).1
  obtain ⟨hn, hc⟩ := marks_of_disk ho ha
  refine h.same ?_ ?_ ?_ (congrFun hn t) (congrFun hc t)
  · rcases step.scan with h | ⟨rfl, -⟩ | ⟨rfl, -⟩
    · exact h
    · exact absurd ho Bool.false_ne_true
    · exact absurd ho Bool.false_ne_true
  · rcases step.io with h | ⟨rfl, -⟩ | ⟨rfl, -⟩
    · exact h
    · exact absurd ho Bool.false_ne_true
    · exact absurd ho Bool.false_ne_true
  · rcases step.loop with h | ⟨rfl, -⟩ | ⟨rfl, -⟩
    · exact h
    · exact absurd ho Bool.false_ne_true
    · exact absurd ho Bool.false_ne_true

end AgentsCommander.Loops
