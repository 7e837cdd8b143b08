import AgentsCommander.Loops.Snapshots

/-! The parts of a scan, from its snapshot to its end. -/
namespace AgentsCommander.Loops
open Foundation Program Protocol

section
variable {crates : Crates} {place : Place} {strict : Prop} {t : Thread} {σ : Station}
variable {A B : System → Prop} {α β : Type} {snapshot : LoopScanSnapshot}

theorem At.mono {s : System} (h : At t σ A s) (hAB : ∀ s, A s → B s) : At t σ B s :=
  ⟨h.stands, hAB s h.holds⟩

theorem post_const {ε : Type} {r : Except ε α} {s : System} (h : A s) :
    post (fun _ => A) (fun _ => A) r s := by cases r <;> exact h

/-- The program ends where it started, with nothing to show for it. -/
abbrev Through (crates : Crates) (place : Place) (strict : Prop) (t : Thread) (σ : Station)
    (p : LoopM α) : Prop :=
  Safely crates place strict t (At t σ fun _ => True) p.run fun _ => At t σ fun _ => True

theorem through_bind {p : LoopM α} {f : α → LoopM β} (hp : Through crates place strict t σ p)
    (hf : ∀ a, Through crates place strict t σ (f a)) :
    Through crates place strict t σ (p >>= f) :=
  Triple.except_bind (hp.conseq (fun _ _ h => h) fun _ _ h => post_const h) hf fun _ _ _ h => h

theorem through_light {p : LoopM α} (hp : Uses Light p.run) :
    Through crates place strict t σ p :=
  Triple.uses (enduring_at (durable_true t σ.scan)).kept hp

theorem through_ofExcept (r : Except String α) :
    Through crates place strict t σ (ofExcept r) := through_light (uses_ofExcept r)

theorem uses_utcNow : Uses Light utcNow := uses_call rfl

theorem uses_newUuid : Uses Light newUuid := uses_call rfl

theorem uses_emitTransition (kind : String) (message : Option String) :
    Uses Light (emitTransition kind message) := uses_call rfl

/-- Where the thread stands in a scan after its snapshot. -/
abbrev after (snapshot : LoopScanSnapshot) : Station :=
  .scanning (some (snapshot.generation, snapshot.raw))

theorem through_io (happ : t.isApp = true) {p : LoopM α}
    (hp : Through crates place strict t (after snapshot).withIo p) :
    Through crates place strict t (after snapshot) (ExceptT.mk (withIoLock p.run)) :=
  safely_withIoLock (τ := fun _ => after snapshot) happ (fun _ => rfl) (durable_true t true)
    (fun _ => durable_true t true) hp

theorem through_commitScanSection (audit : Option LoopAuditEntry) (state : LoopState) :
    Through crates place strict t (after snapshot).withIo
      (commitScanSection crates place snapshot.generation snapshot.raw audit state) :=
  (safely_commitScanSectionChecked (durable_true t true) audit state none).conseq
    (fun _ _ h => h) fun _ _ h => ⟨h.stands, trivial⟩

theorem through_maybeCoalescePending (happ : t.isApp = true) (config : LoopConfigToml)
    (state : LoopState) : Through crates place strict t (after snapshot)
      (maybeCoalescePending crates place config state snapshot.generation snapshot.raw) := by
  refine through_bind (through_io happ ?_) fun outcome => ?_
  · refine through_bind (through_light (uses_loopIsCurrentForDelivery crates config)) fun here => ?_
    split_ifs
    · exact through_light (.done _)
    cases state.pendingDueAt with
    | none => exact through_light (.done _)
    | some pendingDue =>
      refine through_bind (through_light (uses_up uses_utcNow)) fun now => ?_
      refine through_bind (through_ofExcept _) fun newDue => ?_
      cases newDue with
      | none => exact through_light (.done _)
      | some newDue =>
        dsimp only
        split_ifs
        · exact through_light (.done _)
        cases state.pendingRunId with
        | none =>
          refine through_bind (through_light (uses_up uses_newUuid)) fun runId => ?_
          refine through_bind (through_ofExcept _) fun nextDue => ?_
          exact through_bind (through_commitScanSection _ _) fun _ => through_light (.done _)
        | some id =>
          refine through_bind (through_light (.done _)) fun runId => ?_
          refine through_bind (through_ofExcept _) fun nextDue => ?_
          exact through_bind (through_commitScanSection _ _) fun _ => through_light (.done _)
  · split_ifs
    · exact through_light (uses_up (uses_emitTransition _ _))
    · exact through_light (.done _)

theorem through_recordMissedWhileClosed (happ : t.isApp = true) (config : LoopConfigToml)
    (state : LoopState) (runId : Uuid) (dueAt : DateTime) :
    Through crates place strict t (after snapshot) (recordMissedWhileClosed crates place config
      state runId dueAt snapshot.generation snapshot.raw) := by
  refine through_bind (through_io happ ?_) fun outcome => ?_
  · refine through_bind (through_light (uses_loopIsCurrentForDelivery crates config)) fun here => ?_
    split_ifs
    · exact through_light (.done _)
    refine through_bind (through_light (uses_up uses_utcNow)) fun now => ?_
    refine through_bind (through_ofExcept _) fun nextDue => ?_
    exact through_commitScanSection _ _
  · split_ifs
    · exact through_light (uses_up (uses_emitTransition _ _))
    · exact through_light (.done _)

theorem through_commitScanBaseline (happ : t.isApp = true) (config : LoopConfigToml) :
    Through crates place strict t (after snapshot)
      (commitScanBaseline crates place config snapshot.generation snapshot.raw) := by
  refine through_io happ ?_
  refine through_bind (through_light (uses_loopIsCurrentForDelivery crates config)) fun here => ?_
  split_ifs
  · exact through_light (.done _)
  refine through_bind (through_light (uses_up uses_utcNow)) fun now => ?_
  refine through_bind (through_ofExcept _) fun state => ?_
  exact through_bind (through_commitScanSection _ _) fun _ => through_light (.done _)

/-- The recorded delivery is taken by nobody else. -/
theorem safely_peek (hσ : σ.scan = true) (hA : Durable t true A) :
    Safely crates place strict t (At t σ A) peekUnrecordedDelivery fun r =>
      At t σ fun s => A s ∧ s.world.unrecordedDelivery = r := by
  refine (triple_call (enduring_at (hσ ▸ hA)).kept (o := .peekUnrecordedDelivery) rfl).conseq
    (fun _ _ h => h) fun r s h => ?_
  obtain ⟨h, x, hact⟩ := h
  exact ⟨h.stands, h.holds, (Prod.mk.inj (Option.some.inj hact)).1⟩

theorem durable_record (r : Option UnrecordedDelivery) :
    Durable t true fun s => s.world.unrecordedDelivery = r :=
  durable_of_onward fun _ _ ho h => ho.record.trans h

/-- What is known once the recorded delivery was looked at. -/
def afterReplayable (crates : Crates) (strict : Prop) (snapshot : LoopScanSnapshot) :
    Option UnrecordedDelivery → System → Prop
  | some _ => Seen crates strict snapshot
  | none => fun s => Seen crates strict snapshot s ∧
    (snapshot.config.loopDef.enabled = true → Clear strict snapshot s)

theorem safely_replayableDelivery (hσ : σ.scan = true) :
    Safely crates place strict t
      (At t σ fun s => Seen crates strict snapshot s ∧ Covered strict snapshot s)
      (replayableDelivery snapshot.config snapshot.generation snapshot.raw)
      fun r => At t σ (afterReplayable crates strict snapshot r) := by
  have hknown : Durable t true fun s => Seen crates strict snapshot s ∧ Covered strict snapshot s :=
    durable_and persistent_seen.durable durable_covered
  refine Triple.bind (safely_peek hσ hknown) fun r => ?_
  cases r with
  | none =>
    refine Triple.done fun s _ h => h.mono fun s h => ⟨h.1.1, fun he hs d hd => ?_⟩
    rcases h.1.2 hs he d hd with hpast | ⟨record, hr, -⟩
    · exact hpast.2
    · exact absurd (h.2.symm.trans hr) nofun
  | some record =>
    have hdur := durable_and hknown (durable_record (t := t) (some record))
    dsimp only
    split_ifs with hoff hrep
    · have he : snapshot.config.loopDef.enabled ≠ true := by simpa using hoff
      refine Triple.bind (safely_take (B := Seen crates strict snapshot) hσ hdur persistent_seen
        (fun s h => h.1.1) fun s h hs d hd config hlive => ?_) fun _ => ?_
      · have hc := (h.1.1 hs d hd).config config hlive
        obtain ⟨-, -, -, hon⟩ := hlive
        exact absurd (hc ▸ hon) he
      · exact Triple.done fun s _ h => h.mono fun s h => ⟨h, fun hon => absurd hon he⟩
    · have he : snapshot.config.loopDef.enabled = true := by simpa using hoff
      have hleft : ∀ s, ((Seen crates strict snapshot s ∧ Covered strict snapshot s) ∧
          s.world.unrecordedDelivery = some record) → strict → ∀ d ∈ s.trace.outstanding,
          s.world.raw = d.after ∧ Past snapshot.state d.dueAt := by
        intro s h hs d hd
        rcases h.1.2 hs he d hd with hpast | ⟨record', hr, hok⟩
        · exact hpast
        · obtain rfl := Option.some.inj (h.2.symm.trans hr)
          exact absurd hok (by simpa using hrep)
      refine Triple.bind (safely_take
        (B := fun s => Seen crates strict snapshot s ∧ Clear strict snapshot s) hσ hdur
        (persistent_seen.and persistent_clear) (fun s h => ⟨h.1.1, fun hs d hd =>
          (hleft s h hs d hd).2⟩) fun s h hs d hd _ _ => (hleft s h hs d hd).1) fun _ => ?_
      exact Triple.done fun s _ h => h.mono fun s h => ⟨h.1, fun _ => h.2⟩
    · exact Triple.done fun s _ h => h.mono fun s h => h.1.1

theorem safely_takePaid (hσ : σ.scan = true) (hA : Durable t true A)
    (hpaid : ∀ s, A s → Paid s) :
    Safely crates place strict t (At t σ A) takeUnrecordedDelivery
      fun _ => At t σ fun _ => True :=
  safely_take hσ hA persistent_true (fun _ _ => trivial) fun s h _ d hd _ _ => hpaid s h d hd

theorem through_retryUnrecordedDelivery (happ : t.isApp = true) (record : UnrecordedDelivery) :
    Through crates place strict t (after snapshot)
      (retryUnrecordedDelivery crates place record snapshot.generation snapshot.raw) := by
  refine Triple.bind (safely_withIoLock (τ := fun _ => after snapshot) happ (fun _ => rfl)
    (durable_true t true) (durable_committed (durable_true t true))
    (safely_commitScanSectionChecked (durable_true t true) _ _ _)) fun r => ?_
  match r with
  | .error e => exact Triple.done (a := Except.error e) fun s _ h => h
  | .ok .stale => exact Triple.done (a := Except.ok ()) fun s _ h => h
  | .ok .written =>
    have htake : Safely crates place strict t
        (At t (after snapshot) (committed (fun _ => True) (.ok .written)))
        (up takeUnrecordedDelivery).run fun _ => At t (after snapshot) fun _ => True :=
      Triple.bind (safely_takePaid rfl (durable_committed (durable_true t true) _) fun _ h => h.2)
        fun r => Triple.done (a := Except.ok r) fun _ _ h => h
    exact Triple.except_bind (htake.conseq (fun _ _ h => h) fun _ _ h => post_const h)
      (fun _ => through_light (uses_up (uses_emitTransition _ _))) fun _ _ _ h => h

/-- What is known after the entry of a scan: where it goes on, nothing is due twice. -/
def afterEntry (crates : Crates) (strict : Prop) (snapshot : LoopScanSnapshot) :
    Except String Bool → System → Prop
  | .ok false => fun s => Seen crates strict snapshot s ∧ Clear strict snapshot s ∧
    snapshot.state.lastCheckedAt.isSome = true
  | _ => fun _ => True

theorem safely_finishScanEntry (happ : t.isApp = true) :
    Safely crates place strict t
      (At t (after snapshot) fun s => Seen crates strict snapshot s ∧ Covered strict snapshot s)
      (finishScanEntry crates place snapshot).run
      fun r => At t (after snapshot) (afterEntry crates strict snapshot r) := by
  refine Triple.except_bind (Triple.lift (E := fun (_ : String) => At t (after snapshot) fun _ => True)
    (safely_replayableDelivery rfl)) (fun r => ?_) fun _ _ _ h => h
  cases r with
  | some record =>
    refine Triple.except_bind (B := fun _ => At t (after snapshot) fun _ => True)
      (E := fun _ => At t (after snapshot) fun _ => True)
      ((through_retryUnrecordedDelivery happ record).conseq
        (fun _ _ h => h.mono fun _ _ => trivial) fun _ _ h => post_const h)
      (fun _ => Triple.done (a := Except.ok true) fun _ _ h => h) fun _ _ _ h => h
  | none =>
    dsimp only
    split_ifs with hoff hfirst
    · exact Triple.done (a := Except.ok true) fun _ _ h => h.mono fun _ _ => trivial
    · refine Triple.except_bind (B := fun _ => At t (after snapshot) fun _ => True)
        (E := fun _ => At t (after snapshot) fun _ => True)
        ((through_commitScanBaseline happ snapshot.config).conseq
          (fun _ _ h => h.mono fun _ _ => trivial) fun _ _ h => post_const h)
        (fun _ => Triple.done (a := Except.ok true) fun _ _ h => h) fun _ _ _ h => h
    · refine Triple.done (a := Except.ok false) fun _ _ h => h.mono fun _ h => ?_
      exact ⟨h.1, h.2 (by simpa using hoff), Option.isSome_iff_ne_none.mpr (by simpa using hfirst)⟩

end
end AgentsCommander.Loops
