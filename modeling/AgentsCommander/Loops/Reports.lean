import AgentsCommander.Loops.ScanSafety

/-! A delivered run on its way into the state: every way its commit can fail leaves a record. -/
namespace AgentsCommander.Loops
open Foundation Program Protocol

section
variable {crates : Crates} {place : Place} {strict : Prop} {t : Thread} {σ : Station}
variable {A B : System → Prop} {snapshot : LoopScanSnapshot} {u : Underway}

/-- A run that a scan delivered. -/
def Underway.Counts (u : Underway) : Prop := u.origin = .scan ∧ u.kind = .delivered

theorem Carrying.pending {s : System} (h : Carrying t u s) (hu : u.Counts) :
    Pending s.trace t u := ⟨h.1, hu.1, hu.2, h.2⟩

/-- The commit failed, and what a scan needs to replay it is kept. -/
def Recorded (crates : Crates) (t : Thread) (snapshot : LoopScanSnapshot) (u : Underway)
    (s : System) : Prop :=
  ∃ after next record, s.trace.prepared t = some after ∧ crates.jsonFromStr after = .ok next ∧
    Past next u.dueAt ∧ s.world.unrecordedDelivery = some record ∧
    record.generation = snapshot.generation ∧ record.stateBefore = snapshot.raw ∧
    record.stateAfter = after ∧ record.config = snapshot.config

theorem durable_recorded : Durable t true (Recorded crates t snapshot u) :=
  durable_of_onward fun s s' ho h => by
    obtain ⟨after, next, record, hp, hj, hpast, hr, hrest⟩ := h
    exact ⟨after, next, record, ho.prepared.trans hp, hj, hpast, ho.record.trans hr, hrest⟩

theorem durable_pure (t : Thread) (p : Prop) : Durable t true fun _ => p :=
  ⟨fun _ _ _ h => h, fun _ _ _ _ h => h⟩

theorem durable_underway : Durable t true fun s => s.trace.underway t = some u :=
  durable_of_onward fun _ _ ho h => ho.underway.trans h

/-- What is known of a report whose commit has ended. -/
def reported (crates : Crates) (strict : Prop) (t : Thread) (snapshot : LoopScanSnapshot)
    (u : Underway) {α : Type} :
    Except String (Option (LoopStateWrite × α)) → System → Prop
  | .ok (some (.written, _)) => fun s => s.trace.underway t = some u ∧ Paid s
  | .ok _ => fun s => s.trace.underway t = some u
  | .error _ => fun s => s.trace.underway t = some u ∧
    (strict → u.Counts → Recorded crates t snapshot u s)

theorem durable_implies {p : Prop} (hA : Durable t true A) : Durable t true fun s => p → A s :=
  ⟨fun s s' ho h hp => hA.onward s s' ho (h hp), fun s s' hl hr h hp => hA.rely s s' hl hr (h hp)⟩

/-- The configuration is read again before the commit, and a delivered run finds it. -/
theorem safely_currentForReport (hσ : σ.scan = true) (hA : Durable t true A) :
    Safely crates place strict t (At t σ fun s => A s ∧ Carrying t u s)
      (loopIsCurrentForDelivery crates snapshot.config).run
      (post (fun _ => At t σ fun s => A s ∧ Carrying t u s) fun _ => At t σ fun s =>
        (A s ∧ Carrying t u s) ∧ (strict → ¬ u.Counts)) := by
  have hk : Durable t σ.scan fun s => A s ∧ Carrying t u s :=
    hσ ▸ durable_and hA (durable_carrying u)
  have hat : (loopProtocol crates place strict).Kept t Light _ := (enduring_at hk).kept
  refine Triple.except_bind ?_ (fun found => Triple.done (a := Except.ok _) fun _ _ h => h)
    fun _ _ _ h => h
  refine Triple.except_bind (Triple.lift (E := fun (_ : String) => At t σ fun s =>
    (A s ∧ Carrying t u s) ∧ (strict → ¬ u.Counts)) (Triple.uses hat uses_isDir))
    (fun exist => ?_) fun _ _ _ h => h
  split_ifs
  · exact Triple.done (a := Except.ok _) fun _ _ h => h
  refine Triple.except_bind (Triple.lift (E := fun (_ : String) => At t σ fun s =>
    (A s ∧ Carrying t u s) ∧ (strict → ¬ u.Counts)) (Triple.uses hat (uses_isFile .config)))
    (fun exist => ?_) fun _ _ _ h => h
  split_ifs
  · exact Triple.done (a := Except.ok _) fun _ _ h => h
  have hread : Safely crates place strict t (At t σ fun s => A s ∧ Carrying t u s)
      (readDocument .config) (fun r => At t σ fun s => (A s ∧ Carrying t u s) ∧
        (strict → u.Counts → ∃ content config, r = .ok content ∧
          parseLoopConfig crates content = .ok config)) := by
    refine Triple.call hat.1 (fun s _ _ => allowed_of_light rfl s) fun s x r s' _ h hok hact => ?_
    have hact : s.act t (.readDocument .config) x = some (r, s') := hact
    have hs := (enduring_at hk).still s s' (still_of_light rfl hact) h
    refine ⟨hs.stands, hs.holds, fun hstrict hu => ?_⟩
    obtain ⟨content, config, hr, hp⟩ := (hok hstrict).config u (h.holds.2.pending hu) rfl
    have hact := (Prod.mk.inj (Option.some.inj (act_eq hact).1)).1
    exact ⟨content, config, hact ▸ hr, hp⟩
  refine Triple.except_bind (B := fun _ => At t σ fun s => A s ∧ Carrying t u s) ?_
    (fun current => ?_) fun _ _ _ h => h
  · refine Triple.except_bind (B := fun content => At t σ fun s => (A s ∧ Carrying t u s) ∧
      (strict → u.Counts → ∃ config, parseLoopConfig crates content = .ok config))
      (triple_attempt (hread.conseq (fun _ _ h => h) fun r s h => ?_)) (fun content => ?_)
      fun _ _ _ h => h
    · cases r with
      | ok content =>
        refine h.mono fun s h => ⟨h.1, fun hs hu => ?_⟩
        obtain ⟨content', config, he, hp⟩ := h.2 hs hu
        obtain rfl := Except.ok.inj he
        exact ⟨config, hp⟩
      | error e =>
        refine h.mono fun s h => ⟨h.1, fun hs hu => ?_⟩
        obtain ⟨content', config, he, -⟩ := h.2 hs hu
        cases he
    · refine (Triple.ofExcept (parseLoopConfig crates content)).conseq (fun _ _ h => h)
        fun r s h => ?_
      cases r with
      | ok config => exact h.1.mono fun _ h => h.1
      | error e =>
        have hp := h.2
        refine h.1.mono fun s h => ⟨h.1, fun hs hu => ?_⟩
        obtain ⟨config, hok⟩ := h.2 hs hu
        rw [hp] at hok
        cases hok
  · split_ifs <;> exact Triple.done (a := Except.ok _) fun _ _ h => h

/-- The clock is read while a delivered run waits. -/
theorem safely_clockForReport (hσ : σ.scan = true) (hA : Durable t true A) :
    Safely crates place strict t (At t σ fun s => A s ∧ Carrying t u s) utcNow fun now =>
      At t σ fun s => (A s ∧ Carrying t u s) ∧ (strict → u.Counts → u.dueAt ≤ now ∧
        ∃ next, nextDueAfter crates u.config.trigger.expr now = .ok next) := by
  have hk : Durable t σ.scan fun s => A s ∧ Carrying t u s :=
    hσ ▸ durable_and hA (durable_carrying u)
  refine Triple.call (enduring_at hk).kept.1 (fun s _ _ => allowed_of_light rfl s)
    fun s x now s' _ h hok hact => ?_
  have hs := (enduring_at hk).still s s' (still_of_light (o := .now) rfl hact) h
  refine ⟨hs.stands, hs.holds, fun hstrict hu => ?_⟩
  obtain ⟨τ, next, rfl, hdue, hnext⟩ := (hok hstrict).clock u (h.holds.2.pending hu) rfl
  have hact : s.act t .now (.time τ) = some (now, s') := hact
  obtain rfl : τ = now := (Prod.mk.inj (Option.some.inj (act_eq hact).1)).1
  exact ⟨hdue, next, hnext⟩

/-- The state of a delivered run has the due time behind it. -/
theorem past_reportedState {state : LoopState} {report : LoopDeliveryReport} {run : Uuid}
    {due now : DateTime} {next : Option DateTime} (hk : report.kind = .delivered) (hd : due ≤ now) :
    Past (reportedState state report run due now next) due := by
  unfold reportedState
  simp only [hk]
  exact .inr ⟨rfl, now, rfl, hd⟩

/-- The new state's text is noted before the commit begins. -/
theorem safely_prepare (hσ : σ.scan = true) (hA : Persistent A) (after : Option Bytes) :
    Safely crates place strict t (At t σ fun s => A s ∧ s.trace.underway t = some u)
      (mark (.prepared after)) fun _ => At t σ fun s => A s ∧
        s.trace.underway t = some u ∧ s.trace.prepared t = after := by
  refine safely_delivering rfl hσ (durable_and hA.durable durable_underway) (fun s _ _ =>
    ⟨fun _ => Act.noConfusion, Act.noConfusion, fun _ _ _ => Act.noConfusion,
      fun _ _ _ _ _ _ _ h => by cases h⟩) fun s x r s' h hs _ hact => ?_
  have htr := (act_eq hact).2
  refine ⟨hs, hA s s' (lasting_of_act hact rfl) h.holds.1, ?_, ?_⟩
  · rw [htr, Trace.observe_note]
    exact h.holds.2
  · rw [htr, Trace.observe_note]
    exact Function.update_self ..

theorem durable_prepared (after : Option Bytes) :
    Durable t true fun s => s.trace.prepared t = after :=
  durable_of_onward fun _ _ ho h => ho.prepared.trans h

/-- The record of a failed commit matches every outstanding delivery's Loop. -/
theorem safely_keep {record : UnrecordedDelivery} (hσ : σ.scan = true) (hA : Persistent A)
    (hseen : ∀ s, A s → Seen crates strict snapshot s) (hg : record.generation = snapshot.generation)
    (hbefore : record.stateBefore = snapshot.raw) (hconfig : record.config = snapshot.config)
    (after : Option Bytes) :
    Safely crates place strict t (At t σ fun s => A s ∧ s.trace.underway t = some u ∧
        s.trace.prepared t = after) (keepUnrecordedDelivery record) fun _ => At t σ fun s =>
      s.trace.underway t = some u ∧ s.trace.prepared t = after ∧
        s.world.unrecordedDelivery = some record := by
  refine safely_delivering rfl hσ (durable_and hA.durable (durable_and durable_underway
    (durable_prepared after))) (fun s h hs => ?_) fun s x r s' h hstands _ hact => ?_
  · refine ⟨fun record' he d hd config hlive => ?_, Act.noConfusion, fun _ _ _ => Act.noConfusion,
      fun _ _ _ _ _ _ _ => Act.noConfusion⟩
    obtain rfl := Act.keepUnrecordedDelivery.inj he
    have hd := hseen s h.holds.1 hs d hd
    refine hd.raw.symm.imp id fun hraw => ?_
    simp only [UnrecordedDelivery.replayable, decide_eq_true_eq]
    refine ⟨hg.trans hd.generation.symm, .inl (hraw.trans hbefore.symm), ?_⟩
    rw [hd.config config hlive, hconfig]
    exact loopDeliveryConfigMatches_refl _
  · have hact : s.act t (.keepUnrecordedDelivery record) x = some (r, s') := hact
    obtain ⟨hw, htr⟩ := act_eq hact
    refine ⟨hstands, ?_, ?_, ?_⟩
    · rw [htr]
      exact h.holds.2.1
    · rw [htr]
      exact h.holds.2.2
    · rw [← world_eq hw]

/-- A failed commit of a delivered run leaves its record. -/
theorem safely_recordUnrecordedDelivery (hreads : strict → crates.ReadsBack)
    (hσ : σ.scan = true) {entry : LoopAuditEntry} {message : String} {next : LoopState}
    (hpast : strict → u.Counts → Past next u.dueAt) :
    Safely crates place strict t (At t σ fun s => Seen crates strict snapshot s ∧
        s.trace.underway t = some u ∧ s.trace.prepared t = (crates.jsonToString next).toOption)
      (recordUnrecordedDelivery crates snapshot.generation snapshot.config entry message next
        snapshot.raw) fun _ => At t σ fun s => s.trace.underway t = some u ∧
          (strict → u.Counts → Recorded crates t snapshot u s) := by
  unfold recordUnrecordedDelivery
  cases hj : crates.jsonToString next with
  | error e =>
    refine Triple.done fun s _ h => h.mono fun s h => ⟨h.2.1, fun hs _ => ?_⟩
    obtain ⟨text, ht, -⟩ := (hreads hs).state next
    exact absurd (hj.symm.trans ht) nofun
  | ok text =>
    refine (safely_keep hσ persistent_seen (fun _ (h : Seen crates strict snapshot _) => h) rfl rfl rfl
      (some text)).conseq (fun s _ h => h) fun _ s h => h.mono fun s h => ⟨h.1, fun hs hu => ?_⟩
    obtain ⟨text', ht, -, hback⟩ := (hreads hs).state next
    obtain rfl := Except.ok.inj (hj.symm.trans ht)
    exact ⟨text, next, _, h.2.1, hback, hpast hs hu, h.2.2, rfl, rfl, rfl, rfl⟩

theorem safely_commitDeliveryReport (hreads : strict → crates.ReadsBack)
    {report : LoopDeliveryReport} {origin : Origin} {run : Uuid} {due started : DateTime}
    (hu : u = ⟨origin, snapshot.config, run, due, report.kind⟩) :
    Safely crates place strict t
      (At t (after snapshot).withIo fun s => Seen crates strict snapshot s ∧ Carrying t u s)
      (commitDeliveryReport crates place snapshot.config snapshot.state report run due started
        snapshot.generation snapshot.raw).run
      fun r => At t (after snapshot).withIo (reported crates strict t snapshot u r) := by
  refine Triple.except_bind (safely_currentForReport rfl persistent_seen.durable) (fun here => ?_)
    fun e s _ h => h.mono fun s h => ⟨h.1.2.1, fun hs hc => absurd hc (h.2 hs)⟩
  by_cases hgone : (!here) = true
  · rw [if_pos hgone]
    exact Triple.done (a := Except.ok none) fun s _ h => h.mono fun s h => h.2.1
  rw [if_neg hgone]
  refine Triple.except_bind (Triple.lift (E := fun (e : String) =>
    At t (after snapshot).withIo (reported (α := LoopState) crates strict t snapshot u (.error e)))
    (safely_clockForReport rfl persistent_seen.durable)) (fun now => ?_) fun _ _ _ h => h
  refine Triple.except_bind (Triple.ofExcept _) (fun nextDue => ?_)
    fun e s _ h => h.1.mono fun s h' => ⟨h'.1.2.1, fun hs hc => ?_⟩
  · rintro s hi ⟨h, -⟩
    have hdue := h.holds.2
    generalize hnext : reportedState snapshot.state report run due now nextDue = next
    have hpast : strict → u.Counts → Past next u.dueAt := by
      intro hs hc
      obtain ⟨hle, -⟩ := hdue hs hc
      rw [← hnext]
      subst hu
      exact past_reportedState hc.2 hle
    refine Triple.except_bind (Triple.lift (E := fun (e : String) =>
      At t (after snapshot).withIo (reported (α := LoopState) crates strict t snapshot u (.error e)))
      (safely_prepare rfl persistent_seen _)) (fun _ => ?_) (fun _ _ _ h => h) s hi
      (h.mono fun s h => ⟨h.1.1, h.1.2.1⟩)
    have hdur : Durable t true fun s => Seen crates strict snapshot s ∧
        s.trace.underway t = some u ∧ s.trace.prepared t = (crates.jsonToString next).toOption :=
      durable_and persistent_seen.durable (durable_and durable_underway (durable_prepared _))
    refine Triple.except_bind (Triple.lift (E := fun (e : String) =>
      At t (after snapshot).withIo (reported (α := LoopState) crates strict t snapshot u (.error e)))
      (safely_commitScanSectionChecked hdur _ next none)) (fun r => ?_) fun _ _ _ h => h
    match r with
    | .ok .written =>
      exact Triple.done (a := Except.ok (some (LoopStateWrite.written, next))) fun s _ h =>
        h.mono fun s h => ⟨h.1.2.1, h.2⟩
    | .ok .stale =>
      exact Triple.done (a := Except.ok (some (LoopStateWrite.stale, next))) fun s _ h => h.mono fun s h => h.2.1
    | .error e =>
      dsimp only
      split_ifs with hk
      · refine Triple.except_bind (Triple.lift (E := fun (e : String) => At t (after snapshot).withIo
          (reported (α := LoopState) crates strict t snapshot u (.error e)))
          (safely_recordUnrecordedDelivery hreads rfl hpast)) (fun _ => ?_) fun _ _ _ h => h
        exact Triple.done (a := Except.error e) fun _ _ h => h
      · refine Triple.done (a := Except.error e) fun s _ h => h.mono fun s h =>
          ⟨h.2.1, fun _ hc => absurd hc.2 ?_⟩
        rw [hu]
        exact hk
  · obtain ⟨-, next, hok⟩ := h'.2 hs hc
    have herr := h.2
    subst hu
    rw [hok] at herr
    cases herr

/-- What is known once the report has been applied. -/
def settled {α : Type} : Except String (Option (LoopStateWrite × α)) → System → Prop
  | .ok (some (.written, _)) => Paid
  | _ => fun _ => True

theorem remembered_of_recorded {s : System} {generation : ℕ} {raw : Option Bytes}
    (h : Recorded crates t snapshot u s)
    (hread : AsRead crates t snapshot.config generation raw s)
    (hg : generation = snapshot.generation) (hr : raw = snapshot.raw) :
    Delivery.Remembered crates ⟨u.dueAt, snapshot.config, generation, raw, s.trace.prepared t⟩
      s.world := by
  obtain ⟨after, next, record, hp, hj, hpast, hrec, hgen, hbefore, hafter, hconfig⟩ := h
  refine ⟨⟨after, next, hp, hj, hpast⟩, fun config hlive => .inr ⟨record, hrec, ?_⟩⟩
  simp only [UnrecordedDelivery.replayable, decide_eq_true_eq]
  refine ⟨hgen.trans (hg.symm.trans hread.generation.symm), ?_, hconfig ▸ hread.config config hlive⟩
  rcases hread.raw with hraw | hraw
  · exact .inl (hraw.trans (hr.trans hbefore.symm))
  · exact .inr (hraw.trans (hp.trans (congrArg some hafter.symm)))

theorem durable_reported {α : Type} (r : Except String (Option (LoopStateWrite × α))) :
    Durable t true (reported crates strict t snapshot u r) := by
  match r with
  | .ok (some (.written, _)) => exact durable_and durable_underway durable_paid
  | .ok (some (.stale, _)) => exact durable_underway
  | .ok none => exact durable_underway
  | .error e =>
    exact durable_and durable_underway (durable_implies (durable_implies durable_recorded))

theorem durable_settled {α : Type} (r : Except String (Option (LoopStateWrite × α))) :
    Durable t true (settled r) := by
  match r with
  | .ok (some (.written, _)) => exact durable_paid
  | .ok (some (.stale, _)) => exact durable_true t true
  | .ok none => exact durable_true t true
  | .error e => exact durable_true t true

/-- The end of a report: a failed one is remembered. -/
theorem safely_markReport {α : Type} {body : LoopM (Option (LoopStateWrite × α))}
    (hbody : Safely crates place strict t (At t σ A) body.run
      fun r => At t σ (reported crates strict t snapshot u r)) (hσ : σ.scan = true) :
    Safely crates place strict t (At t σ A)
      (markReport snapshot.config snapshot.generation snapshot.raw body).run
      fun r => At t σ (settled r) := by
  refine Triple.bind hbody fun r => ?_
  refine Triple.bind (B := fun _ => At t σ (settled r)) (safely_delivering rfl hσ
    (durable_reported r) (fun s h hs => ?_) fun s x _ s' h hstands _ hact => ?_)
    fun _ => Triple.done (a := r) fun _ _ h => h
  · refine ⟨fun _ => Act.noConfusion, Act.noConfusion, fun _ _ _ => Act.noConfusion, ?_⟩
    intro u' config generation raw hu' ho hk he hread
    obtain ⟨rfl, rfl, rfl, hf⟩ := Note.reportApplied.inj (Act.note.inj he)
    cases r with
    | ok a => cases hf
    | error e =>
      obtain ⟨hu, hrec⟩ := h.holds
      obtain rfl := Option.some.inj (hu'.symm.trans hu)
      exact remembered_of_recorded (hrec hs ⟨ho, hk⟩) hread rfl rfl
  · refine ⟨hstands, ?_⟩
    match r, h with
    | .ok (some (.written, _)), h =>
      obtain ⟨hw, htr⟩ := act_eq hact
      have hworld : s'.world = s.world := (world_eq hw).symm
      intro d hd
      rw [htr, Trace.observe_note] at hd
      rw [hworld]
      rcases outstanding_reported _ _ _ _ _ hd with hm | ⟨_, -, -, -, hf, -⟩
      · exact h.holds.2 d (List.mem_filter.mp hm).1
      · cases hf
    | .ok (some (.stale, _)), _ => trivial
    | .ok none, _ => trivial
    | .error e, _ => trivial

/-- A report is applied: where the state was written the record has served its purpose. -/
theorem safely_applyDeliveryReport (happ : t.isApp = true) (hreads : strict → crates.ReadsBack)
    {report : LoopDeliveryReport} {origin : Origin} {run : Uuid} {due started : DateTime} :
    Safely crates place strict t
      (At t (after snapshot) fun s => Seen crates strict snapshot s ∧
        Carrying t ⟨origin, snapshot.config, run, due, report.kind⟩ s)
      (applyDeliveryReport crates place snapshot.config snapshot.state report run due started
        snapshot.generation snapshot.raw).run
      fun _ => At t (after snapshot) fun _ => True := by
  refine Triple.bind (safely_withIoLock (τ := fun _ => after snapshot) happ (fun _ => rfl)
    (durable_and persistent_seen.durable (durable_carrying _)) durable_settled
    (safely_markReport (safely_commitDeliveryReport hreads rfl) rfl)) fun r => ?_
  match r with
  | .error e => exact Triple.done (a := Except.error e) fun s _ h => h
  | .ok none => exact Triple.done (a := Except.ok snapshot.state) fun s _ h => h
  | .ok (some (.stale, next)) => exact Triple.done (a := Except.ok snapshot.state) fun s _ h => h
  | .ok (some (.written, next)) =>
    refine Triple.except_bind (Triple.lift (E := fun (_ : String) => At t (after snapshot)
      fun _ => True) (safely_takePaid rfl durable_paid fun _ h => h)) (fun _ => ?_) fun _ _ _ h => h
    split_ifs
    · exact Triple.done (a := Except.ok next) fun _ _ h => h
    · exact through_bind (through_light (uses_up (uses_emitTransition _ _)))
        fun _ => through_light (.done _)

end
end AgentsCommander.Loops
