import AgentsCommander.PtyInput.Expiry

/-! Idempotency of PTY input: what an identity is bound to, and what a repeated enqueue is
answered, whether the original is live, terminal or compacted. -/
namespace AgentsCommander.PtyInput
open Foundation
open MessageStore (Timestamp MessageStoreError)

/-- The clock at an end of this row that is not its rejection: not between its queueing and
the instant it began to be typed. -/
def OperationRow.EndsInOrder (r : OperationRow) (now : Timestamp) : Prop :=
  r.status = .actuating → r.queuedAt ≤ now → ∀ at' ∈ r.actuatingAt, at' ≤ now

instance (r : OperationRow) (now : Timestamp) : Decidable (r.EndsInOrder now) :=
  inferInstanceAs (Decidable (_ → _ → _))

/-- It ends no row at an instant before the row began to be typed. -/
def Txn.Timely (t : PtyTables) : Txn → Prop
  | .terminalizePtyInput injectionId status reason now =>
    (status = .injected ∨ status = .indeterminate) →
      ptyInputReasonAllowedForStatus status reason = true →
        ∀ o ∈ t.operations.get injectionId, o.row.EndsInOrder now
  | _ => True

/-- Recovery at startup ends every actuating row it can lock, at its own clock reading. -/
def PtyEvent.Timely (s : PtyStore) : PtyEvent → Prop
  | .transaction txn => txn.Timely s.tables
  | .recoverPtyInputStartup now unlocked =>
    ∀ o ∈ s.tables.operations.rows, unlocked o.row.injectionId = true → o.row.EndsInOrder now
  | _ => True

instance (t : PtyTables) : DecidablePred (Txn.Timely t)
  | .terminalizePtyInput .. => inferInstanceAs (Decidable (_ → _ → ∀ o ∈ _, _))
  | .enqueuePtyInput .. | .recordHostPtyInputRejection .. | .claimPtyInput ..
  | .renewPtyInputLease .. | .beginPtyActuating .. | .retryPtyInput ..
  | .retryStartupPreparation .. | .retryRuntimePtyPreparation .. | .compactBefore ..
  | .compactMaintenance .. | .markHostArtifact .. => isTrue trivial

instance (s : PtyStore) : DecidablePred (PtyEvent.Timely s)
  | .transaction txn => inferInstanceAs (Decidable (txn.Timely s.tables))
  | .recoverPtyInputStartup .. => inferInstanceAs (Decidable (∀ o ∈ _, _ → _))
  | .enqueuePtyInput .. | .recoverPtyInputRuntime .. | .expirePtyInputForAdmissionPage ..
  | .compactPtyTerminalBefore .. | .compactPtyTerminalMaintenance .. => isTrue trivial

/-- Every record can be shown. -/
structure Readable (t : PtyTables) : Prop where
  sound : Sound t
  ordered : ∀ r ∈ t.records, r.InOrder

theorem readable_empty : Readable .empty := ⟨sound_empty, fun _ h => nomatch h⟩

theorem not_rejected_cases {r : PtyRecord} (hc : r.Coherent) {end' : Timestamp}
    (hend : r.terminalAt = some end') (hr : r.status ≠ .rejected) :
    r.status.toPublic = .injected ∨ r.status.toPublic = .indeterminate := by
  have hterm : r.status.toPublic.isTerminal = true := by
    rw [← isTerminal_of_shape hc.shape, hend]
    rfl
  cases hs : r.status <;> rw [hs] at hterm hr <;>
    first | exact Or.inl rfl | exact Or.inr rfl | exact absurd rfl hr | cases hterm

theorem readable_of_effect {t t' : PtyTables} {txn : Txn} (h : Effect t txn t') (hr : Readable t)
    (ht : txn.Timely t) : Readable t' := by
  have hsound := sound_of_effect h hr.sound
  refine ⟨hsound, fun r hmem => ?_⟩
  cases recordOrigin_of_effect h hmem with
  | kept mem => exact hr.ordered r mem
  | born _ inOrder => exact inOrder
  | rewritten o mem coherent inOrder =>
    have hc := hsound.coherent r hmem
    rcases inOrder hc with hdone | ⟨hact, hqueued, hat, reason, now, rfl, hallowed, hend⟩
    · exact hdone
    · by_cases hrej : r.status = .rejected
      · exact inOrder_of_rejected hc hrej
      · have hclock := ht (not_rejected_cases hc hend hrej) hallowed o mem hact
          (hqueued ▸ hc.settled now hend)
        intro at' hat' end' hend'
        cases hend.symm.trans hend'
        exact hclock at' (hat ▸ hat')

/-- The actuating rows are those of the first tables, as they were. -/
def ActuatingFrom (t u : PtyTables) : Prop :=
  ∀ o ∈ u.operations.rows, o.row.status = .actuating → o ∈ t.operations.rows

theorem mem_set {t : PtyTables} {o' p : Operation} (h : p ∈ (t.operations.set o').rows) :
    p = o' ∨ p ∈ t.operations.rows := by
  obtain ⟨q, hq, rfl⟩ := List.mem_map.mp h
  split_ifs
  · exact Or.inl rfl
  · exact Or.inr hq

/-- Only `begin_pty_actuating` makes a row actuating. -/
theorem actuatingFrom_of_effect {t u u' : PtyTables} {txn : Txn} (h : Effect u txn u')
    (hm : ∀ injectionId leaseOwner sessionId backend now commit,
      txn ≠ .beginPtyActuating injectionId leaseOwner sessionId backend now commit)
    (hu : ActuatingFrom t u) : ActuatingFrom t u' := by
  have hset : ∀ {o' : Operation}, o'.row.status ≠ .actuating →
      ∀ p ∈ (u.operations.set o').rows, p.row.status = .actuating → p ∈ t.operations.rows := by
    intro o' hne p hp hact
    rcases mem_set hp with rfl | hp
    · exact absurd hact hne
    · exact hu p hp hact
  cases h with
  | unchanged => exact hu
  | admitted req wallNow o free status fresh coherent =>
    intro p hp hact
    rcases (Table.mem_insert (h := free)).mp hp with hp | rfl
    · exact hu p hp hact
    · rw [status] at hact
      cases hact
  | refused => exact hu
  | waited _ o o' found before after =>
    apply hset
    intro hact
    rw [hact] at after
    cases after
  | begun leaseOwner sessionId backend now commit =>
    exact absurd rfl (hm _ leaseOwner sessionId backend now commit)
  | settled _ o o' s tombstones found before after =>
    apply hset
    intro hact
    rw [hact] at after
    cases after
  | compacted _ o s found status =>
    exact fun p hp => hu p (List.mem_filter.mp hp).1
  | marked now o o' found status row =>
    apply hset
    intro hact
    rw [row] at hact
    rw [hact] at status
    cases status

/-- Only the transaction itself begins to type. -/
theorem not_begins_of_runs {t : PtyTables} {e : PtyEvent} {txn : Txn}
    (he : ∀ txn, e ≠ .transaction txn) (h : e.Runs t txn) :
    ∀ injectionId leaseOwner sessionId backend now commit,
      txn ≠ .beginPtyActuating injectionId leaseOwner sessionId backend now commit := by
  rintro injectionId leaseOwner sessionId backend now commit rfl
  rcases maintains_of_runs h with htxn | ⟨req, wallNow, henq⟩ | hm
  · exact he _ htxn
  · cases henq
  · cases hm

/-- What a timely event runs is timely wherever the run has got to. -/
theorem timely_of_runs {s : PtyStore} {u : PtyTables} {e : PtyEvent} {txn : Txn}
    (he : ∀ txn, e ≠ .transaction txn) (ht : e.Timely s) (h : e.Runs s.tables txn)
    (hu : ActuatingFrom s.tables u) : txn.Timely u := by
  have hexpiry : ∀ {now : Timestamp} {unlocked : String → Bool} {r : OperationRow},
      r.expiryTurn now unlocked = some txn → txn.Timely u := by
    intro now unlocked r h
    unfold OperationRow.expiryTurn at h
    split_ifs at h
    cases h
    intro hstatus
    rcases hstatus with hstatus | hstatus <;> cases hstatus
  cases e with
  | transaction txn' => exact absurd rfl (he txn')
  | enqueuePtyInput req wallNow unlocked =>
    rcases h with rfl | ⟨now, unlocked, r, h⟩
    · exact trivial
    · exact hexpiry h
  | recoverPtyInputStartup now unlocked =>
    obtain ⟨r, h⟩ := h
    unfold OperationRow.startupTurn at h
    split_ifs at h with hlock hact hexp hattempt hprep
    · cases h
      intro _ _ o ho hstatus
      have hid : o.row.injectionId = r.injectionId := id_of_operation ho
      refine ht o (hu o (Table.mem_of_get ho) hstatus) ?_ hstatus
      rw [hid]
      simpa using hlock
    · cases h
      intro hstatus
      rcases hstatus with hstatus | hstatus <;> cases hstatus
    · cases h
      intro hstatus
      rcases hstatus with hstatus | hstatus <;> cases hstatus
    · cases h
      exact trivial
  | recoverPtyInputRuntime active now unlocked =>
    obtain ⟨r, hr, h⟩ := h
    simp only [PtyTables.select, List.mem_filter, List.mem_map] at hr
    obtain ⟨⟨p, hp, rfl⟩, hcand⟩ := hr
    unfold OperationRow.runtimeTurn at h
    split_ifs at h with hlock hexp hact hlease hattempt
    · cases h
      intro hstatus
      rcases hstatus with hstatus | hstatus <;> cases hstatus
    · cases h
      intro _ _ o ho hstatus _ at' hat
      have hid : o.row.injectionId = p.row.injectionId := id_of_operation ho
      have hop : o = p := s.tables.operations.eq_of_key_eq
        (hu o (Table.mem_of_get ho) hstatus) hp hid
      subst hop
      simp only [OperationRow.runtimeCandidate, hact, PtyStatus.isWaiting, decide_true,
        Bool.true_and, Bool.or_eq_true, Option.any_eq_true, decide_eq_true_eq] at hcand
      have hat' : o.row.actuatingAt = some at' := hat
      simp only [hat', Option.some.injEq, exists_eq_left'] at hcand
      have hlt : at' < now - 15 * 1000 := by simpa using hcand
      exact hlt.le.trans (sub_le_self now (by decide))
    · cases h
      intro hstatus
      rcases hstatus with hstatus | hstatus <;> cases hstatus
    · cases h
      exact trivial
  | expirePtyInputForAdmissionPage now unlocked =>
    obtain ⟨r, h⟩ := h
    exact hexpiry h
  | compactPtyTerminalBefore cutoff limit unlocked =>
    obtain ⟨injectionId, rfl⟩ := h
    exact trivial
  | compactPtyTerminalMaintenance now limit unlocked =>
    obtain ⟨injectionId, normalCutoff, unclaimedCutoff, rfl⟩ := h
    exact trivial

/-- Nothing is bound, and no operation has come into being. -/
structure BindsNothing (t t' : PtyTables) : Prop where
  identities : t'.identities = t.identities
  operations : ∀ injectionId, t.operations.get injectionId = none →
    t'.operations.get injectionId = none

theorem BindsNothing.refl (t : PtyTables) : BindsNothing t t := ⟨rfl, fun _ h => h⟩

theorem BindsNothing.trans {t u v : PtyTables} (h : BindsNothing t u) (h' : BindsNothing u v) :
    BindsNothing t v where
  identities := h'.identities.trans h.identities
  operations injectionId hnone := h'.operations injectionId (h.operations injectionId hnone)

theorem bindsNothing_of_maintains {t t' : PtyTables} {txn : Txn} (h : Effect t txn t')
    (hm : txn.maintains = true) : BindsNothing t t' where
  identities := identities_of_maintains h hm
  operations _ hnone := get_none_of_effect h hnone (Or.inl hm)

/-- The event asks for this enqueue, as a whole or as its last transaction. -/
def PtyEvent.enqueues (req : PtyInputEnqueueRequest) : PtyEvent → Prop
  | .enqueuePtyInput req' _ _ => req' = req
  | .transaction (.enqueuePtyInput req' _) => req' = req
  | _ => False

section
variable {sha256Hex : ByteArray → String}

/-- The part of an event that is done keeps the tables readable. -/
theorem readable_run {s : PtyStore} {e : PtyEvent} (he : ∀ txn, e ≠ .transaction txn)
    (ht : e.Timely s) (hr : Readable s.tables) {ts : List Txn}
    (hts : ∀ txn ∈ ts, e.Runs s.tables txn) :
    Readable ((transactions sha256Hex).run s.tables ts) := by
  have hstep : ∀ u txn, Readable u ∧ ActuatingFrom s.tables u → e.Runs s.tables txn →
      Readable ((transactions sha256Hex).next u txn) ∧
        ActuatingFrom s.tables ((transactions sha256Hex).next u txn) := by
    intro u txn hu hruns
    have heff := effect_next sha256Hex u txn
    exact ⟨readable_of_effect heff hu.1 (timely_of_runs he ht hruns hu.2),
      actuatingFrom_of_effect heff (not_begins_of_runs he hruns) hu.2⟩
  exact (Machine.run_inv hstep ⟨hr, fun _ h _ => h⟩
    (Machine.along_of_forall (fun txn hmem _ => hts txn hmem) s.tables)).1

theorem readable_next {s : PtyStore} {e : PtyEvent} (hr : Readable s.tables) (ht : e.Timely s) :
    Readable ((ptyStore sha256Hex).next s e).tables := by
  by_cases he : ∃ txn, e = .transaction txn
  · obtain ⟨txn, rfl⟩ := he
    exact readable_of_effect (effect_next sha256Hex s.tables txn) hr ht
  · obtain ⟨ts, hrun, hts⟩ := next_run sha256Hex s e
    rw [hrun]
    exact readable_run (fun txn htxn => he ⟨txn, htxn⟩) ht hr hts

theorem readable_of_timely {es : List PtyEvent}
    (h : (ptyStore sha256Hex).Along PtyEvent.Timely .empty es) :
    Readable ((ptyStore sha256Hex).run .empty es).tables :=
  Machine.run_inv (P := fun s : PtyStore => Readable s.tables)
    (fun _ _ hr ht => readable_next hr ht) readable_empty h

theorem sound_next {s : PtyStore} (e : PtyEvent) (hs : Sound s.tables) :
    Sound ((ptyStore sha256Hex).next s e).tables := by
  obtain ⟨ts, hrun, -⟩ := next_run sha256Hex s e
  rw [hrun]
  exact sound_run hs ts

theorem sound_of_run (es : List PtyEvent) : Sound ((ptyStore sha256Hex).run .empty es).tables :=
  Machine.run_inv_free (P := fun s : PtyStore => Sound s.tables) (fun _ e hs => sound_next e hs)
    sound_empty es

theorem identities_subset_next (s : PtyStore) (e : PtyEvent) :
    s.tables.identities ⊆ ((ptyStore sha256Hex).next s e).tables.identities := by
  obtain ⟨ts, hrun, -⟩ := next_run sha256Hex s e
  rw [hrun]
  exact Machine.run_inv_free (P := fun u : PtyTables => s.tables.identities ⊆ u.identities)
    (fun u txn hu => hu.trans (identities_grow (effect_next sha256Hex u txn)).subset) subset_rfl ts

theorem identities_subset_run (s : PtyStore) (es : List PtyEvent) :
    s.tables.identities ⊆ ((ptyStore sha256Hex).run s es).tables.identities :=
  Machine.run_inv_free (P := fun u : PtyStore => s.tables.identities ⊆ u.tables.identities)
    (fun u e hu => hu.trans (identities_subset_next u e)) subset_rfl es

variable (sha256Hex) in
/-- The expiry pages bind nothing. -/
theorem expirePages_bindsNothing (now : Timestamp) (unlocked : ℕ → String → Bool) (pages : ℕ)
    (s : PtyStore) :
    BindsNothing s.tables (s.expirePages sha256Hex now unlocked pages).1.tables := by
  obtain ⟨ts, hrun, hts⟩ := expirePages_run sha256Hex now unlocked pages s
  rw [hrun]
  have hmaintains : (transactions sha256Hex).Along (fun _ txn => txn.maintains = true)
      s.tables ts := by
    apply Machine.along_of_forall
    intro txn hmem _
    obtain ⟨_, _, h⟩ := hts txn hmem
    exact maintains_of_expiryTurn h
  exact Machine.run_inv (P := BindsNothing s.tables)
    (fun u txn hu hm => hu.trans (bindsNothing_of_maintains (effect_next sha256Hex u txn) hm))
    (.refl s.tables) hmaintains

/-- The answer is the operation this id names, told apart as a duplicate, and binds nothing. -/
def AnswersDuplicate (sha256Hex : ByteArray → String) (s : PtyStore) (e : PtyEvent)
    (injectionId : String) : Prop :=
  ∃ result, (ptyStore sha256Hex).answer s e = .ok (.transaction (.enqueued ⟨result, true⟩)) ∧
    result.injectionId = injectionId ∧
      BindsNothing s.tables ((ptyStore sha256Hex).next s e).tables

theorem transact_of_admit_ok {s : PtyStore} {req : PtyInputEnqueueRequest} {wallNow : Timestamp}
    {x : PtyInputEnqueueResult} (h : s.tables.admit sha256Hex req wallNow = .ok (s.tables, x)) :
    s.transact sha256Hex (.enqueuePtyInput req wallNow) = (s, .ok (.enqueued x)) := by
  simp only [PtyStore.transact, Machine.next, Machine.answer, transactions, PtyTables.step,
    PtyTables.reply, h, Except.map, atomically]

theorem transact_of_admit_error {s : PtyStore} {req : PtyInputEnqueueRequest} {wallNow : Timestamp}
    {err : MessageStoreError} (h : s.tables.admit sha256Hex req wallNow = .error err) :
    s.transact sha256Hex (.enqueuePtyInput req wallNow) = (s, .error err) := by
  simp only [PtyStore.transact, Machine.next, Machine.answer, transactions, PtyTables.step,
    PtyTables.reply, h, Except.map, atomically]

/-- Behind its validation and expiry pages an enqueue is its last transaction. -/
theorem enqueuePtyInput_eq {s : PtyStore} (hs : Sound s.tables) {req : PtyInputEnqueueRequest}
    (hv : (validatePtyEnqueueRequest req).isOk = true) (wallNow : Timestamp)
    (unlocked : ℕ → String → Bool) :
    s.enqueuePtyInput sha256Hex req wallNow unlocked =
      (s.expirePages sha256Hex wallNow unlocked 8).1.transact sha256Hex
        (.enqueuePtyInput req wallNow) := by
  unfold PtyStore.enqueuePtyInput
  cases hval : validatePtyEnqueueRequest req with
  | error e =>
    rw [hval] at hv
    cases hv
  | ok instants =>
    dsimp only
    rw [expirePages_ok wallNow unlocked 8 hs]

/-- The same operation asked for again is answered with what it is bound to. -/
theorem enqueue_duplicate {s : PtyStore} (hr : Readable s.tables) {e : PtyEvent}
    {req : PtyInputEnqueueRequest} (he : e.enqueues req)
    (hv : (validatePtyEnqueueRequest req).isOk = true) {i : Identity} (hi : i ∈ s.tables.identities)
    (hsender : i.senderFqn = req.senderFqn) (hop : i.opId = req.opId)
    (hfp : i.requestFingerprint = req.requestFingerprint)
    (hinc : i.senderIncarnationFingerprint = req.senderIncarnationFingerprint) :
    AnswersDuplicate sha256Hex s e i.injectionId := by
  cases e with
  | transaction txn =>
    cases txn with
    | enqueuePtyInput req' wallNow =>
      obtain rfl : req' = req := he
      obtain ⟨result, hadmit, hid⟩ := admit_duplicate sha256Hex wallNow
        hr.sound hr.ordered hv hi hsender hop hfp hinc
      have hstep := transact_of_admit_ok hadmit
      refine ⟨result, ?_, hid, ?_⟩
      · simp only [Machine.answer, ptyStore, PtyStore.step, hstep, Except.map]
      · simp only [Machine.next, ptyStore, PtyStore.step, hstep]
        exact .refl _
    | _ => exact he.elim
  | enqueuePtyInput req' wallNow unlocked =>
    obtain rfl : req' = req := he
    obtain ⟨ts, hrun, hts⟩ := expirePages_run sha256Hex wallNow unlocked 8 s
    have hbinds := expirePages_bindsNothing sha256Hex wallNow unlocked 8 s
    have hr' : Readable (s.expirePages sha256Hex wallNow unlocked 8).1.tables := by
      rw [hrun]
      exact readable_run (e := .enqueuePtyInput req' wallNow unlocked) (fun txn h => by cases h)
        trivial hr fun txn hmem => Or.inr ⟨wallNow, hts txn hmem⟩
    rw [← hbinds.identities] at hi
    obtain ⟨result, hadmit, hid⟩ := admit_duplicate sha256Hex wallNow
      hr'.sound hr'.ordered hv hi hsender hop hfp hinc
    have hstep := (enqueuePtyInput_eq hr.sound hv wallNow unlocked).trans
      (transact_of_admit_ok hadmit)
    refine ⟨result, ?_, hid, ?_⟩
    · simp only [Machine.answer, ptyStore, PtyStore.step, hstep, Except.map]
    · simp only [Machine.next, ptyStore, PtyStore.step, hstep]
      exact hbinds
  | _ => exact he.elim

/-- An operation that is bound is refused to any other request. -/
theorem enqueue_conflict {s : PtyStore} (hs : Sound s.tables) {e : PtyEvent}
    {req : PtyInputEnqueueRequest} (he : e.enqueues req)
    (hv : (validatePtyEnqueueRequest req).isOk = true) {i : Identity} (hi : i ∈ s.tables.identities)
    (hsender : i.senderFqn = req.senderFqn) (hop : i.opId = req.opId)
    (hfp : i.requestFingerprint ≠ req.requestFingerprint) :
    (ptyStore sha256Hex).answer s e = .error .idempotencyConflict := by
  cases e with
  | transaction txn =>
    cases txn with
    | enqueuePtyInput req' wallNow =>
      obtain rfl : req' = req := he
      have hstep := transact_of_admit_error (admit_conflict sha256Hex
        wallNow hs hv hi hsender hop hfp)
      simp only [Machine.answer, ptyStore, PtyStore.step, hstep, Except.map]
    | _ => exact he.elim
  | enqueuePtyInput req' wallNow unlocked =>
    obtain rfl : req' = req := he
    obtain ⟨ts, hrun, -⟩ := expirePages_run sha256Hex wallNow unlocked 8 s
    have hs' : Sound (s.expirePages sha256Hex wallNow unlocked 8).1.tables := by
      rw [hrun]
      exact sound_run hs ts
    rw [← (expirePages_bindsNothing sha256Hex wallNow unlocked 8 s).identities] at hi
    have hstep := (enqueuePtyInput_eq hs hv wallNow unlocked).trans
      (transact_of_admit_error (admit_conflict _ _ hs' hv hi hsender hop hfp))
    simp only [Machine.answer, ptyStore, PtyStore.step, hstep, Except.map]
  | _ => exact he.elim

/-- What a sender has bound stays bound to one injection, in every state the run goes through. -/
theorem bound_once (es : List PtyEvent) {pre post : List PtyEvent} (hpre : pre <+: es)
    (hpost : post <+: es) {a b : PtyRecord}
    (ha : a ∈ ((ptyStore sha256Hex).run .empty pre).tables.records)
    (hb : b ∈ ((ptyStore sha256Hex).run .empty post).tables.records)
    (hsender : a.senderFqn = b.senderFqn)
    (hkey : a.opId = b.opId ∨ a.nonceSha256 = b.nonceSha256) : a.injectionId = b.injectionId := by
  have hlift : ∀ {l : List PtyEvent} {r : PtyRecord}, l <+: es →
      r ∈ ((ptyStore sha256Hex).run .empty l).tables.records →
      r.identity ∈ ((ptyStore sha256Hex).run .empty es).tables.identities := by
    intro l r hl hr
    obtain ⟨rest, rfl⟩ := hl
    rw [Machine.run_append]
    exact identities_subset_run _ rest (identity_mem hr)
  have heq : a.identity = b.identity :=
    (sound_of_run es).apart _ (hlift hpre ha) _ (hlift hpost hb) (Or.inr ⟨hsender, hkey⟩)
  exact congrArg Identity.injectionId heq

/-- Idempotency over a run: what is bound once is bound for good, to one injection, and a
repeated enqueue is told so. -/
structure IdempotencyLaw (sha256Hex : ByteArray → String) (es : List PtyEvent) : Prop where
  bound : ∀ pre post, pre <+: es → post <+: es →
    ∀ a ∈ ((ptyStore sha256Hex).run .empty pre).tables.records,
    ∀ b ∈ ((ptyStore sha256Hex).run .empty post).tables.records, a.senderFqn = b.senderFqn →
      (a.opId = b.opId ∨ a.nonceSha256 = b.nonceSha256) → a.injectionId = b.injectionId
  duplicate : ∀ early mid e post req, es = early ++ mid ++ e :: post → e.enqueues req →
    (validatePtyEnqueueRequest req).isOk = true →
    ∀ a ∈ ((ptyStore sha256Hex).run .empty early).tables.records,
      a.senderFqn = req.senderFqn → a.opId = req.opId →
      a.requestFingerprint = req.requestFingerprint →
      a.senderIncarnationFingerprint = req.senderIncarnationFingerprint →
        AnswersDuplicate sha256Hex ((ptyStore sha256Hex).run .empty (early ++ mid)) e a.injectionId
  conflict : ∀ early mid e post req, es = early ++ mid ++ e :: post → e.enqueues req →
    (validatePtyEnqueueRequest req).isOk = true →
    ∀ a ∈ ((ptyStore sha256Hex).run .empty early).tables.records,
      a.senderFqn = req.senderFqn → a.opId = req.opId →
      a.requestFingerprint ≠ req.requestFingerprint →
        (ptyStore sha256Hex).answer ((ptyStore sha256Hex).run .empty (early ++ mid)) e =
          .error .idempotencyConflict

end

/-- A request to type `ls`. -/
def lsRequest : PtyInputEnqueueRequest where
  injectionId := "11111111-1111-4111-8111-111111111111"
  senderFqn := "room:lead"
  targetFqn := "room:dev"
  opId := "11111111-1111-4111-8111-111111111111"
  nonceSha256 := "aaaaaaaaaaaaaaaaaaaaaaaaaaaaaaaaaaaaaaaaaaaaaaaaaaaaaaaaaaaaaaaa"
  requestFingerprint := "bbbbbbbbbbbbbbbbbbbbbbbbbbbbbbbbbbbbbbbbbbbbbbbbbbbbbbbbbbbbbbbb"
  confirmationTag := some "cccccccccccccccccccccccccccccccccccccccccccccccccccccccccccccccc"
  requestedAgentId := none
  payload := "ls".toUTF8
  sourcePlane := .hostCli
  senderIncarnationFingerprint := "dddddddddddddddddddddddddddddddddddddddddddddddddddddddddddddddd"
  senderIdentityFingerprint := "eeeeeeeeeeeeeeeeeeeeeeeeeeeeeeeeeeeeeeeeeeeeeeeeeeeeeeeeeeeeeeee"
  targetIdentityFingerprint := "ffffffffffffffffffffffffffffffffffffffffffffffffffffffffffffffff"
  authoritySessionId := "22222222-2222-4222-8222-222222222222"
  authorityClientId := none
  authorityClientGeneration := none
  issuedAt := some 0
  expiresAt := some (10 * 60 * 1000)

/-- The digest of the one payload that is hashed here. -/
def lsSha256Hex : ByteArray → String :=
  fun _ => "c7b68ac37f364473e922936708e7f43c293dd07b295171566c07ff5fe024fab9"

def lsEnqueue (wallNow : Timestamp) : PtyEvent := .transaction (.enqueuePtyInput lsRequest wallNow)

/-- Typed from 5 s on and injected when the clock reads 4 s. -/
def lsSteppedBack : List PtyEvent :=
  [.transaction (.claimPtyInput .hostCli none "worker" 2000),
    .transaction (.beginPtyActuating lsRequest.injectionId "worker"
      "33333333-3333-4333-8333-333333333333" "localProcess" 5000 .done),
    .transaction (.terminalizePtyInput lsRequest.injectionId .injected none 4000)]

end AgentsCommander.PtyInput
