import AgentsCommander.PtyInput.Idempotency

/-! A clock that never steps back keeps every row readable: an operation ends no earlier than
the reading at which it began to be typed. -/
namespace AgentsCommander.PtyInput
open Foundation
open MessageStore (Timestamp MessageStoreError)

/-- The reading of the clock a transaction works with. A cutoff is none. -/
def Txn.clock : Txn → Option Timestamp
  | .enqueuePtyInput _ now | .recordHostPtyInputRejection _ now _ | .claimPtyInput _ _ _ now
  | .renewPtyInputLease _ _ now | .beginPtyActuating _ _ _ _ now _ | .retryPtyInput _ _ _ now
  | .terminalizePtyInput _ _ _ now | .retryStartupPreparation _ now
  | .retryRuntimePtyPreparation _ now | .markHostArtifact _ now => some now
  | .compactBefore .. | .compactMaintenance .. => none

def PtyEvent.clock : PtyEvent → Option Timestamp
  | .transaction txn => txn.clock
  | .enqueuePtyInput _ now _ | .recoverPtyInputStartup now _ | .recoverPtyInputRuntime _ now _
  | .expirePtyInputForAdmissionPage now _ | .compactPtyTerminalMaintenance now _ _ => some now
  | .compactPtyTerminalBefore .. => none

/-- The clock has been read whenever a row began to be typed. -/
def BegunAt (readings : List Timestamp) (t : PtyTables) : Prop :=
  ∀ o ∈ t.operations.rows, o.row.status = .actuating → ∀ at' ∈ o.row.actuatingAt, at' ∈ readings

theorem BegunAt.mono {readings readings' : List Timestamp} {t : PtyTables}
    (h : BegunAt readings t) (hsub : readings ⊆ readings') : BegunAt readings' t :=
  fun o ho hact at' hat => hsub (h o ho hact at' hat)

theorem BegunAt.of_actuatingFrom {readings : List Timestamp} {t u : PtyTables}
    (h : BegunAt readings t) (hu : ActuatingFrom t u) : BegunAt readings u :=
  fun o ho hact => h o (hu o ho hact) hact

theorem BegunAt.endsInOrder {readings : List Timestamp} {t : PtyTables} (h : BegunAt readings t)
    {now : Timestamp} (hnow : ∀ at' ∈ readings, at' ≤ now) {o : Operation}
    (ho : o ∈ t.operations.rows) : o.row.EndsInOrder now :=
  fun hact _ at' hat => hnow at' (h o ho hact at' hat)

section
variable {sha256Hex : ByteArray → String}

/-- A row that begins to be typed is stamped with the reading of its own transaction. -/
theorem begunAt_beginPtyActuating {readings : List Timestamp} {t : PtyTables}
    (h : BegunAt readings t) (injectionId leaseOwner sessionId backend : String) (now : Timestamp)
    (commit : CommitOutcome) :
    BegunAt (readings ++ [now])
      (t.beginPtyActuating sha256Hex injectionId leaseOwner sessionId backend now commit).1 := by
  have hkept : BegunAt (readings ++ [now]) t := h.mono (List.subset_append_left _ _)
  unfold PtyTables.beginPtyActuating
  cases hw : t.writeActuating sha256Hex injectionId leaseOwner sessionId backend now with
  | error e => exact hkept
  | ok p =>
    obtain ⟨o, hc, ho, -, -, -, -, htables⟩ := writeActuating_ok hw
    have hbegun : BegunAt (readings ++ [now]) p.1 := by
      rw [htables]
      intro q hq hact at' hat
      rcases mem_set hq with rfl | hq
      · have hnow : now = at' := Option.some.inj hat
        exact hnow ▸ List.mem_append_right _ List.mem_cons_self
      · exact hkept q hq hact at' hat
    cases commit with
    | done => exact hbegun
    | lost => exact hkept
    | ambiguous => exact hbegun

theorem begunAt_transaction {readings : List Timestamp} {t : PtyTables} (h : BegunAt readings t)
    (txn : Txn) :
    BegunAt (readings ++ txn.clock.toList) ((transactions sha256Hex).next t txn) := by
  by_cases hb : ∃ injectionId leaseOwner sessionId backend now commit,
      txn = .beginPtyActuating injectionId leaseOwner sessionId backend now commit
  · obtain ⟨injectionId, leaseOwner, sessionId, backend, now, commit, rfl⟩ := hb
    exact begunAt_beginPtyActuating h injectionId leaseOwner sessionId backend now commit
  · have hfrom : ActuatingFrom t ((transactions sha256Hex).next t txn) :=
      actuatingFrom_of_effect (effect_next sha256Hex t txn)
        (fun injectionId leaseOwner sessionId backend now commit heq =>
          hb ⟨injectionId, leaseOwner, sessionId, backend, now, commit, heq⟩)
        (fun _ ho _ => ho)
    exact (h.of_actuatingFrom hfrom).mono (List.subset_append_left _ _)

theorem begunAt_next {readings : List Timestamp} {s : PtyStore} (h : BegunAt readings s.tables)
    (e : PtyEvent) :
    BegunAt (readings ++ e.clock.toList) ((ptyStore sha256Hex).next s e).tables := by
  by_cases he : ∃ txn, e = .transaction txn
  · obtain ⟨txn, rfl⟩ := he
    exact begunAt_transaction h txn
  · obtain ⟨ts, hrun, hts⟩ := next_run sha256Hex s e
    have hfrom : ActuatingFrom s.tables ((transactions sha256Hex).run s.tables ts) := by
      have hruns : (transactions sha256Hex).Along (fun _ txn => e.Runs s.tables txn) s.tables ts :=
        Machine.along_of_forall (fun txn hmem _ => hts txn hmem) s.tables
      refine Machine.run_inv (P := ActuatingFrom s.tables) (fun u txn hu hruns => ?_)
        (fun _ ho _ => ho) hruns
      exact actuatingFrom_of_effect (effect_next sha256Hex u txn)
        (not_begins_of_runs (fun txn htxn => he ⟨txn, htxn⟩) hruns) hu
    rw [hrun]
    exact (h.of_actuatingFrom hfrom).mono (List.subset_append_left _ _)

/-- A reading no earlier than all before it ends nothing too early. -/
theorem timely_of_begunAt {readings : List Timestamp} {s : PtyStore}
    (h : BegunAt readings s.tables) {e : PtyEvent}
    (hclock : ∀ now ∈ e.clock, ∀ at' ∈ readings, at' ≤ now) : e.Timely s := by
  cases e with
  | transaction txn =>
    cases txn with
    | terminalizePtyInput injectionId status reason now =>
      exact fun _ _ o ho => h.endsInOrder (hclock now rfl) (Table.mem_of_get ho)
    | _ => exact trivial
  | recoverPtyInputStartup now unlocked =>
    exact fun o ho _ => h.endsInOrder (hclock now rfl) ho
  | _ => exact trivial

theorem timely_along {es : List PtyEvent} {readings : List Timestamp} {s : PtyStore}
    (h : BegunAt readings s.tables)
    (hclock : (readings ++ es.filterMap PtyEvent.clock).Pairwise (· ≤ ·)) :
    (ptyStore sha256Hex).Along PtyEvent.Timely s es := by
  induction es generalizing readings s with
  | nil => exact trivial
  | cons e es ih =>
    have hcons : (e :: es).filterMap PtyEvent.clock =
        e.clock.toList ++ es.filterMap PtyEvent.clock := by
      cases hc : e.clock <;> simp [hc]
    rw [hcons, ← List.append_assoc] at hclock
    refine ⟨timely_of_begunAt h fun now hnow at' hat => ?_, ih (begunAt_next h e) hclock⟩
    have hpair := (List.pairwise_append.mp (List.pairwise_append.mp hclock).1).2.2
    exact hpair at' hat now (Option.mem_toList.mpr hnow)

/-- Every stored row passes the checks of its reader, and every known id is answered. -/
theorem readable_of_clock {es : List PtyEvent}
    (hclock : (es.filterMap PtyEvent.clock).Pairwise (· ≤ ·)) :
    (∀ r ∈ ((ptyStore sha256Hex).run .empty es).tables.records,
      resultFromRow r = .ok r.toResult) ∧
    ∀ injectionId,
      (((ptyStore sha256Hex).run .empty es).tables.operations.get injectionId ≠ none ∨
        ((ptyStore sha256Hex).run .empty es).tables.tombstones.get injectionId ≠ none) →
      ∃ result, ((ptyStore sha256Hex).run .empty es).tables.loadPtyResult injectionId =
        .ok (some result) ∧ result.injectionId = injectionId := by
  have hread : Readable ((ptyStore sha256Hex).run .empty es).tables :=
    readable_of_timely
      (timely_along (show BegunAt [] PtyStore.empty.tables from fun _ ho => nomatch ho) hclock)
  generalize ((ptyStore sha256Hex).run .empty es).tables = t at hread
  have hshow : ∀ r ∈ t.records, resultFromRow r = .ok r.toResult :=
    fun r hr => resultFromRow_of_coherent (hread.sound.coherent r hr) (hread.ordered r hr)
  refine ⟨hshow, fun injectionId hknown => ?_⟩
  unfold PtyTables.loadPtyResult
  cases ho : t.operations.get injectionId with
  | some o =>
    refine ⟨o.row.toResult, ?_, id_of_operation ho⟩
    simp only [hshow _ (mem_records_of_operation ho), Except.map]
  | none =>
    cases hs : t.tombstones.get injectionId with
    | some s =>
      refine ⟨s.record.toResult, ?_, id_of_tombstone hs⟩
      simp only [hshow _ (mem_records_of_tombstone hs), Except.map]
    | none =>
      rcases hknown with hknown | hknown
      · exact absurd ho hknown
      · exact absurd hs hknown

end

/-- Queued ahead of its time, typed, injected, and compacted. -/
def lsTyped : List PtyEvent :=
  [lsEnqueue (-1000), .transaction (.claimPtyInput .hostCli none "worker" 2000),
    .transaction (.beginPtyActuating lsRequest.injectionId "worker"
      "33333333-3333-4333-8333-333333333333" "localProcess" 5000 .done),
    .transaction (.terminalizePtyInput lsRequest.injectionId .injected none 6000),
    .compactPtyTerminalBefore 700000 64 fun _ => true]

theorem readable_of_lsTyped :
    ((ptyStore lsSha256Hex).run .empty lsTyped).tables.tombstones.get lsRequest.injectionId ≠ none ∧
    ∃ result, ((ptyStore lsSha256Hex).run .empty lsTyped).tables.loadPtyResult
      lsRequest.injectionId = .ok (some result) ∧ result.injectionId = lsRequest.injectionId := by
  have hknown : ((ptyStore lsSha256Hex).run .empty lsTyped).tables.tombstones.get
      lsRequest.injectionId ≠ none := by decide +kernel
  exact ⟨hknown, (readable_of_clock (by decide)).2 _ (Or.inr hknown)⟩

end AgentsCommander.PtyInput
