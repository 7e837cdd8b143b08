import AgentsCommander.PtyInput.Expiry

/-! Startup recovery: page after page of candidates, each of which is ended or put back, until none
is left. -/
namespace AgentsCommander.PtyInput
open Foundation
open MessageStore (Timestamp MessageStoreError)

section
variable (sha256Hex : ByteArray → String) (now : Timestamp) (unlocked : String → Bool)

/-- What one round of the loop does to the tables. -/
def PtyTables.startupSweep (t : PtyTables) (cursor : Option ScanKey) :
    PtyTables × Except MessageStoreError ℕ :=
  sweep (transactions sha256Hex) (OperationRow.startupTurn now unlocked) (fun _ => 1) t
    (t.startupPage now cursor)

/-- How the loop of `recover_pty_input_startup` ends, however many pages it reads. -/
inductive StartupEnds : PtyTables → Option ScanKey → PtyTables × Except MessageStoreError Unit →
    Prop
  | failed {t t' : PtyTables} {cursor : Option ScanKey} {e : MessageStoreError}
      (hswept : t.startupSweep sha256Hex now unlocked cursor = (t', .error e)) :
      StartupEnds t cursor (t', .error e)
  | last {t t' : PtyTables} {cursor : Option ScanKey} {n : ℕ}
      (hswept : t.startupSweep sha256Hex now unlocked cursor = (t', .ok n))
      (hshort : (t.startupPage now cursor).length < 64) : StartupEnds t cursor (t', .ok ())
  | more {t t' : PtyTables} {cursor : Option ScanKey} {n : ℕ}
      {result : PtyTables × Except MessageStoreError Unit}
      (hswept : t.startupSweep sha256Hex now unlocked cursor = (t', .ok n))
      (hfull : ¬ (t.startupPage now cursor).length < 64)
      (hrest : StartupEnds t'
        (Keyset.cursorAfter OperationRow.updatedKey (t.startupPage now cursor)) result) :
      StartupEnds t cursor result

end

/-- A row startup recovery is done with: ended, or put back with an attempt and time left. -/
def OperationRow.Settled (now : Timestamp) (r : OperationRow) : Prop :=
  r.status.isTerminal = true ∨ r.status = .retry ∧ r.attempt < 5 ∧ now < r.expiresAt

theorem not_startupCandidate_of_settled {now : Timestamp} {r : OperationRow}
    (h : r.Settled now) : r.startupCandidate now = false := by
  unfold OperationRow.startupCandidate
  obtain hterm | ⟨hretry, -, hlive⟩ := h
  · cases hs : r.status <;> rw [hs] at hterm <;> first | rfl | cases hterm
  · rw [hretry, decide_eq_false (not_le.mpr hlive)]
    rfl

section
variable {sha256Hex : ByteArray → String} {now : Timestamp} {t t' : PtyTables}
  {injectionId : String} {o : Operation}

/-- What a terminal transaction that goes through leaves of the operations. -/
theorem operations_terminalizeInTransaction {status : PtyStatus}
    {reason : Option PtyInputReasonCode} (ho : t.operations.get injectionId = some o)
    (hlive : o.row.status.isTerminal = false)
    (h : t.terminalizeInTransaction injectionId status reason now = .ok t') :
    status.isTerminal = true ∧
      ∃ hc, t'.operations = t.operations.set ⟨o.row.terminalize status reason now, hc⟩ := by
  simp only [PtyTables.terminalizeInTransaction, ho, require_some, ok_bind, bind_eq_ok,
    ensure_eq_ok, hlive, Bool.false_eq_true, if_false] at h
  obtain ⟨_, hterm, _, -, _, -, u, hu, v, hv, _, -, h⟩ := h
  obtain rfl : v = t' := Except.ok.inj h
  obtain ⟨hchecks, rfl⟩ := writeOperation_eq_ok.mp hu
  exact ⟨hterm, hchecks, (insertPtyTombstone_ok hv).1⟩

/-- The row under an id is settled, and no other row is touched. -/
def SettledAt (now : Timestamp) (t t' : PtyTables) (injectionId : String) : Prop :=
  (∃ o, t'.operations.get injectionId = some o ∧ o.row.Settled now) ∧
    ∀ other, other ≠ injectionId → t'.operations.get other = t.operations.get other

theorem settledAt_set (row : OperationRow) (hc : row.checks = true)
    (ho : t.operations.get row.injectionId = some o) (hsettled : row.Settled now)
    (h : t'.operations = t.operations.set ⟨row, hc⟩) : SettledAt now t t' row.injectionId := by
  constructor
  · refine ⟨⟨row, hc⟩, ?_, hsettled⟩
    rw [h]
    exact @Table.get_set_self _ _ _ _ t.operations ⟨row, hc⟩ o ho
  · intro other hne
    rw [h]
    exact @Table.get_set_ne _ _ _ _ t.operations ⟨row, hc⟩ other hne

theorem settledAt_terminalizePtyInput {status : PtyInputPublicStatus}
    {reason : Option PtyInputReasonCode} {reply : Reply}
    (ho : t.operations.get o.row.injectionId = some o) (hlive : o.row.status.isTerminal = false)
    (h : (transactions sha256Hex).answer t
      (.terminalizePtyInput o.row.injectionId status reason now) = .ok reply) :
    SettledAt now t ((transactions sha256Hex).next t
      (.terminalizePtyInput o.row.injectionId status reason now)) o.row.injectionId := by
  simp only [Machine.answer, Machine.next, transactions, PtyTables.step,
    PtyTables.terminalizePtyInput] at h ⊢
  split at h
  · cases h
  · rename_i u hu
    change SettledAt now t u o.row.injectionId
    obtain ⟨terminal, hstatus, hu⟩ : ∃ terminal, terminal.isTerminal = true ∧
        t.terminalizeInTransaction o.row.injectionId terminal reason now = .ok u := by
      cases status with
      | queued => cases hu
      | actuating => cases hu
      | injected => exact ⟨_, rfl, hu⟩
      | rejected => exact ⟨_, rfl, hu⟩
      | indeterminate => exact ⟨_, rfl, hu⟩
    obtain ⟨-, hc, hops⟩ := operations_terminalizeInTransaction ho hlive hu
    exact settledAt_set (o.row.terminalize terminal reason now) hc ho (Or.inl hstatus) hops

theorem settledAt_retryStartupPreparation {reply : Reply}
    (ho : t.operations.get o.row.injectionId = some o) (hlive : now < o.row.expiresAt)
    (h : (transactions sha256Hex).answer t
      (.retryStartupPreparation o.row.injectionId now) = .ok reply) :
    SettledAt now t ((transactions sha256Hex).next t
      (.retryStartupPreparation o.row.injectionId now)) o.row.injectionId := by
  simp only [Machine.answer, Machine.next, transactions, PtyTables.step, PtyTables.commit] at h ⊢
  cases hretry : t.retryStartupPreparation o.row.injectionId now with
  | error e =>
    rw [hretry] at h
    cases h
  | ok u =>
    simp only [PtyTables.retryStartupPreparation, bind_eq_ok, require_eq_ok,
      Option.filter_eq_some_iff, Bool.and_eq_true, decide_eq_true_eq] at hretry
    obtain ⟨p, ⟨hp, -, hattempt⟩, hu⟩ := hretry
    obtain rfl := Option.some.inj (ho.symm.trans hp)
    obtain ⟨hc, rfl⟩ := writeOperation_eq_ok.mp hu
    exact settledAt_set (o.row.retryAt .leaseLost now now) hc ho
      (Or.inr ⟨rfl, hattempt, hlive⟩) rfl

/-- With its lock free a candidate has a turn, and is settled when the turn goes through. -/
theorem startupTurn_settles (ho : t.operations.get o.row.injectionId = some o)
    (hcandidate : o.row.startupCandidate now = true) :
    ∃ txn, o.row.startupTurn now (fun _ => true) = some txn ∧
      ∀ reply, (transactions sha256Hex).answer t txn = .ok reply →
        SettledAt now t ((transactions sha256Hex).next t txn) o.row.injectionId := by
  have hlive : o.row.status.isTerminal = false := by
    unfold OperationRow.startupCandidate at hcandidate
    cases hs : o.row.status <;> rw [hs] at hcandidate <;> first | rfl | cases hcandidate
  unfold OperationRow.startupTurn
  simp only [Bool.not_true, Bool.false_eq_true, if_false]
  split_ifs with hactuating hexpired hspent hpreparing
  · exact ⟨_, rfl, fun _ h => settledAt_terminalizePtyInput ho hlive h⟩
  · exact ⟨_, rfl, fun _ h => settledAt_terminalizePtyInput ho hlive h⟩
  · exact ⟨_, rfl, fun _ h => settledAt_terminalizePtyInput ho hlive h⟩
  · exact ⟨_, rfl, fun _ h => settledAt_retryStartupPreparation ho (not_le.mp hexpired) h⟩
  · simp [OperationRow.startupCandidate, hactuating, hexpired, hpreparing] at hcandidate

end

/-- The rows under these ids are settled, the others as they were. -/
def SettledAll (now : Timestamp) (t t' : PtyTables) (ids : List String) : Prop :=
  ∀ injectionId,
    if injectionId ∈ ids then ∃ o, t'.operations.get injectionId = some o ∧ o.row.Settled now
    else t'.operations.get injectionId = t.operations.get injectionId

/-- A sweep that still has the rows of `l` before it. -/
structure Sweeping (now : Timestamp) (t₀ : PtyTables) (page : List OperationRow) (t : PtyTables)
    (l : List OperationRow) : Prop where
  candidates : ∀ r ∈ l, r.startupCandidate now = true ∧
    ∃ o, t.operations.get r.injectionId = some o ∧ o.row = r
  distinct : (l.map (·.injectionId)).Nodup
  settled : ∃ ids, page.map (·.injectionId) = ids ++ l.map (·.injectionId) ∧
    SettledAll now t₀ t ids

section
variable {sha256Hex : ByteArray → String} {now : Timestamp} {t t₀ t' : PtyTables}
  {cursor : Option ScanKey} {page l : List OperationRow} {r : OperationRow}

theorem mem_select {p : OperationRow → Bool} :
    r ∈ t.select p ↔ p r = true ∧ ∃ o, t.operations.get r.injectionId = some o ∧ o.row = r := by
  unfold PtyTables.select
  rw [List.mem_filter, List.mem_map]
  constructor
  · rintro ⟨⟨o, ho, rfl⟩, hp⟩
    exact ⟨hp, o, Table.get_key ho, rfl⟩
  · rintro ⟨hp, o, ho, hrow⟩
    exact ⟨⟨o, Table.mem_of_get ho, hrow⟩, hp⟩

theorem startupPage_nodup (t : PtyTables) (now : Timestamp) (cursor : Option ScanKey) :
    ((t.startupPage now cursor).map (·.injectionId)).Nodup := by
  refine List.Nodup.map_on ?_ (Keyset.page_nodup (select_nodup _ _) _ _)
  intro r hr q hq hid
  obtain ⟨-, o, ho, rfl⟩ := mem_select.mp (Keyset.mem_of_mem_page hr)
  obtain ⟨-, p, hp, rfl⟩ := mem_select.mp (Keyset.mem_of_mem_page hq)
  rw [hid] at ho
  rw [Option.some.inj (ho.symm.trans hp)]

theorem sweeping_start :
    Sweeping now t (t.startupPage now cursor) t (t.startupPage now cursor) where
  candidates _ hr := mem_select.mp (Keyset.mem_of_mem_page hr)
  distinct := startupPage_nodup t now cursor
  settled := ⟨[], rfl, fun _ => rfl⟩

theorem Sweeping.turn (h : Sweeping now t₀ page t (r :: l))
    (hsettles : SettledAt now t t' r.injectionId) : Sweeping now t₀ page t' l := by
  obtain ⟨hown, hothers⟩ := hsettles
  obtain ⟨hnot, hdistinct⟩ := List.nodup_cons.mp h.distinct
  refine ⟨fun q hq => ?_, hdistinct, ?_⟩
  · obtain ⟨hcandidate, hthere⟩ := h.candidates q (List.mem_cons_of_mem r hq)
    have hne : q.injectionId ≠ r.injectionId := fun heq =>
      hnot (List.mem_map.mpr ⟨q, hq, heq⟩)
    rw [hothers _ hne]
    exact ⟨hcandidate, hthere⟩
  · obtain ⟨ids, hids, hsettled⟩ := h.settled
    refine ⟨ids ++ [r.injectionId], by rw [hids, List.append_assoc]; rfl, fun injectionId => ?_⟩
    by_cases heq : injectionId = r.injectionId
    · rw [if_pos (by rw [heq]; exact List.mem_append_right _ (List.mem_singleton_self _)), heq]
      exact hown
    · have hmem : injectionId ∈ ids ++ [r.injectionId] ↔ injectionId ∈ ids := by
        rw [List.mem_append, List.mem_singleton, or_iff_left heq]
      have hsame := hsettled injectionId
      rw [hothers _ heq]
      simp only [hmem]
      exact hsame

/-- A page whose sweep goes through is settled whole, and nothing else is touched. -/
theorem settledAll_of_startupSweep {n : ℕ}
    (h : t.startupSweep sha256Hex now (fun _ => true) cursor = (t', .ok n)) :
    SettledAll now t t' ((t.startupPage now cursor).map (·.injectionId)) := by
  have hok : (sweep (transactions sha256Hex) (OperationRow.startupTurn now fun _ => true)
      (fun _ => 1) t (t.startupPage now cursor)).2 = .ok n := congrArg Prod.snd h
  have hturn : ∀ (s : PtyTables) (a : OperationRow) (l : List OperationRow),
      Sweeping now t (t.startupPage now cursor) s (a :: l) →
      ∃ txn, a.startupTurn now (fun _ => true) = some txn ∧ ∀ reply,
        (transactions sha256Hex).answer s txn = .ok reply →
        SettledAt now s ((transactions sha256Hex).next s txn) a.injectionId := by
    intro s a l hs
    obtain ⟨hcandidate, o, ho, rfl⟩ := hs.candidates a List.mem_cons_self
    exact startupTurn_settles ho hcandidate
  have hend := sweep_inv (OperationRow.startupTurn now fun _ => true) (fun _ => 1)
    (P := Sweeping now t (t.startupPage now cursor)) (fun s a l hs hnone => by
      obtain ⟨txn, hsome, -⟩ := hturn s a l hs
      cases hnone.symm.trans hsome) (fun s a l txn reply hs hsome hreply => by
      obtain ⟨txn', hsome', hsettles⟩ := hturn s a l hs
      obtain rfl := Option.some.inj (hsome.symm.trans hsome')
      exact hs.turn (hsettles reply hreply)) sweeping_start hok
  obtain ⟨ids, hids, hsettled⟩ := hend.settled
  rw [List.map_nil, List.append_nil] at hids
  rw [hids]
  have htables : (sweep (transactions sha256Hex) (OperationRow.startupTurn now fun _ => true)
    (fun _ => 1) t (t.startupPage now cursor)).1 = t' := congrArg Prod.fst h
  exact htables ▸ hsettled

/-- What is left to do after a page: candidates there were before, and none of the page. -/
theorem mem_select_after (h : SettledAll now t t' (page.map (·.injectionId)))
    (hr : r ∈ t'.select (·.startupCandidate now)) :
    r ∈ t.select (·.startupCandidate now) ∧ r.injectionId ∉ page.map (·.injectionId) := by
  obtain ⟨hcandidate, o, ho, rfl⟩ := mem_select.mp hr
  have hsame := h o.row.injectionId
  split_ifs at hsame with hin
  · obtain ⟨p, hp, hsettled⟩ := hsame
    obtain rfl := Option.some.inj (ho.symm.trans hp)
    cases hcandidate.symm.trans (not_startupCandidate_of_settled hsettled)
  · exact ⟨mem_select.mpr ⟨hcandidate, o, hsame ▸ ho, rfl⟩, hin⟩

theorem length_select_after
    (h : SettledAll now t t' ((t.startupPage now cursor).map (·.injectionId))) :
    (t'.select (·.startupCandidate now)).length + (t.startupPage now cursor).length ≤
      (t.select (·.startupCandidate now)).length := by
  have hdisjoint : (t'.select (·.startupCandidate now)).Disjoint (t.startupPage now cursor) :=
    fun r hr hpage => (mem_select_after h hr).2 (List.mem_map_of_mem hpage)
  have hnodup : (t'.select (·.startupCandidate now) ++ t.startupPage now cursor).Nodup :=
    (select_nodup _ _).append (Keyset.page_nodup (select_nodup _ _) _ _) hdisjoint
  rw [← List.length_append]
  refine (List.subperm_of_subset hnodup fun r hr => ?_).length_le
  obtain hr | hr := List.mem_append.mp hr
  · exact (mem_select_after h hr).1
  · exact Keyset.mem_of_mem_page hr

/-- No candidate lies behind the cursor. -/
def Ahead (now : Timestamp) (t : PtyTables) (cursor : Option ScanKey) : Prop :=
  ∀ r ∈ t.select (·.startupCandidate now), cursor.all (· < r.updatedKey) = true

theorem ahead_after (hahead : Ahead now t cursor)
    (h : SettledAll now t t' ((t.startupPage now cursor).map (·.injectionId))) :
    Ahead now t' (Keyset.cursorAfter OperationRow.updatedKey (t.startupPage now cursor)) := by
  intro r hr
  obtain ⟨hmem, hnot⟩ := mem_select_after h hr
  rw [Option.all_eq_true]
  intro c hc
  obtain ⟨b, hb, rfl⟩ := Keyset.mem_of_cursorAfter hc
  have hout : r ∉ t.startupPage now cursor := fun hin => hnot (List.mem_map_of_mem hin)
  have hle := Keyset.key_le_of_not_mem_page hmem (hahead r hmem) hout hb
  refine decide_eq_true (lt_of_le_of_ne hle fun heq => hnot ?_)
  have hid : b.injectionId = r.injectionId := congrArg (fun k : ScanKey => (ofLex k).2) heq
  exact hid ▸ List.mem_map_of_mem hb

/-- A short page is all there is left. -/
theorem select_after_short (hahead : Ahead now t cursor)
    (h : SettledAll now t t' ((t.startupPage now cursor).map (·.injectionId)))
    (hshort : (t.startupPage now cursor).length < 64) (r : OperationRow) :
    r ∉ t'.select (·.startupCandidate now) := by
  intro hr
  obtain ⟨hmem, hnot⟩ := mem_select_after h hr
  exact hnot (List.mem_map_of_mem (Keyset.mem_page_of_short hshort hmem (hahead r hmem)))

/-- Every row is as it was, or was a candidate and is settled. -/
def Moved (now : Timestamp) (t t' : PtyTables) : Prop :=
  ∀ injectionId, t'.operations.get injectionId = t.operations.get injectionId ∨
    ∃ o o', t.operations.get injectionId = some o ∧ o.row.startupCandidate now = true ∧
      t'.operations.get injectionId = some o' ∧ o'.row.Settled now

theorem moved_of_settledAll
    (h : SettledAll now t t' ((t.startupPage now cursor).map (·.injectionId))) :
    Moved now t t' := by
  intro injectionId
  have hsame := h injectionId
  split_ifs at hsame with hin
  · obtain ⟨o', ho', hsettled⟩ := hsame
    obtain ⟨r, hr, rfl⟩ := List.mem_map.mp hin
    obtain ⟨hcandidate, o, ho, rfl⟩ := mem_select.mp (Keyset.mem_of_mem_page hr)
    exact Or.inr ⟨o, o', ho, hcandidate, ho', hsettled⟩
  · exact Or.inl hsame

theorem Moved.trans {u : PtyTables} (h : Moved now t t') (h' : Moved now t' u) : Moved now t u := by
  intro injectionId
  obtain hsame | ⟨o, o', ho, hcandidate, ho', hsettled⟩ := h injectionId
  · rw [← hsame]
    exact h' injectionId
  · refine Or.inr ⟨o, o', ho, hcandidate, ?_, hsettled⟩
    obtain hsame' | ⟨p, p', hp, hcandidate', -⟩ := h' injectionId
    · exact hsame'.trans ho'
    · obtain rfl := Option.some.inj (ho'.symm.trans hp)
      cases hcandidate'.symm.trans (not_startupCandidate_of_settled hsettled)

/-- With enough pages the loop ends by itself, and when it ends well no candidate is left. -/
theorem startupPages_ends (pages : ℕ) (hahead : Ahead now t cursor)
    (hpages : (t.select (·.startupCandidate now)).length < pages) :
    StartupEnds sha256Hex now (fun _ => true) t cursor
        (t.startupPages sha256Hex now (fun _ => true) pages cursor) ∧
      ((t.startupPages sha256Hex now (fun _ => true) pages cursor).2 = .ok () →
        (∀ r, r ∉ (t.startupPages sha256Hex now (fun _ => true) pages cursor).1.select
          (·.startupCandidate now)) ∧
        Moved now t (t.startupPages sha256Hex now (fun _ => true) pages cursor).1) := by
  induction pages generalizing t cursor with
  | zero => exact absurd hpages (Nat.not_lt_zero _)
  | succ pages ih =>
    unfold PtyTables.startupPages
    dsimp only
    obtain ⟨swept, hswept⟩ : ∃ swept, sweep (transactions sha256Hex)
      (OperationRow.startupTurn now fun _ => true) (fun _ => 1) t (t.startupPage now cursor) =
        swept := ⟨_, rfl⟩
    rw [hswept]
    obtain ⟨t', answer⟩ := swept
    cases answer with
    | error e =>
      refine ⟨.failed hswept, fun hok => ?_⟩
      cases hok
    | ok n =>
      dsimp only
      have hsettled := settledAll_of_startupSweep hswept
      split_ifs with hshort
      · exact ⟨.last hswept hshort, fun _ =>
          ⟨select_after_short hahead hsettled hshort, moved_of_settledAll hsettled⟩⟩
      · have hlength := length_select_after hsettled
        obtain ⟨hends, hclear⟩ := ih (ahead_after hahead hsettled) (by omega)
        refine ⟨.more hswept hshort hends, fun hok => ?_⟩
        obtain ⟨hnone, hmoved⟩ := hclear hok
        exact ⟨hnone, (moved_of_settledAll hsettled).trans hmoved⟩

/-- Nothing under way is left over, and nothing that has expired still waits. -/
def NoneStranded (now : Timestamp) (t : PtyTables) : Prop :=
  ∀ o ∈ t.operations.rows, o.row.status ≠ .preparing ∧ o.row.status ≠ .actuating ∧
    (o.row.status = .queued ∨ o.row.status = .retry → now < o.row.expiresAt)

theorem noneStranded_of_select (h : ∀ r, r ∉ t.select (·.startupCandidate now)) :
    NoneStranded now t := by
  intro o ho
  have hnot : o.row.startupCandidate now = false := by
    cases hcandidate : o.row.startupCandidate now with
    | false => rfl
    | true => exact absurd (mem_select.mpr ⟨hcandidate, o, Table.get_key ho, rfl⟩) (h o.row)
  simp only [OperationRow.startupCandidate, Bool.or_eq_false_iff, Bool.and_eq_false_iff,
    decide_eq_false_iff_not, not_le] at hnot
  obtain ⟨⟨hpreparing, hactuating⟩, hlive⟩ := hnot
  refine ⟨hpreparing, hactuating, fun hwaits => hlive.resolve_left ?_⟩
  rintro ⟨hqueued, hretry⟩
  exact hwaits.elim hqueued hretry

def RetriesLeft (t : PtyTables) : Prop :=
  ∀ o ∈ t.operations.rows, o.row.status = .retry → o.row.attempt < 5

/-- The retries that startup recovery passes over have attempts left. -/
def UnexpiredRetriesLeft (now : Timestamp) (t : PtyTables) : Prop :=
  ∀ o ∈ t.operations.rows, o.row.status = .retry → now < o.row.expiresAt → o.row.attempt < 5

/-- Startup recovery looks at no retry that has time left. -/
theorem retriesLeft_iff (h : Moved now t t') (hstranded : NoneStranded now t') :
    RetriesLeft t' ↔ UnexpiredRetriesLeft now t := by
  constructor
  · intro hleft o ho hretry hlive
    obtain hsame | ⟨p, -, hp, hcandidate, -⟩ := h o.row.injectionId
    · exact hleft o (Table.mem_of_get (hsame.trans (Table.get_key ho))) hretry
    · obtain rfl := Option.some.inj ((Table.get_key ho).symm.trans hp)
      simp [OperationRow.startupCandidate, hretry, not_le.mpr hlive] at hcandidate
  · intro hleft o ho hretry
    have hlive := (hstranded o ho).2.2 (Or.inr hretry)
    obtain hsame | ⟨-, p, -, -, hp, hsettled⟩ := h o.row.injectionId
    · exact hleft o (Table.mem_of_get (hsame.symm.trans (Table.get_key ho))) hretry hlive
    · obtain rfl := Option.some.inj ((Table.get_key ho).symm.trans hp)
      obtain hterm | ⟨-, hattempt, -⟩ := hsettled
      · rw [hretry] at hterm
        cases hterm
      · exact hattempt

variable (sha256Hex) in
/-- Startup recovery ends by itself; when it ends well nothing is stranded but the retries that
had no attempt left before. -/
theorem startup_complete (s : PtyStore) (now : Timestamp) :
    StartupEnds sha256Hex now (fun _ => true) s.tables none
        ((s.recoverPtyInputStartup sha256Hex now fun _ => true).1.tables,
          (s.recoverPtyInputStartup sha256Hex now fun _ => true).2) ∧
      ((s.recoverPtyInputStartup sha256Hex now fun _ => true).2 = .ok () →
        NoneStranded now (s.recoverPtyInputStartup sha256Hex now fun _ => true).1.tables ∧
        (RetriesLeft (s.recoverPtyInputStartup sha256Hex now fun _ => true).1.tables ↔
          UnexpiredRetriesLeft now s.tables)) := by
  have hlength : (s.tables.select (·.startupCandidate now)).length <
      s.tables.operations.rows.length + 1 := by
    unfold PtyTables.select
    have hle := List.length_filter_le (·.startupCandidate now)
      (s.tables.operations.rows.map (·.row))
    rw [List.length_map] at hle
    omega
  obtain ⟨hends, hclear⟩ := @startupPages_ends sha256Hex now s.tables none
    (s.tables.operations.rows.length + 1) (fun _ _ => rfl) hlength
  refine ⟨hends, fun hok => ?_⟩
  obtain ⟨hnone, hmoved⟩ := hclear hok
  have hstranded := noneStranded_of_select hnone
  exact ⟨hstranded, retriesLeft_iff hmoved hstranded⟩

end
end AgentsCommander.PtyInput
