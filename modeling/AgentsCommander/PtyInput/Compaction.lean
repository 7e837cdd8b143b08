import AgentsCommander.PtyInput.Idempotency

/-! Any number of compactions among the other transactions of the store: each has read its
page of candidates and then compacts them one by one. -/
namespace AgentsCommander.PtyInput
open Foundation
open MessageStore (Timestamp MessageStoreError)

/-- The two compactors, each with the instant it was called with. -/
inductive Compactor where
  | compactPtyTerminalBefore (cutoff : Timestamp)
  | compactPtyTerminalMaintenance (now : Timestamp)

namespace Compactor

def normalCutoff (now : Timestamp) : Timestamp := now - 7 * 24 * 60 * 60 * 1000

def unclaimedCutoff (now : Timestamp) : Timestamp := now - 30 * 24 * 60 * 60 * 1000

/-- The `WHERE` clause of its page, and of its `DELETE`. -/
def selects : Compactor → OperationRow → Bool
  | .compactPtyTerminalBefore cutoff, r => r.endedBefore cutoff
  | .compactPtyTerminalMaintenance now, r => r.compactable (normalCutoff now) (unclaimedCutoff now)

/-- Its transaction on one candidate. -/
def turn : Compactor → String → Txn
  | .compactPtyTerminalBefore cutoff, injectionId => .compactBefore injectionId cutoff
  | .compactPtyTerminalMaintenance now, injectionId =>
    .compactMaintenance injectionId (normalCutoff now) (unclaimedCutoff now)

/-- Only one of them passes over a candidate it no longer finds. -/
def rechecks : Compactor → Bool
  | .compactPtyTerminalBefore _ => true
  | .compactPtyTerminalMaintenance _ => false

end Compactor

/-- A compaction under way: the candidates it has not come to, and the rows it deleted. -/
structure CompactionPass where
  compactor : Compactor
  candidates : List String
  deleted : ℕ

structure Compactions where
  tables : PtyTables
  passes : ℕ → Option CompactionPass

inductive CompactionEvent where
  | transaction (txn : Txn)
  /-- A compaction reads its page beyond the place it takes for its cursor. -/
  | readPage (pass : ℕ) (compactor : Compactor) (cursor : Option ScanKey) (limit : ℕ)
  /-- It comes to its next candidate, or returns. -/
  | candidate (pass : ℕ) (unlocked : Bool)

inductive CompactionReply where
  | transaction (answer : Except MessageStoreError Reply)
  | goesOn
  | returned (deleted : ℕ)

namespace Compactions

def empty : Compactions := ⟨.empty, fun _ => none⟩

def setPass (s : Compactions) (pass : ℕ) (p : Option CompactionPass) : Compactions :=
  { s with passes := Function.update s.passes pass p }

def page (s : Compactions) (compactor : Compactor) (cursor : Option ScanKey) (limit : ℕ) :
    List String :=
  (Keyset.page OperationRow.terminalKey (s.tables.select compactor.selects) cursor
    (min limit 64)).map (·.injectionId)

section
variable (sha256Hex : ByteArray → String)

/-- An error ends the compaction; what it has deleted stays deleted. -/
def compactCandidate (s : Compactions) (pass : ℕ) (p : CompactionPass) (injectionId : String)
    (rest : List String) : Compactions × Except MessageStoreError CompactionReply :=
  let t := (transactions sha256Hex).next s.tables (p.compactor.turn injectionId)
  match (transactions sha256Hex).answer s.tables (p.compactor.turn injectionId) with
  | .error e => ({ s with tables := t }.setPass pass none, .error e)
  | .ok reply =>
    ({ s with tables := t }.setPass pass
      (some { p with candidates := rest, deleted := p.deleted + reply.compactedCount }), .ok .goesOn)

def step (s : Compactions) : CompactionEvent →
    Compactions × Except MessageStoreError CompactionReply
  | .transaction txn =>
    ({ s with tables := (transactions sha256Hex).next s.tables txn },
      .ok (.transaction ((transactions sha256Hex).answer s.tables txn)))
  | .readPage pass compactor cursor limit =>
    if (s.passes pass).isSome then (s, .ok .goesOn)
    else (s.setPass pass (some ⟨compactor, s.page compactor cursor limit, 0⟩), .ok .goesOn)
  | .candidate pass unlocked =>
    match s.passes pass with
    | none => (s, .ok .goesOn)
    | some p =>
      match p.candidates with
      | [] => (s.setPass pass none, .ok (.returned p.deleted))
      | injectionId :: rest =>
        if unlocked then s.compactCandidate sha256Hex pass p injectionId rest
        else (s.setPass pass (some { p with candidates := rest }), .ok .goesOn)

end
end Compactions

def compactions (sha256Hex : ByteArray → String) :
    Machine Compactions CompactionEvent (Except MessageStoreError CompactionReply) :=
  ⟨Compactions.step sha256Hex⟩

/-- A maintenance pass that holds the lock of its next candidate still finds it. -/
def CompactionEvent.Finds (s : Compactions) : CompactionEvent → Prop
  | .candidate pass true => ∀ p ∈ s.passes pass, p.compactor.rechecks = false →
      ∀ injectionId ∈ p.candidates.head?, (s.tables.operations.get injectionId).isSome = true
  | _ => True

/-- Neither of the errors that say the store is broken. -/
def Unbroken (answer : Except MessageStoreError CompactionReply) : Prop :=
  answer ≠ .error .storeCorrupt ∧ answer ≠ .error .invalidTransition

/-- Terminal rows have their tombstones, and no compaction says otherwise. -/
structure CompactionLaw (sha256Hex : ByteArray → String) (es : List CompactionEvent) : Prop where
  buried : ∀ pre, pre <+: es →
    ∀ o ∈ ((compactions sha256Hex).run .empty pre).tables.operations.rows,
      o.row.status.isTerminal = true →
      ∃ s, ((compactions sha256Hex).run .empty pre).tables.tombstones.get o.row.injectionId = some s ∧
        s.record = o.row.toPtyRecord
  unbroken : ∀ answer ∈ (compactions sha256Hex).answers .empty es, Unbroken answer

/-- An id of the store whose row, while it has one, a compactor selects. -/
structure RemainsSelected (t : PtyTables) (compactor : Compactor) (injectionId : String) : Prop where
  known : ∃ i ∈ t.identities, i.injectionId = injectionId
  selected : ∀ o, t.operations.get injectionId = some o → compactor.selects o.row = true

theorem isTerminal_of_selects {compactor : Compactor} {r : OperationRow}
    (h : compactor.selects r = true) : r.status.isTerminal = true := by
  cases compactor with
  | compactPtyTerminalBefore cutoff => exact isTerminal_of_endedBefore h
  | compactPtyTerminalMaintenance now =>
    simp only [Compactor.selects, OperationRow.compactable] at h
    cases hp : r.sourcePlane <;> rw [hp] at h <;> exact isTerminal_of_endedBefore h

theorem endedBefore_mono {r : OperationRow} {cutoff cutoff' : Timestamp} (hle : cutoff ≤ cutoff')
    (h : r.endedBefore cutoff = true) : r.endedBefore cutoff' = true := by
  simp only [OperationRow.endedBefore, Bool.and_eq_true, Option.any_eq_true,
    decide_eq_true_eq] at h ⊢
  obtain ⟨hterm, end', hend, hlt⟩ := h
  exact ⟨hterm, end', hend, hlt.trans_le hle⟩

/-- The mark of an artifact only brings a compaction nearer. -/
theorem selects_mark {compactor : Compactor} {r : OperationRow} (now : Timestamp)
    (h : compactor.selects r = true) :
    compactor.selects { r with hostArtifactAt := some now } = true := by
  cases compactor with
  | compactPtyTerminalBefore cutoff => exact h
  | compactPtyTerminalMaintenance maintained =>
    simp only [Compactor.selects, OperationRow.compactable] at h ⊢
    cases hp : r.sourcePlane with
    | containerApi =>
      rw [hp] at h
      exact h
    | hostCli =>
      rw [hp] at h
      dsimp only at h ⊢
      have hle : Compactor.unclaimedCutoff maintained ≤ Compactor.normalCutoff maintained :=
        sub_le_sub_left (by decide) maintained
      split_ifs at h with hmark
      · exact h
      · exact endedBefore_mono (r := r) hle h

theorem remainsSelected_of_effect {t t' : PtyTables} {txn : Txn} (h : Effect t txn t')
    {compactor : Compactor} {injectionId : String} (hr : RemainsSelected t compactor injectionId) :
    RemainsSelected t' compactor injectionId := by
  obtain ⟨i, hi, hid⟩ := hr.known
  refine ⟨⟨i, (identities_grow h).subset hi, hid⟩, fun o ho => ?_⟩
  cases hp : t.operations.get injectionId with
  | none =>
    rw [get_none_of_effect h hp (Or.inr hr.known)] at ho
    cases ho
  | some p =>
    have hsel := hr.selected p hp
    have hterm := isTerminal_of_selects hsel
    have hmove := rowMove_of_effect h hp
    rw [ho] at hmove
    cases hmove with
    | kept => exact hsel
    | fromWaiting _ before =>
      rw [not_isTerminal_of_isWaiting before] at hterm
      cases hterm
    | ended _ before after =>
      rw [before] at hterm
      cases hterm
    | marked _ now before mark row =>
      rw [row]
      exact selects_mark now hsel

/-- What every run of the store and its compactions keeps. -/
structure Compactions.Coherent (s : Compactions) : Prop where
  sound : Sound s.tables
  remains : ∀ pass p, s.passes pass = some p →
    ∀ injectionId ∈ p.candidates, RemainsSelected s.tables p.compactor injectionId

theorem remainsSelected_of_page {s : Compactions} {compactor : Compactor} {cursor : Option ScanKey}
    {limit : ℕ} {injectionId : String} (h : injectionId ∈ s.page compactor cursor limit) :
    RemainsSelected s.tables compactor injectionId := by
  obtain ⟨r, hr, rfl⟩ := List.mem_map.mp h
  have hmem := Keyset.mem_of_mem_page hr
  simp only [PtyTables.select, List.mem_filter, List.mem_map] at hmem
  obtain ⟨⟨o, ho, rfl⟩, hsel⟩ := hmem
  refine ⟨⟨_, ⟨_, mem_records.mpr (Or.inl ⟨o, ho, rfl⟩), rfl⟩, rfl⟩, fun p hp => ?_⟩
  cases (Table.get_key ho).symm.trans hp
  exact hsel

section
variable {sha256Hex : ByteArray → String}

namespace Compactions.Coherent

theorem empty : Compactions.Coherent .empty := ⟨sound_empty, fun _ _ h => nomatch h⟩

variable (sha256Hex) in
theorem tables {s : Compactions} (h : s.Coherent) (txn : Txn) :
    Compactions.Coherent { s with tables := (transactions sha256Hex).next s.tables txn } where
  sound := sound_of_effect (effect_next sha256Hex s.tables txn) h.sound
  remains pass p hp injectionId hmem :=
    remainsSelected_of_effect (effect_next sha256Hex s.tables txn) (h.remains pass p hp injectionId hmem)

theorem setPass {s : Compactions} (h : s.Coherent) (pass : ℕ) {next : Option CompactionPass}
    (hnext : ∀ p, next = some p → ∀ injectionId ∈ p.candidates,
      RemainsSelected s.tables p.compactor injectionId) : (s.setPass pass next).Coherent where
  sound := h.sound
  remains pass' p hp := by
    by_cases hk : pass' = pass
    · subst hk
      simp only [Compactions.setPass, Function.update_self] at hp
      exact hnext p hp
    · simp only [Compactions.setPass, Function.update_of_ne hk] at hp
      exact h.remains pass' p hp

theorem next {s : Compactions} (h : s.Coherent) (e : CompactionEvent) :
    ((compactions sha256Hex).next s e).Coherent := by
  cases e with
  | transaction txn => exact h.tables sha256Hex txn
  | readPage pass compactor cursor limit =>
    simp only [Machine.next, compactions, Compactions.step]
    split_ifs
    · exact h
    · refine h.setPass pass fun p hp injectionId hmem => ?_
      cases hp
      exact remainsSelected_of_page hmem
  | candidate pass unlocked =>
    simp only [Machine.next, compactions, Compactions.step]
    cases hp : s.passes pass with
    | none => exact h
    | some p =>
      have hall := h.remains pass p hp
      obtain ⟨compactor, candidates, deleted⟩ := p
      cases candidates with
      | nil => exact h.setPass pass fun _ hnone => by cases hnone
      | cons injectionId rest =>
        have hrest : ∀ other ∈ rest, RemainsSelected s.tables compactor other :=
          fun other hother => hall other (List.mem_cons_of_mem injectionId hother)
        cases unlocked with
        | false =>
          refine h.setPass pass fun q hq => ?_
          cases hq
          exact hrest
        | true =>
          have htables := h.tables sha256Hex (compactor.turn injectionId)
          simp only [if_true, Compactions.compactCandidate]
          cases hans : (transactions sha256Hex).answer s.tables (compactor.turn injectionId) with
          | error e => exact htables.setPass pass fun _ hnone => by cases hnone
          | ok reply =>
            refine htables.setPass pass fun q hq other hother => ?_
            cases hq
            exact remainsSelected_of_effect (effect_next sha256Hex s.tables _) (hrest other hother)

end Compactions.Coherent

theorem tombstoneMatches_of_terminal {t : PtyTables} (hs : Sound t) {injectionId : String}
    {o : Operation} (ho : t.operations.get injectionId = some o)
    (hterm : o.row.status.isTerminal = true) : t.tombstoneMatches injectionId = true := by
  have hburied := hs.buried injectionId o ho
  rw [if_pos hterm] at hburied
  obtain ⟨s, hget, hrecord⟩ := hburied
  exact tombstoneMatches_iff.mpr ⟨o, s, ho, hget, hrecord⟩

/-- The pass that looks again never fails. -/
theorem compactBefore_isOk {t : PtyTables} (hs : Sound t) (injectionId : String)
    (cutoff : Timestamp) : ∃ x, t.compactBefore injectionId cutoff = .ok x := by
  unfold PtyTables.compactBefore
  split_ifs with hended
  · obtain ⟨o, ho, hend⟩ := (Option.any_eq_true _ _).mp hended
    rw [tombstoneMatches_of_terminal hs ho (isTerminal_of_endedBefore hend)]
    exact ⟨_, rfl⟩
  · exact ⟨_, rfl⟩

/-- The pass that does not fails exactly where the row is gone. -/
theorem compactMaintenance_of_remains {t : PtyTables} (hs : Sound t) {injectionId : String}
    {now : Timestamp} (hr : RemainsSelected t (.compactPtyTerminalMaintenance now) injectionId) :
    (∃ x, (t.operations.get injectionId).isSome = true ∧ t.compactMaintenance injectionId
        (Compactor.normalCutoff now) (Compactor.unclaimedCutoff now) = .ok x) ∨
      t.operations.get injectionId = none ∧ t.compactMaintenance injectionId
        (Compactor.normalCutoff now) (Compactor.unclaimedCutoff now) = .error .storeCorrupt := by
  unfold PtyTables.compactMaintenance
  cases ho : t.operations.get injectionId with
  | none =>
    have hmatch : t.tombstoneMatches injectionId = false := by
      simp [PtyTables.tombstoneMatches, ho]
    rw [hmatch]
    exact Or.inr ⟨rfl, rfl⟩
  | some o =>
    have hsel := hr.selected o ho
    rw [tombstoneMatches_of_terminal hs ho (isTerminal_of_selects hsel)]
    have hcompactable : o.row.compactable (Compactor.normalCutoff now)
        (Compactor.unclaimedCutoff now) = true := hsel
    simp only [Option.any_some, hcompactable, ensure_true, ok_bind]
    exact Or.inl ⟨_, rfl, rfl⟩

theorem answer_reply {t : PtyTables} {α : Type} (tag : α → Reply)
    (x : Except MessageStoreError (PtyTables × α)) :
    (t.reply tag x).2 = x.map fun p => tag p.2 := by
  cases x <;> rfl

variable (sha256Hex) in
/-- The answer of a candidate's transaction, in sound tables. -/
theorem answer_turn {s : Compactions} (hs : Sound s.tables) {compactor : Compactor}
    {injectionId : String} (hr : RemainsSelected s.tables compactor injectionId) :
    (∃ reply, (transactions sha256Hex).answer s.tables (compactor.turn injectionId) = .ok reply) ∧
        (compactor.rechecks = false → (s.tables.operations.get injectionId).isSome = true) ∨
      (transactions sha256Hex).answer s.tables (compactor.turn injectionId) =
        .error .storeCorrupt ∧ compactor.rechecks = false ∧
          (s.tables.operations.get injectionId).isSome = false := by
  cases compactor with
  | compactPtyTerminalBefore cutoff =>
    obtain ⟨x, hx⟩ := compactBefore_isOk hs injectionId cutoff
    refine Or.inl ⟨⟨.compacted x.2, ?_⟩, fun h => nomatch h⟩
    simp only [Machine.answer, transactions, PtyTables.step, Compactor.turn, answer_reply, hx,
      Except.map]
  | compactPtyTerminalMaintenance now =>
    simp only [Machine.answer, transactions, PtyTables.step, Compactor.turn, answer_reply]
    rcases compactMaintenance_of_remains hs hr with ⟨x, hsome, hx⟩ | ⟨hnone, hx⟩
    · rw [hx]
      exact Or.inl ⟨⟨_, rfl⟩, fun _ => hsome⟩
    · rw [hx, hnone]
      exact Or.inr ⟨rfl, rfl, rfl⟩

/-- A compaction comes away unbroken exactly where a maintenance pass finds its candidate. -/
theorem unbroken_answer_iff {s : Compactions} (h : s.Coherent) (e : CompactionEvent) :
    Unbroken ((compactions sha256Hex).answer s e) ↔ e.Finds s := by
  have hgood : ∀ reply, Unbroken (.ok reply) := fun reply =>
    ⟨(fun h => nomatch h), (fun h => nomatch h)⟩
  cases e with
  | transaction txn => exact iff_of_true (hgood _) trivial
  | readPage pass compactor cursor limit =>
    simp only [Machine.answer, compactions, Compactions.step]
    split_ifs <;> exact iff_of_true (hgood _) trivial
  | candidate pass unlocked =>
    simp only [Machine.answer, compactions, Compactions.step]
    cases hp : s.passes pass with
    | none =>
      refine iff_of_true (hgood _) ?_
      cases unlocked with
      | false => exact trivial
      | true =>
        intro p hmem
        rw [hp] at hmem
        cases hmem
    | some p =>
      have hall := h.remains pass p hp
      obtain ⟨compactor, candidates, deleted⟩ := p
      cases unlocked with
      | false =>
        cases candidates <;> exact iff_of_true (hgood _) trivial
      | true =>
        cases candidates with
        | nil =>
          refine iff_of_true (hgood _) fun p hmem _ injectionId hid => ?_
          cases hp.symm.trans hmem
          cases hid
        | cons injectionId rest =>
          have hanswer := answer_turn sha256Hex h.sound
            (hall injectionId List.mem_cons_self)
          simp only [if_true, Compactions.compactCandidate]
          rcases hanswer with ⟨⟨reply, hok⟩, hfound⟩ | ⟨herror, hrechecks, hgone⟩
          · rw [hok]
            refine iff_of_true (hgood _) fun p hmem hre other hid => ?_
            cases hp.symm.trans hmem
            cases hid
            exact hfound hre
          · rw [herror]
            refine iff_of_false (fun hunbroken => hunbroken.1 rfl) fun hfinds => ?_
            have := hfinds _ hp hrechecks injectionId rfl
            rw [hgone] at this
            cases this

variable (sha256Hex) in
theorem coherent_run (es : List CompactionEvent) :
    ((compactions sha256Hex).run .empty es).Coherent :=
  Machine.run_inv_free (P := Compactions.Coherent) (fun _ e h => h.next e) .empty es

/-- The law holds of exactly the runs in which no maintenance pass misses a candidate. -/
theorem compactionLaw_iff (es : List CompactionEvent) :
    CompactionLaw sha256Hex es ↔ (compactions sha256Hex).Along CompactionEvent.Finds .empty es := by
  have hanswers := Machine.forall_answers_iff_along (M := compactions sha256Hex)
    (Q := Compactions.Coherent) (A := Unbroken)
    (fun _ e h => h.next e) (fun _ e h => unbroken_answer_iff h e) es .empty
  refine ⟨fun h => hanswers.mp h.unbroken, fun h => ⟨fun pre _ o ho hterm => ?_, hanswers.mpr h⟩⟩
  have hburied := (coherent_run sha256Hex pre).sound.buried _ o (Table.get_key ho)
  rw [if_pos hterm] at hburied
  exact hburied

end

/-- Rejected ten minutes after it was queued, and old enough for both passes a month later. -/
def lsTwoPasses : List CompactionEvent :=
  [.transaction (.enqueuePtyInput lsRequest 1000),
    .transaction (.terminalizePtyInput lsRequest.injectionId .rejected (some .expired) 600000),
    .readPage 0 (.compactPtyTerminalMaintenance 3000000000) none 64,
    .readPage 1 (.compactPtyTerminalMaintenance 3000000000) none 64,
    .candidate 0 true, .candidate 1 true]

def saysStoreCorrupt : Except MessageStoreError CompactionReply → Bool
  | .error .storeCorrupt => true
  | _ => false

/-- The second pass calls the store corrupt for the row the first one compacted. -/
theorem not_compactionLaw : ¬ CompactionLaw lsSha256Hex lsTwoPasses := by
  intro h
  have hany : ((compactions lsSha256Hex).answers .empty lsTwoPasses).any saysStoreCorrupt = true := by
    decide +kernel
  obtain ⟨answer, hmem, hcorrupt⟩ := List.any_eq_true.mp hany
  have heq : answer = .error .storeCorrupt := by
    unfold saysStoreCorrupt at hcorrupt
    split at hcorrupt
    · rfl
    · cases hcorrupt
  exact (h.unbroken answer hmem).1 heq

end AgentsCommander.PtyInput
