import AgentsCommander.Tasks.StatusLaw

/-! Runs over the status log. Rows are a chain, an acknowledged row stays, and an append that is
tried again until it is answered is written once. -/
namespace AgentsCommander.Tasks
open Foundation Foundation.Lines Transcript

variable {crates : StatusCrates} {log : StatusLog} {rows : List StatusRecord} {torn : Bytes}

theorem next_append (log : StatusLog) (a : Attempt) :
    (statusMachine crates).next log (.append a) = (appendStatus crates a log).1 := rfl

theorem answer_append (log : StatusLog) (a : Attempt) :
    (statusMachine crates).answer log (.append a) = some (appendStatus crates a log).2 := rfl

/-- The log holds a chain, and the reader finds its end. -/
def Sound (crates : StatusCrates) (log : StatusLog) : Prop :=
  ∃ rows torn, Kept crates log.file rows torn ∧ Chain rows

theorem sound_append {a : Attempt} (h : Kept crates log.file rows torn) (hchain : Chain rows)
    (hambient : Ambient crates log (.append a)) : ∃ rows' torn',
    Attempted crates a log rows torn (appendStatus crates a log) rows' torn' ∧ Chain rows' := by
  obtain ⟨rows', torn', hattempted⟩ := attempted h hambient
  refine ⟨rows', torn', hattempted, ?_⟩
  rcases hattempted.grew with hsame | ⟨-, record, hmade, hgrew⟩
  · rw [hsame]
    exact hchain
  · rw [hgrew]
    exact hchain.grow hmade

theorem sound_step (event : StatusEvent) (h : Sound crates log)
    (hambient : Ambient crates log event) :
    Sound crates ((statusMachine crates).next log event) := by
  obtain ⟨rows, torn, hkept, hchain⟩ := h
  cases event with
  | append a =>
    obtain ⟨rows', torn', hattempted, hchain'⟩ := sound_append hkept hchain hambient
    exact ⟨rows', torn', hattempted.kept, hchain'⟩
  | clean topic recordedAt =>
    have hrow : Row crates (cleanStatusSeed topic recordedAt) := hambient
    refine ⟨[cleanStatusSeed topic recordedAt], [], ⟨?_, ?_, List.not_mem_nil, ?_⟩, ?_,
      .singleton _⟩
    · simp [Machine.next, statusMachine, linesOf, rowOf]
    · intro r hr
      rw [List.mem_singleton.mp hr]
      exact hrow
    · simp [statusLimit]
    · intro r hr
      rw [← Option.some.inj hr]
      exact .inl ⟨rfl, rfl⟩

theorem kept_absent : Kept crates none [] [] :=
  ⟨rfl, by simp, List.not_mem_nil, by simp [statusLimit]⟩

theorem chain_nil : Chain [] := ⟨by simp, .nil⟩

/-- Whatever appends and cleans come, and wherever they are cut short, the log holds rows that
follow one another and a torn end. No revision is there twice, none is the base of two rows, and
the reader finds the last row and the torn end through its window. -/
theorem status_log_chain {events : List StatusEvent}
    (h : (statusMachine crates).Along (Ambient crates) ⟨none, [], []⟩ events) :
    ∃ rows torn bytesRead,
      Kept crates ((statusMachine crates).run ⟨none, [], []⟩ events).file rows torn ∧ Chain rows ∧
      (rows.map StatusRecord.revision).Nodup ∧
      rows.Pairwise (fun r r' => r.baseRevision ≠ r'.baseRevision) ∧
      readLatestStatus crates ((statusMachine crates).run ⟨none, [], []⟩ events).file =
        .ok ⟨rows.getLast?, torn, (linesOf crates rows).length,
          (((statusMachine crates).run ⟨none, [], []⟩ events).file.getD []).length, bytesRead⟩ := by
  have hsound : Sound crates ((statusMachine crates).run ⟨none, [], []⟩ events) :=
    Machine.run_inv (fun log event hs ha => sound_step event hs ha)
      ⟨[], [], kept_absent, chain_nil⟩ h
  obtain ⟨rows, torn, hkept, hchain⟩ := hsound
  obtain ⟨bytesRead, hread⟩ := readLatestStatus_kept hkept
  exact ⟨rows, torn, bytesRead, hkept, hchain, hchain.revisions, hchain.bases, hread⟩

/-! ### Acknowledged rows -/

/-- The record that an answer reports as written by this call. -/
def acknowledged (answer : Option (Except TaskOpError StatusReceipt)) : Option StatusRecord :=
  answer.bind fun result => result.toOption.bind fun receipt =>
    if receipt.replayed then none else some receipt.record

theorem acknowledged_append {a : Attempt} {rows' : List StatusRecord} {torn' : Bytes}
    (h : Attempted crates a log rows torn (appendStatus crates a log) rows' torn') :
    acknowledged ((statusMachine crates).answer log (.append a)) = none ∧ rows <+: rows' ∨
      ∃ record, acknowledged ((statusMachine crates).answer log (.append a)) = some record ∧
        rows' = rows ++ [record] := by
  have hpre : rows <+: rows' := by
    rcases h.grew with hsame | ⟨-, record, -, hgrew⟩
    · rw [hsame]
    · rw [hgrew]
      exact List.prefix_append _ _
  rw [answer_append]
  cases hresult : (appendStatus crates a log).2 with
  | error e => exact .inl ⟨rfl, hpre⟩
  | ok receipt =>
    obtain ⟨-, -, -, hgrew⟩ := h.answered receipt hresult
    cases hreplayed : receipt.replayed with
    | true =>
      refine .inl ⟨?_, hpre⟩
      simp [acknowledged, Except.toOption, hreplayed]
    | false =>
      rw [hreplayed] at hgrew
      refine .inr ⟨receipt.record, ?_, hgrew.1⟩
      simp [acknowledged, Except.toOption, hreplayed]

/-- While no clean comes, rows stay: each acknowledged row is there, in the order of the answers,
behind the rows that were there before, and no two of them were based on one revision. -/
theorem acknowledged_rows_kept {attempts : List Attempt} (h : Kept crates log.file rows torn)
    (hchain : Chain rows)
    (hambient : (statusMachine crates).Along (Ambient crates) log (attempts.map .append)) :
    ∃ rows' torn', Kept crates ((statusMachine crates).run log (attempts.map .append)).file rows'
        torn' ∧ Chain rows' ∧
      (∃ added, rows' = rows ++ added ∧
        (((statusMachine crates).answers log (attempts.map .append)).filterMap
          acknowledged).Sublist added) ∧
      (((statusMachine crates).answers log (attempts.map .append)).filterMap acknowledged).Pairwise
        fun r r' => r.baseRevision ≠ r'.baseRevision := by
  have hrun : ∃ rows' torn', Kept crates
      ((statusMachine crates).run log (attempts.map .append)).file rows' torn' ∧ Chain rows' ∧
      ∃ added, rows' = rows ++ added ∧
        (((statusMachine crates).answers log (attempts.map .append)).filterMap
          acknowledged).Sublist added := by
    induction attempts generalizing log rows torn with
    | nil => exact ⟨rows, torn, h, hchain, [], by simp, by simp [Machine.answers]⟩
    | cons a attempts ih =>
      obtain ⟨rows₁, torn₁, hattempted, hchain₁⟩ := sound_append h hchain hambient.1
      obtain ⟨rows', torn', hkept, hchain', added, hadded, hsub⟩ :=
        ih hattempted.kept hchain₁ hambient.2
      refine ⟨rows', torn', hkept, hchain', ?_⟩
      have hanswers : (statusMachine crates).answers log ((a :: attempts).map .append) =
          (statusMachine crates).answer log (.append a) :: (statusMachine crates).answers
            ((statusMachine crates).next log (.append a)) (attempts.map .append) := rfl
      rw [hanswers]
      rcases acknowledged_append hattempted with ⟨hnone, front, hfront⟩ | ⟨record, hsome, hgrew⟩
      · refine ⟨front ++ added, by rw [hadded, ← hfront, List.append_assoc], ?_⟩
        rw [List.filterMap_cons_none hnone]
        exact hsub.trans (List.sublist_append_right front added)
      · refine ⟨record :: added, by rw [hadded, hgrew, List.append_assoc]; rfl, ?_⟩
        rw [List.filterMap_cons_some hsome]
        exact hsub.cons_cons record
  obtain ⟨rows', torn', hkept, hchain', added, hadded, hsub⟩ := hrun
  refine ⟨rows', torn', hkept, hchain', ⟨added, hadded, hsub⟩, ?_⟩
  have hbases := hchain'.bases
  rw [hadded] at hbases
  exact (List.pairwise_append.mp hbases).2.1.sublist hsub

/-! ### One request, tried again -/

/-- The request has not been written, or its record is the last row. -/
inductive Progress (crates : StatusCrates) (args : AppendArgs) (rows : List StatusRecord)
    (file : Option Bytes) : Prop where
  | waiting (torn : Bytes) : Kept crates file rows torn → Progress crates args rows file
  | written (record : StatusRecord) (torn : Bytes) : Answers args record →
      Kept crates file (rows ++ [record]) torn → Progress crates args rows file

theorem progress_step {a : Attempt} {args : AppendArgs} (hargs : a.args = args)
    (h : Progress crates args rows log.file) (hambient : Ambient crates log (.append a)) :
    Progress crates args rows (appendStatus crates a log).1.file := by
  cases h with
  | waiting torn hkept =>
    obtain ⟨rows', torn', hattempted⟩ := attempted hkept hambient
    have hkept' := hattempted.kept
    rcases hattempted.grew with hsame | ⟨-, record, hmade, hgrew⟩
    · rw [hsame] at hkept'
      exact .waiting torn' hkept'
    · rw [hgrew] at hkept'
      exact .written record torn' (hargs ▸ answers_of_madeAfter hmade) hkept'
  | written record torn hanswers hkept =>
    obtain ⟨rows', torn', hattempted⟩ := attempted hkept hambient
    have hkept' := hattempted.kept
    rcases hattempted.grew with hsame | ⟨hfresh, -⟩
    · rw [hsame] at hkept'
      exact .written record torn' hanswers hkept'
    · refine absurd ?_ (hfresh record (by simp))
      rw [hanswers.request, hargs]

theorem progress_run {args : AppendArgs} {attempts : List Attempt}
    (hargs : ∀ a ∈ attempts, a.args = args) (h : Progress crates args rows log.file)
    (hambient : (statusMachine crates).Along (Ambient crates) log (attempts.map .append)) :
    Progress crates args rows ((statusMachine crates).run log (attempts.map .append)).file := by
  induction attempts generalizing log with
  | nil => exact h
  | cons a attempts ih =>
    exact ih (fun other hmem => hargs other (List.mem_cons_of_mem a hmem))
      (progress_step (hargs a List.mem_cons_self) h hambient.1) hambient.2

/-- A request that is tried again, with any number of attempts cut short anywhere before one is
answered, adds one row: the one the answer reports. -/
theorem append_exactly_once {args : AppendArgs} {attempts : List Attempt} {last : Attempt}
    {receipt : StatusReceipt} (h : Kept crates log.file rows torn)
    (hfresh : ∀ r ∈ rows.getLast?, r.requestId ≠ some args.requestId)
    (hargs : ∀ a ∈ attempts, a.args = args) (hlast : last.args = args)
    (hambient : (statusMachine crates).Along (Ambient crates) log
      ((attempts ++ [last]).map .append))
    (hok : (statusMachine crates).answer
      ((statusMachine crates).run log (attempts.map .append)) (.append last) =
        some (.ok receipt)) :
    Answers args receipt.record ∧ ∃ torn', Kept crates
      ((statusMachine crates).run log ((attempts ++ [last]).map .append)).file
      (rows ++ [receipt.record]) torn' := by
  rw [List.map_append, Machine.along_append] at hambient
  obtain ⟨hbefore, hambientLast, -⟩ := hambient
  have hprogress := progress_run hargs (.waiting torn h) hbefore
  rw [List.map_append, Machine.run_append]
  generalize (statusMachine crates).run log (attempts.map .append) = log' at *
  have hanswer : (appendStatus crates last log').2 = .ok receipt := Option.some.inj hok
  cases hprogress with
  | waiting torn₁ hkept =>
    obtain ⟨rows', torn', hattempted⟩ := attempted hkept hambientLast
    obtain ⟨-, hend, hanswers, hgrew⟩ := hattempted.answered receipt hanswer
    rw [hlast] at hanswers
    have hkept' := hattempted.kept
    cases hreplayed : receipt.replayed with
    | true =>
      rw [hreplayed] at hgrew
      have hsame : rows' = rows := hgrew
      rw [hsame] at hend
      exact absurd hanswers.request (hfresh _ hend)
    | false =>
      rw [hreplayed] at hgrew
      have hnew : rows' = rows ++ [receipt.record] := hgrew.1
      rw [hnew] at hkept'
      exact ⟨hanswers, torn', hkept'⟩
  | written record torn₁ hwritten hkept =>
    obtain ⟨rows', torn', hattempted⟩ := attempted hkept hambientLast
    obtain ⟨-, hend, hanswers, -⟩ := hattempted.answered receipt hanswer
    rw [hlast] at hanswers
    have hkept' := hattempted.kept
    rcases hattempted.grew with hsame | ⟨hagain, -⟩
    · rw [hsame] at hend hkept'
      have hrecord : record = receipt.record := by simpa using hend
      rw [hrecord] at hkept'
      exact ⟨hanswers, torn', hkept'⟩
    · refine absurd ?_ (hagain record (by simp))
      rw [hwritten.request, hlast]

/-! ### A log of one row -/

def sampleArgs : AppendArgs where
  expectedRevision := legacyRevision
  requestId := "7c9e6679742540de944be07fc1f90ae7".toList
  text := "x".toList
  author := "p/a".toList

def sampleAttempt (stop : Stop) : Attempt where
  args := sampleArgs
  topic := "0f8fad5bd9cb469fa16570867728950e".toList
  recordedAt := "2026-01-01T00:00:00.000000000Z".toList
  stop := stop

def sampleRecord : StatusRecord :=
  statusRecord (sampleAttempt .never) "0f8fad5bd9cb469fa16570867728950e".toList 1

def sampleRow : Bytes :=
  ["\x7b\"schemaVersion\":1,\"kind\":\"status\",".toList,
    "\"topicId\":\"0f8fad5bd9cb469fa16570867728950e\",".toList, "\"sequence\":1,".toList,
    "\"requestId\":\"7c9e6679742540de944be07fc1f90ae7\",".toList,
    "\"baseRevision\":\"legacy:0\",".toList,
    "\"recordedAt\":\"2026-01-01T00:00:00.000000000Z\",".toList,
    "\"author\":\"p/a\",\"status\":\"x\"\x7d".toList].flatten.flatMap String.utf8EncodeChar

def sampleValue : Value :=
  .object [("schemaVersion".toList, .number "1".toList), ("kind".toList, .string "status".toList),
    ("topicId".toList, .string sampleRecord.topicId), ("sequence".toList, .number "1".toList),
    ("requestId".toList, .string sampleArgs.requestId),
    ("baseRevision".toList, .string legacyRevision),
    ("recordedAt".toList, .string sampleRecord.recordedAt),
    ("author".toList, .string sampleArgs.author), ("status".toList, .string sampleArgs.text)]

/-- JSON that knows the row of one record. -/
def sampleCrates : StatusCrates where
  fromSlice bytes := if bytes = sampleRow then .ok sampleValue else .error "expected value"
  fromValue _ := .ok sampleRecord
  toVec _ := sampleRow
  isUuid text := text.length = 32 && text.all fun c => c.isDigit || ('a' ≤ c && c ≤ 'f')
  isUtcTime text := text = sampleRecord.recordedAt

theorem sample_reads : sampleCrates.Reads sampleRecord := by
  refine ⟨by decide +kernel, sampleValue, ?_, by decide +kernel, rfl⟩
  simp only [sampleCrates, if_true]

theorem sample_supplied (stop : Stop) : (sampleAttempt stop).Supplied sampleCrates := by
  refine ⟨?_, ?_⟩
  · show sampleCrates.isUuid "0f8fad5bd9cb469fa16570867728950e".toList = true
    decide
  · show sampleCrates.isUtcTime "2026-01-01T00:00:00.000000000Z".toList = true
    decide

theorem sample_ambient (stop : Stop) {log : StatusLog} {torn : Bytes} {completeLen len n : ℕ}
    (h : readLatestStatus sampleCrates log.file = .ok ⟨none, torn, completeLen, len, n⟩) :
    Ambient sampleCrates log (.append (sampleAttempt stop)) := by
  refine ⟨sample_supplied stop, fun tail record htail hnew => ?_⟩
  have hmade := made_of_newRecord hnew
  have hplace := hmade.place
  rw [← Except.ok.inj (h.symm.trans htail), nextPlace] at hplace
  obtain ⟨htopic, hsequence⟩ := Prod.mk.inj (Except.ok.inj hplace)
  have hrecord : record = sampleRecord := by
    rw [hmade.fields, ← htopic, ← hsequence]
    rfl
  rw [hrecord]
  exact sample_reads

theorem sample_torn : Kept sampleCrates (some (sampleRow.take 5)) [] (sampleRow.take 5) := by
  refine ⟨(List.nil_append _).symm, by simp, by decide +kernel, ?_⟩
  rw [List.length_take, statusLimit]
  omega

/-- A first attempt is torn off after five bytes, and the next one is answered. -/
theorem sample_along : (statusMachine sampleCrates).Along (Ambient sampleCrates) ⟨none, [], []⟩
    [.append (sampleAttempt (.written 5)), .append (sampleAttempt .never)] := by
  have htorn : (statusMachine sampleCrates).next ⟨none, [], []⟩
      (.append (sampleAttempt (.written 5))) = ⟨some (sampleRow.take 5), [], []⟩ := by
    decide +kernel
  obtain ⟨bytesRead, hread⟩ := readLatestStatus_kept sample_torn
  refine ⟨sample_ambient (.written 5) rfl, ?_, trivial⟩
  rw [htorn]
  exact sample_ambient .never hread

theorem status_log_chain_torn : ∃ rows torn bytesRead,
    Kept sampleCrates ((statusMachine sampleCrates).run ⟨none, [], []⟩
      [.append (sampleAttempt (.written 5)), .append (sampleAttempt .never)]).file rows torn ∧
    Chain rows ∧ (rows.map StatusRecord.revision).Nodup ∧
    rows.Pairwise (fun r r' => r.baseRevision ≠ r'.baseRevision) ∧
    readLatestStatus sampleCrates ((statusMachine sampleCrates).run ⟨none, [], []⟩
      [.append (sampleAttempt (.written 5)), .append (sampleAttempt .never)]).file =
        .ok ⟨rows.getLast?, torn, (linesOf sampleCrates rows).length,
          (((statusMachine sampleCrates).run ⟨none, [], []⟩ [.append (sampleAttempt (.written 5)),
            .append (sampleAttempt .never)]).file.getD []).length, bytesRead⟩ :=
  status_log_chain sample_along

theorem acknowledged_rows_kept_torn : ∃ rows' torn', Kept sampleCrates
    ((statusMachine sampleCrates).run ⟨none, [], []⟩
      ([sampleAttempt (.written 5), sampleAttempt .never].map .append)).file rows' torn' ∧
    Chain rows' ∧
    (∃ added, rows' = [] ++ added ∧
      (((statusMachine sampleCrates).answers ⟨none, [], []⟩
        ([sampleAttempt (.written 5), sampleAttempt .never].map .append)).filterMap
          acknowledged).Sublist added) ∧
    (((statusMachine sampleCrates).answers ⟨none, [], []⟩
      ([sampleAttempt (.written 5), sampleAttempt .never].map .append)).filterMap
        acknowledged).Pairwise fun r r' => r.baseRevision ≠ r'.baseRevision :=
  acknowledged_rows_kept kept_absent chain_nil sample_along

theorem append_exactly_once_torn : Answers sampleArgs sampleRecord ∧ ∃ torn', Kept sampleCrates
    ((statusMachine sampleCrates).run ⟨none, [], []⟩
      (([sampleAttempt (.written 5)] ++ [sampleAttempt .never]).map .append)).file
    ([] ++ [sampleRecord]) torn' :=
  @append_exactly_once sampleCrates ⟨none, [], []⟩ [] [] sampleArgs [sampleAttempt (.written 5)]
    (sampleAttempt .never) ⟨sampleRecord.revision, sampleRecord, false⟩ kept_absent (by simp)
    (by
      intro a ha
      rw [List.mem_singleton.mp ha]
      rfl) rfl sample_along (by decide +kernel)

end AgentsCommander.Tasks
