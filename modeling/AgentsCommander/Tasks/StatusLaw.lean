import AgentsCommander.Foundation.Transaction
import AgentsCommander.Tasks.Status

/-! The rows of a status log over runs of appends that may stop anywhere: the last row is always
found, the rows are a chain, and an append that is tried again is written once. -/
namespace AgentsCommander.Tasks
open Foundation Foundation.Lines Transcript

variable (crates : StatusCrates)

/-- What is written for the record is a line, and it is parsed to the record. -/
structure StatusCrates.Reads (r : StatusRecord) : Prop where
  noFeed : lineFeed ∉ crates.toVec r
  parsed : ∃ value, crates.fromSlice (crates.toVec r) = .ok value ∧
    (∀ field ∈ recordFields, (value.get field).isSome = true) ∧ crates.fromValue value = .ok r

def rowOf (r : StatusRecord) : Bytes := crates.toVec r ++ [lineFeed]

def linesOf (rows : List StatusRecord) : Bytes := (rows.map (rowOf crates)).flatten

/-- A row that `append_status` may have written. -/
structure Row (r : StatusRecord) : Prop where
  reads : crates.Reads r
  fits : (rowOf crates r).length ≤ statusLimit
  valid : checkRecord crates r = .ok ()

/-- The file holds these rows, and this torn end. -/
structure Kept (file : Option Bytes) (rows : List StatusRecord) (torn : Bytes) : Prop where
  content : file.getD [] = linesOf crates rows ++ torn
  rows : ∀ r ∈ rows, Row crates r
  noFeed : lineFeed ∉ torn
  short : torn.length < statusLimit

variable {crates} {file : Option Bytes} {rows : List StatusRecord} {torn : Bytes}

theorem linesOf_concat (rows : List StatusRecord) (r : StatusRecord) :
    linesOf crates (rows ++ [r]) = linesOf crates rows ++ rowOf crates r := by
  simp [linesOf]

/-- Rows that are there end in a line feed. -/
theorem linesOf_ends (rows : List StatusRecord) : linesOf crates rows = [] ∨
    ∃ front, linesOf crates rows = front ++ [lineFeed] := by
  cases List.eq_nil_or_concat' rows with
  | inl hnil => exact .inl (by rw [hnil]; rfl)
  | inr hconcat =>
    obtain ⟨init, last, rfl⟩ := hconcat
    refine .inr ⟨linesOf crates init ++ crates.toVec last, ?_⟩
    rw [linesOf_concat, rowOf, List.append_assoc]

theorem validateRecord_row {r : StatusRecord} (h : Row crates r) :
    validateRecord crates (crates.toVec r) = .ok r := by
  have hfits : ¬statusLimit < (crates.toVec r).length + 1 := by
    have hlen : (rowOf crates r).length = (crates.toVec r).length + 1 := by simp [rowOf]
    have := h.fits
    omega
  obtain ⟨value, hslice, hfields, hvalue⟩ := h.reads.parsed
  have hnone : recordFields.find? (fun field => (value.get field).isNone) = none := by
    rw [List.find?_eq_none]
    intro field hmem
    have hsome := hfields field hmem
    rw [Option.isSome_iff_ne_none] at hsome
    simpa using hsome
  rw [validateRecord, if_neg hfits, hslice]
  simp only [hnone, hvalue, h.valid]
  rfl

/-- The window reaches back beyond the last row, whatever stands before it. -/
theorem lastRow_row {r : StatusRecord} (h : Row crates r) (before : List StatusRecord) {start : ℕ}
    (hstart : start ≤ (linesOf crates before).length - 1) :
    lastRow crates start
      ((linesOf crates before).drop start ++ (crates.toVec r ++ lineFeed :: torn))
      (((linesOf crates before).drop start).length + (crates.toVec r).length) = .ok r := by
  have htake : ((linesOf crates before).drop start ++ (crates.toVec r ++ lineFeed :: torn)).take
      (((linesOf crates before).drop start).length + (crates.toVec r).length) =
      (linesOf crates before).drop start ++ crates.toVec r := by
    rw [← List.append_assoc, ← List.length_append, List.take_left]
  unfold lastRow
  rw [htake]
  rcases @linesOf_ends crates before with hnil | ⟨front, hfront⟩
  · have hzero : start = 0 := by
      rw [hnil] at hstart
      simpa using hstart
    rw [hnil, List.drop_nil, List.nil_append, rposition_eq_none h.reads.noFeed, hzero]
    simpa using validateRecord_row h
  · have hle : start ≤ front.length := by
      rw [hfront] at hstart
      simpa using hstart
    have hdrop : (linesOf crates before).drop start = front.drop start ++ [lineFeed] := by
      rw [hfront, List.drop_append_of_le_length hle]
    have hsplit : front.drop start ++ [lineFeed] ++ crates.toVec r =
        front.drop start ++ lineFeed :: crates.toVec r := by
      rw [List.append_assoc]
      rfl
    rw [hdrop, hsplit, rposition_append h.reads.noFeed]
    have hrow : (front.drop start ++ lineFeed :: crates.toVec r).drop
        ((front.drop start).length + 1) = crates.toVec r := by
      rw [← hsplit]
      exact List.drop_left' (by simp)
    refine (if_neg ?_).trans ((congrArg (validateRecord crates) hrow).trans (validateRecord_row h))
    exact fun hzero => absurd hzero.1 (Nat.succ_ne_zero _)

/-- Whatever the log holds, the reader finds its last row and its torn end. -/
theorem readLatestStatus_kept (h : Kept crates file rows torn) : ∃ bytesRead,
    readLatestStatus crates file = .ok ⟨rows.getLast?, torn, (linesOf crates rows).length,
      (file.getD []).length, bytesRead⟩ := by
  have hshort := h.short
  cases file with
  | none =>
    have hnil : linesOf crates rows = [] ∧ torn = [] := List.append_eq_nil_iff.mp h.content.symm
    have hrows : rows = [] := by
      cases rows with
      | nil => rfl
      | cons r rest => simp [linesOf, rowOf] at hnil
    rw [hrows, hnil.2]
    exact ⟨0, rfl⟩
  | some content =>
    have hcontent : content = linesOf crates rows ++ torn := h.content
    refine ⟨(content.drop (content.length - statusWindow)).length, ?_⟩
    cases List.eq_nil_or_concat' rows with
    | inl hnil =>
      rw [hnil] at hcontent ⊢
      have htorn : content = torn := hcontent
      have hstart : content.length - statusWindow = 0 := by
        rw [htorn]
        simp only [statusLimit, statusWindow] at hshort ⊢
        omega
      have hlong : ¬(statusLimit ≤ torn.length ∨ ((none : Option ℕ) = none ∧ 0 ≠ 0)) := by
        simp only [not_or]
        omega
      simp only [readLatestStatus, hstart, List.drop_zero]
      rw [htorn, rposition_eq_none h.noFeed]
      simp only [Option.elim_none, List.drop_zero]
      rw [if_neg (by simpa using hlong)]
      rfl
    | inr hconcat =>
      obtain ⟨before, r, rfl⟩ := hconcat
      have hr : Row crates r := h.rows r (by simp)
      have hfits := hr.fits
      have hbytes : content = linesOf crates before ++ (crates.toVec r ++ lineFeed :: torn) := by
        rw [hcontent, linesOf_concat, rowOf]
        simp
      have hlen : content.length =
          (linesOf crates before).length + ((rowOf crates r).length + torn.length) := by
        rw [hcontent, linesOf_concat]
        simp only [List.length_append]
        omega
      have hrowLen : (rowOf crates r).length = (crates.toVec r).length + 1 := by simp [rowOf]
      have hstart : content.length - statusWindow ≤ (linesOf crates before).length - 1 := by
        simp only [statusLimit, statusWindow] at hshort hfits ⊢
        omega
      generalize hstartEq : content.length - statusWindow = start at hstart ⊢
      have hwindow : content.drop start =
          (linesOf crates before).drop start ++ (crates.toVec r ++ lineFeed :: torn) := by
        rw [hbytes, List.drop_append_of_le_length (by omega)]
      have hlf : rposition lineFeed (content.drop start) =
          some (((linesOf crates before).drop start).length + (crates.toVec r).length) := by
        rw [hwindow, ← List.append_assoc, rposition_append h.noFeed, List.length_append]
      have htorn : (content.drop start).drop
          (((linesOf crates before).drop start).length + (crates.toVec r).length + 1) = torn := by
        rw [hwindow, ← List.append_assoc, ← List.singleton_append, ← List.append_assoc]
        exact List.drop_left' (by simp [Nat.add_assoc])
      have hlast := @lastRow_row crates torn r hr before _ hstart
      rw [← hwindow] at hlast
      have hcomplete : start + (((linesOf crates before).drop start).length +
          (crates.toVec r).length + 1) = (linesOf crates (before ++ [r])).length := by
        rw [linesOf_concat, List.length_append, hrowLen, List.length_drop]
        omega
      simp only [readLatestStatus, hstartEq, hlf, Option.elim_some, htorn, hlast]
      rw [if_neg (by simpa using hshort), hcomplete]
      simp [Except.map]

/-! ### The next record -/

/-- The record that an accepted request makes. -/
structure Made (crates : StatusCrates) (a : Attempt) (tail : StatusTail)
    (record : StatusRecord) : Prop where
  text : validateStatusText a.args.text = .ok ()
  request : crates.isUuid a.args.requestId = true
  author : validAuthor a.args.author = true
  revision : validRevision crates a.args.expectedRevision = true
  current : a.args.expectedRevision = tail.revision
  place : nextPlace a.topic tail = .ok (record.topicId, record.sequence)
  fields : record = statusRecord a record.topicId record.sequence

theorem made_of_newRecord {a : Attempt} {tail : StatusTail} {record : StatusRecord}
    (h : newRecord crates a tail = .ok record) : Made crates a tail record := by
  unfold newRecord at h
  cases htext : validateStatusText a.args.text with
  | error e => rw [htext] at h; cases h
  | ok u =>
    rw [htext] at h
    simp only [ok_bind] at h
    by_cases hvalid : !crates.isUuid a.args.requestId ∨
        !validRevision crates a.args.expectedRevision ∨ !validAuthor a.args.author
    · rw [if_pos hvalid] at h
      cases h
    · rw [if_neg hvalid] at h
      by_cases hcurrent : a.args.expectedRevision ≠ tail.revision
      · rw [if_pos hcurrent] at h
        cases h
      · rw [if_neg hcurrent] at h
        cases hplace : nextPlace a.topic tail with
        | error e => rw [hplace] at h; cases h
        | ok place =>
          rw [hplace] at h
          have hrecord := (Except.ok.inj h).symm
          simp only [not_or, Bool.not_eq_true', Bool.not_eq_false] at hvalid
          subst hrecord
          exact ⟨htext, hvalid.1, hvalid.2.2, hvalid.2.1, not_not.mp hcurrent, hplace, rfl⟩

theorem valid_place {r : StatusRecord} (h : checkRecord crates r = .ok ()) :
    crates.isUuid r.topicId = true ∧ r.sequence ≤ maxSequence := by
  unfold checkRecord at h
  by_cases hshape : r.schemaVersion ≠ 1 ∨ !crates.isUuid r.topicId ∨ maxSequence < r.sequence ∨
      !crates.isUtcTime r.recordedAt
  · rw [if_pos hshape] at h
    cases h
  · simp only [not_or, Bool.not_eq_true', Bool.not_eq_false] at hshape
    exact ⟨hshape.2.1, Nat.le_of_not_lt hshape.2.2.1⟩

/-- What is supplied from outside is a UUID and a time in UTC. -/
def Attempt.Supplied (crates : StatusCrates) (a : Attempt) : Prop :=
  crates.isUuid a.topic = true ∧ crates.isUtcTime a.recordedAt = true

theorem checkRecord_made {a : Attempt} {tail : StatusTail} {record : StatusRecord}
    (h : Made crates a tail record) (ha : a.Supplied crates)
    (htail : ∀ r ∈ tail.record, checkRecord crates r = .ok ()) :
    checkRecord crates record = .ok () := by
  have hplace : crates.isUuid record.topicId = true ∧ record.sequence ≤ maxSequence ∧
      0 < record.sequence ∧ expectedBase record = a.args.expectedRevision := by
    have hcurrent := h.current
    have hnext := h.place
    have hbase : record.baseRevision = some a.args.expectedRevision := by
      rw [h.fields]
      rfl
    cases hlast : tail.record with
    | none =>
      rw [nextPlace, hlast] at hnext
      obtain ⟨htopic, hsequence⟩ := Prod.mk.inj (Except.ok.inj hnext)
      rw [StatusTail.revision, hlast, Option.elim_none] at hcurrent
      rw [expectedBase, ← htopic, ← hsequence, hbase, hcurrent]
      exact ⟨ha.1, by decide, Nat.one_pos, if_pos ⟨rfl, rfl⟩⟩
    | some r =>
      obtain ⟨huuid, hmax⟩ := valid_place (htail r hlast)
      rw [nextPlace, hlast] at hnext
      simp only at hnext
      split_ifs at hnext with hfull
      obtain ⟨htopic, hsequence⟩ := Prod.mk.inj (Except.ok.inj hnext)
      rw [StatusTail.revision, hlast, Option.elim_some] at hcurrent
      refine ⟨htopic ▸ huuid, by omega, by omega, ?_⟩
      rw [expectedBase]
      split_ifs with hlegacy
      · rw [hbase] at hlegacy
        exact (Option.some.inj hlegacy.2).symm
      · rw [hcurrent, StatusRecord.revision, ← htopic, ← hsequence, Nat.add_sub_cancel]
  obtain ⟨huuid, hmax, hpos, hbase⟩ := hplace
  rw [h.fields]
  have hshape : ¬((1 : ℕ) ≠ 1 ∨ !crates.isUuid record.topicId ∨ maxSequence < record.sequence ∨
      !crates.isUtcTime a.recordedAt) := by
    simp [huuid, ha.2, hmax]
  have hkind : ¬("status".toList = "topic_started".toList ∧ record.sequence = 0 ∧
      some a.args.requestId = none ∧ some a.args.expectedRevision = none ∧
      some a.args.author = none ∧ some a.args.text = none) := fun hstart => by
    cases hstart.2.2.1
  have hstatus : "status".toList = "status".toList ∧ 0 < record.sequence ∧
      (some a.args.requestId).any crates.isUuid ∧
      (some a.args.expectedRevision).any (validRevision crates) ∧
      (some a.args.author).any validAuthor := ⟨rfl, hpos, h.request, h.revision, h.author⟩
  refine (if_neg hshape).trans ((if_neg hkind).trans ((if_pos hstatus).trans ?_))
  have hexpected : (statusRecord a record.topicId record.sequence).baseRevision =
      some (expectedBase (statusRecord a record.topicId record.sequence)) := by
    rw [← h.fields, hbase, h.fields]
    rfl
  simp only [statusRecord, h.text, ok_bind]
  exact if_neg (not_not.mpr hexpected)

/-! ### One attempt -/

/-- What repairing a torn end may leave. -/
inductive Repaired (crates : StatusCrates) (log : StatusLog) (rows : List StatusRecord)
    (torn : Bytes) : StatusLog × Except TaskOpError Unit → Prop where
  | whole : torn = [] → Repaired crates log rows torn (log, .ok ())
  | left (e : TaskOpError) : Repaired crates log rows torn (log, .error e)
  | saved (e : TaskOpError) :
      Repaired crates log rows torn ({ log with saved := log.saved ++ [torn] }, .error e)
  | cut (answer : Except TaskOpError Unit) :
      Repaired crates log rows torn ({ log with
        file := some (linesOf crates rows), saved := log.saved ++ [torn] }, answer)

theorem repaired {log : StatusLog} (h : Kept crates log.file rows torn) (stop : Stop)
    {tail : StatusTail} (htail : readLatestStatus crates log.file = .ok tail) :
    Repaired crates log rows torn (repairTorn crates stop log tail) := by
  obtain ⟨bytesRead, hread⟩ := readLatestStatus_kept h
  obtain rfl : tail = ⟨rows.getLast?, torn, (linesOf crates rows).length,
    (log.file.getD []).length, bytesRead⟩ := Except.ok.inj (htail.symm.trans hread)
  have hsame : ∀ saved : List Bytes, unchanged crates { log with saved := saved }
      ⟨rows.getLast?, torn, (linesOf crates rows).length, (log.file.getD []).length, bytesRead⟩ =
        .ok () := by
    intro saved
    rw [unchanged, hread]
    exact if_pos ⟨rfl, rfl, rfl, rfl⟩
  unfold repairTorn
  by_cases hwhole : torn = []
  · rw [if_pos hwhole]
    exact .whole hwhole
  · have hfile : log.file.map (·.take (linesOf crates rows).length) =
        some (linesOf crates rows) := by
      cases hcase : log.file with
      | none =>
        have hcontent := h.content
        rw [hcase] at hcontent
        exact absurd (List.append_eq_nil_iff.mp hcontent.symm).2 hwhole
      | some content =>
        have hcontent : content = linesOf crates rows ++ torn := by
          have := h.content
          rwa [hcase] at this
        rw [Option.map_some, hcontent, List.take_left]
    rw [if_neg hwhole, hsame log.saved]
    simp only [hsame, hfile]
    split_ifs
    · exact .left _
    · exact .saved _
    · exact .cut _
    · exact .cut _

/-- The tail that the reader makes of these rows. -/
def tailOf (rows : List StatusRecord) (torn : Bytes) (completeLen len bytesRead : ℕ) : StatusTail :=
  ⟨rows.getLast?, torn, completeLen, len, bytesRead⟩

/-- The record that the request makes behind these rows. -/
def MadeAfter (crates : StatusCrates) (a : Attempt) (rows : List StatusRecord)
    (record : StatusRecord) : Prop :=
  ∃ torn completeLen len bytesRead,
    Made crates a (tailOf rows torn completeLen len bytesRead) record

/-- The request whose record this is. -/
structure Answers (args : AppendArgs) (r : StatusRecord) : Prop where
  request : r.requestId = some args.requestId
  base : r.baseRevision = some args.expectedRevision
  author : r.author = some args.author
  text : r.status = some args.text

theorem answers_of_madeAfter {a : Attempt} {record : StatusRecord}
    (h : MadeAfter crates a rows record) : Answers a.args record := by
  obtain ⟨torn, completeLen, len, bytesRead, hmade⟩ := h
  rw [hmade.fields]
  exact ⟨rfl, rfl, rfl, rfl⟩

/-- An attempt leaves the rows, or adds the record of its request to them, and what it answers
is what the last row says. -/
structure Attempted (crates : StatusCrates) (a : Attempt) (log : StatusLog)
    (rows : List StatusRecord) (torn : Bytes)
    (result : StatusLog × Except TaskOpError StatusReceipt) (rows' : List StatusRecord)
    (torn' : Bytes) : Prop where
  kept : Kept crates result.1.file rows' torn'
  archives : result.1.archives = log.archives
  evidence : torn = [] ∨ torn' = torn ∨ torn ∈ result.1.saved
  saved : log.saved <+: result.1.saved
  grew : rows' = rows ∨ (∀ last ∈ rows.getLast?, last.requestId ≠ some a.args.requestId) ∧
    ∃ record, MadeAfter crates a rows record ∧ rows' = rows ++ [record]
  answered : ∀ receipt, result.2 = .ok receipt →
    receipt.revision = receipt.record.revision ∧ rows'.getLast? = some receipt.record ∧
      Answers a.args receipt.record ∧
      if receipt.replayed then rows' = rows
      else rows' = rows ++ [receipt.record] ∧ MadeAfter crates a rows receipt.record

variable {log : StatusLog} {a : Attempt}

theorem Attempted.refused (h : Kept crates log.file rows torn) (e : TaskOpError) :
    Attempted crates a log rows torn (log, .error e) rows torn :=
  ⟨h, rfl, .inr (.inl rfl), List.prefix_rfl, .inl rfl, fun receipt hok => by cases hok⟩

theorem Attempted.replayed (h : Kept crates log.file rows torn) {tail : StatusTail}
    (htail : tail.record = rows.getLast?) {answer : Except TaskOpError StatusReceipt}
    (hreplay : replay a.args tail = some answer) :
    Attempted crates a log rows torn (log, answer.bind fun receipt =>
      if a.stop = .replaySync then .error .writeFailed else .ok receipt) rows torn := by
  refine ⟨h, rfl, .inr (.inl rfl), List.prefix_rfl, .inl rfl, fun receipt hok => ?_⟩
  unfold replay at hreplay
  cases hlast : tail.record with
  | none => rw [hlast] at hreplay; cases hreplay
  | some last =>
    simp only [hlast] at hreplay
    split_ifs at hreplay with hrequest hconflict
    · obtain rfl := Option.some.inj hreplay
      cases hok
    · obtain rfl := Option.some.inj hreplay
      simp only [Except.bind] at hok
      split_ifs at hok with hstop
      obtain rfl := Except.ok.inj hok
      simp only [not_or, not_not] at hconflict
      refine ⟨?_, ?_, ⟨hrequest, hconflict.1, hconflict.2.1, hconflict.2.2⟩, rfl⟩
      · rw [StatusTail.revision, hlast, Option.elim_some]
      · rw [← htail, hlast]

theorem row_take {r : StatusRecord} (h : Row crates r) {count : ℕ}
    (hcount : count < (rowOf crates r).length) :
    lineFeed ∉ (rowOf crates r).take count ∧
      ((rowOf crates r).take count).length < statusLimit := by
  have hlen : (rowOf crates r).length = (crates.toVec r).length + 1 := by simp [rowOf]
  have htake : (rowOf crates r).take count = (crates.toVec r).take count := by
    rw [rowOf, List.take_append_of_le_length (by omega)]
  have hfits := h.fits
  refine ⟨fun hmem => ?_, ?_⟩
  · rw [htake] at hmem
    exact h.reads.noFeed (List.mem_of_mem_take hmem)
  · rw [List.length_take]
    omega

theorem kept_concat (h : Kept crates file rows []) {r : StatusRecord} (hr : Row crates r) :
    Kept crates (some (file.getD [] ++ rowOf crates r)) (rows ++ [r]) [] := by
  refine ⟨?_, ?_, List.not_mem_nil, by simp [statusLimit]⟩
  · have hcontent := h.content
    rw [List.append_nil] at hcontent
    rw [Option.getD_some, hcontent, linesOf_concat, List.append_nil]
  · intro other hmem
    rcases List.mem_append.mp hmem with hold | hnew
    · exact h.rows other hold
    · rw [List.mem_singleton.mp hnew]
      exact hr

/-- The row is appended whole, or so much of it that no row is completed. -/
theorem Attempted.appended {repaired : StatusLog} (h : Kept crates repaired.file rows [])
    (harchives : repaired.archives = log.archives) (hsaved : log.saved <+: repaired.saved)
    (hevidence : torn = [] ∨ torn ∈ repaired.saved)
    (hfresh : ∀ last ∈ rows.getLast?, last.requestId ≠ some a.args.requestId)
    {record : StatusRecord}
    (hmade : MadeAfter crates a rows record) (hr : Row crates record) : ∃ rows' torn',
    Attempted crates a log rows torn
      (appendRow a.stop repaired (rowOf crates record) ⟨record.revision, record, false⟩)
      rows' torn' := by
  have hproof : torn = [] ∨ ([] : Bytes) = torn ∨ torn ∈ repaired.saved :=
    hevidence.imp id .inr
  have hwhole := kept_concat h hr
  have hgrew : rows ++ [record] = rows ∨
      (∀ last ∈ rows.getLast?, last.requestId ≠ some a.args.requestId) ∧
        ∃ other, MadeAfter crates a rows other ∧ rows ++ [record] = rows ++ [other] :=
    .inr ⟨hfresh, record, hmade, rfl⟩
  have hok : Attempted crates a log rows torn
      ({ repaired with file := some (repaired.file.getD [] ++ rowOf crates record) },
        .ok ⟨record.revision, record, false⟩) (rows ++ [record]) [] := by
    refine ⟨hwhole, harchives, hproof, hsaved, hgrew, fun receipt hreceipt => ?_⟩
    obtain rfl := Except.ok.inj hreceipt
    exact ⟨rfl, by simp, answers_of_madeAfter hmade, rfl, hmade⟩
  cases hstop : a.stop with
  | openAppend =>
    exact ⟨rows, [], h, harchives, hproof, hsaved, .inl rfl,
      fun receipt hreceipt => by cases hreceipt⟩
  | written count =>
    by_cases hcount : count < (rowOf crates record).length
    · obtain ⟨hfeed, hshort⟩ := row_take hr hcount
      refine ⟨rows, (rowOf crates record).take count, ⟨?_, h.rows, hfeed, hshort⟩, harchives, ?_,
        hsaved, .inl rfl, fun receipt hreceipt => by cases hreceipt⟩
      · have hcontent := h.content
        rw [List.append_nil] at hcontent
        simp only [appendRow, Option.getD_some, hcontent]
      · exact hevidence.imp id .inr
    · have hall : (rowOf crates record).take count = rowOf crates record :=
        List.take_of_length_le (Nat.le_of_not_lt hcount)
      refine ⟨rows ++ [record], [], ?_, harchives, hproof, hsaved, hgrew,
        fun receipt hreceipt => by cases hreceipt⟩
      simp only [appendRow, hall]
      exact hwhole
  | sync =>
    exact ⟨rows ++ [record], [], hwhole, harchives, hproof, hsaved, hgrew,
      fun receipt hreceipt => by cases hreceipt⟩
  | never => exact ⟨rows ++ [record], [], hok⟩
  | read => exact ⟨rows ++ [record], [], hok⟩
  | replaySync => exact ⟨rows ++ [record], [], hok⟩
  | backup => exact ⟨rows ++ [record], [], hok⟩
  | truncate => exact ⟨rows ++ [record], [], hok⟩
  | truncateSync => exact ⟨rows ++ [record], [], hok⟩

/-- What the outside supplies to an event: UUIDs, times in UTC, and JSON that is read back. -/
def Ambient (crates : StatusCrates) (log : StatusLog) : StatusEvent → Prop
  | .append a => a.Supplied crates ∧ ∀ tail record, readLatestStatus crates log.file = .ok tail →
      newRecord crates a tail = .ok record → crates.Reads record
  | .clean topic recordedAt => Row crates (cleanStatusSeed topic recordedAt)

theorem kept_cut (h : Kept crates file rows torn) :
    Kept crates (some (linesOf crates rows)) rows [] :=
  ⟨by simp, h.rows, List.not_mem_nil, by simp [statusLimit]⟩

/-- Every attempt, wherever it stops. -/
theorem attempted (h : Kept crates log.file rows torn) (hambient : Ambient crates log (.append a)) :
    ∃ rows' torn', Attempted crates a log rows torn (appendStatus crates a log) rows' torn' := by
  obtain ⟨bytesRead, hread⟩ := readLatestStatus_kept h
  have hrefused := fun e => (Attempted.refused (a := a) h e)
  unfold appendStatus
  by_cases hstop : a.stop = .read
  · rw [if_pos hstop]
    exact ⟨rows, torn, hrefused _⟩
  · rw [if_neg hstop, hread]
    simp only
    generalize htail : StatusTail.mk rows.getLast? torn (linesOf crates rows).length
      (log.file.getD []).length bytesRead = tail
    rw [htail] at hread
    have hlast : tail.record = rows.getLast? := by rw [← htail]
    cases hreplay : replay a.args tail with
    | some answer => exact ⟨rows, torn, Attempted.replayed h hlast hreplay⟩
    | none =>
      have hfresh : ∀ last ∈ rows.getLast?, last.requestId ≠ some a.args.requestId := by
        intro last hmem heq
        rw [← hlast] at hmem
        unfold replay at hreplay
        rw [hmem] at hreplay
        simp only [heq, if_true] at hreplay
        split_ifs at hreplay
      simp only
      cases hnew : newRecord crates a tail with
      | error e => exact ⟨rows, torn, hrefused e⟩
      | ok record =>
        simp only
        have hmade := made_of_newRecord hnew
        have hafter : MadeAfter crates a rows record := ⟨torn, _, _, bytesRead, htail ▸ hmade⟩
        have hvalid : checkRecord crates record = .ok () := by
          refine checkRecord_made hmade hambient.1 fun r hr => (h.rows r ?_).valid
          rw [hlast] at hr
          exact List.mem_of_getLast? hr
        by_cases hlarge : statusLimit < (crates.toVec record ++ [lineFeed]).length
        · rw [if_pos hlarge]
          exact ⟨rows, torn, hrefused _⟩
        · rw [if_neg hlarge]
          have hrow : Row crates record :=
            ⟨hambient.2 tail record hread hnew, Nat.le_of_not_lt hlarge, hvalid⟩
          have hrepair := repaired h a.stop hread
          generalize repairTorn crates a.stop log tail = repair at hrepair
          cases hrepair with
          | whole hwhole =>
            subst hwhole
            exact Attempted.appended h rfl List.prefix_rfl (.inl rfl) hfresh hafter hrow
          | left e => exact ⟨rows, torn, hrefused e⟩
          | saved e =>
            refine ⟨rows, torn, h, rfl, .inr (.inl rfl), List.prefix_append _ _, .inl rfl, ?_⟩
            intro receipt hok
            cases hok
          | cut answer =>
            cases answer with
            | error e =>
              refine ⟨rows, [], kept_cut h, rfl, .inr (.inr (by simp)), List.prefix_append _ _,
                .inl rfl, ?_⟩
              intro receipt hok
              cases hok
            | ok u =>
              have hcut : Kept crates { log with
                  file := some (linesOf crates rows), saved := log.saved ++ [torn] }.file rows [] :=
                kept_cut h
              exact @Attempted.appended crates rows torn log a _ hcut rfl (List.prefix_append _ _)
                (.inr (by simp)) hfresh _ hafter hrow

/-! ### The chain of the rows -/

theorem revisionOf_injective {topic topic' : Text} {n m : ℕ}
    (h : revisionOf topic n = revisionOf topic' m) : topic = topic' ∧ n = m := by
  have hcolon : ∀ k, ':' ∉ (Nat.toDigits 10 k).reverse := by
    intro k hmem
    rw [List.mem_reverse] at hmem
    exact absurd (Nat.isDigit_of_mem_toDigits (by decide) (by decide) hmem) (by decide)
  have hsplit : ∀ (t : Text) k, rsplitOnce ':' (revisionOf t k) = some (t, Nat.toDigits 10 k) := by
    intro t k
    have hreverse : (revisionOf t k).reverse =
        (Nat.toDigits 10 k).reverse ++ ':' :: t.reverse := by simp [revisionOf]
    rw [rsplitOnce, hreverse, splitOnce_append (hcolon k), Option.map_some, List.reverse_reverse,
      List.reverse_reverse]
  have hpair : (topic, Nat.toDigits 10 n) = (topic', Nat.toDigits 10 m) :=
    Option.some.inj
      ((hsplit topic n).symm.trans ((congrArg (rsplitOnce ':') h).trans (hsplit topic' m)))
  obtain ⟨htopic, hdigits⟩ := Prod.mk.inj hpair
  refine ⟨htopic, ?_⟩
  calc n = Nat.ofDigitChars 10 (Nat.toDigits 10 n) 0 := Nat.ofDigitChars_ten_toDigits.symm
    _ = Nat.ofDigitChars 10 (Nat.toDigits 10 m) 0 := by rw [hdigits]
    _ = m := Nat.ofDigitChars_ten_toDigits

theorem legacyRevision_eq : legacyRevision = revisionOf "legacy".toList 0 := by decide

/-- A log starts with a new topic, or with a row based on nothing. -/
def First (r : StatusRecord) : Prop :=
  (r.sequence = 0 ∧ r.baseRevision = none) ∨
    (r.sequence = 1 ∧ r.baseRevision = some legacyRevision)

/-- The row that follows another is the next of its topic and is based on it. -/
structure Follows (r r' : StatusRecord) : Prop where
  topic : r'.topicId = r.topicId
  sequence : r'.sequence = r.sequence + 1
  base : r'.baseRevision = some r.revision

structure Chain (rows : List StatusRecord) : Prop where
  first : ∀ r ∈ rows.head?, First r
  linked : rows.IsChain Follows

theorem madeAfter_nil {record : StatusRecord} (h : MadeAfter crates a [] record) :
    First record := by
  obtain ⟨torn, completeLen, len, bytesRead, hmade⟩ := h
  have hplace := Prod.mk.inj (Except.ok.inj hmade.place)
  have hcurrent : a.args.expectedRevision = legacyRevision := hmade.current
  refine .inr ⟨hplace.2.symm, ?_⟩
  rw [hmade.fields, ← hcurrent]
  rfl

theorem madeAfter_concat {before : List StatusRecord} {last record : StatusRecord}
    (h : MadeAfter crates a (before ++ [last]) record) : Follows last record := by
  obtain ⟨torn, completeLen, len, bytesRead, hmade⟩ := h
  have hlast : (tailOf (before ++ [last]) torn completeLen len bytesRead).record = some last := by
    simp [tailOf]
  have hplace := hmade.place
  have hcurrent := hmade.current
  rw [nextPlace, hlast] at hplace
  simp only at hplace
  split_ifs at hplace with hfull
  obtain ⟨htopic, hsequence⟩ := Prod.mk.inj (Except.ok.inj hplace)
  rw [StatusTail.revision, hlast, Option.elim_some] at hcurrent
  refine ⟨htopic.symm, hsequence.symm, ?_⟩
  rw [hmade.fields, ← hcurrent]
  rfl

theorem Chain.grow (h : Chain rows) {record : StatusRecord}
    (hmade : MadeAfter crates a rows record) : Chain (rows ++ [record]) := by
  cases List.eq_nil_or_concat' rows with
  | inl hnil =>
    rw [hnil] at hmade ⊢
    exact ⟨fun r hr => (Option.some.inj hr) ▸ madeAfter_nil hmade, .singleton _⟩
  | inr hconcat =>
    obtain ⟨before, last, rfl⟩ := hconcat
    have hfollows := madeAfter_concat hmade
    refine ⟨fun r hr => h.first r (by simpa using hr), ?_⟩
    rw [List.isChain_append]
    refine ⟨h.linked, .singleton _, fun x hx y hy => ?_⟩
    have hlast : x = last := by simpa using hx.symm
    have hnew : y = record := by simpa using hy.symm
    rw [hlast, hnew]
    exact hfollows

def Precedes (r r' : StatusRecord) : Prop := r'.topicId = r.topicId ∧ r.sequence < r'.sequence

/-- Later rows are of the same topic and have higher sequences. -/
theorem Chain.pairwise (h : Chain rows) : rows.Pairwise Precedes := by
  have hlinked : rows.IsChain Precedes :=
    h.linked.imp fun r r' hfollows => ⟨hfollows.topic, by have := hfollows.sequence; omega⟩
  have htrans : Trans Precedes Precedes Precedes :=
    ⟨fun h h' => ⟨h'.1.trans h.1, h.2.trans h'.2⟩⟩
  exact List.isChain_iff_pairwise.mp hlinked

/-- A row of a chain is based on the row before it, if there is one. -/
def Placed (r : StatusRecord) : Prop :=
  First r ∨ 0 < r.sequence ∧ r.baseRevision = some (revisionOf r.topicId (r.sequence - 1))

theorem Chain.placed (h : Chain rows) : ∀ r ∈ rows, Placed r := by
  induction rows using List.reverseRecOn with
  | nil => simp
  | append_singleton before last ih =>
    have hbefore : Chain before := by
      refine ⟨fun r hr => h.first r ?_, (List.isChain_append.mp h.linked).1⟩
      cases before with
      | nil => cases hr
      | cons first rest => exact hr
    intro r hr
    rcases List.mem_append.mp hr with hmem | hmem
    · exact ih hbefore r hmem
    · rw [List.mem_singleton.mp hmem]
      cases List.eq_nil_or_concat' before with
      | inl hnil =>
        rw [hnil] at h
        exact .inl (h.first last rfl)
      | inr hconcat =>
        obtain ⟨init, previous, rfl⟩ := hconcat
        have hfollows : Follows previous last :=
          (List.isChain_append.mp h.linked).2.2 previous (by simp) last rfl
        have hsequence := hfollows.sequence
        refine .inr ⟨by omega, ?_⟩
        rw [hfollows.base, StatusRecord.revision, hfollows.topic, hsequence, Nat.add_sub_cancel]

/-- No two rows of a chain are based on the same revision. -/
theorem Chain.bases (h : Chain rows) :
    rows.Pairwise fun r r' => r.baseRevision ≠ r'.baseRevision := by
  refine h.pairwise.imp_of_mem fun {r r'} hr hr' hless hbase => ?_
  have hlegacy := legacyRevision_eq
  obtain ⟨-, hless⟩ := hless
  rcases h.placed r' hr' with (⟨hzero, -⟩ | ⟨hone, hbase'⟩) | ⟨hpos, hbase'⟩
  · omega
  · rw [hbase'] at hbase
    rcases h.placed r hr with (⟨-, hnone⟩ | ⟨hseq, -⟩) | ⟨hseq, -⟩
    · rw [hnone] at hbase
      cases hbase
    · omega
    · omega
  · rw [hbase'] at hbase
    rcases h.placed r hr with (⟨-, hnone⟩ | ⟨hseq, hsome⟩) | ⟨hseq, hsome⟩
    · rw [hnone] at hbase
      cases hbase
    · rw [hsome, hlegacy] at hbase
      have := (revisionOf_injective (Option.some.inj hbase)).2
      omega
    · rw [hsome] at hbase
      have := (revisionOf_injective (Option.some.inj hbase)).2
      omega

theorem Chain.revisions (h : Chain rows) : (rows.map StatusRecord.revision).Nodup := by
  rw [List.Nodup, List.pairwise_map]
  refine h.pairwise.imp fun {r r'} hless heq => ?_
  have hless := hless.2
  have := (revisionOf_injective heq).2
  omega

end AgentsCommander.Tasks
