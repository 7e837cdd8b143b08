import AgentsCommander.Loops.Discipline

/-! A scan-side commit is one compare-and-swap with its audit row. -/
namespace AgentsCommander.Loops
open Foundation

/-- What the history says of the commits: a scan-side write finds the generation and the
bytes its scan read; a commit that finds others writes nothing; a row follows its own
commit's state; and no row is there twice. -/
structure CommitLaw (s : System) : Prop where
  fresh : ∀ commit read now, .stateWritten commit true read now ∈ s.trace.history →
    read = some now
  stale : ∀ n read now, .entered n read now ∈ s.trace.history → read ≠ some now →
    ∀ e ∈ s.trace.history, e.commit? ≠ some n
  backed : ∀ commit row earlier, .auditWritten commit row :: earlier <:+ s.trace.history →
    ∃ n scanSide read now, commit = some n ∧ .stateWritten (some n) scanSide read now ∈ earlier
  written : ∀ row ∈ s.world.rows, ∃ commit, .auditWritten commit row ∈ s.trace.history
  nodup : (s.world.rows.map LoopAuditEntry.key).Nodup

structure CommitInv (s : System) : Prop extends CommitLaw s where
  cliFree : CliFree s.world
  numbered : ∀ n read now, .entered n read now ∈ s.trace.history → n < s.trace.entered
  writes : ∀ e ∈ s.trace.history, ∀ n, e.commit? = some n → n < s.trace.entered
  unique : ∀ n read now read' now', .entered n read now ∈ s.trace.history →
    .entered n read' now' ∈ s.trace.history → read = read' ∧ now = now'

/-- The thread may write the state. -/
structure Writes (t : Thread) (s : System) : Prop where
  scanSide : s.world.scanLock = some t → s.trace.snapshot t = some s.world.reading
  commit : ∀ n, s.trace.commit t = some n →
    .entered n (some s.world.reading) s.world.reading ∈ s.trace.history

/-- The thread may write the row. -/
structure Appends (t : Thread) (entry : LoopAuditEntry) (s : System) : Prop where
  commit : ∃ n, s.trace.commit t = some n ∧
    (∃ now, .entered n (some now) now ∈ s.trace.history) ∧
    ∃ scanSide read now, .stateWritten (some n) scanSide read now ∈ s.trace.history
  absent : ∀ row ∈ s.world.rows, row.key ≠ entry.key

structure CommitAllowed (t : Thread) (o : Act) (s : System) : Prop where
  disciplined : Disciplined t o s.world
  writes : ∀ f bytes, o = .replace f bytes → f ≠ .config → Writes t s
  appends : ∀ entry, o = .appendLine entry → Appends t entry s

/-- Events that tell nothing of a commit. -/
def Event.Plain : Event → Prop
  | .entered _ _ _ | .stateWritten _ _ _ _ | .auditWritten _ _ => False
  | _ => True

/-- What one action adds to the history of commits. -/
inductive CommitStep (t : Thread) (o : Act) (s s' : System) : Prop
  | plain (es : List Event) : (∀ e ∈ es, e.Plain) →
      s'.trace.history = es ++ s.trace.history → s'.trace.entered = s.trace.entered →
      s'.world.rows.Sublist s.world.rows → CommitStep t o s s'
  | entered : s'.trace.history =
        .entered s.trace.entered (s.trace.snapshot t) s.world.reading :: s.trace.history →
      s'.trace.entered = s.trace.entered + 1 → s'.world.rows = s.world.rows → CommitStep t o s s'
  | stateWritten (f : LoopFile) (bytes : Bytes) : o = .replace f bytes → f ≠ .config →
      s'.trace.history = .stateWritten (s.trace.commit t) (s.world.scanLock = some t)
        (s.trace.snapshot t) s.world.reading :: s.trace.history →
      s'.trace.entered = s.trace.entered → s'.world.rows = s.world.rows → CommitStep t o s s'
  | auditWritten (entry : LoopAuditEntry) : o = .appendLine entry →
      s'.trace.history = .auditWritten (s.trace.commit t) entry :: s.trace.history →
      s'.trace.entered = s.trace.entered →
      s'.world.rows.Sublist (s.world.rows ++ [entry]) → CommitStep t o s s'

theorem AuditFile.rows_add (file : AuditFile) (line : AuditLine) :
    (file.add line).rows.Sublist (file.rows ++ line.entry.toList) := by
  unfold AuditFile.add
  split
  · rename_i last _ _
    have hd : (file.lines.dropLast.filterMap AuditLine.entry).Sublist file.rows :=
      (List.dropLast_sublist _).filterMap _
    have hm : (file.lines.dropLast ++ [AuditLine.malformed (last.utf8 && line.utf8)]).filterMap
        AuditLine.entry = file.lines.dropLast.filterMap AuditLine.entry := by
      simp [List.filterMap_append, AuditLine.entry]
    simp only [AuditFile.rows, hm]
    exact hd.trans (List.sublist_append_left _ _)
  · have hl : [line].filterMap AuditLine.entry = line.entry.toList := by
      cases line <;> rfl
    simp only [AuditFile.rows, List.filterMap_append, hl]
    exact List.Sublist.refl _

private theorem rows_some (w : World) (d : LoopDirectory) :
    { w with disk := some d }.rows = (d.audit.map AuditFile.rows).getD [] := rfl

private theorem rows_change {w : World} {x : Choice} {f : LoopDirectory → LoopDirectory}
    (hf : ∀ d, (f d).audit.map AuditFile.rows = d.audit.map AuditFile.rows) :
    (w.change x f).2.rows = w.rows := by
  obtain h | ⟨d, hd, h⟩ := change_world w x f
  · rw [h]
  · rw [h, rows_some, hf]
    simp [World.rows, hd]

private theorem audit_put (d : LoopDirectory) (bytes : Bytes) (f : LoopFile) :
    (d.put bytes f).audit = d.audit := by cases f <;> rfl

private theorem rows_remains (d : LoopDirectory) (c s l a : Bool) :
    (((d.remains c s l a).audit.map AuditFile.rows).getD []).Sublist
      ((d.audit.map AuditFile.rows).getD []) := by
  cases a with
  | true => exact List.Sublist.refl _
  | false => exact List.nil_sublist _

private theorem rows_removeDirectory (w : World) (x : Choice) :
    (w.removeDirectory x).2.rows.Sublist w.rows := by
  unfold World.removeDirectory
  split
  · exact List.Sublist.refl _
  · exact List.Sublist.refl _
  · rename_i c s l a d hd
    have hw : w.rows = (d.audit.map AuditFile.rows).getD [] := by simp [World.rows, hd]
    rw [hw]
    exact rows_remains d c s l a
  · exact List.nil_sublist _

private theorem rows_createDirectory (w : World) (x : Choice) :
    (w.createDirectory x).2.rows = w.rows := by
  unfold World.createDirectory
  split_ifs with hx
  · rfl
  · cases hd : w.disk with
    | none => simp [World.rows, hd]
    | some d => simp [World.rows, hd]

private theorem rows_moveLegacyState (w : World) (x : Choice) :
    (w.moveLegacyState x).rows = w.rows := by
  unfold World.moveLegacyState
  split
  · rfl
  · cases hd : w.disk <;> simp [World.rows, hd, LoopDirectory.linked]
  · cases hd : w.disk <;> simp [World.rows, hd, LoopDirectory.migrated]

private theorem rows_appendLine (w : World) (entry : LoopAuditEntry) (x : Choice) :
    (w.appendLine entry x).2.rows.Sublist (w.rows ++ [entry]) := by
  unfold World.appendLine
  split
  · exact List.sublist_append_left _ _
  · exact List.sublist_append_left _ _
  · rename_i utf8 d hd
    have h := AuditFile.rows_add (d.audit.getD {}) (.malformed utf8)
    have hw : w.rows = (d.audit.getD {}).rows := by
      cases ha : d.audit <;> simp [World.rows, hd, ha, AuditFile.rows]
    rw [hw]
    simp only [AuditLine.entry, Option.toList_none, List.append_nil] at h
    exact h.trans (List.sublist_append_left _ _)
  · rename_i d _ _ hd
    have h := AuditFile.rows_add (d.audit.getD {}) (.row entry)
    have hw : w.rows = (d.audit.getD {}).rows := by
      cases ha : d.audit <;> simp [World.rows, hd, ha, AuditFile.rows]
    rw [hw]
    exact h

/-- Only appending a line adds a row. -/
theorem rows_of_act {t : Thread} {o : Act} {x : Choice} {w w' : World} {r : o.Res}
    (h : w.act t o x = some (r, w')) (ho : ∀ entry, o ≠ .appendLine entry) :
    w'.rows.Sublist w.rows := by
  cases hd : o.changesDisk with
  | false =>
    have hw : w'.rows = w.rows := by simp only [World.rows, (worldStep h).disk hd]
    exact hw ▸ List.Sublist.refl _
  | true =>
    cases o with
    | createDirectory =>
      rw [← world_eq h, rows_createDirectory]
    | removeDirectory =>
      rw [← world_eq h]
      exact rows_removeDirectory w x
    | moveLegacyState =>
      rw [← world_eq h, rows_moveLegacyState]
    | replace f bytes =>
      rw [← world_eq h, rows_change fun d => congrArg _ (audit_put d bytes f)]
    | appendNewline =>
      rw [← world_eq h, World.appendNewline, rows_change fun d => by cases d.audit <;> rfl]
    | appendLine entry => exact absurd rfl (ho entry)
    | _ => exact absurd hd nofun

private theorem commitStep_note {t : Thread} {n : Note} {x : Choice} {s s' : System}
    {r : (Act.note n).Res} (h : s.act t (.note n) x = some (r, s')) :
    CommitStep t (.note n) s s' := by
  obtain ⟨hw, htr⟩ := act_eq h
  rw [Trace.observe_note] at htr
  have hr : s'.world = s.world := (world_eq hw).symm
  have hrows : s'.world.rows.Sublist s.world.rows := hr ▸ List.Sublist.refl _
  cases n with
  | commitEntered =>
    refine .entered ?_ ?_ (by rw [hr])
    · rw [htr]
      simp only [Trace.noted, Trace.history_keepUndisturbed, Trace.entered_keepUndisturbed,
        Trace.snapshot_keepUndisturbed]
    · rw [htr]
      simp only [Trace.noted, Trace.entered_keepUndisturbed]
  | snapshot generation raw =>
    refine .plain [] (List.forall_mem_nil _) ?_ ?_ hrows <;> rw [htr] <;> rfl
  | commitLeft => refine .plain [] (List.forall_mem_nil _) ?_ ?_ hrows <;> rw [htr] <;> rfl
  | prepared after => refine .plain [] (List.forall_mem_nil _) ?_ ?_ hrows <;> rw [htr] <;> rfl
  | reportApplied config generation raw failed =>
    refine .plain [] (List.forall_mem_nil _) ?_ ?_ hrows <;>
    · rw [htr]
      simp only [Trace.noted, Trace.reported]
      split <;> rfl

private theorem commitStep_replace {t : Thread} {f : LoopFile} {bytes : Bytes} {x : Choice}
    {s s' : System} {r : (Act.replace f bytes).Res}
    (h : s.act t (.replace f bytes) x = some (r, s')) : CommitStep t (.replace f bytes) s s' := by
  obtain ⟨hw, htr⟩ := act_eq h
  have hrows : s'.world.rows = s.world.rows := by
    rw [← world_eq hw]
    exact rows_change fun d => congrArg _ (audit_put d bytes f)
  have hsub : s'.world.rows.Sublist s.world.rows := hrows ▸ List.Sublist.refl _
  cases r with
  | error e => cases f <;> refine .plain [] (List.forall_mem_nil _) ?_ ?_ hsub <;> rw [htr] <;> rfl
  | ok u =>
    cases f with
    | config => refine .plain [] (List.forall_mem_nil _) ?_ ?_ hsub <;> rw [htr] <;> rfl
    | state =>
      rw [Trace.observe_state] at htr
      refine .stateWritten .state bytes rfl (by decide) ?_ ?_ hrows <;> rw [htr] <;> rfl
    | legacyState =>
      rw [Trace.observe_legacyState] at htr
      refine .stateWritten .legacyState bytes rfl (by decide) ?_ ?_ hrows <;> rw [htr] <;> rfl

private theorem commitStep_appendLine {t : Thread} {entry : LoopAuditEntry} {x : Choice}
    {s s' : System} {r : (Act.appendLine entry).Res}
    (h : s.act t (.appendLine entry) x = some (r, s')) :
    CommitStep t (.appendLine entry) s s' := by
  obtain ⟨hw, htr⟩ := act_eq h
  rw [Trace.observe_appendLine] at htr
  have hrows : s'.world.rows.Sublist (s.world.rows ++ [entry]) := by
    rw [← world_eq hw]
    exact rows_appendLine s.world entry x
  split_ifs at htr with hd
  · have hsame : s'.world.rows = s.world.rows := by simp only [World.rows, hd]
    refine .plain [] (List.forall_mem_nil _) ?_ ?_ (hsame ▸ List.Sublist.refl _) <;> rw [htr] <;> rfl
  · refine .auditWritten entry rfl ?_ ?_ hrows <;> rw [htr] <;> rfl

theorem commitStep {t : Thread} {o : Act} {x : Choice} {s s' : System} {r : o.Res}
    (h : s.act t o x = some (r, s')) : CommitStep t o s s' := by
  obtain ⟨hw, htr⟩ := act_eq h
  cases o with
  | note n => exact commitStep_note h
  | replace f bytes => exact commitStep_replace h
  | appendLine entry => exact commitStep_appendLine h
  | deliver origin config runId dueAt =>
    refine .plain (((s.trace.keepUndisturbed s.world s'.world none).outstanding.filter
      fun d => origin = .scan ∧ d.dueAt = dueAt).map .redelivered ++
        [.delivered origin runId dueAt (LoopDeliveryReport.kind r)]) ?_ ?_ ?_
        (rows_of_act hw (fun _ => Act.noConfusion))
    · intro e he
      simp only [List.mem_append, List.mem_map, List.mem_singleton] at he
      rcases he with ⟨d, -, rfl⟩ | rfl <;> trivial
    · rw [htr, List.append_assoc]
      rfl
    · rw [htr]
      rfl
  | emit kind message =>
    refine .plain [.emitted kind] (by simp [Event.Plain]) ?_ ?_
      (rows_of_act hw (fun _ => Act.noConfusion)) <;> rw [htr] <;> rfl
  | _ =>
    refine .plain [] (List.forall_mem_nil _) ?_ ?_
      (rows_of_act hw (fun _ => Act.noConfusion)) <;> rw [htr] <;> rfl

theorem Event.Plain.commit? {e : Event} (h : e.Plain) : e.commit? = none := by
  cases e <;> first | rfl | exact absurd h id

private theorem suffix_of_plain {es hist earlier : List Event} {e : Event}
    (hes : ∀ e ∈ es, e.Plain) (he : ¬ e.Plain) (h : e :: earlier <:+ es ++ hist) :
    e :: earlier <:+ hist := by
  induction es with
  | nil => exact h
  | cons f es ih =>
    rcases List.suffix_cons_iff.mp h with heq | hs
    · obtain ⟨rfl, -⟩ := List.cons.inj heq
      exact absurd (hes e List.mem_cons_self) he
    · exact ih (fun e he => hes e (List.mem_cons_of_mem f he)) hs

private theorem mem_of_plain {es hist : List Event} {e : Event} (hes : ∀ e ∈ es, e.Plain)
    (he : ¬ e.Plain) (h : e ∈ es ++ hist) : e ∈ hist :=
  (List.mem_append.mp h).resolve_left fun hm => he (hes e hm)

private theorem commitInv_plain {s s' : System} (hi : CommitInv s) (hc : CliFree s'.world)
    {es : List Event} (hes : ∀ e ∈ es, e.Plain)
    (hh : s'.trace.history = es ++ s.trace.history) (he : s'.trace.entered = s.trace.entered)
    (hr : s'.world.rows.Sublist s.world.rows) : CommitInv s' where
  fresh commit read now h := hi.fresh commit read now (mem_of_plain hes id (hh ▸ h))
  stale n read now h hne e hmem := by
    rw [hh] at h hmem
    rcases List.mem_append.mp hmem with hp | hm
    · rw [(hes e hp).commit?]
      exact nofun
    · exact hi.stale n read now (mem_of_plain hes id h) hne e hm
  backed commit row earlier h := hi.backed commit row earlier (suffix_of_plain hes id (hh ▸ h))
  written row hrow := by
    obtain ⟨commit, hm⟩ := hi.written row (hr.subset hrow)
    exact ⟨commit, hh ▸ List.mem_append_right es hm⟩
  nodup := (hr.map _).nodup hi.nodup
  cliFree := hc
  numbered n read now h := he ▸ hi.numbered n read now (mem_of_plain hes id (hh ▸ h))
  writes e hmem n hn := by
    rw [hh] at hmem
    rcases List.mem_append.mp hmem with hp | hm
    · rw [(hes e hp).commit?] at hn
      cases hn
    · exact he ▸ hi.writes e hm n hn
  unique n read now read' now' h h' :=
    hi.unique n read now read' now' (mem_of_plain hes id (hh ▸ h)) (mem_of_plain hes id (hh ▸ h'))

private theorem commitInv_entered {s s' : System} (hi : CommitInv s) (hc : CliFree s'.world)
    {read : Option Reading} {now : Reading}
    (hh : s'.trace.history = .entered s.trace.entered read now :: s.trace.history)
    (he : s'.trace.entered = s.trace.entered + 1) (hr : s'.world.rows = s.world.rows) :
    CommitInv s' where
  fresh commit read now h := by
    rw [hh] at h
    exact hi.fresh commit read now ((List.mem_cons.mp h).resolve_left nofun)
  stale n read now h hne e hmem := by
    rw [hh] at h hmem
    rcases List.mem_cons.mp h with heq | h
    · obtain ⟨rfl, rfl, rfl⟩ := Event.entered.inj heq
      rcases List.mem_cons.mp hmem with rfl | hm
      · exact nofun
      · exact fun hn => absurd (hi.writes e hm _ hn) (lt_irrefl _)
    · rcases List.mem_cons.mp hmem with rfl | hm
      · exact nofun
      · exact hi.stale n read now h hne e hm
  backed commit row earlier h := by
    rw [hh] at h
    rcases List.suffix_cons_iff.mp h with heq | hs
    · exact absurd (List.cons.inj heq).1 nofun
    · exact hi.backed commit row earlier hs
  written row hrow := by
    obtain ⟨commit, hm⟩ := hi.written row (hr ▸ hrow)
    exact ⟨commit, hh ▸ List.mem_cons_of_mem _ hm⟩
  nodup := by
    rw [hr]
    exact hi.nodup
  cliFree := hc
  numbered n read now h := by
    rw [hh] at h
    rw [he]
    rcases List.mem_cons.mp h with heq | h
    · obtain ⟨rfl, -, -⟩ := Event.entered.inj heq
      exact Nat.lt_succ_self _
    · exact Nat.lt_succ_of_lt (hi.numbered n read now h)
  writes e hmem n hn := by
    rw [hh] at hmem
    rw [he]
    rcases List.mem_cons.mp hmem with rfl | hm
    · cases hn
    · exact Nat.lt_succ_of_lt (hi.writes e hm n hn)
  unique n read now read' now' h h' := by
    rw [hh] at h h'
    rcases List.mem_cons.mp h with heq | h <;> rcases List.mem_cons.mp h' with heq' | h'
    · obtain ⟨-, rfl, rfl⟩ := Event.entered.inj heq
      obtain ⟨-, rfl, rfl⟩ := Event.entered.inj heq'
      exact ⟨rfl, rfl⟩
    · obtain ⟨rfl, -, -⟩ := Event.entered.inj heq
      exact absurd (hi.numbered _ _ _ h') (lt_irrefl _)
    · obtain ⟨rfl, -, -⟩ := Event.entered.inj heq'
      exact absurd (hi.numbered _ _ _ h) (lt_irrefl _)
    · exact hi.unique n read now read' now' h h'

/-- A write by a commit that entered with what its scan read. -/
private theorem stale_cons {s : System} (hi : CommitInv s) {w : Event}
    (hw : ∀ n read now, w ≠ .entered n read now)
    (hc : ∀ n, w.commit? = some n → ∃ now, .entered n (some now) now ∈ s.trace.history)
    (n : ℕ) (read : Option Reading) (now : Reading)
    (h : .entered n read now ∈ w :: s.trace.history) (hne : read ≠ some now) :
    ∀ e ∈ w :: s.trace.history, e.commit? ≠ some n := by
  intro e hmem
  have hold := (List.mem_cons.mp h).resolve_left (hw n read now).symm
  rcases List.mem_cons.mp hmem with rfl | hm
  · intro hn
    obtain ⟨now', hent⟩ := hc n hn
    obtain ⟨rfl, rfl⟩ := hi.unique n _ _ _ _ hold hent
    exact hne rfl
  · exact hi.stale n read now hold hne e hm

private theorem commitInv_stateWritten {t : Thread} {s s' : System} (hi : CommitInv s)
    (hc : CliFree s'.world) (hw : Writes t s)
    (hh : s'.trace.history = .stateWritten (s.trace.commit t) (s.world.scanLock = some t)
      (s.trace.snapshot t) s.world.reading :: s.trace.history)
    (he : s'.trace.entered = s.trace.entered) (hr : s'.world.rows = s.world.rows) :
    CommitInv s' where
  fresh commit read now h := by
    rw [hh] at h
    rcases List.mem_cons.mp h with heq | h
    · obtain ⟨-, hs, rfl, rfl⟩ := Event.stateWritten.inj heq
      exact hw.scanSide (of_decide_eq_true hs.symm)
    · exact hi.fresh commit read now h
  stale := by
    rw [hh]
    exact stale_cons hi (fun _ _ _ => nofun) fun n hn => ⟨_, hw.commit n hn⟩
  backed commit row earlier h := by
    rw [hh] at h
    rcases List.suffix_cons_iff.mp h with heq | hs
    · exact absurd (List.cons.inj heq).1 nofun
    · exact hi.backed commit row earlier hs
  written row hrow := by
    obtain ⟨commit, hm⟩ := hi.written row (hr ▸ hrow)
    exact ⟨commit, hh ▸ List.mem_cons_of_mem _ hm⟩
  nodup := by
    rw [hr]
    exact hi.nodup
  cliFree := hc
  numbered n read now h := by
    rw [hh] at h
    exact he ▸ hi.numbered n read now ((List.mem_cons.mp h).resolve_left nofun)
  writes e hmem n hn := by
    rw [hh] at hmem
    rw [he]
    rcases List.mem_cons.mp hmem with rfl | hm
    · exact hi.numbered n _ _ (hw.commit n hn)
    · exact hi.writes e hm n hn
  unique n read now read' now' h h' := by
    rw [hh] at h h'
    exact hi.unique n read now read' now' ((List.mem_cons.mp h).resolve_left nofun)
      ((List.mem_cons.mp h').resolve_left nofun)

private theorem commitInv_auditWritten {t : Thread} {entry : LoopAuditEntry} {s s' : System}
    (hi : CommitInv s) (hc : CliFree s'.world) (ha : Appends t entry s)
    (hh : s'.trace.history = .auditWritten (s.trace.commit t) entry :: s.trace.history)
    (he : s'.trace.entered = s.trace.entered)
    (hr : s'.world.rows.Sublist (s.world.rows ++ [entry])) : CommitInv s' := by
  obtain ⟨n, hn, ⟨now, hent⟩, scanSide, read, now', hwrote⟩ := ha.commit
  rw [hn] at hh
  exact {
    fresh := fun commit read now h => by
      rw [hh] at h
      exact hi.fresh commit read now ((List.mem_cons.mp h).resolve_left nofun)
    stale := by
      rw [hh]
      refine stale_cons hi (fun _ _ _ => nofun) fun m hm => ?_
      obtain rfl := Option.some.inj hm
      exact ⟨now, hent⟩
    backed := fun commit row earlier h => by
      rw [hh] at h
      rcases List.suffix_cons_iff.mp h with heq | hs
      · obtain ⟨he, rfl⟩ := List.cons.inj heq
        obtain ⟨rfl, -⟩ := Event.auditWritten.inj he
        exact ⟨n, scanSide, read, now', rfl, hwrote⟩
      · exact hi.backed commit row earlier hs
    written := fun row hrow => by
      rw [hh]
      rcases List.mem_append.mp (hr.subset hrow) with hm | hm
      · obtain ⟨commit, hm⟩ := hi.written row hm
        exact ⟨commit, List.mem_cons_of_mem _ hm⟩
      · obtain rfl := List.mem_singleton.mp hm
        exact ⟨some n, List.mem_cons_self⟩
    nodup := by
      refine (hr.map _).nodup ?_
      rw [List.map_append]
      refine hi.nodup.append (List.nodup_singleton _) ?_
      intro key hk hk'
      obtain ⟨row, hrow, rfl⟩ := List.mem_map.mp hk
      exact ha.absent row hrow (List.mem_singleton.mp hk')
    cliFree := hc
    numbered := fun n read now h => by
      rw [hh] at h
      exact he ▸ hi.numbered n read now ((List.mem_cons.mp h).resolve_left nofun)
    writes := fun e hmem m hm => by
      rw [hh] at hmem
      rw [he]
      rcases List.mem_cons.mp hmem with rfl | hmem
      · obtain rfl := Option.some.inj hm
        exact hi.numbered _ _ _ hent
      · exact hi.writes e hmem m hm
    unique := fun n read now read' now' h h' => by
      rw [hh] at h h'
      exact hi.unique n read now read' now' ((List.mem_cons.mp h).resolve_left nofun)
        ((List.mem_cons.mp h').resolve_left nofun) }

/-- Each action keeps the invariant. -/
theorem commitInv_act {t : Thread} {o : Act} {x : Choice} {s s' : System} {r : o.Res}
    (hi : CommitInv s) (ha : CommitAllowed t o s) (h : s.act t o x = some (r, s')) :
    CommitInv s' := by
  have hc := cliFree_of_act ha.disciplined (act_eq h).1 hi.cliFree
  cases commitStep h with
  | plain es hes hh he hr => exact commitInv_plain hi hc hes hh he hr
  | entered hh he hr => exact commitInv_entered hi hc hh he hr
  | stateWritten f bytes ho hf hh he hr =>
    exact commitInv_stateWritten hi hc (ha.writes f bytes ho hf) hh he hr
  | auditWritten entry ho hh he hr =>
    exact commitInv_auditWritten hi hc (ha.appends entry ho) hh he hr

theorem commitInv_kill {dead : Thread → Bool} {s : System} (hi : CommitInv s) :
    CommitInv (s.kill dead) :=
  have hplain : ∀ e ∈ ([] : List Event), e.Plain := List.forall_mem_nil _
  commitInv_plain hi (cliFree_of_kill hi.cliFree) hplain rfl rfl (List.Sublist.refl _)

end AgentsCommander.Loops
