import AgentsCommander.AgentUpdate.InstallTickets
import Mathlib.Data.List.Induction

/-! Where the states that are served and announced come from. -/
namespace AgentsCommander.AgentUpdate
open Foundation

/-- The probe runs for the command, and nothing has been invalidated since it started. -/
def StartedSince (es : List InstallEvent) (probe : ℕ) (command : String) : Prop :=
  ∃ before task between, es = before ++ .startProbe task :: between ∧
    installCache.answer (installCache.run .new before) (.startProbe task) =
      .started command probe ∧ .invalidateAll ∉ between

/-- The probe ended with this state, and nothing has been invalidated since it started. -/
def ProbedSince (es : List InstallEvent) (probe : ℕ) (command : String) (state : InstallState) :
    Prop :=
  ∃ before task between, es = before ++ .probeEnds task state :: between ∧
    StartedSince before probe command ∧
    installCache.answer (installCache.run .new before) (.probeEnds task state) =
      .probeEnded probe state ∧ .invalidateAll ∉ between

/-- A probe that was still good at its commit left this state. -/
def Produced (es : List InstallEvent) (command : String) (install : InstallState) : Prop :=
  ∃ before task now after probe state, es = before ++ .complete task now :: after ∧
    ProbedSince before probe command state ∧
    installCache.answer (installCache.run .new before) (.complete task now) =
      .completion command probe (.committed install) ∧ install = { state with seq := install.seq }

namespace InstallAnswer

/-- The state was given out for the command. -/
def serves : InstallAnswer → Option (String × InstallState)
  | .lookup command (.fresh state) | .scheduling command (.fresh state)
  | .announced command state => some (command, state)
  | _ => none

def committedSeq : InstallAnswer → Option ℕ
  | .completion _ _ (.committed install) => some install.seq
  | _ => none

end InstallAnswer

theorem StartedSince.concat {es : List InstallEvent} {probe : ℕ} {command : String}
    {e : InstallEvent} (h : StartedSince es probe command) (he : e ≠ .invalidateAll) :
    StartedSince (es ++ [e]) probe command := by
  obtain ⟨before, task, between, rfl, ha, hn⟩ := h
  refine ⟨before, task, between ++ [e], ?_, ha, ?_⟩
  · rw [List.append_assoc, List.cons_append]
  · rw [List.mem_append, List.mem_singleton]
    exact fun h => h.elim hn (Ne.symm he)

theorem ProbedSince.concat {es : List InstallEvent} {probe : ℕ} {command : String}
    {state : InstallState} {e : InstallEvent} (h : ProbedSince es probe command state)
    (he : e ≠ .invalidateAll) : ProbedSince (es ++ [e]) probe command state := by
  obtain ⟨before, task, between, rfl, hs, ha, hn⟩ := h
  refine ⟨before, task, between ++ [e], ?_, hs, ha, ?_⟩
  · rw [List.append_assoc, List.cons_append]
  · rw [List.mem_append, List.mem_singleton]
    exact fun h => h.elim hn (Ne.symm he)

theorem Produced.concat {es : List InstallEvent} {command : String} {install : InstallState}
    (h : Produced es command install) (e : InstallEvent) : Produced (es ++ [e]) command install := by
  obtain ⟨before, task, now, after, probe, state, rfl, hp, ha, hi⟩ := h
  refine ⟨before, task, now, after ++ [e], probe, state, ?_, hp, ha, hi⟩
  rw [List.append_assoc, List.cons_append]

/-- Where a task stands is accounted for by the events that led there. -/
def Accounted (es : List InstallEvent) (generation : ℕ) : ProbeTask → Prop
  | .committed command install => Produced es command install
  | .probing _ probe ticket =>
    generation = ticket.generation → StartedSince es probe ticket.command
  | .probed _ probe ticket state =>
    generation = ticket.generation → ProbedSince es probe ticket.command state
  | .holds .. | .abandoned _ | .ended => True

structure Provenance (es : List InstallEvent) (w : InstallWorld) : Prop where
  entries : ∀ command entry, w.inner.entries command = some entry →
    Produced es command entry.state
  tasks : ∀ (task : ℕ) (current : ProbeTask), w.tasks[task]? = some current →
    Accounted es w.inner.generation current

theorem Accounted.concat {es : List InstallEvent} {generation : ℕ} {e : InstallEvent}
    (he : e ≠ .invalidateAll) {current : ProbeTask} (h : Accounted es generation current) :
    Accounted (es ++ [e]) generation current := by
  cases current with
  | committed command install => exact Produced.concat h e
  | probing retried probe ticket => exact fun hg => (h hg).concat he
  | probed retried probe ticket state => exact fun hg => (h hg).concat he
  | _ => trivial

theorem Accounted.invalidated {es : List InstallEvent} {generation : ℕ} {current : ProbeTask}
    (h : Accounted es generation current)
    (hle : ∀ ticket, current.ticket = some ticket → ticket.generation ≤ generation) :
    Accounted (es ++ [.invalidateAll]) (generation + 1) current := by
  cases current with
  | committed command install => exact Produced.concat h _
  | probing retried probe ticket => exact fun hg => absurd (hle ticket rfl) (by omega)
  | probed retried probe ticket state => exact fun hg => absurd (hle ticket rfl) (by omega)
  | _ => trivial

namespace CacheInner
variable {inner : CacheInner} {command : String} {entry : CachedInstall}

theorem entries_removeEntry {command' : String}
    (h : (inner.removeEntry command').entries command = some entry) :
    inner.entries command = some entry := by
  change Function.update inner.entries command' none command = some entry at h
  by_cases he : command = command'
  · rw [he, Function.update_self] at h
    cases h
  · rwa [Function.update_of_ne he] at h

theorem entry_of_freshEntry {now ttl : ℕ} {state : InstallState}
    (h : inner.freshEntry command now ttl = some state) :
    ∃ entry, inner.entries command = some entry ∧ entry.state = state := by
  unfold freshEntry at h
  split at h
  · rename_i entry he
    split_ifs at h
    exact ⟨entry, he, Option.some.inj h⟩
  · cases h

theorem entries_lookup {command' : String} {now ttl : ℕ}
    (h : (inner.lookup command' now ttl).1.entries command = some entry) :
    inner.entries command = some entry := by
  unfold lookup at h
  split at h
  · exact h
  · exact entries_removeEntry h

end CacheInner

namespace Provenance
variable {es : List InstallEvent} {w : InstallWorld} {task : ℕ}

theorem new : Provenance [] .new where
  entries _ _ h := nomatch h
  tasks _ _ h := nomatch h

/-- What a step adds is all that has to be accounted for. -/
theorem add (h : Provenance es w) {w' : InstallWorld} {e : InstallEvent}
    (he : e ≠ .invalidateAll) (hgen : w'.inner.generation = w.inner.generation)
    (hentries : ∀ command entry, w'.inner.entries command = some entry →
      w.inner.entries command = some entry ∨ Produced (es ++ [e]) command entry.state)
    (htasks : ∀ (other : ℕ) (current : ProbeTask), w'.tasks[other]? = some current →
      w.tasks[other]? = some current ∨ Accounted (es ++ [e]) w.inner.generation current) :
    Provenance (es ++ [e]) w' where
  entries command entry hentry := (hentries command entry hentry).elim
    (fun hentry => (h.entries command entry hentry).concat e) id
  tasks other current ht := by
    rw [hgen]
    exact (htasks other current ht).elim (fun ht => (h.tasks other current ht).concat he) id

theorem setTask (h : Provenance es w) (e : InstallEvent) (he : e ≠ .invalidateAll)
    {current next : ProbeTask} (ht : w.tasks[task]? = some current)
    (hnext : Accounted (es ++ [e]) w.inner.generation next) :
    Provenance (es ++ [e]) (w.setTask task next) := by
  refine h.add he rfl (fun _ _ hentry => Or.inl hentry) fun other found hfound => ?_
  rw [InstallWorld.tasks_setTask ht] at hfound
  split_ifs at hfound
  · exact Or.inr (Option.some.inj hfound ▸ hnext)
  · exact Or.inl hfound

theorem same (h : Provenance es w) {e : InstallEvent} (he : e ≠ .invalidateAll) :
    Provenance (es ++ [e]) w :=
  h.add he rfl (fun _ _ hentry => Or.inl hentry) fun _ _ ht => Or.inl ht

theorem lookup (h : Provenance es w) (command : String) (now ttl : ℕ) :
    Provenance (es ++ [.lookup command now ttl])
      (w.withInner (w.inner.lookup command now ttl).1) := by
  refine h.add nofun ?_ (fun _ _ hentry => Or.inl (CacheInner.entries_lookup hentry))
    fun _ _ ht => Or.inl ht
  show (w.inner.lookup command now ttl).1.generation = _
  unfold CacheInner.lookup
  split <;> rfl

theorem lookupOrBegin (h : Provenance es w) (command : String) (now ttl : ℕ) (mayBegin : Bool) :
    Provenance (es ++ [.lookupOrBegin command now ttl mayBegin])
      (w.lookupOrBegin command now ttl mayBegin).1 := by
  unfold InstallWorld.lookupOrBegin CacheInner.lookupOrBegin
  cases w.inner.freshEntry command now ttl with
  | some state => exact h.same nofun
  | none =>
    dsimp only
    split_ifs with hin hmay
    · exact h.add nofun rfl (fun _ _ hentry => Or.inl (CacheInner.entries_removeEntry hentry))
        fun _ _ ht => Or.inl ht
    · refine h.add nofun rfl (fun _ _ hentry => Or.inl (CacheInner.entries_removeEntry hentry))
        fun other current ht => ?_
      rw [InstallWorld.tasks_concat] at ht
      split_ifs at ht
      · cases ht
        exact Or.inr trivial
      · exact Or.inl ht
    · exact h.add nofun rfl (fun _ _ hentry => Or.inl (CacheInner.entries_removeEntry hentry))
        fun _ _ ht => Or.inl ht

theorem startProbe (h : Provenance es w) (hw : installCache.run .new es = w) (task : ℕ) :
    Provenance (es ++ [.startProbe task]) (w.startProbe task).1 := by
  cases ht : w.tasks[task]? with
  | none =>
    rw [InstallWorld.startProbe, ht]
    exact h.same nofun
  | some current =>
    cases current with
    | holds retried ticket =>
      have hstep : w.startProbe task =
          ({ w.setTask task (.probing retried w.probes ticket) with probes := w.probes + 1 },
            .started ticket.command w.probes) := by
        rw [InstallWorld.startProbe, ht]
      have hset : Provenance (es ++ [.startProbe task])
          (w.setTask task (.probing retried w.probes ticket)) :=
        h.setTask (.startProbe task) nofun ht fun _ =>
          ⟨es, task, [], rfl, by rw [hw]; exact congrArg Prod.snd hstep, nofun⟩
      rw [hstep]
      exact ⟨hset.entries, hset.tasks⟩
    | _ =>
      rw [InstallWorld.startProbe, ht]
      exact h.same nofun

theorem probeEnds (h : Provenance es w) (hw : installCache.run .new es = w) (task : ℕ)
    (state : InstallState) :
    Provenance (es ++ [.probeEnds task state]) (w.probeEnds task state).1 := by
  cases ht : w.tasks[task]? with
  | none =>
    rw [InstallWorld.probeEnds, ht]
    exact h.same nofun
  | some current =>
    cases current with
    | probing retried probe ticket =>
      have hstep : w.probeEnds task state =
          (w.setTask task (.probed retried probe ticket state), .probeEnded probe state) := by
        rw [InstallWorld.probeEnds, ht]
      rw [hstep]
      refine h.setTask (.probeEnds task state) nofun ht fun hg => ⟨es, task, [], rfl, h.tasks task _ ht hg, ?_, nofun⟩
      rw [hw]
      exact congrArg Prod.snd hstep
    | _ =>
      rw [InstallWorld.probeEnds, ht]
      exact h.same nofun

theorem complete (h : Provenance es w) (hw : installCache.run .new es = w) (task now : ℕ) :
    Provenance (es ++ [.complete task now]) (w.complete task now).1 := by
  cases ht : w.tasks[task]? with
  | none =>
    rw [InstallWorld.complete, ht]
    exact h.same nofun
  | some current =>
    cases current with
    | probed retried probe ticket state =>
      by_cases hg : w.inner.generation = ticket.generation
      · have hcommit := CacheInner.complete_of_current w.inner hg state now
        have hstep : (w.complete task now).2 = .completion ticket.command probe
            (.committed { state with seq := w.inner.seq + 1 }) := by
          rw [InstallWorld.complete, ht]
          dsimp only
          rw [hcommit]
        have hproduced : Produced (es ++ [.complete task now]) ticket.command
            { state with seq := w.inner.seq + 1 } :=
          ⟨es, task, now, [], probe, state, rfl, h.tasks task _ ht hg, hw ▸ hstep, rfl⟩
        rw [InstallWorld.complete, ht]
        dsimp only
        rw [hcommit]
        refine h.add nofun rfl (fun command entry hentry => ?_) fun other found hfound => ?_
        · change Function.update w.inner.entries ticket.command _ command = some entry at hentry
          by_cases hc : command = ticket.command
          · rw [hc, Function.update_self] at hentry
            cases hentry
            exact Or.inr (hc ▸ hproduced)
          · rw [Function.update_of_ne hc] at hentry
            exact Or.inl hentry
        · rw [InstallWorld.tasks_withInner_setTask _ ht] at hfound
          split_ifs at hfound
          · cases hfound
            exact Or.inr hproduced
          · exact Or.inl hfound
      · rw [InstallWorld.complete, ht]
        dsimp only
        rw [CacheInner.complete_of_stale w.inner hg]
        refine h.setTask (.complete task now) nofun ht ?_
        cases retried <;> trivial
    | _ =>
      rw [InstallWorld.complete, ht]
      exact h.same nofun

theorem dropTask (h : Provenance es w) (task : ℕ) :
    Provenance (es ++ [.dropTask task]) (w.dropTask task) := by
  unfold InstallWorld.dropTask
  split
  · rename_i current ht
    have hinner : ∀ ticket, (w.inner.dropTicket ticket).generation = w.inner.generation ∧
        (w.inner.dropTicket ticket).entries = w.inner.entries := by
      intro ticket
      unfold CacheInner.dropTicket
      split_ifs <;> exact ⟨rfl, rfl⟩
    refine h.add nofun ?_ (fun command entry hentry => Or.inl ?_) fun other found hfound => ?_
    · cases hc : current.ticket with
      | none => rfl
      | some ticket => exact (hinner ticket).1
    · cases hc : current.ticket with
      | none => rwa [hc] at hentry
      | some ticket =>
        rw [hc] at hentry
        exact (hinner ticket).2 ▸ hentry
    · rw [InstallWorld.tasks_withInner_setTask _ ht] at hfound
      split_ifs at hfound
      · cases hfound
        exact Or.inr trivial
      · exact Or.inl hfound
  · exact h.same nofun

theorem announce (h : Provenance es w) (task : ℕ) :
    Provenance (es ++ [.announce task]) (w.announce task).1 := by
  unfold InstallWorld.announce
  split
  · rename_i ht
    exact h.setTask (.announce task) nofun ht trivial
  · exact h.same nofun

theorem invalidateAll (h : Provenance es w) (hs : w.Slots) :
    Provenance (es ++ [.invalidateAll]) (w.withInner w.inner.invalidateAll) where
  entries _ _ hentry := nomatch hentry
  tasks task current ht := (h.tasks task current ht).invalidated fun ticket hticket =>
    hs.current task ticket ((InstallWorld.ticketAt_of_task ht).trans hticket)

theorem step (h : Provenance es w) (hw : installCache.run .new es = w) (e : InstallEvent) :
    Provenance (es ++ [e]) (installCache.next w e) := by
  cases e with
  | lookup command now ttl => exact h.lookup command now ttl
  | lookupOrBegin command now ttl mayBegin => exact h.lookupOrBegin command now ttl mayBegin
  | startProbe task => exact h.startProbe hw task
  | probeEnds task state => exact h.probeEnds hw task state
  | complete task now => exact h.complete hw task now
  | dropTask task => exact h.dropTask task
  | announce task => exact h.announce task
  | invalidateAll => exact h.invalidateAll (hw ▸ InstallWorld.slots_run es)

theorem run (es : List InstallEvent) : Provenance es (installCache.run .new es) := by
  induction es using List.reverseRecOn with
  | nil => exact new
  | append_singleton es e ih =>
    rw [Machine.run_concat]
    exact ih.step rfl e

/-- What is served is in the cache, or waits to be announced. -/
theorem serves (h : Provenance es w) {e : InstallEvent}
    {command : String} {install : InstallState}
    (ha : (installCache.answer w e).serves = some (command, install)) :
    Produced es command install := by
  have hfresh : ∀ {command' now ttl state}, w.inner.freshEntry command' now ttl = some state →
      Produced es command' state := by
    intro command' now ttl state hf
    obtain ⟨entry, hentry, rfl⟩ := CacheInner.entry_of_freshEntry hf
    exact h.entries command' entry hentry
  cases e with
  | lookup command' now ttl =>
    change (InstallAnswer.lookup command' (w.inner.lookup command' now ttl).2).serves = _ at ha
    unfold CacheInner.lookup at ha
    cases hf : w.inner.freshEntry command' now ttl with
    | some state =>
      rw [hf] at ha
      cases ha
      exact hfresh hf
    | none =>
      rw [hf] at ha
      dsimp only at ha
      split_ifs at ha <;> cases ha
  | lookupOrBegin command' now ttl mayBegin =>
    change (w.lookupOrBegin command' now ttl mayBegin).2.serves = _ at ha
    unfold InstallWorld.lookupOrBegin CacheInner.lookupOrBegin at ha
    cases hf : w.inner.freshEntry command' now ttl with
    | some state =>
      rw [hf] at ha
      cases ha
      exact hfresh hf
    | none =>
      rw [hf] at ha
      dsimp only at ha
      split_ifs at ha <;> cases ha
  | announce task =>
    change (w.announce task).2.serves = _ at ha
    unfold InstallWorld.announce at ha
    split at ha
    · rename_i ht
      cases ha
      exact h.tasks task _ ht
    · cases ha
  | startProbe task =>
    change (w.startProbe task).2.serves = _ at ha
    unfold InstallWorld.startProbe at ha
    split at ha <;> cases ha
  | probeEnds task state =>
    change (w.probeEnds task state).2.serves = _ at ha
    unfold InstallWorld.probeEnds at ha
    split at ha <;> cases ha
  | complete task now =>
    change (w.complete task now).2.serves = _ at ha
    unfold InstallWorld.complete at ha
    split at ha <;> cases ha
  | dropTask task => cases ha
  | invalidateAll => cases ha

end Provenance

/-- The commit numbers given out, in order. -/
def committedSeqs (es : List InstallEvent) : List ℕ :=
  (installCache.answers .new es).filterMap InstallAnswer.committedSeq

/-- A step gives out the next number or leaves the counter alone. -/
theorem seq_next (w : InstallWorld) (e : InstallEvent) :
    ((installCache.answer w e).committedSeq = none ∧
      (installCache.next w e).inner.seq = w.inner.seq) ∨
    ((installCache.answer w e).committedSeq = some (w.inner.seq + 1) ∧
      (installCache.next w e).inner.seq = w.inner.seq + 1) := by
  cases e with
  | complete task now =>
    change ((w.complete task now).2.committedSeq = none ∧
      (w.complete task now).1.inner.seq = w.inner.seq) ∨
      ((w.complete task now).2.committedSeq = some (w.inner.seq + 1) ∧
        (w.complete task now).1.inner.seq = w.inner.seq + 1)
    unfold InstallWorld.complete
    split
    · rename_i retried probe ticket state ht
      by_cases hg : w.inner.generation = ticket.generation
      · rw [CacheInner.complete_of_current w.inner hg]
        exact Or.inr ⟨rfl, rfl⟩
      · rw [CacheInner.complete_of_stale w.inner hg]
        exact Or.inl ⟨rfl, rfl⟩
    · exact Or.inl ⟨rfl, rfl⟩
  | lookup command now ttl =>
    refine Or.inl ⟨rfl, ?_⟩
    show (w.inner.lookup command now ttl).1.seq = _
    unfold CacheInner.lookup
    split <;> rfl
  | lookupOrBegin command now ttl mayBegin =>
    left
    change (w.lookupOrBegin command now ttl mayBegin).2.committedSeq = none ∧
      (w.lookupOrBegin command now ttl mayBegin).1.inner.seq = w.inner.seq
    unfold InstallWorld.lookupOrBegin CacheInner.lookupOrBegin
    cases w.inner.freshEntry command now ttl with
    | some state => exact ⟨rfl, rfl⟩
    | none =>
      dsimp only
      split_ifs <;> exact ⟨rfl, rfl⟩
  | startProbe task =>
    left
    change (w.startProbe task).2.committedSeq = none ∧ (w.startProbe task).1.inner.seq = _
    unfold InstallWorld.startProbe
    split <;> exact ⟨rfl, rfl⟩
  | probeEnds task state =>
    left
    change (w.probeEnds task state).2.committedSeq = none ∧ (w.probeEnds task state).1.inner.seq = _
    unfold InstallWorld.probeEnds
    split <;> exact ⟨rfl, rfl⟩
  | dropTask task =>
    refine Or.inl ⟨rfl, ?_⟩
    show (w.dropTask task).inner.seq = _
    unfold InstallWorld.dropTask
    split
    · rename_i current ht
      cases hc : current.ticket with
      | none => rfl
      | some ticket =>
        show (w.inner.dropTicket ticket).seq = _
        unfold CacheInner.dropTicket
        split_ifs <;> rfl
    · rfl
  | announce task =>
    left
    change (w.announce task).2.committedSeq = none ∧ (w.announce task).1.inner.seq = _
    unfold InstallWorld.announce
    split <;> exact ⟨rfl, rfl⟩
  | invalidateAll => exact Or.inl ⟨rfl, rfl⟩

theorem committedSeqs_run (es : List InstallEvent) :
    (committedSeqs es).Pairwise (· < ·) ∧
      ∀ seq ∈ committedSeqs es, seq ≤ (installCache.run .new es).inner.seq := by
  induction es using List.reverseRecOn with
  | nil => exact ⟨.nil, nofun⟩
  | append_singleton es e ih =>
    have hanswers : committedSeqs (es ++ [e]) = committedSeqs es ++
        (installCache.answer (installCache.run .new es) e).committedSeq.toList := by
      rw [committedSeqs, Machine.answers_concat, List.filterMap_append]
      cases h : (installCache.answer (installCache.run .new es) e).committedSeq <;>
        simp [committedSeqs, h]
    rw [hanswers, Machine.run_concat]
    rcases seq_next (installCache.run .new es) e with ⟨ha, hs⟩ | ⟨ha, hs⟩
    · rw [ha, hs, Option.toList_none, List.append_nil]
      exact ih
    · rw [ha, hs, Option.toList_some]
      constructor
      · rw [List.pairwise_append]
        refine ⟨ih.1, List.pairwise_singleton .., fun a hmem b hb => ?_⟩
        rw [List.mem_singleton.mp hb]
        exact Nat.lt_succ_of_le (ih.2 a hmem)
      · intro seq hmem
        rcases List.mem_append.mp hmem with hmem | hmem
        · exact (ih.2 seq hmem).trans (Nat.le_succ _)
        · exact (List.mem_singleton.mp hmem).le

/-- Single flight, and nothing older than the last invalidation. -/
structure InstallCacheLaw (es : List InstallEvent) : Prop where
  single : ∀ task task' ticket ticket',
    (installCache.run .new es).ticketAt task = some ticket → ticket.live = true →
    (installCache.run .new es).ticketAt task' = some ticket' → ticket'.live = true →
    ticket.command = ticket'.command → task = task'
  slot : ∀ command, command ∈ (installCache.run .new es).inner.inFlight ↔
    ∃ task ticket, (installCache.run .new es).ticketAt task = some ticket ∧
      ticket.live = true ∧ ticket.command = command
  keeps : ∀ task now e, e = .complete task now ∨ e = .dropTask task →
    ∀ other ticket, other ≠ task → (installCache.run .new es).ticketAt other = some ticket →
      (installCache.run .new (es ++ [e])).ticketAt other = some ticket ∧
        ticket.command ∈ (installCache.run .new (es ++ [e])).inner.inFlight
  increasing : (committedSeqs es).Pairwise (· < ·)
  serves : ∀ e command install,
    (installCache.answer (installCache.run .new es) e).serves = some (command, install) →
      Produced es command install

theorem installCacheLaw_run (es : List InstallEvent) : InstallCacheLaw es where
  single task task' ticket ticket' h _ h' _ :=
    (InstallWorld.slots_run es).single task task' ticket ticket' h h'
  slot command := by
    rw [(InstallWorld.slots_run es).slot]
    constructor
    · rintro ⟨task, ticket, h, hc⟩
      exact ⟨task, ticket, h, (InstallWorld.slots_run es).live task ticket h, hc⟩
    · rintro ⟨task, ticket, h, -, hc⟩
      exact ⟨task, ticket, h, hc⟩
  keeps task now e he other ticket hne h := by
    have hkept : (installCache.run .new (es ++ [e])).ticketAt other = some ticket := by
      rw [Machine.run_concat, ← h]
      rcases he with rfl | rfl
      · exact InstallWorld.ticketAt_complete_ne _ hne now
      · exact InstallWorld.ticketAt_dropTask_ne _ hne
    exact ⟨hkept, ((InstallWorld.slots_run _).slot ticket.command).mpr ⟨other, ticket, hkept, rfl⟩⟩
  increasing := (committedSeqs_run es).1
  serves _ _ _ h := (Provenance.run es).serves h

end AgentsCommander.AgentUpdate
