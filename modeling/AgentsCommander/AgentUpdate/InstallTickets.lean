import AgentsCommander.AgentUpdate.InstallCache
import Mathlib.Tactic.Common

/-! One live ticket for each command in flight. -/
namespace AgentsCommander.AgentUpdate
open Foundation

namespace InstallWorld
variable {w w' : InstallWorld} {task : ℕ}

/-- The ticket a task holds. -/
def ticketAt (w : InstallWorld) (task : ℕ) : Option ProbeTicket :=
  w.tasks[task]?.bind ProbeTask.ticket

theorem ticketAt_of_task {current : ProbeTask} (h : w.tasks[task]? = some current) :
    w.ticketAt task = current.ticket := by
  rw [ticketAt, h]
  rfl

theorem tasks_setTask {current : ProbeTask} (h : w.tasks[task]? = some current)
    (next : ProbeTask) (other : ℕ) : (w.setTask task next).tasks[other]? =
      if other = task then some next else w.tasks[other]? := by
  have hlt : task < w.tasks.length := (List.getElem?_eq_some_iff.mp h).1
  rw [setTask, List.getElem?_set]
  by_cases he : other = task
  · rw [if_pos he.symm, if_pos he, if_pos hlt]
  · rw [if_neg (Ne.symm he), if_neg he]

theorem tasks_withInner_setTask (inner : CacheInner) {current : ProbeTask}
    (h : w.tasks[task]? = some current) (next : ProbeTask) (other : ℕ) :
    ((w.withInner inner).setTask task next).tasks[other]? =
      if other = task then some next else w.tasks[other]? :=
  tasks_setTask (w := w.withInner inner) h next other

theorem ticketAt_setTask {current : ProbeTask} (h : w.tasks[task]? = some current)
    (next : ProbeTask) (other : ℕ) : (w.setTask task next).ticketAt other =
      if other = task then next.ticket else w.ticketAt other := by
  rw [ticketAt, tasks_setTask h]
  split_ifs <;> rfl

theorem tasks_concat (w : InstallWorld) (inner : CacheInner) (last : ProbeTask) (other : ℕ) :
    ({ w with inner, tasks := w.tasks ++ [last] } : InstallWorld).tasks[other]? =
      if other = w.tasks.length then some last else w.tasks[other]? := by
  dsimp only
  by_cases he : other = w.tasks.length
  · rw [if_pos he, he, List.getElem?_concat_length]
  · rw [if_neg he]
    rcases lt_or_ge other w.tasks.length with hlt | hge
    · rw [List.getElem?_append_left hlt]
    · rw [List.getElem?_append_right hge, List.getElem?_eq_none hge, List.getElem?_eq_none]
      simp only [List.length_singleton]
      omega

/-- What a step can do to the tickets and to the slots. -/
inductive TicketMove (w w' : InstallWorld) : Prop
  | kept (slots : w'.inner.inFlight = w.inner.inFlight)
      (generation : w.inner.generation ≤ w'.inner.generation)
      (tickets : ∀ other, w'.ticketAt other = w.ticketAt other) : TicketMove w w'
  | opened (task : ℕ) (command : String) (free : command ∉ w.inner.inFlight)
      (slots : w'.inner.inFlight = insert command w.inner.inFlight)
      (generation : w'.inner.generation = w.inner.generation)
      (tickets : ∀ other, w'.ticketAt other =
        if other = task then some ⟨command, w.inner.generation, true⟩ else w.ticketAt other)
      (fresh : w.ticketAt task = none) : TicketMove w w'
  | closed (task : ℕ) (ticket : ProbeTicket) (held : w.ticketAt task = some ticket)
      (slots : w'.inner.inFlight = w.inner.inFlight.erase ticket.command)
      (generation : w'.inner.generation = w.inner.generation)
      (tickets : ∀ other, w'.ticketAt other =
        if other = task then none else w.ticketAt other) : TicketMove w w'
  | renewed (task : ℕ) (ticket : ProbeTicket) (held : w.ticketAt task = some ticket)
      (slots : w'.inner.inFlight = w.inner.inFlight)
      (generation : w'.inner.generation = w.inner.generation)
      (tickets : ∀ other, w'.ticketAt other = if other = task then
        some { ticket with generation := w.inner.generation } else w.ticketAt other) :
      TicketMove w w'

/-- Every ticket held is live, and there is one for each command in flight. -/
structure Slots (w : InstallWorld) : Prop where
  live : ∀ task ticket, w.ticketAt task = some ticket → ticket.live = true
  current : ∀ task ticket, w.ticketAt task = some ticket →
    ticket.generation ≤ w.inner.generation
  slot : ∀ command, command ∈ w.inner.inFlight ↔
    ∃ task ticket, w.ticketAt task = some ticket ∧ ticket.command = command
  single : ∀ task task' ticket ticket', w.ticketAt task = some ticket →
    w.ticketAt task' = some ticket' → ticket.command = ticket'.command → task = task'

theorem ticketAt_kept {current next : ProbeTask} (h : w.tasks[task]? = some current)
    (hticket : next.ticket = current.ticket) (other : ℕ) :
    (w.setTask task next).ticketAt other = w.ticketAt other := by
  rw [ticketAt_setTask h]
  split_ifs with he
  · rw [he, hticket, ticketAt_of_task h]
  · rfl

theorem moved_lookup (w : InstallWorld) (command : String) (now ttl : ℕ) :
    TicketMove w (w.withInner (w.inner.lookup command now ttl).1) := by
  unfold CacheInner.lookup
  split
  · exact .kept rfl le_rfl fun _ => rfl
  · exact .kept rfl le_rfl fun _ => rfl

theorem moved_lookupOrBegin (w : InstallWorld) (command : String) (now ttl : ℕ)
    (mayBegin : Bool) : TicketMove w (w.lookupOrBegin command now ttl mayBegin).1 := by
  unfold lookupOrBegin CacheInner.lookupOrBegin
  cases w.inner.freshEntry command now ttl with
  | some state => exact .kept rfl le_rfl fun _ => rfl
  | none =>
    dsimp only
    split_ifs with hin hmay
    · exact .kept rfl le_rfl fun _ => rfl
    · refine .opened w.tasks.length command hin rfl rfl (fun other => ?_) ?_
      · dsimp only
        rw [ticketAt, tasks_concat]
        split_ifs <;> rfl
      · rw [ticketAt, List.getElem?_eq_none le_rfl]
        rfl
    · exact .kept rfl le_rfl fun _ => rfl

theorem moved_complete (w : InstallWorld) (task now : ℕ) :
    TicketMove w (w.complete task now).1 := by
  unfold complete
  split
  · rename_i retried probe ticket state h
    have hheld : w.ticketAt task = some ticket := ticketAt_of_task h
    by_cases hgen : w.inner.generation = ticket.generation
    · rw [CacheInner.complete_of_current w.inner hgen]
      refine .closed task ticket hheld rfl rfl fun other => ?_
      exact ticketAt_setTask (w := w.withInner _) h _ other
    · rw [CacheInner.complete_of_stale w.inner hgen]
      refine .renewed task ticket hheld rfl rfl fun other => ?_
      refine (ticketAt_setTask (w := w.withInner _) h _ other).trans ?_
      cases retried <;> rfl
  · exact .kept rfl le_rfl fun _ => rfl

theorem moved_dropTask (hs : w.Slots) (task : ℕ) : TicketMove w (w.dropTask task) := by
  unfold dropTask
  split
  · rename_i current h
    cases ht : current.ticket with
    | none =>
      have hnone : w.ticketAt task = none := (ticketAt_of_task h).trans ht
      refine .kept rfl le_rfl fun other => ?_
      refine (ticketAt_setTask (w := w.withInner _) h _ other).trans ?_
      split_ifs with he
      · rw [he, hnone]
        rfl
      · rfl
    | some ticket =>
      have hheld : w.ticketAt task = some ticket := (ticketAt_of_task h).trans ht
      have hlive := hs.live task ticket hheld
      rw [Option.elim_some, CacheInner.dropTicket, if_pos hlive]
      refine .closed task ticket hheld rfl rfl fun other => ?_
      exact ticketAt_setTask (w := w.withInner _) h _ other
  · exact .kept rfl le_rfl fun _ => rfl

theorem moved_step (hs : w.Slots) (e : InstallEvent) : TicketMove w (installCache.next w e) := by
  cases e with
  | lookup command now ttl => exact moved_lookup w command now ttl
  | lookupOrBegin command now ttl mayBegin => exact moved_lookupOrBegin w command now ttl mayBegin
  | startProbe task =>
    show TicketMove w (w.startProbe task).1
    unfold startProbe
    split
    · rename_i h
      exact .kept rfl le_rfl (ticketAt_kept h rfl)
    · exact .kept rfl le_rfl fun _ => rfl
  | probeEnds task state =>
    show TicketMove w (w.probeEnds task state).1
    unfold probeEnds
    split
    · rename_i h
      exact .kept rfl le_rfl (ticketAt_kept h rfl)
    · exact .kept rfl le_rfl fun _ => rfl
  | complete task now => exact moved_complete w task now
  | dropTask task => exact moved_dropTask hs task
  | announce task =>
    show TicketMove w (w.announce task).1
    unfold announce
    split
    · rename_i h
      exact .kept rfl le_rfl (ticketAt_kept h rfl)
    · exact .kept rfl le_rfl fun _ => rfl
  | invalidateAll => exact .kept rfl (Nat.le_succ _) fun _ => rfl

theorem Slots.new : InstallWorld.new.Slots where
  live _ _ h := nomatch h
  current _ _ h := nomatch h
  slot command := by
    constructor
    · exact fun h => absurd h (Finset.notMem_empty command)
    · rintro ⟨task, ticket, h, -⟩
      cases h
  single _ _ _ _ h := nomatch h

theorem Slots.opened (hs : w.Slots) {command : String} (free : command ∉ w.inner.inFlight)
    (slots : w'.inner.inFlight = insert command w.inner.inFlight)
    (generation : w'.inner.generation = w.inner.generation)
    (tickets : ∀ other, w'.ticketAt other =
      if other = task then some ⟨command, w.inner.generation, true⟩ else w.ticketAt other)
    (fresh : w.ticketAt task = none) : w'.Slots := by
  have hcases : ∀ other ticket, w'.ticketAt other = some ticket →
      (other = task ∧ ticket = ⟨command, w.inner.generation, true⟩) ∨
        w.ticketAt other = some ticket := by
    intro other ticket h
    rw [tickets] at h
    split_ifs at h with he
    · exact Or.inl ⟨he, (Option.some.inj h).symm⟩
    · exact Or.inr h
  have hother : ∀ other ticket, w.ticketAt other = some ticket → ticket.command ≠ command :=
    fun other ticket h he => free ((hs.slot command).mpr ⟨other, ticket, h, he⟩)
  constructor
  · intro other ticket h
    rcases hcases other ticket h with ⟨-, rfl⟩ | h
    · rfl
    · exact hs.live other ticket h
  · intro other ticket h
    rw [generation]
    rcases hcases other ticket h with ⟨-, rfl⟩ | h
    · exact le_rfl
    · exact hs.current other ticket h
  · intro c
    rw [slots, Finset.mem_insert, hs.slot]
    constructor
    · rintro (rfl | ⟨other, ticket, h, rfl⟩)
      · exact ⟨task, _, (tickets task).trans (if_pos rfl), rfl⟩
      · have hne : other ≠ task := by
          rintro rfl
          cases fresh.symm.trans h
        exact ⟨other, ticket, (tickets other).trans ((if_neg hne).trans h), rfl⟩
    · rintro ⟨other, ticket, h, rfl⟩
      rcases hcases other ticket h with ⟨-, rfl⟩ | h
      · exact Or.inl rfl
      · exact Or.inr ⟨other, ticket, h, rfl⟩
  · intro i j ticket ticket' hi hj heq
    rcases hcases i ticket hi with ⟨hit, rfl⟩ | hi
    · rcases hcases j ticket' hj with ⟨hjt, -⟩ | hj
      · rw [hit, hjt]
      · exact absurd heq.symm (hother j ticket' hj)
    · rcases hcases j ticket' hj with ⟨-, rfl⟩ | hj
      · exact absurd heq (hother i ticket hi)
      · exact hs.single i j ticket ticket' hi hj heq

theorem Slots.closed (hs : w.Slots) {ticket : ProbeTicket} (held : w.ticketAt task = some ticket)
    (slots : w'.inner.inFlight = w.inner.inFlight.erase ticket.command)
    (generation : w'.inner.generation = w.inner.generation)
    (tickets : ∀ other, w'.ticketAt other = if other = task then none else w.ticketAt other) :
    w'.Slots := by
  have hcases : ∀ other t, w'.ticketAt other = some t →
      other ≠ task ∧ w.ticketAt other = some t := by
    intro other t h
    rw [tickets] at h
    split_ifs at h with he
    exact ⟨he, h⟩
  constructor
  · exact fun other t h => hs.live other t (hcases other t h).2
  · exact fun other t h => generation.symm ▸ hs.current other t (hcases other t h).2
  · intro c
    rw [slots, Finset.mem_erase, hs.slot]
    constructor
    · rintro ⟨hne, other, t, h, rfl⟩
      refine ⟨other, t, (tickets other).trans ?_, rfl⟩
      rw [if_neg, h]
      rintro rfl
      exact hne (congrArg _ (Option.some.inj (h.symm.trans held)))
    · rintro ⟨other, t, h, rfl⟩
      obtain ⟨hne, h⟩ := hcases other t h
      exact ⟨fun he => hne (hs.single other task t ticket h held he), other, t, h, rfl⟩
  · intro i j t t' hi hj heq
    exact hs.single i j t t' (hcases i t hi).2 (hcases j t' hj).2 heq

theorem Slots.renewed (hs : w.Slots) {ticket : ProbeTicket} (held : w.ticketAt task = some ticket)
    (slots : w'.inner.inFlight = w.inner.inFlight)
    (generation : w'.inner.generation = w.inner.generation)
    (tickets : ∀ other, w'.ticketAt other = if other = task then
      some { ticket with generation := w.inner.generation } else w.ticketAt other) : w'.Slots := by
  have hcases : ∀ other t, w'.ticketAt other = some t → ∃ t₀, w.ticketAt other = some t₀ ∧
      t₀.command = t.command ∧ t₀.live = t.live ∧
        (t₀.generation ≤ w.inner.generation → t.generation ≤ w.inner.generation) := by
    intro other t h
    rw [tickets] at h
    split_ifs at h with he
    · cases h
      exact ⟨ticket, he ▸ held, rfl, rfl, fun _ => le_rfl⟩
    · exact ⟨t, h, rfl, rfl, id⟩
  constructor
  · intro other t h
    obtain ⟨t₀, h₀, -, hlive, -⟩ := hcases other t h
    exact hlive ▸ hs.live other t₀ h₀
  · intro other t h
    obtain ⟨t₀, h₀, -, -, hgen⟩ := hcases other t h
    exact generation.symm ▸ hgen (hs.current other t₀ h₀)
  · intro c
    rw [slots, hs.slot]
    constructor
    · rintro ⟨other, t, h, rfl⟩
      by_cases he : other = task
      · subst he
        cases held.symm.trans h
        exact ⟨other, _, (tickets other).trans (if_pos rfl), rfl⟩
      · exact ⟨other, t, (tickets other).trans ((if_neg he).trans h), rfl⟩
    · rintro ⟨other, t, h, rfl⟩
      obtain ⟨t₀, h₀, hc, -⟩ := hcases other t h
      exact ⟨other, t₀, h₀, hc⟩
  · intro i j t t' hi hj heq
    obtain ⟨t₀, h₀, hc, -⟩ := hcases i t hi
    obtain ⟨t₁, h₁, hc', -⟩ := hcases j t' hj
    exact hs.single i j t₀ t₁ h₀ h₁ (hc.trans (heq.trans hc'.symm))

theorem Slots.move (hs : w.Slots) (hm : TicketMove w w') : w'.Slots := by
  cases hm with
  | kept slots generation tickets =>
    constructor
    · exact fun k t h => hs.live k t (tickets k ▸ h)
    · exact fun k t h => (hs.current k t (tickets k ▸ h)).trans generation
    · intro c
      simp only [slots, tickets]
      exact hs.slot c
    · exact fun i j t t' hi hj => hs.single i j t t' (tickets i ▸ hi) (tickets j ▸ hj)
  | opened task command free slots generation tickets fresh =>
    exact hs.opened free slots generation tickets fresh
  | closed task ticket held slots generation tickets =>
    exact hs.closed held slots generation tickets
  | renewed task ticket held slots generation tickets =>
    exact hs.renewed held slots generation tickets

theorem slots_run (es : List InstallEvent) : (installCache.run .new es).Slots :=
  Machine.run_inv_free (P := Slots) (fun _ e hs => hs.move (moved_step hs e)) .new es

/-- Neither a completion nor a drop touches the ticket of another task. -/
theorem ticketAt_complete_ne (w : InstallWorld) {task other : ℕ} (h : other ≠ task) (now : ℕ) :
    (w.complete task now).1.ticketAt other = w.ticketAt other := by
  unfold complete
  split
  · rename_i hp
    exact (ticketAt_setTask (w := w.withInner _) hp _ other).trans (if_neg h)
  · rfl

theorem ticketAt_dropTask_ne (w : InstallWorld) {task other : ℕ} (h : other ≠ task) :
    (w.dropTask task).ticketAt other = w.ticketAt other := by
  unfold dropTask
  split
  · rename_i hp
    exact (ticketAt_setTask (w := w.withInner _) hp _ other).trans (if_neg h)
  · rfl

end InstallWorld

end AgentsCommander.AgentUpdate
