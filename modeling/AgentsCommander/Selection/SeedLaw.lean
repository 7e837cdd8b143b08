import AgentsCommander.Selection.SeedWork
import Mathlib.Data.List.Induction

/-! What holds of the tracker in every run. -/
namespace AgentsCommander.Selection
open Foundation

namespace SeedWorld
variable {w : SeedWorld} {e : SeedEvent} {id : ℕ}

/-- Whether the id is in the map. -/
def present (w : SeedWorld) (id : ℕ) : Bool := (w.state.work.lookup id).isSome

/-- The ids in the map have been given out, and the guards are those of the started work. -/
structure Coherent (w : SeedWorld) : Prop where
  pos : 0 < w.state.nextId
  ids : ∀ id, w.present id = true → 0 < id ∧ id < w.state.nextId
  guarded : ∀ id, id ∈ w.guards ↔ w.state.work.lookup id = some .started
  nodup : w.guards.Nodup

theorem Coherent.new : SeedWorld.new.Coherent where
  pos := Nat.one_pos
  ids _ h := by cases h
  guarded id := by
    constructor
    · exact fun h => absurd h List.not_mem_nil
    · exact fun h => by cases h
  nodup := List.nodup_nil

theorem Coherent.free (h : w.Coherent) : w.state.work.lookup w.state.nextId = none := by
  by_contra hne
  exact lt_irrefl _ (h.ids _ (Option.isSome_iff_ne_none.mpr hne)).2

theorem lookup_of_registered (ha : seedTracker.answer w e = .registered id) :
    (seedTracker.next w e).state.work.lookup id = some (.queued none) := by
  by_cases ho : e.outside = true
  · exact absurd ha ((w.frame_of_outside e ho).2.2 id)
  cases e with
  | register running =>
    change (w.register running).2 = _ at ha
    change (w.register running).1.state.work.lookup id = _
    unfold register BlockingSeedTrackerState.register at ha ⊢
    split_ifs at ha ⊢
    · cases ha
    · cases ha
    · cases ha
      exact AList.lookup_insert _
  | attachAbort id' abort =>
    change (if (w.state.attachAbort id' abort).2 then SeedAnswer.aborted abort else .attached) =
      _ at ha
    split_ifs at ha
  | begin id' => cases ha
  | cancelWaiter id' => cases ha
  | completeStarted id' => cases ha
  | sealTracker => cases ha
  | _ => exact absurd rfl ho

theorem queued_of_began (ha : seedTracker.answer w (.begin id) = .began true) :
    ∃ abort, w.state.work.lookup id = some (.queued abort) := by
  change SeedAnswer.began (w.state.begin id).2 = _ at ha
  unfold BlockingSeedTrackerState.begin at ha
  split at ha
  · rename_i abort h
    exact ⟨abort, h⟩
  · cases ha
  · cases ha

theorem lookup_begin (w : SeedWorld) (id' id : ℕ) :
    (w.state.begin id').1.work.lookup id =
      if id = id' then (w.state.work.lookup id).map fun _ => .started
      else w.state.work.lookup id := by
  unfold BlockingSeedTrackerState.begin
  split
  · exact Assoc.lookup_adjust w.state.work id' (fun _ => .started) id
  · rename_i h
    split_ifs with hid
    · rw [hid, h]
      rfl
    · rfl
  · rename_i h
    split_ifs with hid
    · rw [hid, h]
      rfl
    · rfl

theorem ids_step (hc : w.Coherent) (e : SeedEvent) (id : ℕ)
    (h : (seedTracker.next w e).present id = true) :
    0 < id ∧ id < (seedTracker.next w e).state.nextId := by
  have hgrow : w.state.nextId ≤ (seedTracker.next w e).state.nextId := by
    rcases nextId_step w e with ⟨hn, -⟩ | ⟨hn, -⟩
    · exact hn.ge
    · exact hn.symm ▸ Nat.le_succ _
  have hin : w.present id = true → 0 < id ∧ id < (seedTracker.next w e).state.nextId :=
    fun hp => ⟨(hc.ids id hp).1, Nat.lt_of_lt_of_le (hc.ids id hp).2 hgrow⟩
  unfold present at h hin
  generalize hb : w.state.work.lookup id = before at hin
  generalize ha : (seedTracker.next w e).state.work.lookup id = after at h
  have hp := passage_step w e id
  rw [hb, ha] at hp
  cases hp with
  | kept => exact hin h
  | registered running he hid hans =>
    subst hid
    rcases nextId_step w e with ⟨-, hn⟩ | ⟨hn, -⟩
    · exact absurd hans (hn _)
    · exact ⟨hc.pos, hn.symm ▸ Nat.lt_succ_self _⟩
  | attached abort he before => exact hin rfl
  | began he hans abort => exact hin rfl
  | _ => cases h

theorem guards_of_other (hb : ∀ id, e ≠ .begin id) (hd : ∀ id, e ≠ .completeStarted id) :
    (seedTracker.next w e).guards = w.guards := by
  by_cases ho : e.outside = true
  · exact (w.frame_of_outside e ho).2.1
  cases e with
  | register running => rfl
  | attachAbort id abort => rfl
  | begin id => exact absurd rfl (hb id)
  | cancelWaiter id => rfl
  | completeStarted id => exact absurd rfl (hd id)
  | sealTracker => rfl
  | _ => exact absurd rfl ho

theorem guarded_begin (hc : w.Coherent) (id' id : ℕ) :
    id ∈ (w.begin id').1.guards ↔ (w.begin id').1.state.work.lookup id = some .started := by
  change id ∈ (if (w.state.begin id').2 then id' :: w.guards else w.guards) ↔
    (w.state.begin id').1.work.lookup id = _
  cases h : w.state.work.lookup id' with
  | none =>
    rw [BlockingSeedTrackerState.begin, h]
    exact hc.guarded id
  | some work =>
    cases work with
    | started =>
      rw [BlockingSeedTrackerState.begin, h]
      exact hc.guarded id
    | queued abort =>
      have hg : (w.state.begin id').2 = true := by rw [BlockingSeedTrackerState.begin, h]
      rw [if_pos hg, lookup_begin, List.mem_cons, hc.guarded]
      by_cases hid : id = id'
      · rw [if_pos hid, hid, h]
        exact ⟨fun _ => rfl, fun _ => Or.inl rfl⟩
      · rw [if_neg hid]
        exact ⟨fun hm => hm.resolve_left hid, Or.inr⟩

theorem guarded_completeStarted (hc : w.Coherent) (id' id : ℕ) :
    id ∈ (w.completeStarted id').guards ↔
      (w.completeStarted id').state.work.lookup id = some .started := by
  unfold completeStarted
  split_ifs with hg
  · show id ∈ w.guards.erase id' ↔ (w.state.work.erase id').lookup id = _
    rw [hc.nodup.mem_erase_iff, Assoc.lookup_erase_eq, hc.guarded]
    by_cases hid : id = id'
    · rw [if_pos hid]
      exact ⟨fun h => absurd hid h.1, fun h => by cases h⟩
    · rw [if_neg hid]
      exact ⟨And.right, fun h => ⟨hid, h⟩⟩
  · exact hc.guarded id

theorem guarded_step (hc : w.Coherent) (e : SeedEvent) (id : ℕ) :
    id ∈ (seedTracker.next w e).guards ↔
      (seedTracker.next w e).state.work.lookup id = some .started := by
  by_cases hb : ∃ id', e = .begin id'
  · obtain ⟨id', rfl⟩ := hb
    exact guarded_begin hc id' id
  by_cases hd : ∃ id', e = .completeStarted id'
  · obtain ⟨id', rfl⟩ := hd
    exact guarded_completeStarted hc id' id
  rw [guards_of_other (fun id' h => hb ⟨id', h⟩) (fun id' h => hd ⟨id', h⟩), hc.guarded]
  have hp := passage_step w e id
  generalize hlook : w.state.work.lookup id = before at hp
  generalize (seedTracker.next w e).state.work.lookup id = after at hp
  cases hp with
  | kept => exact Iff.rfl
  | registered running he hid hans =>
    rw [hid, hc.free] at hlook
    rw [← hlook]
    exact ⟨nofun, nofun⟩
  | attached abort he before => exact ⟨nofun, nofun⟩
  | began he => exact absurd ⟨id, he⟩ hb
  | canceled he abort => exact ⟨nofun, nofun⟩
  | completed he => exact absurd ⟨id, he⟩ hd
  | sealed he abort => exact ⟨nofun, nofun⟩

theorem nodup_step (hc : w.Coherent) (e : SeedEvent) : (seedTracker.next w e).guards.Nodup := by
  by_cases hb : ∃ id, e = .begin id
  · obtain ⟨id, rfl⟩ := hb
    show (if (w.state.begin id).2 then id :: w.guards else w.guards).Nodup
    split_ifs with hg
    · refine List.nodup_cons.mpr ⟨fun hm => ?_, hc.nodup⟩
      obtain ⟨abort, hq⟩ := queued_of_began (congrArg SeedAnswer.began hg)
      cases ((hc.guarded id).mp hm).symm.trans hq
    · exact hc.nodup
  by_cases hd : ∃ id, e = .completeStarted id
  · obtain ⟨id, rfl⟩ := hd
    show (w.completeStarted id).guards.Nodup
    unfold completeStarted
    split_ifs
    · exact hc.nodup.erase id
    · exact hc.nodup
  rw [guards_of_other (fun id h => hb ⟨id, h⟩) fun id h => hd ⟨id, h⟩]
  exact hc.nodup

theorem Coherent.step (hc : w.Coherent) (e : SeedEvent) : (seedTracker.next w e).Coherent where
  pos := by
    rcases nextId_step w e with ⟨hn, -⟩ | ⟨hn, -⟩
    · exact hn.symm ▸ hc.pos
    · exact hn.symm ▸ Nat.succ_pos _
  ids := ids_step hc e
  guarded := guarded_step hc e
  nodup := nodup_step hc e

theorem coherent_run (es : List SeedEvent) : (seedTracker.run .new es).Coherent :=
  Machine.run_inv_free (P := Coherent) (fun _ e hc => hc.step e) .new es

/-- The id has been given out and is not queued: it cannot be begun any more. -/
structure Past (w : SeedWorld) (id : ℕ) : Prop where
  drawn : id < w.state.nextId
  spent : ∀ abort, w.state.work.lookup id ≠ some (.queued abort)

theorem Past.step (h : w.Past id) (e : SeedEvent) : (seedTracker.next w e).Past id := by
  constructor
  · rcases nextId_step w e with ⟨hn, -⟩ | ⟨hn, -⟩
    · exact hn.symm ▸ h.drawn
    · exact hn.symm ▸ Nat.lt_succ_of_lt h.drawn
  · have hspent := h.spent
    have hp := passage_step w e id
    generalize w.state.work.lookup id = before at hp hspent
    generalize (seedTracker.next w e).state.work.lookup id = after at hp
    intro abort hafter
    subst hafter
    cases hp with
    | kept => exact hspent abort rfl
    | registered running he hid => exact absurd hid h.drawn.ne
    | attached abort he before => exact hspent before rfl

theorem Past.run (h : w.Past id) (es : List SeedEvent) : (seedTracker.run w es).Past id :=
  Machine.run_inv_free (P := fun w : SeedWorld => w.Past id) (fun _ e h => h.step e) h es

theorem past_of_began (hc : w.Coherent) (ha : seedTracker.answer w (.begin id) = .began true) :
    (seedTracker.next w (.begin id)).Past id := by
  obtain ⟨abort, hq⟩ := queued_of_began ha
  constructor
  · refine Nat.lt_of_lt_of_eq (hc.ids id ?_).2 (w.state.frame_begin id).1.symm
    rw [present, hq]
    rfl
  · intro abort'
    show (w.state.begin id).1.work.lookup id ≠ _
    rw [lookup_begin, if_pos rfl, hq]
    exact nofun

theorem past_of_canceled (hd : id < w.state.nextId) :
    (seedTracker.next w (.cancelWaiter id)).Past id := by
  constructor
  · exact Nat.lt_of_lt_of_eq hd (w.state.frame_cancelWaiter id).1.symm
  · intro abort
    show (w.state.cancelWaiter id).1.work.lookup id ≠ _
    unfold BlockingSeedTrackerState.cancelWaiter
    split
    · dsimp only
      rw [AList.lookup_erase]
      exact nofun
    · rename_i h
      rw [h]
      exact nofun
    · rename_i h
      rw [h]
      exact nofun

/-- No work can be queued any more. -/
structure Sealed (w : SeedWorld) : Prop where
  closed : w.state.accepting = false
  unqueued : ∀ id abort, w.state.work.lookup id ≠ some (.queued abort)

theorem sealed_of_seal (w : SeedWorld) : (seedTracker.next w .sealTracker).Sealed where
  closed := rfl
  unqueued id abort := by
    show (Assoc.keep w.state.work _).lookup id ≠ _
    rw [Assoc.lookup_keep, Ne, Option.filter_eq_some_iff]
    rintro ⟨-, h⟩
    cases h

theorem Sealed.step (h : w.Sealed) (e : SeedEvent) : (seedTracker.next w e).Sealed := by
  constructor
  · by_contra ha
    have := accepting_step w e (Bool.not_eq_false _ ▸ ha)
    cases h.closed.symm.trans this
  · intro id abort hafter
    have hspent := h.unqueued id
    have hp := passage_step w e id
    generalize w.state.work.lookup id = before at hp hspent
    rw [hafter] at hp
    cases hp with
    | kept => exact hspent abort rfl
    | registered running he hid hans =>
      rcases nextId_step w e with ⟨-, hn⟩ | ⟨-, -, hacc⟩
      · exact hn id hans
      · cases h.closed.symm.trans hacc
    | attached abort he before => exact hspent before rfl

theorem Sealed.run (h : w.Sealed) (es : List SeedEvent) : (seedTracker.run w es).Sealed :=
  Machine.run_inv_free (P := Sealed) (fun _ e h => h.step e) h es

end SeedWorld

end AgentsCommander.Selection
