import Mathlib.Data.List.AList
import AgentsCommander.Foundation.Machine
import Mathlib.Data.Finset.Card
import Mathlib.Data.Finset.Insert

/-! Keyed locks: an entry for each target somebody has reserved, made by the first and removed
behind the last. Every acquisition is split at the locks it takes inside. What holds between the
queues, the counters and the map of the keyed locks, and what each kind of move does to it. -/
namespace AgentsCommander.MessageStore
open Foundation

abbrev Caller := ℕ

/-- The address of an entry. -/
abbrev EntryId := ℕ

/-- Where a caller stands between `acquire` and the end of its guard's drop. -/
inductive LockPhase where
  /-- It holds its reservation and has not asked for the mutex. -/
  | reserved
  | queued
  | guarding
  /-- The pending acquisition is dropped, the reservation not yet. -/
  | cancelled
  /-- It took the last reservation away and is to look after the map. -/
  | removing (held : Bool)
  /-- All that is left of its guard is the mutex. -/
  | unlocking
  deriving DecidableEq, Repr

namespace LockPhase

def reserves : LockPhase → Bool
  | .reserved | .queued | .guarding | .cancelled => true
  | .removing _ | .unlocking => false

def inGate : LockPhase → Bool
  | .queued | .guarding | .unlocking => true
  | .removing held => held
  | .reserved | .cancelled => false

def owns : LockPhase → Bool
  | .guarding | .unlocking => true
  | .removing held => held
  | .reserved | .queued | .cancelled => false

theorem inGate_of_owns {phase : LockPhase} (h : phase.owns = true) : phase.inGate = true := by
  cases phase <;> first | exact h | cases h

end LockPhase

structure LockClaim where
  target : String
  entry : EntryId
  phase : LockPhase

/-- The map, and the entries by their address. A gate lists who waits for its mutex in order;
the first has it. -/
structure PtyInputTargetLocks where
  entries : AList fun _ : String => EntryId
  fresh : EntryId
  gate : EntryId → List Caller
  reservations : EntryId → ℤ
  /-- The target an entry was made for. -/
  madeFor : EntryId → String
  claims : Caller → Option LockClaim

inductive LockEvent where
  | acquire (c : Caller) (target : String)
  | lockOwned (c : Caller)
  | finish (c : Caller)
  | cancel (c : Caller)
  | fetchSub (c : Caller)
  | removeEntry (c : Caller)
  | unlock (c : Caller)

namespace PtyInputTargetLocks

def default : PtyInputTargetLocks := ⟨∅, 0, fun _ => [], fun _ => 0, fun _ => "", fun _ => none⟩

def setClaim (s : PtyInputTargetLocks) (c : Caller) (k : Option LockClaim) : PtyInputTargetLocks :=
  { s with claims := Function.update s.claims c k }

def setPhase (s : PtyInputTargetLocks) (c : Caller) (k : LockClaim) (phase : LockPhase) :
    PtyInputTargetLocks := s.setClaim c (some { k with phase })

/-- The map's entry for the target, made where there is none. -/
def entryFor (s : PtyInputTargetLocks) (target : String) : PtyInputTargetLocks × EntryId :=
  match s.entries.lookup target with
  | some e => (s, e)
  | none => ({ s with
      entries := s.entries.insert target s.fresh
      fresh := s.fresh + 1
      madeFor := Function.update s.madeFor s.fresh target }, s.fresh)

/-- The first section of `acquire`. -/
def acquire (s : PtyInputTargetLocks) (c : Caller) (target : String) : PtyInputTargetLocks :=
  let (s, e) := s.entryFor target
  { s with reservations := Function.update s.reservations e (s.reservations e + 1) }.setClaim c
    (some ⟨target, e, .reserved⟩)

/-- Out of the queue, wherever in it. -/
def leave (s : PtyInputTargetLocks) (c : Caller) (e : EntryId) : PtyInputTargetLocks :=
  { s with gate := Function.update s.gate e ((s.gate e).erase c) }

/-- The decrement of `release_target_reservation`; a guard still has its mutex then. -/
def fetchSub (s : PtyInputTargetLocks) (c : Caller) (k : LockClaim) : PtyInputTargetLocks :=
  let held := decide (k.phase = .guarding)
  let t := { s with
    reservations := Function.update s.reservations k.entry (s.reservations k.entry - 1) }
  if s.reservations k.entry = 1 then t.setPhase c k (.removing held)
  else if held then t.setPhase c k .unlocking
  else t.setClaim c none

/-- The section of `release_target_reservation` that removes the entry. -/
def removeEntry (s : PtyInputTargetLocks) (c : Caller) (k : LockClaim) (held : Bool) :
    PtyInputTargetLocks :=
  let t := if s.entries.lookup k.target = some k.entry ∧ s.reservations k.entry = 0 then
    { s with entries := s.entries.erase k.target } else s
  if held then t.setPhase c k .unlocking else t.setClaim c none

/-- A caller that is not where the event finds it does nothing. -/
def step (s : PtyInputTargetLocks) : LockEvent → PtyInputTargetLocks
  | .acquire c target => if (s.claims c).isSome then s else s.acquire c target
  | .lockOwned c =>
    match s.claims c with
    | some ⟨target, e, .reserved⟩ =>
      { s with gate := Function.update s.gate e (s.gate e ++ [c]) }.setPhase c ⟨target, e, .reserved⟩
        .queued
    | _ => s
  | .finish c =>
    match s.claims c with
    | some ⟨target, e, .queued⟩ =>
      if (s.gate e).head? = some c then s.setPhase c ⟨target, e, .queued⟩ .guarding else s
    | _ => s
  | .cancel c =>
    match s.claims c with
    | some ⟨target, e, .queued⟩ => (s.leave c e).setPhase c ⟨target, e, .queued⟩ .cancelled
    | _ => s
  | .fetchSub c =>
    match s.claims c with
    | some ⟨target, e, .guarding⟩ => s.fetchSub c ⟨target, e, .guarding⟩
    | some ⟨target, e, .cancelled⟩ => s.fetchSub c ⟨target, e, .cancelled⟩
    | _ => s
  | .removeEntry c =>
    match s.claims c with
    | some ⟨target, e, .removing held⟩ => s.removeEntry c ⟨target, e, .removing held⟩ held
    | _ => s
  | .unlock c =>
    match s.claims c with
    | some ⟨_, e, .unlocking⟩ => (s.leave c e).setClaim c none
    | _ => s

/-- The caller has a guard that nobody has begun to drop. -/
def Live (s : PtyInputTargetLocks) (c : Caller) (target : String) (e : EntryId) : Prop :=
  s.claims c = some ⟨target, e, .guarding⟩

end PtyInputTargetLocks

def targetLocks : Machine PtyInputTargetLocks LockEvent Unit := ⟨fun s e => (s.step e, ())⟩

/-- What the locks promise in one state. -/
structure TargetLockLaw (s : PtyInputTargetLocks) : Prop where
  exclusive : ∀ c c' target e e', s.Live c target e → s.Live c' target e' → c = c'
  current : ∀ c k, s.claims c = some k → k.phase.reserves = true →
    s.entries.lookup k.target = some k.entry
  /-- Whoever waits has the mutex once all before it are gone. -/
  obtains : ∀ c target e, s.claims c = some ⟨target, e, .queued⟩ →
    (∀ c' ∈ (s.gate e).takeWhile (· ≠ c), s.claims c' = none) →
    (s.step (.finish c)).Live c target e ∧ (s.step (.finish c)).entries.lookup target = some e
  counted : ∀ e, 0 ≤ s.reservations e
  released : ∀ c k, s.claims c = some k → k.phase.reserves = true → 0 < s.reservations k.entry
  emptied : ∀ target, (∀ c k, s.claims c = some k → k.target = target → k.phase = .unlocking) →
    s.entries.lookup target = none

namespace PtyInputTargetLocks

/-- Who has a claim on an entry with a property of its phase. -/
def Claims (s : PtyInputTargetLocks) (p : LockPhase → Bool) (e : EntryId) (c : Caller) : Prop :=
  ∃ k, s.claims c = some k ∧ k.entry = e ∧ p k.phase = true

/-- A queue lists who is in it, and an owner comes first. -/
structure Gated (s : PtyInputTargetLocks) : Prop where
  nodup : ∀ e, (s.gate e).Nodup
  mem : ∀ e c, c ∈ s.gate e ↔ s.Claims LockPhase.inGate e c
  head : ∀ e c, s.Claims LockPhase.owns e c → (s.gate e).head? = some c

/-- The counters count. -/
def Counted (s : PtyInputTargetLocks) : Prop :=
  ∀ e, ∃ H : Finset Caller, (∀ c, c ∈ H ↔ s.Claims LockPhase.reserves e c) ∧
    s.reservations e = H.card

/-- The map holds the entries that are reserved, and those about to be looked after. -/
structure Mapped (s : PtyInputTargetLocks) : Prop where
  current : ∀ c k, s.claims c = some k → k.phase.reserves = true →
    s.entries.lookup k.target = some k.entry
  backed : ∀ target e, s.entries.lookup target = some e → 0 < s.reservations e ∨
    ∃ c k held, s.claims c = some k ∧ k.entry = e ∧ k.phase = .removing held
  claimFor : ∀ c k, s.claims c = some k → s.madeFor k.entry = k.target
  entryFor : ∀ target e, s.entries.lookup target = some e → s.madeFor e = target
  claimFresh : ∀ c k, s.claims c = some k → k.entry < s.fresh
  entryFresh : ∀ target e, s.entries.lookup target = some e → e < s.fresh

structure Coherent (s : PtyInputTargetLocks) : Prop where
  gated : s.Gated
  counted : s.Counted
  mapped : s.Mapped

section
variable {s : PtyInputTargetLocks} {c : Caller}

@[simp] theorem claims_setClaim_self (k : Option LockClaim) : (s.setClaim c k).claims c = k := by
  simp only [setClaim, Function.update_self]

theorem claims_setClaim_ne (k : Option LockClaim) {c' : Caller} (h : c' ≠ c) :
    (s.setClaim c k).claims c' = s.claims c' := by
  simp only [setClaim, Function.update_of_ne h]

theorem claims_setClaim_some {k : Option LockClaim} {c' : Caller} {k' : LockClaim}
    (h : (s.setClaim c k).claims c' = some k') :
    c' = c ∧ k = some k' ∨ c' ≠ c ∧ s.claims c' = some k' := by
  by_cases hc : c' = c
  · subst hc
    rw [claims_setClaim_self] at h
    exact Or.inl ⟨rfl, h⟩
  · rw [claims_setClaim_ne k hc] at h
    exact Or.inr ⟨hc, h⟩

theorem claims_iff_of_ne {p : LockPhase → Bool} {k : Option LockClaim} {e : EntryId} {c' : Caller}
    (h : c' ≠ c) : (s.setClaim c k).Claims p e c' ↔ s.Claims p e c' := by
  unfold Claims
  rw [claims_setClaim_ne k h]

theorem claims_self {p : LockPhase → Bool} {k : Option LockClaim} {e : EntryId} :
    (s.setClaim c k).Claims p e c ↔ ∃ k' ∈ k, k'.entry = e ∧ p k'.phase = true := by
  unfold Claims
  rw [claims_setClaim_self]
  rfl

end

namespace Gated
variable {s : PtyInputTargetLocks} {c : Caller}

/-- A caller moves on where it is. -/
theorem setClaim (h : s.Gated) {k : Option LockClaim}
    (hin : ∀ e, (∃ k' ∈ k, k'.entry = e ∧ k'.phase.inGate = true) ↔ s.Claims LockPhase.inGate e c)
    (howns : ∀ k' ∈ k, k'.phase.owns = true → (s.gate k'.entry).head? = some c) :
    (s.setClaim c k).Gated where
  nodup := h.nodup
  mem e c' := by
    by_cases hc : c' = c
    · subst hc
      rw [claims_self, hin]
      exact h.mem e c'
    · rw [claims_iff_of_ne hc]
      exact h.mem e c'
  head e c' hown := by
    by_cases hc : c' = c
    · subst hc
      obtain ⟨k', hk', rfl, hphase⟩ := claims_self.mp hown
      exact howns k' hk' hphase
    · exact h.head e c' ((claims_iff_of_ne hc).mp hown)

/-- A caller joins the end of a queue. -/
theorem join (h : s.Gated) {k : LockClaim} (hk : s.claims c = some k)
    (hout : k.phase.inGate = false) :
    ({ s with gate := Function.update s.gate k.entry (s.gate k.entry ++ [c]) }.setPhase c k
      .queued).Gated where
  nodup e := by
    by_cases he : e = k.entry
    · subst he
      have hnew : c ∉ s.gate k.entry := by
        rw [h.mem]
        rintro ⟨k', hk', -, hin⟩
        cases hk.symm.trans hk'
        rw [hout] at hin
        cases hin
      have hgate : ∀ x, Function.update s.gate k.entry x k.entry = x :=
        fun x => Function.update_self k.entry x s.gate
      simp only [setPhase, PtyInputTargetLocks.setClaim, hgate]
      exact List.Nodup.append (h.nodup k.entry) (List.nodup_singleton c) (by simpa using hnew)
    · simp only [setPhase, PtyInputTargetLocks.setClaim, Function.update_of_ne he]
      exact h.nodup e
  mem e c' := by
    have hgate : c' ∈ (Function.update s.gate k.entry (s.gate k.entry ++ [c])) e ↔
        c' ∈ s.gate e ∨ e = k.entry ∧ c' = c := by
      by_cases he : e = k.entry
      · subst he
        simp
      · simp [he]
    refine hgate.trans ?_
    by_cases hc : c' = c
    · subst hc
      refine Iff.trans ?_ claims_self.symm
      constructor
      · rintro (hmem | ⟨rfl, -⟩)
        · obtain ⟨k', hk', -, hin⟩ := (h.mem e c').mp hmem
          cases hk.symm.trans hk'
          rw [hout] at hin
          cases hin
        · exact ⟨_, rfl, rfl, rfl⟩
      · rintro ⟨k', hk', rfl, -⟩
        cases hk'
        exact Or.inr ⟨rfl, rfl⟩
    · refine Iff.trans ?_ (claims_iff_of_ne hc).symm
      refine Iff.trans ?_ (h.mem e c')
      simp [hc]
  head e c' hown := by
    have hother : s.Claims LockPhase.owns e c' := by
      by_cases hc : c' = c
      · subst hc
        obtain ⟨k', hk', -, hphase⟩ := claims_self.mp hown
        cases hk'
        cases hphase
      · exact (claims_iff_of_ne hc).mp hown
    have hhead := h.head e c' hother
    by_cases he : e = k.entry
    · subst he
      simp only [setPhase, PtyInputTargetLocks.setClaim, Function.update_self]
      rw [List.head?_append, hhead]
      rfl
    · simp only [setPhase, PtyInputTargetLocks.setClaim, Function.update_of_ne he]
      exact hhead

/-- A caller leaves its queue; whoever is first there stays first, or comes to be. -/
theorem leave (h : s.Gated) {k : LockClaim} (hk : s.claims c = some k) {next : Option LockClaim}
    (hnext : ∀ k' ∈ next, k'.phase.inGate = false) : ((s.leave c k.entry).setClaim c next).Gated where
  nodup e := by
    by_cases he : e = k.entry
    · subst he
      simp only [PtyInputTargetLocks.leave, PtyInputTargetLocks.setClaim, Function.update_self]
      exact (h.nodup k.entry).erase c
    · simp only [PtyInputTargetLocks.leave, PtyInputTargetLocks.setClaim, Function.update_of_ne he]
      exact h.nodup e
  mem e c' := by
    have hgate : c' ∈ (Function.update s.gate k.entry ((s.gate k.entry).erase c)) e ↔
        c' ∈ s.gate e ∧ ¬ (e = k.entry ∧ c' = c) := by
      by_cases he : e = k.entry
      · subst he
        rw [Function.update_self, (h.nodup k.entry).mem_erase_iff]
        simp [and_comm]
      · simp [he]
    refine hgate.trans ?_
    by_cases hc : c' = c
    · subst hc
      refine iff_of_false ?_ fun hin => ?_
      · rintro ⟨hmem, hne⟩
        obtain ⟨k', hk', rfl, -⟩ := (h.mem e c').mp hmem
        cases hk.symm.trans hk'
        exact hne ⟨rfl, rfl⟩
      · obtain ⟨k', hk', -, hphase⟩ := claims_self.mp hin
        rw [hnext k' hk'] at hphase
        cases hphase
    · refine Iff.trans ?_ (claims_iff_of_ne hc).symm
      refine Iff.trans ?_ (h.mem e c')
      simp [hc]
  head e c' hown := by
    have hne : c' ≠ c := by
      rintro rfl
      obtain ⟨k', hk', -, hphase⟩ := claims_self.mp hown
      have := LockPhase.inGate_of_owns hphase
      rw [hnext k' hk'] at this
      cases this
    have hhead := h.head e c' ((claims_iff_of_ne hne).mp hown)
    by_cases he : e = k.entry
    · subst he
      simp only [PtyInputTargetLocks.leave, PtyInputTargetLocks.setClaim, Function.update_self]
      cases hgate : s.gate k.entry with
      | nil =>
        rw [hgate] at hhead
        cases hhead
      | cons a l =>
        rw [hgate] at hhead
        obtain rfl : a = c' := Option.some.inj hhead
        rw [List.erase_cons_tail (by simpa using hne)]
        rfl
    · simp only [PtyInputTargetLocks.leave, PtyInputTargetLocks.setClaim, Function.update_of_ne he]
      exact hhead

end Gated

namespace Counted
variable {s : PtyInputTargetLocks} {c : Caller}

theorem setClaim (h : s.Counted) {k : Option LockClaim}
    (hsame : ∀ e, (∃ k' ∈ k, k'.entry = e ∧ k'.phase.reserves = true) ↔
      s.Claims LockPhase.reserves e c) : (s.setClaim c k).Counted := by
  intro e
  obtain ⟨H, hH, hcard⟩ := h e
  refine ⟨H, fun c' => ?_, hcard⟩
  by_cases hc : c' = c
  · subst hc
    rw [claims_self, hsame]
    exact hH c'
  · rw [claims_iff_of_ne hc]
    exact hH c'

theorem reserve (h : s.Counted) (hk : s.claims c = none) (target : String) (e : EntryId) :
    ({ s with reservations := Function.update s.reservations e (s.reservations e + 1) }.setClaim c
      (some ⟨target, e, .reserved⟩)).Counted := by
  intro e'
  obtain ⟨H, hH, hcard⟩ := h e'
  have hnew : c ∉ H := by
    rw [hH]
    rintro ⟨k, hk', -⟩
    cases hk.symm.trans hk'
  by_cases he : e' = e
  · subst he
    refine ⟨insert c H, fun c' => ?_, ?_⟩
    · rw [Finset.mem_insert]
      by_cases hc : c' = c
      · subst hc
        exact iff_of_true (Or.inl rfl) (claims_self.mpr ⟨_, rfl, rfl, rfl⟩)
      · refine Iff.trans ?_ (claims_iff_of_ne hc).symm
        exact (or_iff_right hc).trans (hH c')
    · have hnow : Function.update s.reservations e' (s.reservations e' + 1) e' =
          s.reservations e' + 1 := Function.update_self e' _ s.reservations
      have hcard' : ((insert c H).card : ℤ) = s.reservations e' + 1 := by
        rw [Finset.card_insert_of_notMem hnew, hcard]
        rfl
      exact hnow.trans hcard'.symm
  · refine ⟨H, fun c' => ?_, (Function.update_of_ne he _ s.reservations).trans hcard⟩
    by_cases hc : c' = c
    · subst hc
      refine iff_of_false hnew fun hin => ?_
      obtain ⟨k', hk', rfl, -⟩ := claims_self.mp hin
      cases hk'
      exact he rfl
    · exact (hH c').trans (claims_iff_of_ne hc).symm

theorem release (h : s.Counted) {k : LockClaim} (hk : s.claims c = some k)
    (hres : k.phase.reserves = true) {next : Option LockClaim}
    (hnext : ∀ k' ∈ next, k'.phase.reserves = false) :
    ({ s with reservations :=
        Function.update s.reservations k.entry (s.reservations k.entry - 1) }.setClaim c next).Counted := by
  intro e'
  obtain ⟨H, hH, hcard⟩ := h e'
  have hgone : ∀ e, ¬ (s.setClaim c next).Claims LockPhase.reserves e c := by
    intro e hin
    obtain ⟨k', hk', -, hphase⟩ := claims_self.mp hin
    rw [hnext k' hk'] at hphase
    cases hphase
  by_cases he : e' = k.entry
  · subst he
    have hmem : c ∈ H := (hH c).mpr ⟨k, hk, rfl, hres⟩
    refine ⟨H.erase c, fun c' => ?_, ?_⟩
    · rw [Finset.mem_erase]
      by_cases hc : c' = c
      · subst hc
        exact iff_of_false (fun hin => hin.1 rfl) (hgone _)
      · refine Iff.trans ?_ (claims_iff_of_ne hc).symm
        exact (and_iff_right hc).trans (hH c')
    · have hcard' : ((H.erase c).card : ℤ) = s.reservations k.entry - 1 := by
        have := Finset.card_erase_add_one hmem
        omega
      exact (Function.update_self k.entry _ s.reservations).trans hcard'.symm
  · refine ⟨H, fun c' => ?_, (Function.update_of_ne he _ s.reservations).trans hcard⟩
    by_cases hc : c' = c
    · subst hc
      refine iff_of_false (fun hin => ?_) (hgone _)
      obtain ⟨k', hk', rfl, -⟩ := (hH c').mp hin
      cases hk.symm.trans hk'
      exact he rfl
    · exact (hH c').trans (claims_iff_of_ne hc).symm

theorem nonneg (h : s.Counted) (e : EntryId) : 0 ≤ s.reservations e := by
  obtain ⟨H, -, hcard⟩ := h e
  rw [hcard]
  exact Int.natCast_nonneg _

theorem pos (h : s.Counted) {k : LockClaim} (hk : s.claims c = some k)
    (hres : k.phase.reserves = true) : 0 < s.reservations k.entry := by
  obtain ⟨H, hH, hcard⟩ := h k.entry
  rw [hcard]
  exact_mod_cast Finset.card_pos.mpr ⟨c, (hH c).mpr ⟨k, hk, rfl, hres⟩⟩

end Counted

/-- A caller that moves on keeps its target and its entry. -/
theorem claim_of_setClaim {s : PtyInputTargetLocks} {c : Caller} {k : LockClaim}
    (hk : s.claims c = some k) {next : Option LockClaim}
    (hnext : ∀ k' ∈ next, k'.target = k.target ∧ k'.entry = k.entry) {c' : Caller} {k' : LockClaim}
    (h : (s.setClaim c next).claims c' = some k') :
    ∃ c₀ k₀, s.claims c₀ = some k₀ ∧ k'.target = k₀.target ∧ k'.entry = k₀.entry := by
  rcases claims_setClaim_some h with ⟨-, hn⟩ | ⟨-, hold⟩
  · exact ⟨c, k, hk, hnext k' hn⟩
  · exact ⟨c', k', hold, rfl, rfl⟩

theorem ne_of_lookup_erase {entries : AList fun _ : String => EntryId} {target target' : String}
    {e : EntryId} (h : (entries.erase target).lookup target' = some e) : target' ≠ target := by
  rintro rfl
  rw [AList.lookup_erase] at h
  cases h

namespace Mapped
variable {s : PtyInputTargetLocks} {c : Caller}

/-- A caller moves on that is not about to look after the map. -/
theorem setClaim (h : s.Mapped) {k : LockClaim} (hk : s.claims c = some k)
    (hnot : ∀ held, k.phase ≠ .removing held) {next : Option LockClaim}
    (hnext : ∀ k' ∈ next, k'.target = k.target ∧ k'.entry = k.entry ∧
      (k'.phase.reserves = true → k.phase.reserves = true)) : (s.setClaim c next).Mapped where
  current c' k' hk' hres := by
    rcases claims_setClaim_some hk' with ⟨-, hn⟩ | ⟨-, hold⟩
    · obtain ⟨htarget, hentry, himp⟩ := hnext k' hn
      rw [htarget, hentry]
      exact h.current c k hk (himp hres)
    · exact h.current c' k' hold hres
  backed target e hl := by
    rcases h.backed target e hl with hpos | ⟨c', k', held, hk', he, hphase⟩
    · exact Or.inl hpos
    · have hne : c' ≠ c := by
        rintro rfl
        cases hk.symm.trans hk'
        exact hnot held hphase
      exact Or.inr ⟨c', k', held, (claims_setClaim_ne next hne).trans hk', he, hphase⟩
  claimFor c' k' hk' := by
    obtain ⟨c₀, k₀, hk₀, htarget, hentry⟩ :=
      claim_of_setClaim hk (fun k' hn => ⟨(hnext k' hn).1, (hnext k' hn).2.1⟩) hk'
    rw [htarget, hentry]
    exact h.claimFor c₀ k₀ hk₀
  entryFor := h.entryFor
  claimFresh c' k' hk' := by
    obtain ⟨c₀, k₀, hk₀, -, hentry⟩ :=
      claim_of_setClaim hk (fun k' hn => ⟨(hnext k' hn).1, (hnext k' hn).2.1⟩) hk'
    rw [hentry]
    exact h.claimFresh c₀ k₀ hk₀
  entryFresh := h.entryFresh

/-- An entry of the map is reserved once more. -/
theorem reserve (h : s.Mapped) (hnonneg : ∀ e, 0 ≤ s.reservations e) (hk : s.claims c = none)
    {target : String} {e : EntryId} (hl : s.entries.lookup target = some e) :
    ({ s with reservations := Function.update s.reservations e (s.reservations e + 1) }.setClaim c
      (some ⟨target, e, .reserved⟩)).Mapped where
  current c' k' hk' hres := by
    rcases claims_setClaim_some hk' with ⟨-, hn⟩ | ⟨-, hold⟩
    · cases hn
      exact hl
    · exact h.current c' k' hold hres
  backed target' e' hl' := by
    rcases h.backed target' e' hl' with hpos | ⟨c', k', held, hk', he, hphase⟩
    · left
      by_cases he : e' = e
      · subst he
        have hnow : Function.update s.reservations e' (s.reservations e' + 1) e' =
            s.reservations e' + 1 := Function.update_self e' _ s.reservations
        exact lt_of_lt_of_eq (Int.lt_add_one_of_le (hnonneg e')) hnow.symm
      · have hnow : Function.update s.reservations e (s.reservations e + 1) e' =
            s.reservations e' := Function.update_of_ne he _ s.reservations
        exact lt_of_lt_of_eq hpos hnow.symm
    · have hne : c' ≠ c := by
        rintro rfl
        cases hk.symm.trans hk'
      exact Or.inr ⟨c', k', held, (claims_setClaim_ne _ hne).trans hk', he, hphase⟩
  claimFor c' k' hk' := by
    rcases claims_setClaim_some hk' with ⟨-, hn⟩ | ⟨-, hold⟩
    · cases hn
      exact h.entryFor target e hl
    · exact h.claimFor c' k' hold
  entryFor := h.entryFor
  claimFresh c' k' hk' := by
    rcases claims_setClaim_some hk' with ⟨-, hn⟩ | ⟨-, hold⟩
    · cases hn
      exact h.entryFresh target e hl
    · exact h.claimFresh c' k' hold
  entryFresh := h.entryFresh

/-- A reservation is given back; whoever gave back the last one looks after the map. -/
theorem release (h : s.Mapped) {k : LockClaim} (hk : s.claims c = some k)
    (hpos : 0 < s.reservations k.entry) (hnot : ∀ held, k.phase ≠ .removing held)
    {next : Option LockClaim}
    (hnext : ∀ k' ∈ next, k'.target = k.target ∧ k'.entry = k.entry ∧ k'.phase.reserves = false)
    (hlast : s.reservations k.entry = 1 → ∃ k' ∈ next, ∃ held, k'.phase = .removing held) :
    ({ s with reservations :=
        Function.update s.reservations k.entry (s.reservations k.entry - 1) }.setClaim c next).Mapped where
  current c' k' hk' hres' := by
    rcases claims_setClaim_some hk' with ⟨-, hn⟩ | ⟨-, hold⟩
    · rw [(hnext k' hn).2.2] at hres'
      cases hres'
    · exact h.current c' k' hold hres'
  backed target e hl := by
    by_cases he : e = k.entry
    · subst he
      by_cases hone : s.reservations k.entry = 1
      · obtain ⟨k', hk', held, hphase⟩ := hlast hone
        refine Or.inr ⟨c, k', held, ?_, (hnext k' hk').2.1, hphase⟩
        rw [claims_setClaim_self]
        exact hk'
      · left
        have hnow : Function.update s.reservations k.entry (s.reservations k.entry - 1) k.entry =
            s.reservations k.entry - 1 := Function.update_self k.entry _ s.reservations
        refine lt_of_lt_of_eq ?_ hnow.symm
        omega
    · have hnow : Function.update s.reservations k.entry (s.reservations k.entry - 1) e =
          s.reservations e := Function.update_of_ne he _ s.reservations
      rcases h.backed target e hl with hpos' | ⟨c', k', held, hk', he', hphase⟩
      · exact Or.inl (lt_of_lt_of_eq hpos' hnow.symm)
      · have hne : c' ≠ c := by
          rintro rfl
          cases hk.symm.trans hk'
          exact hnot held hphase
        exact Or.inr ⟨c', k', held, (claims_setClaim_ne next hne).trans hk', he', hphase⟩
  claimFor c' k' hk' := by
    obtain ⟨c₀, k₀, hk₀, htarget, hentry⟩ :=
      claim_of_setClaim hk (fun k' hn => ⟨(hnext k' hn).1, (hnext k' hn).2.1⟩) hk'
    rw [htarget, hentry]
    exact h.claimFor c₀ k₀ hk₀
  entryFor := h.entryFor
  claimFresh c' k' hk' := by
    obtain ⟨c₀, k₀, hk₀, -, hentry⟩ :=
      claim_of_setClaim hk (fun k' hn => ⟨(hnext k' hn).1, (hnext k' hn).2.1⟩) hk'
    rw [hentry]
    exact h.claimFresh c₀ k₀ hk₀
  entryFresh := h.entryFresh

/-- An entry that nobody reserves goes from the map. -/
theorem erase (h : s.Mapped) (hcount : s.Counted) {k : LockClaim} (hk : s.claims c = some k)
    (hzero : s.reservations k.entry = 0)
    (hl : s.entries.lookup k.target = some k.entry) {next : Option LockClaim}
    (hnext : ∀ k' ∈ next, k'.target = k.target ∧ k'.entry = k.entry ∧ k'.phase.reserves = false) :
    ({ s with entries := s.entries.erase k.target }.setClaim c next).Mapped where
  current c' k' hk' hres := by
    rcases claims_setClaim_some hk' with ⟨-, hn⟩ | ⟨-, hold⟩
    · rw [(hnext k' hn).2.2] at hres
      cases hres
    · have hcur := h.current c' k' hold hres
      have hne : k'.target ≠ k.target := by
        intro heq
        rw [heq] at hcur
        have hentry : k.entry = k'.entry := Option.some.inj (hl.symm.trans hcur)
        have hpos := hcount.pos hold hres
        rw [← hentry, hzero] at hpos
        exact lt_irrefl _ hpos
      exact (AList.lookup_erase_ne hne).trans hcur
  backed target e hl' := by
    have hne := ne_of_lookup_erase hl'
    have hold : s.entries.lookup target = some e := (AList.lookup_erase_ne hne).symm.trans hl'
    rcases h.backed target e hold with hpos | ⟨c', k', held', hk', he, hphase'⟩
    · exact Or.inl hpos
    · have hcne : c' ≠ c := by
        rintro rfl
        cases hk.symm.trans hk'
        exact hne ((h.entryFor target e hold).symm.trans (he ▸ h.claimFor c' k hk))
      exact Or.inr ⟨c', k', held', (claims_setClaim_ne next hcne).trans hk', he, hphase'⟩
  claimFor c' k' hk' := by
    obtain ⟨c₀, k₀, hk₀, htarget, hentry⟩ :=
      claim_of_setClaim hk (fun k' hn => ⟨(hnext k' hn).1, (hnext k' hn).2.1⟩) hk'
    rw [htarget, hentry]
    exact h.claimFor c₀ k₀ hk₀
  entryFor target e hl' := by
    have hne := ne_of_lookup_erase hl'
    exact h.entryFor target e ((AList.lookup_erase_ne hne).symm.trans hl')
  claimFresh c' k' hk' := by
    obtain ⟨c₀, k₀, hk₀, -, hentry⟩ :=
      claim_of_setClaim hk (fun k' hn => ⟨(hnext k' hn).1, (hnext k' hn).2.1⟩) hk'
    rw [hentry]
    exact h.claimFresh c₀ k₀ hk₀
  entryFresh target e hl' := by
    have hne := ne_of_lookup_erase hl'
    exact h.entryFresh target e ((AList.lookup_erase_ne hne).symm.trans hl')

/-- An entry that is still reserved, or not this one, stays. -/
theorem keep (h : s.Mapped) (hcount : s.Counted) {k : LockClaim} (hk : s.claims c = some k)
    (hstay : ¬ (s.entries.lookup k.target = some k.entry ∧ s.reservations k.entry = 0))
    {next : Option LockClaim}
    (hnext : ∀ k' ∈ next, k'.target = k.target ∧ k'.entry = k.entry ∧ k'.phase.reserves = false) :
    (s.setClaim c next).Mapped where
  current c' k' hk' hres' := by
    rcases claims_setClaim_some hk' with ⟨-, hn⟩ | ⟨-, hold⟩
    · rw [(hnext k' hn).2.2] at hres'
      cases hres'
    · exact h.current c' k' hold hres'
  backed target e hl := by
    rcases h.backed target e hl with hpos | ⟨c', k', held, hk', he, hphase⟩
    · exact Or.inl hpos
    · by_cases hc : c' = c
      · subst hc
        cases hk.symm.trans hk'
        have htarget : target = k.target :=
          (h.entryFor target e hl).symm.trans (he ▸ h.claimFor c' k hk)
        have hne : s.reservations e ≠ 0 := fun hzero => hstay ⟨htarget ▸ he ▸ hl, he ▸ hzero⟩
        exact Or.inl (lt_of_le_of_ne (hcount.nonneg e) hne.symm)
      · exact Or.inr ⟨c', k', held, (claims_setClaim_ne next hc).trans hk', he, hphase⟩
  claimFor c' k' hk' := by
    obtain ⟨c₀, k₀, hk₀, htarget, hentry⟩ :=
      claim_of_setClaim hk (fun k' hn => ⟨(hnext k' hn).1, (hnext k' hn).2.1⟩) hk'
    rw [htarget, hentry]
    exact h.claimFor c₀ k₀ hk₀
  entryFor := h.entryFor
  claimFresh c' k' hk' := by
    obtain ⟨c₀, k₀, hk₀, -, hentry⟩ :=
      claim_of_setClaim hk (fun k' hn => ⟨(hnext k' hn).1, (hnext k' hn).2.1⟩) hk'
    rw [hentry]
    exact h.claimFresh c₀ k₀ hk₀
  entryFresh := h.entryFresh

/-- A new entry comes into the map with its first reservation. -/
theorem make (h : s.Mapped) (hnonneg : ∀ e, 0 ≤ s.reservations e) (hk : s.claims c = none)
    {target : String} (hl : s.entries.lookup target = none) :
    ({ s with
        entries := s.entries.insert target s.fresh
        fresh := s.fresh + 1
        madeFor := Function.update s.madeFor s.fresh target
        reservations := Function.update s.reservations s.fresh (s.reservations s.fresh + 1)
        }.setClaim c (some ⟨target, s.fresh, .reserved⟩)).Mapped := by
  have hlookup : ∀ {target' : String} {e : EntryId},
      (s.entries.insert target s.fresh).lookup target' = some e →
      target' = target ∧ e = s.fresh ∨ target' ≠ target ∧ s.entries.lookup target' = some e := by
    intro target' e h'
    by_cases ht : target' = target
    · subst ht
      rw [AList.lookup_insert] at h'
      exact Or.inl ⟨rfl, (Option.some.inj h').symm⟩
    · rw [AList.lookup_insert_ne ht] at h'
      exact Or.inr ⟨ht, h'⟩
  have hmade : ∀ {e : EntryId}, e < s.fresh →
      Function.update s.madeFor s.fresh target e = s.madeFor e :=
    fun he => Function.update_of_ne (Nat.ne_of_lt he) _ _
  have hmadeSelf : Function.update s.madeFor s.fresh target s.fresh = target :=
    Function.update_self s.fresh target s.madeFor
  constructor
  case current =>
    intro c' k' hk' hres
    rcases claims_setClaim_some hk' with ⟨-, hn⟩ | ⟨-, hold⟩
    · cases hn
      exact AList.lookup_insert s.entries
    · have hcur := h.current c' k' hold hres
      have hne : k'.target ≠ target := by
        intro heq
        rw [heq, hl] at hcur
        cases hcur
      exact (AList.lookup_insert_ne hne).trans hcur
  case backed =>
    intro target' e hl'
    rcases hlookup hl' with ⟨-, rfl⟩ | ⟨-, hold⟩
    · have hnow : Function.update s.reservations s.fresh (s.reservations s.fresh + 1) s.fresh =
          s.reservations s.fresh + 1 := Function.update_self s.fresh _ s.reservations
      exact Or.inl (lt_of_lt_of_eq (Int.lt_add_one_of_le (hnonneg s.fresh)) hnow.symm)
    · have hnow : Function.update s.reservations s.fresh (s.reservations s.fresh + 1) e =
          s.reservations e :=
        Function.update_of_ne (Nat.ne_of_lt (h.entryFresh target' e hold)) _ s.reservations
      rcases h.backed target' e hold with hpos | ⟨c', k', held, hk', he, hphase⟩
      · exact Or.inl (lt_of_lt_of_eq hpos hnow.symm)
      · have hne : c' ≠ c := by
          rintro rfl
          cases hk.symm.trans hk'
        exact Or.inr ⟨c', k', held, (claims_setClaim_ne _ hne).trans hk', he, hphase⟩
  case claimFor =>
    intro c' k' hk'
    rcases claims_setClaim_some hk' with ⟨-, hn⟩ | ⟨-, hold⟩
    · cases hn
      exact hmadeSelf
    · exact (hmade (h.claimFresh c' k' hold)).trans (h.claimFor c' k' hold)
  case entryFor =>
    intro target' e hl'
    rcases hlookup hl' with ⟨rfl, rfl⟩ | ⟨-, hold⟩
    · exact hmadeSelf
    · exact (hmade (h.entryFresh target' e hold)).trans (h.entryFor target' e hold)
  case claimFresh =>
    intro c' k' hk'
    rcases claims_setClaim_some hk' with ⟨-, hn⟩ | ⟨-, hold⟩
    · cases hn
      exact Nat.lt_succ_self s.fresh
    · exact Nat.lt_succ_of_lt (h.claimFresh c' k' hold)
  case entryFresh =>
    intro target' e hl'
    rcases hlookup hl' with ⟨-, rfl⟩ | ⟨-, hold⟩
    · exact Nat.lt_succ_self s.fresh
    · exact Nat.lt_succ_of_lt (h.entryFresh target' e hold)

end Mapped

end PtyInputTargetLocks
end AgentsCommander.MessageStore
