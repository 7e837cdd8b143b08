import AgentsCommander.Watchers.Dedupe

/-! When a key can be admitted again. -/
namespace AgentsCommander.Watchers
open Foundation

/-- One successful admission, and whether the key was not held. -/
structure Admission where
  key : String
  time : Instant
  entered : Bool
  deriving DecidableEq, Repr

/-- The admissions of a run, newest first. -/
abbrev Admissions := List Admission

namespace Admissions

/-- The admissions after the last one that found the key not held. -/
def sinceEntry (key : String) (log : Admissions) : Admissions :=
  log.takeWhile fun a => !(a.key = key && a.entered)

/-- The keys admitted, but for one. -/
def others (key : String) (log : Admissions) : Finset String := (log.map (·.key)).toFinset.erase key

theorem sinceEntry_cons {a : Admission} {key : String} (log : Admissions)
    (h : a.key = key → a.entered = false) :
    sinceEntry key (a :: log) = a :: sinceEntry key log := by
  refine List.takeWhile_cons_of_pos ?_
  by_cases hk : a.key = key
  · simp [h hk]
  · simp [hk]

theorem mem_sinceEntry_append {key : String} {a : Admission} {newer older : Admissions}
    (h : a ∈ sinceEntry key (newer ++ older)) : a ∈ newer ++ sinceEntry key older := by
  induction newer with
  | nil => exact h
  | cons b newer ih =>
    unfold sinceEntry at h ih
    rw [List.cons_append, List.takeWhile_cons] at h
    split_ifs at h
    · rcases List.mem_cons.mp h with rfl | h
      · exact List.mem_cons_self
      · exact List.mem_cons_of_mem _ (ih h)
    · exact absurd h List.not_mem_nil

theorem others_mono {key : String} {log more : Admissions} (h : ∀ a ∈ log, a ∈ more) :
    others key log ⊆ others key more := by
  refine Finset.erase_subset_erase _ fun k hk => ?_
  obtain ⟨a, ha, rfl⟩ := List.mem_map.mp (List.mem_toFinset.mp hk)
  exact List.mem_toFinset.mpr (List.mem_map_of_mem (h a ha))

theorem card_others_le (key : String) (log : Admissions) : (others key log).card ≤ log.length :=
  (Finset.card_erase_le.trans (List.toFinset_card_le _)).trans_eq (List.length_map _)

/-- Of two admissions of a key, the later one comes a window after the earlier one, or after as
many other keys as the set holds, counted from when the key last entered it. -/
def Spaced (window : Duration) (log : Admissions) : Prop :=
  ∀ newer between older a b, log = newer ++ b :: (between ++ a :: older) → b.key = a.key →
    window ≤ b.time - a.time ∨
      maxKeys ≤ (others a.key (between ++ sinceEntry a.key (a :: older))).card

theorem Spaced.cons {window : Duration} {log : Admissions} (h : Spaced window log) {b : Admission}
    (hb : ∀ between older a, log = between ++ a :: older → b.key = a.key →
      window ≤ b.time - a.time ∨
        maxKeys ≤ (others a.key (between ++ sinceEntry a.key (a :: older))).card) :
    Spaced window (b :: log) := by
  intro newer between older a c heq hkey
  cases newer with
  | nil =>
    obtain ⟨rfl, hlog⟩ := List.cons.inj heq
    exact hb between older a hlog hkey
  | cons first newer => exact h newer between older a c (List.cons.inj heq).2 hkey

end Admissions

open Admissions

/-- What the set knows of the admissions behind it. -/
structure Accounts (window : Duration) (d : DedupeKeys) (now : Instant) (log : Admissions) :
    Prop where
  listed : d.Listed
  past : ∀ a ∈ log, a.time ≤ now
  held : ∀ key admitted, d.seen.lookup key = some admitted →
    admitted ≤ now ∧ ∀ a ∈ log, a.key = key → a.time ≤ admitted
  behind : d.order.Pairwise fun key other => ∃ a ∈ sinceEntry key log, a.key = other
  dropped : ∀ between older a, log = between ++ a :: older → d.seen.lookup a.key = none →
    window ≤ now - a.time ∨
      maxKeys ≤ (others a.key (between ++ sinceEntry a.key (a :: older))).card
  spaced : Spaced window log

namespace Accounts
variable {window : Duration} {d : DedupeKeys} {now : Instant} {log : Admissions}

theorem initial : Accounts window .default 0 [] where
  listed := DedupeKeys.listed_default
  past := nofun
  held key admitted h := nomatch h
  behind := List.Pairwise.nil
  dropped between older a h := by simp at h
  spaced newer between older a b h := by simp at h

theorem later (h : Accounts window d now log) (elapsed : Duration) :
    Accounts window d (now + elapsed) log where
  listed := h.listed
  past a ha := (h.past a ha).trans (Nat.le_add_right _ _)
  held key admitted hk := ⟨(h.held key admitted hk).1.trans (Nat.le_add_right _ _),
    (h.held key admitted hk).2⟩
  behind := h.behind
  dropped between older a hlog hk := (h.dropped between older a hlog hk).imp_left fun hle =>
    hle.trans (Nat.sub_le_sub_right (Nat.le_add_right _ _) _)
  spaced := h.spaced

theorem prune (h : Accounts window d now log) : Accounts window (d.prune now window) now log where
  listed := h.listed.prune now window
  past := h.past
  held key admitted hk := by
    rw [DedupeKeys.lookup_prune] at hk
    exact h.held key admitted (Option.filter_eq_some_iff.mp hk).1
  behind := h.behind.sublist List.filter_sublist
  dropped between older a hlog hk := by
    rw [DedupeKeys.lookup_prune] at hk
    cases hheld : d.seen.lookup a.key with
    | none => exact h.dropped between older a hlog hheld
    | some admitted =>
      rw [hheld, Option.filter_eq_none_iff] at hk
      have hover : window ≤ now - admitted := by simpa using hk admitted rfl
      have htime : a.time ≤ admitted :=
        (h.held a.key admitted hheld).2 a (by rw [hlog]; simp) rfl
      exact .inl (hover.trans (Nat.sub_le_sub_left htime now))
  spaced := h.spaced

/-- A key that is held keeps its place in the order when it is admitted again. -/
theorem refreshed (h : Accounts window d now log) {key : String} {admitted : Instant}
    (hheld : d.seen.lookup key = some admitted) (hover : window ≤ now - admitted) :
    Accounts window { d with seen := d.seen.insert key now } now (⟨key, now, false⟩ :: log) where
  listed := h.listed.refresh hheld now
  past := List.forall_mem_cons.mpr ⟨le_rfl, h.past⟩
  held other time hk := by
    rw [Assoc.lookup_insert_eq] at hk
    split_ifs at hk with ho
    · obtain rfl := Option.some.inj hk
      exact ⟨le_rfl, List.forall_mem_cons.mpr ⟨fun _ => le_rfl, fun a ha _ => h.past a ha⟩⟩
    · exact ⟨(h.held other time hk).1, List.forall_mem_cons.mpr
        ⟨fun he => absurd he.symm ho, (h.held other time hk).2⟩⟩
  behind := h.behind.imp fun {k other} ⟨a, ha, hk⟩ =>
    ⟨a, by rw [sinceEntry_cons log fun _ => rfl]; exact List.mem_cons_of_mem _ ha, hk⟩
  dropped between older a hlog hk := by
    rw [Assoc.lookup_insert_eq] at hk
    split_ifs at hk with ho
    cases between with
    | nil => exact absurd (congrArg Admission.key (List.cons.inj hlog).1).symm ho
    | cons first between =>
      refine (h.dropped between older a (List.cons.inj hlog).2 hk).imp_right fun hcard =>
        hcard.trans (Finset.card_le_card (others_mono fun b hb => ?_))
      exact List.mem_cons_of_mem _ hb
  spaced := h.spaced.cons fun between older a hlog hk => by
    have htime : a.time ≤ admitted :=
      (h.held key admitted hheld).2 a (by rw [hlog]; simp) hk.symm
    exact .inl (hover.trans (Nat.sub_le_sub_left htime now))

/-- The entry of a new key stands behind every key that is held. -/
theorem behind_push (now : Instant) {order : List String} {key : String}
    (h : order.Pairwise fun k other => ∃ a ∈ sinceEntry k log, a.key = other) (hkey : key ∉ order) :
    (order ++ [key]).Pairwise fun k other =>
      ∃ a ∈ sinceEntry k (⟨key, now, true⟩ :: log), a.key = other := by
  have hcons : ∀ k ∈ order,
      sinceEntry k (⟨key, now, true⟩ :: log) = ⟨key, now, true⟩ :: sinceEntry k log :=
    fun k hk => sinceEntry_cons log fun he => absurd ((show key = k from he) ▸ hk) hkey
  refine List.pairwise_append.mpr ⟨?_, List.pairwise_singleton _ _, fun k hk other hother => ?_⟩
  · refine h.imp_of_mem fun {k other} hk _ ⟨a, ha, he⟩ => ⟨a, ?_, he⟩
    rw [hcons k hk]
    exact List.mem_cons_of_mem _ ha
  · rw [hcons k hk]
    exact ⟨_, List.mem_cons_self, (List.mem_singleton.mp hother).symm⟩

theorem held_push (h : Accounts window d now log) {key : String} {seen : AList fun _ => Instant}
    (hseen : ∀ other time, seen.lookup other = some time → d.seen.lookup other = some time)
    (other : String) (time : Instant) (hk : (seen.insert key now).lookup other = some time) :
    time ≤ now ∧ ∀ a ∈ (⟨key, now, true⟩ : Admission) :: log, a.key = other → a.time ≤ time := by
  rw [Assoc.lookup_insert_eq] at hk
  split_ifs at hk with ho
  · obtain rfl := Option.some.inj hk
    exact ⟨le_rfl, List.forall_mem_cons.mpr ⟨fun _ => le_rfl, fun a ha _ => h.past a ha⟩⟩
  · have hheld := h.held other time (hseen other time hk)
    exact ⟨hheld.1, List.forall_mem_cons.mpr ⟨fun he => absurd he.symm ho, hheld.2⟩⟩

/-- What was dropped before stays accounted for when a key enters. -/
theorem dropped_push (h : Accounts window d now log) {key : String} {between older : Admissions}
    {a : Admission} (hlog : (⟨key, now, true⟩ : Admission) :: log = between ++ a :: older)
    (hne : a.key ≠ key) (hk : d.seen.lookup a.key = none) :
    window ≤ now - a.time ∨
      maxKeys ≤ (others a.key (between ++ sinceEntry a.key (a :: older))).card := by
  cases between with
  | nil => exact absurd (congrArg Admission.key (List.cons.inj hlog).1).symm hne
  | cons first between =>
    refine (h.dropped between older a (List.cons.inj hlog).2 hk).imp_right fun hcard =>
      hcard.trans (Finset.card_le_card (others_mono fun b hb => ?_))
    exact List.mem_cons_of_mem _ hb

theorem spaced_push (h : Accounts window d now log) {key : String}
    (hnew : d.seen.lookup key = none) : Spaced window (⟨key, now, true⟩ :: log) :=
  h.spaced.cons fun between older a hlog hk => h.dropped between older a hlog (hk ▸ hnew)

/-- There is room for a key that is not held. -/
theorem entered (h : Accounts window d now log) {key : String} (hnew : d.seen.lookup key = none)
    (hroom : d.order.length < maxKeys) :
    Accounts window ⟨d.seen.insert key now, d.order ++ [key]⟩ now (⟨key, now, true⟩ :: log) where
  listed := h.listed.push hnew hroom now
  past := List.forall_mem_cons.mpr ⟨le_rfl, h.past⟩
  held := h.held_push fun _ _ hk => hk
  behind := behind_push now h.behind (by rw [h.listed.mem, hnew]; exact Bool.false_ne_true)
  dropped between older a hlog hk := by
    rw [Assoc.lookup_insert_eq] at hk
    split_ifs at hk with ho
    exact h.dropped_push hlog ho hk
  spaced := h.spaced_push hnew

/-- As many other keys have been admitted since a key entered as stand behind it. -/
theorem length_le_others {first : String} {rest : List String} {log : Admissions}
    (hnodup : (first :: rest).Nodup)
    (h : ∀ k ∈ rest, ∃ a ∈ sinceEntry first log, a.key = k) :
    rest.length ≤ (others first (sinceEntry first log)).card := by
  obtain ⟨hfirst, hrest⟩ := List.nodup_cons.mp hnodup
  rw [← List.toFinset_card_of_nodup hrest]
  refine Finset.card_le_card fun k hk => ?_
  have hk := List.mem_toFinset.mp hk
  obtain ⟨a, ha, rfl⟩ := h k hk
  refine Finset.mem_erase.mpr ⟨fun he => hfirst (he ▸ hk), ?_⟩
  exact List.mem_toFinset.mpr (List.mem_map_of_mem ha)

/-- The front makes room: by then as many others have entered as the set holds. -/
theorem displaced (h : Accounts window d now log) {key first : String} {rest : List String}
    (hnew : d.seen.lookup key = none) (hfront : d.order = first :: rest)
    (hfull : rest.length + 1 = maxKeys) :
    Accounts window ⟨(d.seen.erase first).insert key now, rest ++ [key]⟩ now
      (⟨key, now, true⟩ :: log) where
  listed := (h.listed.dropFront hfront).push (DedupeKeys.lookup_erase_of_none hnew)
    (hfull ▸ Nat.lt_succ_self _) now
  past := List.forall_mem_cons.mpr ⟨le_rfl, h.past⟩
  held := h.held_push fun other time hk => by
    rw [Assoc.lookup_erase_eq] at hk
    split_ifs at hk
    exact hk
  behind := by
    have hkey : key ∉ d.order := by rw [h.listed.mem, hnew]; exact Bool.false_ne_true
    rw [hfront] at hkey
    refine behind_push now ?_ (List.not_mem_of_not_mem_cons hkey)
    exact (hfront ▸ h.behind).sublist (List.sublist_cons_self first rest)
  dropped between older a hlog hk := by
    rw [Assoc.lookup_insert_eq] at hk
    split_ifs at hk with ho
    rw [Assoc.lookup_erase_eq] at hk
    split_ifs at hk with hf
    · have hkey : key ∉ d.order := by rw [h.listed.mem, hnew]; exact Bool.false_ne_true
      have hall := behind_push now h.behind hkey
      rw [hfront, List.cons_append, List.pairwise_cons] at hall
      have hnodup : (first :: (rest ++ [key])).Nodup := by
        rw [← List.cons_append, ← hfront]
        exact h.listed.nodup.append (List.nodup_singleton key) (List.disjoint_singleton.mpr hkey)
      have hcard := length_le_others hnodup hall.1
      rw [List.length_append, List.length_singleton, hfull, ← hf, hlog] at hcard
      exact .inr (hcard.trans (Finset.card_le_card
        (others_mono fun b hb => mem_sinceEntry_append hb)))
    · exact h.dropped_push hlog ho hk
  spaced := h.spaced_push hnew

end Accounts

/-- One call, some time after the one before it. -/
inductive DedupeCall where
  | admitKey (key : String)
  | prune
  deriving DecidableEq, Repr

structure DedupeEvent where
  elapsed : Duration
  call : DedupeCall
  deriving DecidableEq, Repr

namespace DedupeKeys

/-- The set and the instant of the last call. A call of `prune` has no answer. -/
def calls (window : Duration) : Machine (DedupeKeys × Instant) DedupeEvent (Option Bool) where
  step s e :=
    let now := s.2 + e.elapsed
    match e.call with
    | .admitKey key =>
      let answered := s.1.admitKey key now window
      ((answered.2, now), some answered.1)
    | .prune => ((s.1.prune now window, now), none)

/-- The log gains the admissions that succeed. -/
def logged (log : Admissions) (s : DedupeKeys × Instant) (e : DedupeEvent) (answer : Option Bool) :
    Admissions :=
  match e.call with
  | .admitKey key =>
    if answer = some true then ⟨key, s.2 + e.elapsed, (s.1.seen.lookup key).isNone⟩ :: log else log
  | .prune => log

def recorded (window : Duration) :
    Machine ((DedupeKeys × Instant) × Admissions) DedupeEvent (Option Bool) :=
  (calls window).trace logged

theorem accounts_run (window : Duration) (events : List DedupeEvent) :
    let s := (recorded window).run ((default, 0), []) events
    Accounts window s.1.1 s.1.2 s.2 := by
  refine Machine.run_inv_free (M := recorded window)
    (P := fun s => Accounts window s.1.1 s.1.2 s.2) (fun s e h => ?_) Accounts.initial events
  obtain ⟨⟨d, now⟩, log⟩ := s
  obtain ⟨elapsed, call⟩ := e
  have hlater := Accounts.later h elapsed
  cases call with
  | prune => exact hlater.prune
  | admitKey key =>
    have hadmits := hlater.listed.admits key (now + elapsed) window
    show Accounts window (d.admitKey key (now + elapsed) window).2 (now + elapsed)
      (if some (d.admitKey key (now + elapsed) window).1 = some true then
        ⟨key, now + elapsed, (d.seen.lookup key).isNone⟩ :: log else log)
    generalize d.admitKey key (now + elapsed) window = answered at hadmits
    cases hadmits with
    | suppressed held live => exact hlater
    | refreshed held past =>
      rw [if_pos rfl, held]
      exact hlater.refreshed held past
    | entered new room =>
      rw [if_pos rfl, new]
      exact hlater.entered new room
    | displaced new front full =>
      rw [if_pos rfl, new]
      exact hlater.displaced new front full

theorem Listed.keys_length {d : DedupeKeys} (h : d.Listed) :
    d.seen.keys.length ≤ d.order.length := by
  refine (List.Nodup.subperm d.seen.keys_nodup fun key hkey => ?_).length_le
  exact (h.mem key).mpr (AList.lookup_isSome.mpr (AList.mem_keys.mp hkey))

theorem next_admit {window : Duration} {d d' : DedupeKeys} {now later : Instant}
    {log : Admissions} {key : String} {elapsed : Duration}
    (h : d.admitKey key later window = (true, d'))
    (hlater : now + elapsed = later) :
    (recorded window).next ((d, now), log) ⟨elapsed, .admitKey key⟩ =
      ((d', later), ⟨key, later, (d.seen.lookup key).isNone⟩ :: log) := by
  subst hlater
  simp [recorded, Machine.trace, Machine.next, Machine.answer, calls, logged, h]

theorem Listed.not_mem {d : DedupeKeys} (h : d.Listed) {key : String} (hkey : key ∉ d.order) :
    d.seen.lookup key = none := by
  rwa [h.mem, Bool.not_eq_true, Option.isSome_eq_false_iff, Option.isNone_iff_eq_none] at hkey

theorem Listed.admit_room {d : DedupeKeys} (h : d.Listed) {key : String} (hkey : key ∉ d.order)
    (hroom : d.order.length < maxKeys) (now : Instant) (window : Duration) :
    d.admitKey key now window = (true, ⟨d.seen.insert key now, d.order ++ [key]⟩) := by
  have hnew := h.not_mem hkey
  have hadmits := h.admits key now window
  generalize d.admitKey key now window = answered at hadmits
  cases hadmits with
  | suppressed held => exact nomatch hnew.symm.trans held
  | refreshed held => exact nomatch hnew.symm.trans held
  | entered => rfl
  | displaced new front full =>
    rw [front, List.length_cons, full] at hroom
    exact absurd hroom (lt_irrefl _)

theorem Listed.admit_full {d : DedupeKeys} (h : d.Listed) {key first : String} {rest : List String}
    (hkey : key ∉ d.order) (hfront : d.order = first :: rest) (hfull : d.order.length = maxKeys)
    (now : Instant) (window : Duration) :
    d.admitKey key now window =
      (true, ⟨(d.seen.erase first).insert key now, rest ++ [key]⟩) := by
  have hnew := h.not_mem hkey
  have hadmits := h.admits key now window
  generalize d.admitKey key now window = answered at hadmits
  cases hadmits with
  | suppressed held => exact nomatch hnew.symm.trans held
  | refreshed held => exact nomatch hnew.symm.trans held
  | entered new room => exact absurd hfull room.ne
  | displaced new front full =>
    obtain ⟨rfl, rfl⟩ := List.cons.inj (front.symm.trans hfront)
    rfl

theorem admit_of_none {d : DedupeKeys} {key : String} (h : d.seen.lookup key = none)
    (now : Instant) (window : Duration) : (d.admitKey key now window).1 = true := by
  rw [admitKey, h]

theorem admit_over {d : DedupeKeys} {key : String} {admitted now : Instant} {window : Duration}
    (hheld : d.seen.lookup key = some admitted) (hover : window ≤ now - admitted) :
    d.admitKey key now window = (true, { d with seen := d.seen.insert key now }) := by
  rw [admitKey, hheld]
  exact if_neg hover.not_gt

/-- New keys fill the order while there is room. -/
theorem run_fresh (window : Duration) {d : DedupeKeys} (now : Instant) (log : Admissions)
    (keys : List String) (h : d.Listed) (hnodup : (d.order ++ keys).Nodup)
    (hroom : (d.order ++ keys).length ≤ maxKeys) :
    (recorded window).run ((d, now), log) (keys.map fun key => ⟨0, .admitKey key⟩) =
      ((⟨keys.foldl (fun seen key => seen.insert key now) d.seen, d.order ++ keys⟩, now),
        (keys.map fun key => ⟨key, now, true⟩).reverse ++ log) := by
  induction keys generalizing d log with
  | nil => simp
  | cons key keys ih =>
    have hkey : key ∉ d.order := fun hk =>
      (List.nodup_append.mp hnodup).2.2 key hk key List.mem_cons_self rfl
    have hlength : d.order.length < maxKeys := by
      rw [List.length_append, List.length_cons] at hroom
      omega
    rw [List.map_cons, Machine.run_cons, next_admit (h.admit_room hkey hlength now window) rfl,
      h.not_mem hkey, ih]
    · simp
    · exact h.push (h.not_mem hkey) hlength now
    · simpa using hnodup
    · simpa using hroom

/-- A key that is admitted again at the front of a full order goes with the next new key, and
comes back at once. -/
theorem run_readmitted (window elapsed : Duration) (now : Instant) {d : DedupeKeys}
    {admitted : Instant} (log : Admissions) {key other : String} {rest : List String}
    (h : d.Listed) (hfront : d.order = key :: rest) (hfull : d.order.length = maxKeys)
    (hheld : d.seen.lookup key = some admitted) (hover : window ≤ now + elapsed - admitted)
    (hother : other ∉ d.order) :
    ((recorded window).run ((d, now), log)
      [⟨elapsed, .admitKey key⟩, ⟨0, .admitKey other⟩, ⟨0, .admitKey key⟩]).2 =
        ⟨key, now + elapsed, true⟩ :: ⟨other, now + elapsed, true⟩ ::
          ⟨key, now + elapsed, false⟩ :: log := by
  have hrefreshed := h.refresh hheld (now + elapsed)
  have hnew := hrefreshed.not_mem hother
  have hroom : rest.length < maxKeys := by
    rw [← hfull, hfront]
    exact Nat.lt_succ_self _
  have hgap : (AList.erase key (d.seen.insert key (now + elapsed))).lookup other = none :=
    lookup_erase_of_none (d := ⟨d.seen.insert key (now + elapsed), d.order⟩) hnew
  have hdropped := (hrefreshed.dropFront hfront).push hgap hroom (now + elapsed)
  have hkey : key ∉ rest ++ [other] := by
    rw [List.mem_append, List.mem_singleton, not_or]
    refine ⟨(List.nodup_cons.mp (hfront ▸ h.nodup)).1, fun he => hother ?_⟩
    rw [← he, hfront]
    exact List.mem_cons_self
  have hgone := hdropped.not_mem hkey
  rw [Machine.run_cons, next_admit (admit_over hheld hover) rfl, Machine.run_cons,
    next_admit (hrefreshed.admit_full hother hfront hfull (now + elapsed) window)
      (Nat.add_zero _),
    Machine.run_cons, Machine.run_nil,
    next_admit (Prod.ext (admit_of_none hgone _ window) rfl) (Nat.add_zero _)]
  simp only [hheld, hnew, hgone, Option.isNone_none, Option.isNone_some]

/-- As many keys as one asks for. -/
def rows (n : ℕ) : List String := (List.range n).map fun i => String.ofList (List.replicate i 'a')

theorem length_rows (n : ℕ) : (rows n).length = n := by simp [rows]

theorem rows_nodup (n : ℕ) : (rows n).Nodup := by
  refine List.Nodup.map (fun i j hij => ?_) List.nodup_range
  simpa using congrArg String.length hij

theorem rows_succ (n : ℕ) :
    rows (n + 1) = rows n ++ [String.ofList (List.replicate n 'a')] := by
  simp [rows, List.range_succ]

end DedupeKeys
end AgentsCommander.Watchers
