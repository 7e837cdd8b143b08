import AgentsCommander.Foundation.Assoc
import AgentsCommander.Foundation.Machine
import Mathlib.Data.Finset.Card

/-! The keys one watcher has seen recently in one session. -/
namespace AgentsCommander.Watchers
open Foundation

abbrev Instant := ℕ
abbrev Duration := ℕ

def maxKeys : ℕ := 256

/-- When each key was last admitted, and the order they were inserted in. -/
structure DedupeKeys where
  seen : AList fun _ : String => Instant
  order : List String

namespace DedupeKeys

def default : DedupeKeys := ⟨∅, []⟩

/-- The loop of `admitKey`: the front goes while the order is too long. -/
def evict (seen : AList fun _ : String => Instant) : List String → DedupeKeys
  | [] => ⟨seen, []⟩
  | key :: order =>
    if maxKeys < (key :: order).length then evict (seen.erase key) order else ⟨seen, key :: order⟩

def admitKey (d : DedupeKeys) (key : String) (now : Instant) (window : Duration) :
    Bool × DedupeKeys :=
  match d.seen.lookup key with
  | some admitted =>
    if now - admitted < window then (false, d)
    else (true, { d with seen := d.seen.insert key now })
  | none =>
    let evicted := evict d.seen (d.order ++ [key])
    (true, { evicted with seen := evicted.seen.insert key now })

def prune (d : DedupeKeys) (now : Instant) (window : Duration) : DedupeKeys :=
  let seen := Assoc.keep d.seen fun _ admitted => now - admitted < window
  ⟨seen, d.order.filter fun key => (seen.lookup key).isSome⟩

/-- The order lists the keys that are held, each once, and there are not too many. -/
structure Listed (d : DedupeKeys) : Prop where
  nodup : d.order.Nodup
  mem : ∀ key, key ∈ d.order ↔ (d.seen.lookup key).isSome
  bound : d.order.length ≤ maxKeys

theorem listed_default : default.Listed :=
  ⟨List.nodup_nil, fun key => by simp [default], Nat.zero_le _⟩

theorem evict_of_length_le (seen : AList fun _ : String => Instant) {order : List String}
    (h : order.length ≤ maxKeys) : evict seen order = ⟨seen, order⟩ := by
  cases order with
  | nil => rfl
  | cons key order => rw [evict, if_neg h.not_gt]

/-- A suppressed key, a key whose window is over, or a new one that makes the front go when the
order is full. -/
inductive Admits (d : DedupeKeys) (key : String) (now : Instant) (window : Duration) :
    Bool × DedupeKeys → Prop where
  | suppressed {admitted} (held : d.seen.lookup key = some admitted)
      (live : now - admitted < window) : Admits d key now window (false, d)
  | refreshed {admitted} (held : d.seen.lookup key = some admitted)
      (past : window ≤ now - admitted) :
      Admits d key now window (true, { d with seen := d.seen.insert key now })
  | entered (new : d.seen.lookup key = none) (room : d.order.length < maxKeys) :
      Admits d key now window (true, ⟨d.seen.insert key now, d.order ++ [key]⟩)
  | displaced {first rest} (new : d.seen.lookup key = none) (front : d.order = first :: rest)
      (full : rest.length + 1 = maxKeys) :
      Admits d key now window (true, ⟨(d.seen.erase first).insert key now, rest ++ [key]⟩)

theorem Listed.admits {d : DedupeKeys} (h : d.Listed) (key : String) (now : Instant)
    (window : Duration) : Admits d key now window (d.admitKey key now window) := by
  have hbound := h.bound
  unfold admitKey
  cases hheld : d.seen.lookup key with
  | some admitted =>
    dsimp only
    split_ifs with hlive
    · exact .suppressed hheld hlive
    · exact .refreshed hheld (Nat.le_of_not_lt hlive)
  | none =>
    rcases Nat.lt_or_ge d.order.length maxKeys with hroom | hfull
    · have hlength : (d.order ++ [key]).length ≤ maxKeys := by
        rw [List.length_append, List.length_singleton]
        exact hroom
      rw [evict_of_length_le _ hlength]
      exact .entered hheld hroom
    · cases horder : d.order with
      | nil => exact absurd (horder ▸ hfull) (by decide)
      | cons first rest =>
        rw [horder, List.length_cons] at hbound hfull
        have hlength : (rest ++ [key]).length ≤ maxKeys := by
          rw [List.length_append, List.length_singleton]
          exact hbound
        have hover : maxKeys < (first :: (rest ++ [key])).length := by
          rw [List.length_cons, List.length_append, List.length_singleton]
          omega
        rw [List.cons_append, evict, if_pos hover, evict_of_length_le _ hlength]
        exact .displaced hheld horder (le_antisymm hbound hfull)

theorem lookup_prune (d : DedupeKeys) (now : Instant) (window : Duration) (key : String) :
    (d.prune now window).seen.lookup key =
      (d.seen.lookup key).filter fun admitted => now - admitted < window :=
  Assoc.lookup_keep _ _ _

theorem Listed.prune {d : DedupeKeys} (h : d.Listed) (now : Instant) (window : Duration) :
    (d.prune now window).Listed where
  nodup := h.nodup.filter _
  mem key := by
    show key ∈ d.order.filter (fun key => ((d.prune now window).seen.lookup key).isSome) ↔ _
    rw [List.mem_filter, h.mem, lookup_prune]
    cases d.seen.lookup key <;> simp
  bound := (List.length_filter_le _ _).trans h.bound

theorem Listed.refresh {d : DedupeKeys} (h : d.Listed) {key : String} {admitted : Instant}
    (hheld : d.seen.lookup key = some admitted) (now : Instant) :
    Listed { d with seen := d.seen.insert key now } where
  nodup := h.nodup
  mem other := by
    rw [h.mem, Assoc.lookup_insert_eq]
    split_ifs with ho
    · rw [ho, hheld]
      exact iff_of_true rfl rfl
    · rfl
  bound := h.bound

theorem Listed.push {d : DedupeKeys} (h : d.Listed) {key : String}
    (hnew : d.seen.lookup key = none) (hroom : d.order.length < maxKeys) (now : Instant) :
    Listed ⟨d.seen.insert key now, d.order ++ [key]⟩ where
  nodup := by
    have hkey : key ∉ d.order := by rw [h.mem, hnew]; exact Bool.false_ne_true
    exact h.nodup.append (List.nodup_singleton key) (List.disjoint_singleton.mpr hkey)
  mem other := by
    rw [List.mem_append, List.mem_singleton, h.mem, Assoc.lookup_insert_eq]
    split_ifs with ho
    · exact iff_of_true (.inr ho) rfl
    · exact or_iff_left ho
  bound := by
    rw [List.length_append, List.length_singleton]
    exact hroom

theorem Listed.dropFront {d : DedupeKeys} (h : d.Listed) {first : String} {rest : List String}
    (hfront : d.order = first :: rest) : Listed ⟨d.seen.erase first, rest⟩ where
  nodup := (List.nodup_cons.mp (hfront ▸ h.nodup)).2
  mem other := by
    have hfirst : first ∉ rest := (List.nodup_cons.mp (hfront ▸ h.nodup)).1
    have hmem := h.mem other
    rw [hfront, List.mem_cons] at hmem
    rw [Assoc.lookup_erase_eq]
    split_ifs with ho
    · exact iff_of_false (ho ▸ hfirst) Bool.false_ne_true
    · rw [← hmem, or_iff_right ho]
  bound := by
    have hbound := h.bound
    rw [hfront, List.length_cons] at hbound
    exact (Nat.le_succ _).trans hbound

theorem lookup_erase_of_none {d : DedupeKeys} {key first : String}
    (hnew : d.seen.lookup key = none) : (d.seen.erase first).lookup key = none := by
  rw [Assoc.lookup_erase_eq, hnew, ite_self]

theorem Listed.admitKey {d : DedupeKeys} (h : d.Listed) (key : String) (now : Instant)
    (window : Duration) : (d.admitKey key now window).2.Listed := by
  have hadmits := h.admits key now window
  generalize d.admitKey key now window = admitted at hadmits
  cases hadmits with
  | suppressed held live => exact h
  | refreshed held past => exact h.refresh held now
  | entered new room => exact h.push new room now
  | displaced new front full =>
    exact (h.dropFront front).push (lookup_erase_of_none new) (full ▸ Nat.lt_succ_self _) now

end DedupeKeys
end AgentsCommander.Watchers
