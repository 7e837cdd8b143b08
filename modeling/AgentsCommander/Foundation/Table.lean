import Mathlib.Data.List.Nodup
import Mathlib.Data.Option.Basic

/-! Tables of rows under a primary key: lookup, insertion, keyed update and deletion. -/
namespace AgentsCommander.Foundation

/-- Rows in insertion order. No two of them share a key. -/
structure Table {α κ : Type*} (key : α → κ) where
  rows : List α
  nodup : (rows.map key).Nodup

namespace Table
variable {α κ : Type*} {key : α → κ}

def empty : Table key := ⟨[], List.nodup_nil⟩

theorem eq_of_key_eq (t : Table key) {a b : α} (ha : a ∈ t.rows) (hb : b ∈ t.rows)
    (h : key a = key b) : a = b := List.inj_on_of_nodup_map t.nodup ha hb h

variable [DecidableEq κ]

def get (t : Table key) (k : κ) : Option α := t.rows.find? (key · = k)

@[simp] theorem get_empty (k : κ) : (empty : Table key).get k = none := rfl

theorem get_eq_some {t : Table key} {k : κ} {a : α} :
    t.get k = some a ↔ a ∈ t.rows ∧ key a = k := by
  constructor
  · intro h
    exact ⟨List.mem_of_find?_eq_some h, by simpa using List.find?_some h⟩
  · rintro ⟨ha, rfl⟩
    cases hg : t.get (key a) with
    | none => exact absurd (List.find?_eq_none.mp hg a ha) (by simp)
    | some b =>
      have hk : key b = key a := by simpa using List.find?_some hg
      rw [t.eq_of_key_eq (List.mem_of_find?_eq_some hg) ha hk]

theorem get_eq_none {t : Table key} {k : κ} : t.get k = none ↔ ∀ a ∈ t.rows, key a ≠ k := by
  simp [get]

theorem key_of_get {t : Table key} {k : κ} {a : α} (h : t.get k = some a) : key a = k :=
  (get_eq_some.mp h).2

theorem mem_of_get {t : Table key} {k : κ} {a : α} (h : t.get k = some a) : a ∈ t.rows :=
  (get_eq_some.mp h).1

theorem get_key {t : Table key} {a : α} (h : a ∈ t.rows) : t.get (key a) = some a :=
  get_eq_some.mpr ⟨h, rfl⟩

/-- Append a row whose key is free. -/
def insert (t : Table key) (a : α) (h : t.get (key a) = none) : Table key where
  rows := t.rows ++ [a]
  nodup := by
    have hn : key a ∉ t.rows.map key := by
      simpa only [List.mem_map, not_exists, not_and] using get_eq_none.mp h
    rw [List.map_append]
    exact List.Nodup.append t.nodup (List.nodup_singleton _) (by simpa using hn)

theorem get_insert (t : Table key) (a : α) (h : t.get (key a) = none) (k : κ) :
    (t.insert a h).get k = if k = key a then some a else t.get k := by
  split_ifs with hk
  · exact get_eq_some.mpr ⟨by simp [insert], hk.symm⟩
  · have hne : ¬ key a = k := fun he => hk he.symm
    simp [get, insert, List.find?_append, hne]

theorem get_insert_self (t : Table key) (a : α) (h : t.get (key a) = none) :
    (t.insert a h).get (key a) = some a := by rw [get_insert, if_pos rfl]

theorem mem_insert {t : Table key} {a b : α} {h : t.get (key a) = none} :
    b ∈ (t.insert a h).rows ↔ b ∈ t.rows ∨ b = a := by simp [insert]

/-- Replace the row under `k` by its image; the image keeps the key. -/
def update (t : Table key) (k : κ) (f : α → α) (hf : ∀ a, key (f a) = key a) : Table key where
  rows := t.rows.map fun a => if key a = k then f a else a
  nodup := by
    have hm : (t.rows.map fun a => if key a = k then f a else a).map key = t.rows.map key := by
      rw [List.map_map]
      exact List.map_congr_left fun a _ => by simp only [Function.comp]; split_ifs <;> simp [hf]
    rw [hm]
    exact t.nodup

theorem get_update (t : Table key) (k : κ) (f : α → α) (hf : ∀ a, key (f a) = key a) (j : κ) :
    (t.update k f hf).get j = if j = k then (t.get k).map f else t.get j := by
  have hp : ∀ a, key (if key a = k then f a else a) = key a := by
    intro a
    split_ifs <;> simp [hf]
  simp only [get, update, List.find?_map, Function.comp_def, hp]
  split_ifs with hj
  · subst hj
    cases hg : t.rows.find? (fun a => decide (key a = j)) with
    | none => rfl
    | some a =>
      have hk : key a = j := by simpa using List.find?_some hg
      simp [hk]
  · cases hg : t.rows.find? (fun a => decide (key a = j)) with
    | none => rfl
    | some a =>
      have hk : key a = j := by simpa using List.find?_some hg
      simp [hk, hj]

theorem get_update_self (t : Table key) (k : κ) (f : α → α) (hf : ∀ a, key (f a) = key a) :
    (t.update k f hf).get k = (t.get k).map f := by rw [get_update, if_pos rfl]

theorem get_update_ne (t : Table key) {k j : κ} (f : α → α) (hf : ∀ a, key (f a) = key a)
    (h : j ≠ k) : (t.update k f hf).get j = t.get j := by rw [get_update, if_neg h]

/-- Put `a` in the place of the row with its key. -/
def set (t : Table key) (a : α) : Table key where
  rows := t.rows.map fun b => if key b = key a then a else b
  nodup := by
    have hm : (t.rows.map fun b => if key b = key a then a else b).map key = t.rows.map key := by
      rw [List.map_map]
      refine List.map_congr_left fun b _ => ?_
      by_cases hb : key b = key a <;> simp [hb]
    rw [hm]
    exact t.nodup

theorem get_set (t : Table key) (a : α) (k : κ) :
    (t.set a).get k = if k = key a then (t.get k).map (fun _ => a) else t.get k := by
  have hp : ∀ b, key (if key b = key a then a else b) = key b := by
    intro b
    by_cases hb : key b = key a <;> simp [hb]
  have hg : (t.set a).get k = (t.get k).map fun b => if key b = key a then a else b := by
    simp only [get, set, List.find?_map, Function.comp_def, hp]
  rw [hg]
  cases hk : t.get k with
  | none => simp
  | some b =>
    have hkey : key b = k := key_of_get hk
    subst hkey
    by_cases hb : key b = key a <;> simp [hb]

theorem get_set_self {t : Table key} {a b : α} (h : t.get (key a) = some b) :
    (t.set a).get (key a) = some a := by rw [get_set, if_pos rfl, h, Option.map_some]

theorem get_set_ne (t : Table key) {a : α} {k : κ} (h : k ≠ key a) :
    (t.set a).get k = t.get k := by rw [get_set, if_neg h]

theorem map_key_set (t : Table key) (a : α) : (t.set a).rows.map key = t.rows.map key := by
  rw [set, List.map_map]
  refine List.map_congr_left fun b _ => ?_
  by_cases hb : key b = key a <;> simp [hb]

theorem mem_rows {t : Table key} {a : α} : a ∈ t.rows ↔ t.get (key a) = some a := by
  constructor
  · exact get_key
  · exact mem_of_get

def filter (t : Table key) (p : α → Bool) : Table key where
  rows := t.rows.filter p
  nodup := (List.filter_sublist.map key).nodup t.nodup

theorem get_filter (t : Table key) (p : α → Bool) (k : κ) :
    (t.filter p).get k = (t.get k).filter p := by
  cases hg : t.get k with
  | none => exact get_eq_none.mpr fun a ha => get_eq_none.mp hg a (List.mem_filter.mp ha).1
  | some a =>
    obtain ⟨ha, hk⟩ := get_eq_some.mp hg
    cases hp : p a with
    | true =>
      rw [Option.filter_some_pos hp]
      exact get_eq_some.mpr ⟨List.mem_filter.mpr ⟨ha, hp⟩, hk⟩
    | false =>
      rw [Option.filter_some_neg (by simp [hp])]
      refine get_eq_none.mpr fun b hb hbk => ?_
      obtain ⟨hb, hpb⟩ := List.mem_filter.mp hb
      rw [t.eq_of_key_eq hb ha (hbk.trans hk.symm), hp] at hpb
      cases hpb

/-- Drop the row under `k`. -/
def delete (t : Table key) (k : κ) : Table key := t.filter (key · ≠ k)

theorem get_delete (t : Table key) (k j : κ) :
    (t.delete k).get j = if j = k then none else t.get j := by
  rw [delete, get_filter]
  cases hg : t.get j with
  | none => simp
  | some a =>
    rw [← key_of_get hg]
    by_cases hj : key a = k
    · rw [if_pos hj, Option.filter_some_neg (by simp [hj])]
    · rw [if_neg hj, Option.filter_some_pos (by simp [hj])]

/-- Drop the row that came in first. -/
def tail (t : Table key) : Table key where
  rows := t.rows.tail
  nodup := ((List.tail_sublist t.rows).map key).nodup t.nodup

theorem get_tail_ne {t : Table key} {a : α} (h : t.rows.head? = some a) {k : κ} (hk : k ≠ key a) :
    t.tail.get k = t.get k := by
  have hr : t.rows = a :: t.rows.tail := (List.cons_head?_tail h).symm
  unfold get
  rw [hr]
  exact (List.find?_cons_of_neg (by simpa using fun he => hk he.symm)).symm

theorem get_tail_self {t : Table key} {a : α} (h : t.rows.head? = some a) :
    t.tail.get (key a) = none := by
  have hr : t.rows = a :: t.rows.tail := (List.cons_head?_tail h).symm
  have hn := t.nodup
  rw [hr, List.map_cons, List.nodup_cons] at hn
  refine get_eq_none.mpr fun b hb hk => hn.1 ?_
  rw [← hk]
  exact List.mem_map_of_mem hb

theorem get_head {t : Table key} {a : α} (h : t.rows.head? = some a) : t.get (key a) = some a :=
  get_key (List.mem_of_head? h)

end Table
end AgentsCommander.Foundation
