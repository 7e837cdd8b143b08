import Mathlib.Tactic

/-! Bounded windows: a list that drops its front when it is full, and how long an
element stays. -/
namespace AgentsCommander.Foundation.Window
variable {α : Type*}

/-- Append to a window of at most `cap` elements, dropping the front when it is full. -/
def push (cap : ℕ) (l : List α) (a : α) : List α := (if cap ≤ l.length then l.tail else l) ++ [a]

/-- The element is there, with at most `n` others behind it. -/
def Within (a : α) (n : ℕ) (l : List α) : Prop :=
  ∃ older newer, l = older ++ a :: newer ∧ newer.length ≤ n

theorem Within.mem {a : α} {n : ℕ} {l : List α} (h : Within a n l) : a ∈ l := by
  obtain ⟨older, newer, rfl, -⟩ := h
  exact List.mem_append_right _ List.mem_cons_self

theorem Within.mono {a : α} {n m : ℕ} {l : List α} (h : Within a n l) (hnm : n ≤ m) :
    Within a m l := by
  obtain ⟨older, newer, he, hn⟩ := h
  exact ⟨older, newer, he, hn.trans hnm⟩

theorem within_push_self (cap : ℕ) (l : List α) (a : α) : Within a 0 (push cap l a) :=
  ⟨_, [], rfl, le_rfl⟩

/-- An element with fewer than `cap - 1` others behind it survives a push. -/
theorem Within.push {cap n : ℕ} {l : List α} {a : α} (h : Within a n l) (hn : n + 1 < cap) (b : α) :
    Within a (n + 1) (push cap l b) := by
  obtain ⟨older, newer, rfl, hlen⟩ := h
  unfold Window.push
  split_ifs with hfull
  · cases older with
    | nil =>
      simp only [List.nil_append, List.length_cons] at hfull
      omega
    | cons o older =>
      refine ⟨older, newer ++ [b], by simp, ?_⟩
      rw [List.length_append, List.length_singleton]
      omega
  · refine ⟨older, newer ++ [b], by simp, ?_⟩
    rw [List.length_append, List.length_singleton]
    omega

variable [DecidableEq α]

/-- Push what is missing, in order. -/
def absorb (cap : ℕ) (l ks : List α) : List α :=
  ks.foldl (fun l k => if k ∈ l then l else push cap l k) l

theorem absorb_eq_self {cap : ℕ} {l ks : List α} (h : ∀ k ∈ ks, k ∈ l) : absorb cap l ks = l := by
  induction ks with
  | nil => rfl
  | cons k ks ih =>
    unfold absorb
    rw [List.foldl_cons, if_pos (h k List.mem_cons_self)]
    exact ih fun j hj => h j (List.mem_cons_of_mem _ hj)

end AgentsCommander.Foundation.Window
