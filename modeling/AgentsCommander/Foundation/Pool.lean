import Mathlib.Data.List.Count
import Mathlib.Data.List.Perm.Basic

/-! Pools of permits: a bounded number of them, each in the hands of an owner. -/
namespace AgentsCommander.Foundation

structure Pool (α : Type*) where
  capacity : ℕ
  held : List α
  closed : Bool
  within : held.length ≤ capacity
  deriving DecidableEq

namespace Pool
variable {α : Type*} {p q : Pool α} {a b : α}

def fresh (capacity : ℕ) : Pool α := ⟨capacity, [], false, Nat.zero_le _⟩

/-- A closed pool hands out nothing, and neither does an exhausted one. -/
def acquire? (p : Pool α) (a : α) : Option (Pool α) :=
  if h : p.closed = false ∧ p.held.length < p.capacity then
    some { p with held := a :: p.held, within := h.2 }
  else none

def close (p : Pool α) : Pool α := { p with closed := true }

theorem acquire?_held (h : p.acquire? a = some q) : q.held = a :: p.held := by
  unfold acquire? at h
  split_ifs at h
  rw [← Option.some.inj h]

theorem acquire?_closed (h : p.acquire? a = some q) : p.closed = false ∧ q.closed = false := by
  unfold acquire? at h
  split_ifs at h with hopen
  rw [← Option.some.inj h]
  exact ⟨hopen.1, hopen.1⟩

/-- A closed pool stays closed, and once it is empty it stays empty. -/
def Narrows (p q : Pool α) : Prop :=
  p.closed = true → q.closed = true ∧ (p.held = [] → q.held = [])

theorem Narrows.refl (p : Pool α) : p.Narrows p := fun h => ⟨h, id⟩

theorem Narrows.trans {r : Pool α} (h : p.Narrows q) (h' : q.Narrows r) : p.Narrows r :=
  fun hclosed => ⟨(h' (h hclosed).1).1, fun hheld => (h' (h hclosed).1).2 ((h hclosed).2 hheld)⟩

theorem narrows_acquire? (h : p.acquire? a = some q) : p.Narrows q :=
  fun hclosed => nomatch hclosed.symm.trans (acquire?_closed h).1

theorem narrows_close (p : Pool α) : p.Narrows p.close := fun _ => ⟨rfl, id⟩

variable [DecidableEq α]

/-- A permit of `a` returns. -/
def release (p : Pool α) (a : α) : Pool α :=
  { p with held := p.held.erase a, within := Nat.le_trans List.length_erase_le p.within }

theorem narrows_release (p : Pool α) (a : α) : p.Narrows (p.release a) :=
  fun hclosed => ⟨hclosed, fun hheld => congrArg (List.erase · a) hheld⟩

/-- The permits that `a` holds. -/
def count (p : Pool α) (a : α) : ℕ := p.held.count a

theorem count_acquire? (h : p.acquire? a = some q) (b : α) :
    q.count b = p.count b + if a = b then 1 else 0 := by
  unfold count
  rw [acquire?_held h, List.count_cons]
  simp only [beq_iff_eq]

@[simp] theorem count_close (b : α) : p.close.count b = p.count b := rfl

theorem count_release (a b : α) :
    (p.release a).count b = p.count b - if a = b then 1 else 0 := by
  show (p.held.erase a).count b = _
  rw [List.count_erase]
  simp only [beq_iff_eq]
  rfl

@[simp] theorem count_release_self (a : α) : (p.release a).count a = p.count a - 1 := by
  rw [count_release, if_pos rfl]

theorem count_release_of_ne (h : a ≠ b) : (p.release a).count b = p.count b := by
  rw [count_release, if_neg h, Nat.sub_zero]

end Pool

end AgentsCommander.Foundation
