import Mathlib.Data.List.Infix
import Mathlib.Tactic.SplitIfs

/-! The first occurrence of a list in another, and in a part of it. -/
namespace AgentsCommander.Foundation
variable {α : Type*} [DecidableEq α]

/-- What stands before and after the first occurrence. -/
def cutAt (needle : List α) : List α → Option (List α × List α)
  | [] => if needle = [] then some ([], []) else none
  | c :: text =>
    if needle <+: c :: text then some ([], (c :: text).drop needle.length)
    else (cutAt needle text).map fun cut => (c :: cut.1, cut.2)

section
variable {needle text before after : List α}

theorem cutAt_eq (h : cutAt needle text = some (before, after)) :
    text = before ++ (needle ++ after) := by
  induction text generalizing before with
  | nil =>
    rw [cutAt] at h
    split_ifs at h with hnil
    cases h
    rw [hnil]
    rfl
  | cons c text ih =>
    rw [cutAt] at h
    split_ifs at h with hstarts
    · cases h
      obtain ⟨more, hmore⟩ := hstarts
      rw [← hmore, List.drop_left, List.nil_append]
    · obtain ⟨cut, hcut, h⟩ := Option.map_eq_some_iff.mp h
      cases h
      rw [List.cons_append, ← ih hcut]

/-- No occurrence stands before the first. -/
theorem length_le_of_cutAt (h : cutAt needle text = some (before, after)) {b a : List α}
    (hother : text = b ++ (needle ++ a)) : before.length ≤ b.length := by
  induction text generalizing before b with
  | nil =>
    rw [cutAt] at h
    split_ifs at h
    cases h
    exact Nat.zero_le _
  | cons c text ih =>
    rw [cutAt] at h
    split_ifs at h with hstarts
    · cases h
      exact Nat.zero_le _
    · obtain ⟨cut, hcut, h⟩ := Option.map_eq_some_iff.mp h
      cases h
      cases b with
      | nil => exact absurd ⟨a, hother.symm⟩ hstarts
      | cons d b => exact Nat.succ_le_succ (ih hcut (List.cons.inj hother).2)

theorem cutAt_isSome {b a : List α} (h : text = b ++ (needle ++ a)) :
    ∃ before after, cutAt needle text = some (before, after) := by
  induction text generalizing b with
  | nil =>
    have hnil : needle = [] := by
      have := List.append_eq_nil_iff.mp h.symm
      exact (List.append_eq_nil_iff.mp this.2).1
    exact ⟨[], [], if_pos hnil⟩
  | cons c text ih =>
    rw [cutAt]
    split_ifs with hstarts
    · exact ⟨_, _, rfl⟩
    · cases b with
      | nil => exact absurd ⟨a, h.symm⟩ hstarts
      | cons d b =>
        obtain ⟨before, after, hcut⟩ := ih (List.cons.inj h).2
        exact ⟨c :: before, after, by rw [hcut]; rfl⟩

theorem cutAt_unique {b a : List α} (h : cutAt needle text = some (before, after))
    (hother : text = b ++ (needle ++ a)) (hlen : b.length ≤ before.length) :
    before = b ∧ after = a := by
  have heq := (cutAt_eq h).symm.trans hother
  have hsame := Nat.le_antisymm (length_le_of_cutAt h hother) hlen
  obtain ⟨hbefore, hrest⟩ := List.append_inj heq hsame
  exact ⟨hbefore, List.append_cancel_left hrest⟩

end

section
variable {needle before after previous part next : List α}

/-- The first occurrence in the whole is the first in the part it stands in. -/
theorem cutAt_part (h : cutAt needle (previous ++ (part ++ next)) = some (before, after))
    (hlo : previous.length ≤ before.length)
    (hhi : before.length + needle.length ≤ previous.length + part.length) :
    ∃ x y, before = previous ++ x ∧ after = y ++ next ∧ cutAt needle part = some (x, y) := by
  have heq := cutAt_eq h
  have hwithin : before <+: previous ++ (part ++ next) := heq ▸ List.prefix_append before _
  obtain ⟨x, rfl⟩ := List.prefix_of_prefix_length_le (List.prefix_append _ _) hwithin hlo
  rw [List.append_assoc] at heq
  have hpart := List.append_cancel_left heq
  have hneedle : x ++ needle <+: part ++ next := by
    rw [hpart, ← List.append_assoc]
    exact List.prefix_append (x ++ needle) after
  have hlen : (x ++ needle).length ≤ part.length := by
    rw [List.length_append] at hhi ⊢
    omega
  obtain ⟨y, hy⟩ := List.prefix_of_prefix_length_le hneedle (List.prefix_append part next) hlen
  have hafter : after = y ++ next := by
    rw [← hy, List.append_assoc, List.append_assoc] at hpart
    exact (List.append_cancel_left (List.append_cancel_left hpart)).symm
  refine ⟨x, y, rfl, hafter, ?_⟩
  have hsplit : part = x ++ (needle ++ y) := by rw [← hy, List.append_assoc]
  obtain ⟨x', y', hcut⟩ := cutAt_isSome hsplit
  have hle : x.length ≤ x'.length := by
    have hwhole : previous ++ (part ++ next) = previous ++ x' ++ (needle ++ (y' ++ next)) := by
      rw [cutAt_eq hcut, List.append_assoc, List.append_assoc, List.append_assoc]
    have := length_le_of_cutAt h hwhole
    rw [List.length_append, List.length_append] at this
    omega
  obtain ⟨rfl, rfl⟩ := cutAt_unique hcut hsplit hle
  exact hcut

/-- An occurrence in the part is not before the first in the whole. -/
theorem length_le_part (h : cutAt needle (previous ++ (part ++ next)) = some (before, after))
    {x y : List α} (hcut : cutAt needle part = some (x, y)) :
    before.length ≤ previous.length + x.length := by
  have hwhole : previous ++ (part ++ next) = previous ++ x ++ (needle ++ (y ++ next)) := by
    rw [cutAt_eq hcut, List.append_assoc, List.append_assoc, List.append_assoc]
  have := length_le_of_cutAt h hwhole
  rwa [List.length_append] at this

end
end AgentsCommander.Foundation
