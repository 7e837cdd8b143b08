import AgentsCommander.Foundation.Window

/-! Merging a list into a bounded window: what is pushed, what falls out, and exactly when the
merge loses neither the last element of the window nor any of the list. -/
namespace AgentsCommander.Foundation.Window
variable {α : Type*} {cap : ℕ}

theorem push_eq_drop (l : List α) (k : α) :
    push cap l k = (if cap ≤ l.length then l.drop 1 else l) ++ [k] := by
  unfold push
  rw [List.drop_one]

theorem length_push (hcap : 0 < cap) (l : List α) (k : α) :
    (push cap l k).length = if cap ≤ l.length then l.length else l.length + 1 := by
  rw [push_eq_drop]
  split_ifs <;> simp only [List.length_append, List.length_drop, List.length_singleton]
  omega

theorem max_length_push (hcap : 0 < cap) (l : List α) (k : α) :
    max cap (push cap l k).length = max cap l.length := by
  rw [length_push hcap]
  split_ifs <;> omega

/-- How many elements have fallen out after so many pushes. -/
def overflow (cap : ℕ) (l : List α) (n : ℕ) : ℕ := l.length + n - max cap l.length

theorem overflow_mono (l : List α) {m n : ℕ} (h : m ≤ n) : overflow cap l m ≤ overflow cap l n := by
  unfold overflow
  omega

theorem overflow_le_length {l : List α} {n : ℕ} (h : n ≤ cap) : overflow cap l n ≤ l.length := by
  unfold overflow
  omega

theorem not_mem_of_nodup {ks pre post : List α} {k : α} (hnodup : ks.Nodup)
    (hks : ks = pre ++ k :: post) : k ∉ pre ∧ k ∉ post := by
  rw [hks, List.nodup_append, List.nodup_cons] at hnodup
  exact ⟨fun hk => hnodup.2.2 k hk k List.mem_cons_self rfl, hnodup.2.1.1⟩

theorem nodup_push {l : List α} (h : l.Nodup) {k : α} (hk : k ∉ l) : (push cap l k).Nodup := by
  have hsub : (if cap ≤ l.length then l.tail else l).Sublist l := by
    split_ifs
    · exact List.tail_sublist l
    · exact List.Sublist.refl l
  refine List.nodup_append.mpr ⟨h.sublist hsub, List.nodup_singleton k, fun a ha b hb he => ?_⟩
  rw [List.mem_singleton.mp hb] at he
  exact hk (he ▸ hsub.subset ha)

variable [DecidableEq α]

/-- The elements that a merge pushes. -/
def pushes (cap : ℕ) : List α → List α → List α
  | _, [] => []
  | l, k :: ks => if k ∈ l then pushes cap l ks else k :: pushes cap (push cap l k) ks

/-- The elements that are not among those left when the first `o` are gone. -/
def outside (l : List α) (o : ℕ) (ks : List α) : List α := ks.filter (· ∉ l.drop o)

/-- The merge makes the first `o` elements fall out, and never meets one of them before. -/
structure Yields (cap : ℕ) (l ks : List α) (o : ℕ) : Prop where
  count : overflow cap l (outside l o ks).length = o
  unmet : ∀ pre k post, ks = pre ++ k :: post →
    k ∈ l.drop (overflow cap l (outside l o pre).length) → k ∈ l.drop o

theorem absorb_nil (l : List α) : absorb cap l [] = l := rfl

theorem absorb_of_mem {l : List α} {k : α} (h : k ∈ l) (ks : List α) :
    absorb cap l (k :: ks) = absorb cap l ks := by
  unfold absorb
  rw [List.foldl_cons, if_pos h]

theorem absorb_of_not_mem {l : List α} {k : α} (h : k ∉ l) (ks : List α) :
    absorb cap l (k :: ks) = absorb cap (push cap l k) ks := by
  unfold absorb
  rw [List.foldl_cons, if_neg h]

theorem absorb_append (l a b : List α) : absorb cap l (a ++ b) = absorb cap (absorb cap l a) b :=
  List.foldl_append

/-- A merge is the pushed elements behind the old ones, less what falls out in front. -/
theorem absorb_eq_drop (hcap : 0 < cap) (l ks : List α) :
    absorb cap l ks =
      (l ++ pushes cap l ks).drop (overflow cap l (pushes cap l ks).length) := by
  induction ks generalizing l with
  | nil =>
    have hzero : overflow cap l (pushes cap l ([] : List α)).length = 0 := by
      change l.length + 0 - max cap l.length = 0
      omega
    rw [hzero, List.drop_zero]
    exact (List.append_nil l).symm
  | cons k ks ih =>
    rw [pushes]
    split_ifs with hk
    · rw [absorb_of_mem hk]
      exact ih l
    · rw [absorb_of_not_mem hk, ih]
      unfold overflow
      rw [max_length_push hcap, length_push hcap, List.length_cons]
      by_cases hfull : cap ≤ l.length
      · obtain ⟨n, hn⟩ : ∃ n, l.length + (pushes cap (push cap l k) ks).length -
            max cap l.length = n := ⟨_, rfl⟩
        have hsucc : l.length + ((pushes cap (push cap l k) ks).length + 1) -
            max cap l.length = n + 1 := by omega
        rw [if_pos hfull, hn, hsucc, push_eq_drop, if_pos hfull, List.append_assoc,
          List.singleton_append, Nat.add_comm n 1, ← List.drop_drop,
          List.drop_append_of_le_length (by omega : 1 ≤ l.length)]
      · rw [if_neg hfull]
        have hpush : push cap l k = l ++ [k] := by rw [push_eq_drop, if_neg hfull]
        have hsame : l.length + 1 + (pushes cap (push cap l k) ks).length - max cap l.length =
            l.length + ((pushes cap (push cap l k) ks).length + 1) - max cap l.length := by omega
        rw [hsame, hpush, List.append_assoc, List.singleton_append]

theorem pushes_sublist (l ks : List α) : (pushes cap l ks).Sublist ks := by
  induction ks generalizing l with
  | nil => exact .slnil
  | cons k ks ih =>
    rw [pushes]
    split_ifs
    · exact (ih l).cons k
    · exact (ih _).cons_cons k

theorem pushes_append (l a b : List α) :
    pushes cap l (a ++ b) = pushes cap l a ++ pushes cap (absorb cap l a) b := by
  induction a generalizing l with
  | nil => rfl
  | cons k a ih =>
    rw [List.cons_append, pushes, pushes]
    split_ifs with hk
    · rw [absorb_of_mem hk]
      exact ih l
    · rw [absorb_of_not_mem hk, List.cons_append, ih]

/-- Old elements are still there as long as no more than the window holds are pushed. -/
theorem mem_absorb_of_mem_drop (hcap : 0 < cap) {l ks : List α} {a : α}
    (hle : (pushes cap l ks).length ≤ cap)
    (h : a ∈ l.drop (overflow cap l (pushes cap l ks).length)) : a ∈ absorb cap l ks := by
  rw [absorb_eq_drop hcap, List.drop_append_of_le_length (overflow_le_length hle)]
  exact List.mem_append_left _ h

/-- The pushed elements, where those met already are those that stay. -/
theorem pushes_eq_outside {l ks : List α} {o : ℕ}
    (h : ∀ pre k post, ks = pre ++ k :: post → pushes cap l pre = outside l o pre →
      (k ∈ absorb cap l pre ↔ k ∈ l.drop o)) :
    ∀ pre post, ks = pre ++ post → pushes cap l pre = outside l o pre := by
  intro pre
  induction pre using List.reverseRecOn with
  | nil => exact fun _ _ => rfl
  | append_singleton pre k ih =>
    intro post hks
    have hks' : ks = pre ++ k :: post := by rw [hks, List.append_assoc, List.singleton_append]
    have hpre := ih (k :: post) hks'
    have hmem := h pre k post hks' hpre
    have hone : pushes cap (absorb cap l pre) [k] = outside l o [k] := by
      unfold outside
      rw [pushes, List.filter_singleton]
      by_cases hk : k ∈ l.drop o <;> simp [hmem, hk, pushes]
    rw [pushes_append, hpre, hone]
    exact (List.filter_append pre [k]).symm

theorem length_pushes_le {l ks pre post : List α} (hks : ks = pre ++ post) (hle : ks.length ≤ cap) :
    (pushes cap l pre).length ≤ cap := by
  refine (pushes_sublist l pre).length_le.trans (le_trans ?_ hle)
  rw [hks, List.length_append]
  exact Nat.le_add_right _ _

theorem length_outside_le {l ks pre post : List α} {o : ℕ} (hks : ks = pre ++ post) :
    (outside l o pre).length ≤ (outside l o ks).length := by
  rw [hks]
  unfold outside
  rw [List.filter_append, List.length_append]
  exact Nat.le_add_right _ _

theorem Yields.pushes_eq (hcap : 0 < cap) {l ks : List α} {o : ℕ} (h : Yields cap l ks o)
    (hnodup : ks.Nodup) (hle : ks.length ≤ cap) : pushes cap l ks = outside l o ks := by
  refine pushes_eq_outside (fun pre k post hks hpre => ?_) ks [] (List.append_nil ks).symm
  have hmono : overflow cap l (outside l o pre).length ≤ o :=
    (overflow_mono l (length_outside_le hks)).trans_eq h.count
  rw [absorb_eq_drop hcap, List.drop_append_of_le_length
    (overflow_le_length (length_pushes_le hks hle)), List.mem_append, hpre]
  constructor
  · rintro (hk | hk)
    · exact h.unmet pre k post hks hk
    · exact absurd (List.mem_filter.mp hk).1 (not_mem_of_nodup hnodup hks).1
  · exact fun hk => Or.inl ((List.drop_sublist_drop_left l hmono).subset hk)

/-- What such a merge leaves. -/
theorem Yields.absorb_eq (hcap : 0 < cap) {l ks : List α} {o : ℕ} (h : Yields cap l ks o)
    (hnodup : ks.Nodup) (hle : ks.length ≤ cap) : absorb cap l ks = l.drop o ++ outside l o ks := by
  have hpushes := h.pushes_eq hcap hnodup hle
  have hlen : (outside l o ks).length ≤ cap := (List.length_filter_le _ _).trans hle
  rw [absorb_eq_drop hcap, hpushes, List.drop_append_of_le_length (overflow_le_length hlen),
    h.count]

theorem Yields.subset (hcap : 0 < cap) {l ks : List α} {o : ℕ} (h : Yields cap l ks o)
    (hnodup : ks.Nodup) (hle : ks.length ≤ cap) : ∀ k ∈ ks, k ∈ absorb cap l ks := by
  intro k hk
  rw [h.absorb_eq hcap hnodup hle, List.mem_append]
  by_cases hold : k ∈ l.drop o
  · exact Or.inl hold
  · exact Or.inr (List.mem_filter.mpr ⟨hk, decide_eq_true hold⟩)

/-- A merge that keeps all of the list is of this kind. -/
theorem yields_of_subset (hcap : 0 < cap) {l ks : List α} (hnodup : ks.Nodup)
    (hle : ks.length ≤ cap) (hsub : ∀ k ∈ ks, k ∈ absorb cap l ks) :
    Yields cap l ks (overflow cap l (pushes cap l ks).length) := by
  obtain ⟨o, ho⟩ : ∃ o, overflow cap l (pushes cap l ks).length = o := ⟨_, rfl⟩
  have hall : ks = ks ++ [] := (List.append_nil ks).symm
  have hend : absorb cap l ks = l.drop o ++ pushes cap l ks := by
    rw [absorb_eq_drop hcap, List.drop_append_of_le_length
      (overflow_le_length (length_pushes_le hall hle)), ho]
  have hstay : ∀ pre k post, ks = pre ++ k :: post → k ∈ absorb cap l pre → k ∈ l.drop o := by
    intro pre k post hks hk
    have hmem := hsub k (hks ▸ List.mem_append_right pre List.mem_cons_self)
    rw [hend, List.mem_append] at hmem
    refine hmem.resolve_right fun hp => ?_
    obtain ⟨hpre, hpost⟩ := not_mem_of_nodup hnodup hks
    rw [hks, pushes_append, pushes, if_pos hk, List.mem_append] at hp
    rcases hp with hp | hp
    · exact hpre ((pushes_sublist l pre).subset hp)
    · exact hpost ((pushes_sublist _ post).subset hp)
  have hdrop : ∀ pre k post, ks = pre ++ k :: post →
      k ∈ l.drop (overflow cap l (pushes cap l pre).length) → k ∈ absorb cap l pre :=
    fun pre k post hks hk => mem_absorb_of_mem_drop hcap (length_pushes_le hks hle) hk
  have heq : ∀ pre post, ks = pre ++ post → pushes cap l pre = outside l o pre :=
    pushes_eq_outside fun pre k post hks _ => ⟨hstay pre k post hks, fun hk => hdrop pre k post hks
      ((List.drop_sublist_drop_left l (by
        rw [← ho, hks, pushes_append, List.length_append]
        exact overflow_mono l (Nat.le_add_right _ _))).subset hk)⟩
  rw [ho]
  refine ⟨by rw [← heq ks [] hall, ho], fun pre k post hks hk => ?_⟩
  rw [← heq pre (k :: post) hks] at hk
  exact hstay pre k post hks (hdrop pre k post hks hk)

theorem pushes_cases (l ks : List α) :
    (∀ k ∈ ks, k ∈ l) ∨ ∃ k rest, pushes cap l ks = k :: rest ∧ k ∉ l := by
  induction ks with
  | nil => exact Or.inl nofun
  | cons k ks ih =>
    rw [pushes]
    split_ifs with hk
    · exact ih.imp_left fun h => List.forall_mem_cons.mpr ⟨hk, h⟩
    · exact Or.inr ⟨k, _, rfl, hk⟩

/-- A second merge of a list that fits changes nothing exactly when nothing of it is missing. -/
theorem absorb_absorb_iff (hcap : 0 < cap) {l ks : List α} (hle : ks.length ≤ cap) :
    absorb cap l ks = l ↔ ∀ k ∈ ks, k ∈ l := by
  refine ⟨fun h => ?_, absorb_eq_self⟩
  rcases @pushes_cases α cap _ l ks with hall | ⟨k, rest, hpushes, hk⟩
  · exact hall
  · have hlen := length_pushes_le (l := l) (List.append_nil ks).symm hle
    rw [absorb_eq_drop hcap, List.drop_append_of_le_length (overflow_le_length hlen)] at h
    refine absurd ?_ hk
    rw [← h, hpushes]
    exact List.mem_append_right _ List.mem_cons_self

/-- The last element stays exactly when not all of them fall out. -/
theorem Yields.getLast_mem_iff (hcap : 0 < cap) {l ks : List α} {o : ℕ} (h : Yields cap l ks o)
    (hnodup : ks.Nodup) (hle : ks.length ≤ cap) :
    (∀ a, l.getLast? = some a → a ∈ absorb cap l ks) ↔ (l ≠ [] → o < l.length) := by
  rw [h.absorb_eq hcap hnodup hle]
  constructor
  · intro hlast hne
    by_contra hout
    have hlen := List.length_filter_le (fun k => decide (k ∉ l.drop o)) ks
    have hcount := h.count
    have hnil : l.drop o = [] := List.drop_eq_nil_of_le (Nat.not_lt.mp hout)
    have hmem := hlast (l.getLast hne) (List.getLast?_eq_some_getLast hne)
    rw [hnil, List.nil_append] at hmem
    obtain ⟨pre, post, hks⟩ := List.append_of_mem (List.mem_filter.mp hmem).1
    have hpre : (outside l o pre).length < cap := by
      refine (List.length_filter_le _ _).trans_lt (lt_of_lt_of_le ?_ hle)
      rw [hks, List.length_append, List.length_cons]
      omega
    have hpos := List.length_pos_iff.mpr hne
    have hin : l.getLast hne ∈ l.drop (overflow cap l (outside l o pre).length) := by
      rw [← List.getLast_drop]
      · exact List.getLast_mem _
      · rw [Ne, List.drop_eq_nil_iff]
        unfold overflow
        omega
    have hgone := h.unmet pre _ post hks hin
    rw [hnil] at hgone
    cases hgone
  · intro hlt a ha
    have hne : l ≠ [] := by
      rintro rfl
      cases ha
    refine List.mem_append_left _ ?_
    rw [List.getLast?_eq_some_getLast hne] at ha
    obtain rfl := Option.some.inj ha
    rw [← List.getLast_drop]
    · exact List.getLast_mem _
    · rw [Ne, List.drop_eq_nil_iff]
      exact Nat.not_le.mpr (hlt hne)

/-- When a merge keeps the last element and is not repeated by merging again. -/
theorem merge_iff (hcap : 0 < cap) {l ks : List α} (hnodup : ks.Nodup) (hle : ks.length ≤ cap) :
    ((∀ a, l.getLast? = some a → a ∈ absorb cap l ks) ∧
      absorb cap (absorb cap l ks) ks = absorb cap l ks) ↔
    ∃ o, Yields cap l ks o ∧ (l ≠ [] → o < l.length) := by
  rw [absorb_absorb_iff hcap hle]
  constructor
  · rintro ⟨hlast, hsub⟩
    have hyields := yields_of_subset hcap hnodup hle hsub
    exact ⟨_, hyields, (hyields.getLast_mem_iff hcap hnodup hle).mp hlast⟩
  · rintro ⟨o, hyields, hlt⟩
    exact ⟨(hyields.getLast_mem_iff hcap hnodup hle).mpr hlt, hyields.subset hcap hnodup hle⟩

theorem length_absorb_le (hcap : 0 < cap) {l ks : List α} (h : l.length ≤ cap) :
    (absorb cap l ks).length ≤ cap := by
  induction ks generalizing l with
  | nil => exact h
  | cons k ks ih =>
    by_cases hk : k ∈ l
    · rw [absorb_of_mem hk]
      exact ih h
    · rw [absorb_of_not_mem hk]
      refine ih ?_
      rw [length_push hcap]
      split_ifs <;> omega

theorem nodup_absorb {l ks : List α} (h : l.Nodup) : (absorb cap l ks).Nodup := by
  induction ks generalizing l with
  | nil => exact h
  | cons k ks ih =>
    by_cases hk : k ∈ l
    · rw [absorb_of_mem hk]
      exact ih h
    · rw [absorb_of_not_mem hk]
      exact ih (nodup_push h hk)

/-- Merging commutes with renaming. -/
theorem absorb_map {β : Type*} [DecidableEq β] {f : β → α} (hf : Function.Injective f)
    (l ks : List β) : absorb cap (l.map f) (ks.map f) = (absorb cap l ks).map f := by
  induction ks generalizing l with
  | nil => rfl
  | cons k ks ih =>
    rw [List.map_cons]
    by_cases hk : k ∈ l
    · rw [absorb_of_mem hk, absorb_of_mem ((List.mem_map_of_injective hf).mpr hk), ih]
    · have hpush : push cap (l.map f) (f k) = (push cap l k).map f := by
        unfold push
        rw [List.length_map, List.map_append, ← List.map_tail]
        split_ifs <;> rfl
      rw [absorb_of_not_mem hk, absorb_of_not_mem (mt (List.mem_map_of_injective hf).mp hk), hpush,
        ih]

end AgentsCommander.Foundation.Window
