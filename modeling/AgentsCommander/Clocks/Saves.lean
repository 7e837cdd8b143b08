import AgentsCommander.Clocks.Store
import AgentsCommander.Foundation.Machine

/-! The two savers of the clocks file: the debounced flush, and the removal of a workgroup. -/
namespace AgentsCommander.Clocks
open Foundation

/-- A map as it was after that many changes. -/
structure Revision where
  number : ℕ
  map : ClockMap

inductive Saver where
  /-- `remove_workgroup_in_state` between its two sections. -/
  | removed
  /-- A snapshot that is being written. -/
  | saving (flush : Bool) (snapshot : Revision)

/-- `newest`: the number of the newest map that was ever saved. -/
structure Saves where
  clocks : CoordinatorClocks
  changes : ℕ
  disk : Revision
  newest : ℕ
  savers : AList fun _ : ℕ => Saver

inductive SaveEvent where
  | mutate (op : ClockOp)
  | flush (saver : ℕ)
  | removeWorkgroup (saver : ℕ) (project wg : String)
  | snapshot (saver : ℕ)
  | write (saver : ℕ) (ok : Bool)

namespace Saves
variable (saves : Saves)

/-- After `load` of a file that could be read, or of none. -/
def loaded (map : ClockMap) : Saves := ⟨⟨map, false, ∅⟩, 0, ⟨0, map⟩, 0, ∅⟩

def revision : Revision := ⟨saves.changes, saves.clocks.map⟩

def mutate (changed : CoordinatorClocks × Bool) : Saves :=
  { saves with
    clocks := changed.1
    changes := if changed.2 then saves.changes + 1 else saves.changes }

/-- `flush_clocks` under its lock. -/
def flush (saver : ℕ) : Saves :=
  if saves.clocks.takeDirty.2 then
    { saves with
      clocks := saves.clocks.takeDirty.1
      savers := saves.savers.insert saver (.saving true saves.revision) }
  else saves

/-- `remove_workgroup_in_state` under its first lock. -/
def removeWorkgroup (saver : ℕ) (project wg : String) : Saves :=
  let removed : CoordinatorClocks × Bool :=
    (saves.clocks.removeWorkgroup project wg).map id (0 < ·)
  if removed.2 then
    { saves.mutate removed with savers := saves.savers.insert saver .removed }
  else saves

/-- `remove_workgroup_in_state` under its second lock. -/
def snapshot (saver : ℕ) : Saves :=
  match saves.savers.lookup saver with
  | some .removed =>
    { saves with savers := saves.savers.insert saver (.saving false saves.revision) }
  | _ => saves

def write (saver : ℕ) (ok : Bool) : Saves :=
  match saves.savers.lookup saver with
  | some (.saving _ snapshot) =>
    if ok then
      { saves with
        disk := snapshot
        newest := max saves.newest snapshot.number
        savers := saves.savers.erase saver }
    else { saves with savers := saves.savers.erase saver }
  | _ => saves

/-- A saver is begun under a fresh number. -/
def step : SaveEvent → Saves × Unit
  | .mutate op => (saves.mutate (op.apply saves.clocks), ())
  | .flush saver =>
    (if (saves.savers.lookup saver).isSome then saves else saves.flush saver, ())
  | .removeWorkgroup saver project wg =>
    (if (saves.savers.lookup saver).isSome then saves
      else saves.removeWorkgroup saver project wg, ())
  | .snapshot saver => (saves.snapshot saver, ())
  | .write saver ok => (saves.write saver ok, ())

/-- No flush or save is in progress. -/
def Quiet : Prop := ∀ saver flush snapshot, saves.savers.lookup saver ≠ some (.saving flush snapshot)

/-- What a later flush has to write, it will write. -/
def Unsaved : Prop :=
  saves.Quiet → saves.clocks.dirty = false →
    saves.clocks.map = saves.disk.map ∧ saves.newest ≤ saves.disk.number

/-- While the flag is down, a write that ends well is of no older map than the file holds, and a
flush fails only when the file holds its map or a newer one. -/
def InOrder : SaveEvent → Prop
  | .write saver ok => ∀ flush snapshot, saves.savers.lookup saver = some (.saving flush snapshot) →
    saves.clocks.dirty = false →
      (ok = true → saves.disk.number ≤ snapshot.number) ∧
      (ok = false → flush = true → snapshot.number ≤ saves.disk.number)
  | _ => True

end Saves

def savesMachine : Machine Saves SaveEvent Unit := ⟨Saves.step⟩

namespace Saves
variable {saves : Saves}

/-- Maps of one number are one map; and while the flag is down, the current map is in the file or
a flush is writing it. -/
structure Tracked (saves : Saves) : Prop where
  disk : saves.disk.number ≤ saves.changes
  diskMap : saves.disk.number = saves.changes → saves.disk.map = saves.clocks.map
  newest : saves.newest ≤ saves.changes
  snapshots : ∀ saver flush snapshot, saves.savers.lookup saver = some (.saving flush snapshot) →
    snapshot.number ≤ saves.changes ∧
      (snapshot.number = saves.changes → snapshot.map = saves.clocks.map)
  current : saves.clocks.dirty = false → saves.disk.number = saves.changes ∨
    ∃ saver snapshot, saves.savers.lookup saver = some (.saving true snapshot) ∧
      snapshot.number = saves.changes

namespace Tracked

theorem unsaved (h : saves.Tracked) : saves.Unsaved := by
  intro hquiet hclean
  rcases h.current hclean with hdisk | ⟨saver, snapshot, hsaver, -⟩
  · exact ⟨(h.diskMap hdisk).symm, hdisk ▸ h.newest⟩
  · exact absurd hsaver (hquiet saver true snapshot)

theorem mutate (h : saves.Tracked) {changed : CoordinatorClocks × Bool}
    (hsettled : Settled saves.clocks changed) : (saves.mutate changed).Tracked := by
  cases hchanged : changed.2 with
  | true =>
    have hchanges : (saves.mutate changed).changes = saves.changes + 1 := if_pos hchanged
    constructor
    · rw [hchanges]
      exact h.disk.trans (Nat.le_succ _)
    · intro heq
      have heq : saves.disk.number = saves.changes + 1 := heq.trans hchanges
      exact absurd h.disk (by omega)
    · rw [hchanges]
      exact h.newest.trans (Nat.le_succ _)
    · intro saver flush snapshot hsaver
      have hle := (h.snapshots saver flush snapshot hsaver).1
      rw [hchanges]
      exact ⟨hle.trans (Nat.le_succ _), fun heq => absurd hle (by omega)⟩
    · intro hclean
      exact nomatch (hsettled.dirtied hchanged).symm.trans hclean
  | false =>
    obtain ⟨hmap, hdirty⟩ := hsettled.kept hchanged
    have hchanges : (saves.mutate changed).changes = saves.changes := by
      show (if changed.2 then _ else _) = _
      rw [hchanged]
      rfl
    constructor
    · exact hchanges.symm ▸ h.disk
    · rw [hchanges]
      exact fun heq => (h.diskMap heq).trans hmap.symm
    · exact hchanges.symm ▸ h.newest
    · intro saver flush snapshot hsaver
      rw [hchanges]
      obtain ⟨hle, hsame⟩ := h.snapshots saver flush snapshot hsaver
      exact ⟨hle, fun heq => (hsame heq).trans hmap.symm⟩
    · rw [hchanges]
      exact fun hclean => h.current (hdirty.symm.trans hclean)

/-- A saver that is not yet writing changes nothing of what the others write. -/
theorem insert_removed (h : saves.Tracked) {saver : ℕ} (hnew : saves.savers.lookup saver = none) :
    Tracked { saves with savers := saves.savers.insert saver .removed } := by
  have hlookup : ∀ other flush snapshot,
      (saves.savers.insert saver .removed).lookup other = some (.saving flush snapshot) ↔
        saves.savers.lookup other = some (.saving flush snapshot) := by
    intro other flush snapshot
    rw [Assoc.lookup_insert_eq]
    split_ifs with heq
    · rw [heq, hnew]
      exact ⟨nofun, nofun⟩
    · exact Iff.rfl
  refine ⟨h.disk, h.diskMap, h.newest, ?_, fun hclean => ?_⟩
  · exact fun other flush snapshot hother =>
      h.snapshots other flush snapshot ((hlookup other flush snapshot).mp hother)
  · refine (h.current hclean).imp_right ?_
    rintro ⟨other, snapshot, hother, hnumber⟩
    exact ⟨other, snapshot, (hlookup other true snapshot).mpr hother, hnumber⟩

/-- A snapshot of the current map is taken. -/
theorem insert_saving (h : saves.Tracked) {saver : ℕ} {flush : Bool}
    (hfree : ∀ flush snapshot, saves.savers.lookup saver ≠ some (.saving flush snapshot))
    {clocks : CoordinatorClocks} (hmap : clocks.map = saves.clocks.map)
    (hclean : clocks.dirty = false → flush = true ∨ saves.clocks.dirty = false) :
    Tracked { saves with
      clocks := clocks
      savers := saves.savers.insert saver (.saving flush saves.revision) } := by
  refine ⟨h.disk, fun heq => (h.diskMap heq).trans hmap.symm, h.newest, ?_, fun hdirty => ?_⟩
  · intro other otherFlush snapshot hother
    rw [Assoc.lookup_insert_eq] at hother
    split_ifs at hother with heq
    · cases hother
      exact ⟨le_rfl, fun _ => hmap.symm⟩
    · obtain ⟨hle, hsame⟩ := h.snapshots other otherFlush snapshot hother
      exact ⟨hle, fun heq => (hsame heq).trans hmap.symm⟩
  · rcases hclean hdirty with rfl | hbefore
    · exact Or.inr ⟨saver, saves.revision, AList.lookup_insert _, rfl⟩
    · refine (h.current hbefore).imp_right ?_
      rintro ⟨other, snapshot, hother, hnumber⟩
      refine ⟨other, snapshot, ?_, hnumber⟩
      rw [Assoc.lookup_insert_eq, if_neg]
      · exact hother
      · rintro rfl
        exact hfree true snapshot hother

theorem flush (h : saves.Tracked) {saver : ℕ} (hnew : saves.savers.lookup saver = none) :
    (saves.flush saver).Tracked := by
  unfold Saves.flush
  split_ifs
  · refine h.insert_saving (fun flush snapshot hsome => ?_) rfl fun _ => Or.inl rfl
    exact nomatch hnew.symm.trans hsome
  · exact h

theorem removeWorkgroup (h : saves.Tracked) {saver : ℕ}
    (hnew : saves.savers.lookup saver = none) (project wg : String) :
    (saves.removeWorkgroup saver project wg).Tracked := by
  unfold Saves.removeWorkgroup
  dsimp only
  split_ifs
  · exact (h.mutate (Settled.retainKeys _)).insert_removed hnew
  · exact h

theorem snapshot (h : saves.Tracked) (saver : ℕ) : (saves.snapshot saver).Tracked := by
  unfold Saves.snapshot
  split
  · next hsaver =>
    refine h.insert_saving (fun flush snapshot hsome => ?_) rfl Or.inr
    exact nomatch hsaver.symm.trans hsome
  · exact h

/-- What another saver writes is not what this one was writing. -/
theorem other_of_ne {saver other : ℕ} {flush : Bool} {written snapshot : Revision}
    (hsaver : saves.savers.lookup saver = some (.saving flush written))
    (hother : saves.savers.lookup other = some (.saving true snapshot))
    (hne : flush = true → written.number ≠ snapshot.number) :
    (saves.savers.erase saver).lookup other = some (.saving true snapshot) := by
  rw [Assoc.lookup_erase_eq, if_neg]
  · exact hother
  · rintro rfl
    cases hsaver.symm.trans hother
    exact hne rfl rfl

theorem write (h : saves.Tracked) {saver : ℕ} {ok : Bool} (hok : saves.InOrder (.write saver ok)) :
    (saves.write saver ok).Tracked := by
  unfold Saves.write
  split
  · next flush written hsaver =>
    obtain ⟨hle, hsame⟩ := h.snapshots saver flush written hsaver
    have hsnapshots : ∀ other otherFlush snapshot,
        (saves.savers.erase saver).lookup other = some (.saving otherFlush snapshot) →
          snapshot.number ≤ saves.changes ∧
            (snapshot.number = saves.changes → snapshot.map = saves.clocks.map) := by
      intro other otherFlush snapshot hother
      rw [Assoc.lookup_erase_eq] at hother
      split_ifs at hother
      exact h.snapshots other otherFlush snapshot hother
    split_ifs with hwritten
    · refine ⟨hle, hsame, max_le h.newest hle, hsnapshots, fun hclean => ?_⟩
      by_cases hcurrent : written.number = saves.changes
      · exact Or.inl hcurrent
      · have hnewer := (hok flush written hsaver hclean).1 hwritten
        rcases h.current hclean with hdisk | ⟨other, snapshot, hother, hnumber⟩
        · exact absurd (hdisk ▸ hnewer) (by omega)
        · exact Or.inr ⟨other, snapshot,
            other_of_ne hsaver hother fun _ heq => hcurrent (heq.trans hnumber), hnumber⟩
    · refine ⟨h.disk, h.diskMap, h.newest, hsnapshots, fun hclean => ?_⟩
      rcases h.current hclean with hdisk | ⟨other, snapshot, hother, hnumber⟩
      · exact Or.inl hdisk
      · by_cases hcurrent : saves.disk.number = saves.changes
        · exact Or.inl hcurrent
        · refine Or.inr ⟨other, snapshot, other_of_ne hsaver hother fun hflush heq => ?_, hnumber⟩
          have hold := (hok flush written hsaver hclean).2 (eq_false_of_ne_true hwritten) hflush
          have hdisk := h.disk
          omega
  · exact h

theorem next (h : saves.Tracked) {event : SaveEvent} (hok : saves.InOrder event) :
    (savesMachine.next saves event).Tracked := by
  cases event with
  | mutate op => exact h.mutate (Settled.apply op)
  | flush saver =>
    show (if _ then saves else saves.flush saver).Tracked
    split_ifs with hsome
    · exact h
    · exact h.flush (Option.not_isSome_iff_eq_none.mp hsome)
  | removeWorkgroup saver project wg =>
    show (if _ then saves else saves.removeWorkgroup saver project wg).Tracked
    split_ifs with hsome
    · exact h
    · exact h.removeWorkgroup (Option.not_isSome_iff_eq_none.mp hsome) project wg
  | snapshot saver => exact h.snapshot saver
  | write saver ok => exact h.write hok

end Tracked

theorem tracked_loaded (map : ClockMap) : (loaded map).Tracked where
  disk := le_rfl
  diskMap _ := rfl
  newest := le_rfl
  snapshots _ _ _ h := nomatch h
  current _ := Or.inl rfl

/-- In a run whose writes are in order, no difference is left unsaved. -/
theorem unsaved_always (map : ClockMap) (events : List SaveEvent)
    (h : savesMachine.Along InOrder (loaded map) events) :
    savesMachine.Always Unsaved (loaded map) events := by
  rw [Machine.always_iff]
  rintro pre ⟨suf, rfl⟩
  have hpre := ((Machine.along_append _ _ _ _).mp h).1
  exact (Machine.run_inv (fun _ _ ht hok => ht.next hok) (tracked_loaded map) hpre).unsaved

theorem unsaved_flushed :
    savesMachine.Always Unsaved (loaded ∅)
      [.mutate (.seedIfAbsent "p:wg/lead" 7), .flush 0, .write 0 true] := by
  refine unsaved_always ∅ _ ⟨trivial, trivial, ?_, trivial⟩
  intro flush snapshot _ _
  exact ⟨fun _ => Nat.zero_le _, nofun⟩

/-- A flush takes the flag down and then cannot write; and a removal writes its snapshot behind a
flush of a newer one. -/
theorem unsaved_lost :
    ¬ savesMachine.Always Unsaved (loaded ∅)
      [.mutate (.seedIfAbsent "p:wg/lead" 7), .flush 0, .write 0 false] ∧
    ¬ savesMachine.Always Unsaved (loaded ∅)
      [.mutate (.seedIfAbsent "p:wg/lead" 7), .removeWorkgroup 0 "p" "wg", .snapshot 0,
        .mutate (.seedIfAbsent "p:wg-2/lead" 8), .flush 1, .write 1 true, .write 0 true] := by
  constructor
  · intro h
    have hlost := h.2.2.2 (fun _ _ _ => nofun) rfl
    exact absurd (congrArg (·.keys) hlost.1) (by decide +kernel)
  · intro h
    have hlost := h.2.2.2.2.2.2.2 (fun _ _ _ => nofun) (by decide +kernel)
    exact absurd (congrArg (·.keys) hlost.1) (by decide +kernel)

end Saves

end AgentsCommander.Clocks
