import AgentsCommander.AutoClose.Tick

/-! The idle anchor of a team: what the tick makes of the ages that it reads. -/
namespace AgentsCommander.AutoClose
open Foundation Clocks Idle

/-- The last activity of a coordinator is at or behind this time. -/
def Floor (map : ClockMap) (fqn : String) (t : DateTime) : Prop :=
  ∃ a, (map.lookup fqn).bind (·.lastActivityAt) = some a ∧ t ≤ a

namespace Floor
variable {clocks : CoordinatorClocks} {fqn : String} {t : DateTime}

theorem mono (h : Floor clocks.map fqn t) {u : DateTime} (hle : u ≤ t) :
    Floor clocks.map fqn u := by
  obtain ⟨a, ha, hta⟩ := h
  exact ⟨a, ha, hle.trans hta⟩

theorem lastActivityAt_entry (fqn : String) :
    (clocks.entry fqn).lastActivityAt = (clocks.map.lookup fqn).bind (·.lastActivityAt) := by
  unfold CoordinatorClocks.entry
  cases clocks.map.lookup fqn <;> rfl

theorem lastActivityAt_put (other fqn : String) (entry : ClockEntry) :
    ((clocks.put other entry).map.lookup fqn).bind (·.lastActivityAt) =
      if fqn = other then entry.lastActivityAt
      else (clocks.map.lookup fqn).bind (·.lastActivityAt) := by
  show ((clocks.map.insert other entry).lookup fqn).bind (·.lastActivityAt) = _
  rw [Assoc.lookup_insert_eq]
  split_ifs <;> rfl

/-- An entry is replaced by one of no older activity. -/
theorem put (h : Floor clocks.map fqn t) (other : String) {entry : ClockEntry}
    (hentry : ∀ a, (clocks.entry other).lastActivityAt = some a →
      ∃ b, entry.lastActivityAt = some b ∧ a ≤ b) : Floor (clocks.put other entry).map fqn t := by
  obtain ⟨a, ha, hta⟩ := h
  by_cases heq : fqn = other
  · subst heq
    obtain ⟨b, hb, hab⟩ := hentry a ((lastActivityAt_entry fqn).trans ha)
    exact ⟨b, (lastActivityAt_put fqn fqn entry).trans ((if_pos rfl).trans hb), hta.trans hab⟩
  · exact ⟨a, (lastActivityAt_put other fqn entry).trans ((if_neg heq).trans ha), hta⟩

theorem put_same (h : Floor clocks.map fqn t) (other : String) {entry : ClockEntry}
    (hentry : entry.lastActivityAt = (clocks.entry other).lastActivityAt) :
    Floor (clocks.put other entry).map fqn t :=
  h.put other fun a ha => ⟨a, hentry.trans ha, le_rfl⟩

theorem noteUserMessage (h : Floor clocks.map fqn t) (other : String) (now : DateTime) :
    Floor (clocks.noteUserMessage other now).1.map fqn t := by
  unfold CoordinatorClocks.noteUserMessage
  dsimp only
  split_ifs
  · exact h
  · exact h.put_same other rfl

theorem seedIfAbsent (h : Floor clocks.map fqn t) (other : String) (now : DateTime) :
    Floor (clocks.seedIfAbsent other now).1.map fqn t := by
  unfold CoordinatorClocks.seedIfAbsent
  split_ifs with hsome
  · exact h
  · refine h.put other fun a ha => ?_
    rw [lastActivityAt_entry, Option.not_isSome_iff_eq_none.mp hsome] at ha
    cases ha

theorem clear (h : Floor clocks.map fqn t) (other : String) {marked : ClockEntry → Bool}
    {cleared : ClockEntry → ClockEntry}
    (hcleared : ∀ entry, (cleared entry).lastActivityAt = entry.lastActivityAt) :
    Floor (clocks.clear other marked cleared).1.map fqn t := by
  unfold CoordinatorClocks.clear
  cases hentry : clocks.map.lookup other with
  | none => exact h
  | some entry =>
    dsimp only
    split_ifs
    · refine h.put_same other ((hcleared entry).trans ?_)
      rw [lastActivityAt_entry, hentry]
      rfl
    · exact h

theorem noteActivity (h : Floor clocks.map fqn t) (other : String) (candidate : DateTime) :
    Floor (clocks.noteActivity other candidate).1.map fqn t := by
  unfold CoordinatorClocks.noteActivity
  dsimp only
  split_ifs with hall
  · refine h.put other fun a ha => ⟨candidate, rfl, ?_⟩
    rw [ha] at hall
    exact (of_decide_eq_true hall).le
  · exact h

theorem of_put (fqn : String) {entry : ClockEntry} (hentry : entry.lastActivityAt = some t) :
    Floor (clocks.put fqn entry).map fqn t :=
  ⟨t, (lastActivityAt_put fqn fqn entry).trans ((if_pos rfl).trans hentry), le_rfl⟩

theorem of_noteActivity (fqn : String) (candidate : DateTime) :
    Floor (clocks.noteActivity fqn candidate).1.map fqn candidate := by
  unfold CoordinatorClocks.noteActivity
  dsimp only
  cases hlast : (clocks.entry fqn).lastActivityAt with
  | none => exact of_put fqn rfl
  | some prev =>
    rw [Option.all_some]
    split_ifs with hlt
    · exact of_put fqn rfl
    · refine ⟨prev, (lastActivityAt_entry fqn).symm.trans hlast, ?_⟩
      exact not_lt.mp fun h => hlt (decide_eq_true h)

theorem clearAutoClosed (h : Floor clocks.map fqn t) (other : String) :
    Floor (clocks.clearAutoClosed other).1.map fqn t := by
  unfold CoordinatorClocks.clearAutoClosed
  exact h.clear other fun _ => rfl

theorem clearManuallyClosed (h : Floor clocks.map fqn t) (other : String) :
    Floor (clocks.clearManuallyClosed other).1.map fqn t := by
  unfold CoordinatorClocks.clearManuallyClosed
  exact h.clear other fun _ => rfl

theorem spawnCoordinator {world : World} (h : Floor world.clocks.map fqn t) (other : String)
    (now : DateTime) : Floor (world.spawnCoordinator other now).clocks.map fqn t :=
  ((h.seedIfAbsent other now).clearAutoClosed other).clearManuallyClosed other

/-- The anchor is at or behind what it is made of. -/
theorem le_teamIdleSinceSecs {map : ClockMap} {secs : ℤ} (h : Floor map fqn (secs * 10 ^ 9))
    (user : Option DateTime) :
    secs ≤ teamIdleSinceSecs user ((map.lookup fqn).bind (·.lastActivityAt)) := by
  obtain ⟨a, ha, hle⟩ := h
  rw [ha]
  have hsecs : secs ≤ timestamp a := (Int.le_ediv_iff_mul_le (by omega)).mpr hle
  exact hsecs.trans (le_max_right _ _)

end Floor

theorem teamMinSilence_le {readings : List Reading} {reading : Reading}
    (hreading : reading ∈ readings) {silence : Duration}
    (hsilence : reading.postRepaint = some silence) :
    ∃ least, teamMinSilence readings reading.team = some least ∧ least ≤ silence := by
  have hmem : silence ∈ (readings.filter (·.team = reading.team)).filterMap Reading.postRepaint :=
    List.mem_filterMap.mpr
      ⟨reading, List.mem_filter.mpr ⟨hreading, decide_eq_true rfl⟩, hsilence⟩
  obtain ⟨least, hleast⟩ := Option.isSome_iff_exists.mp (List.isSome_min?_of_mem hmem)
  exact ⟨least, hleast, (List.min?_eq_some_iff.mp hleast).2 silence hmem⟩

/-- What one coordinator record does to the clocks in `advance_team_activity`. -/
def advanceOne (tick : Tick) (clocks : CoordinatorClocks)
    (e : Sigma fun _ : String => String × String) : CoordinatorClocks :=
  match teamMinSilence tick.readings e.1 with
  | some silence => (clocks.noteActivity e.2.1 ((tick.nowSecs - asSecs silence) * 10 ^ 9)).1
  | none => clocks

theorem Floor.advanceOne {tick : Tick} {clocks : CoordinatorClocks} {fqn : String} {t : DateTime}
    (h : Floor clocks.map fqn t) (e : Sigma fun _ : String => String × String) :
    Floor (advanceOne tick clocks e).map fqn t := by
  unfold AutoClose.advanceOne
  cases teamMinSilence tick.readings e.1 with
  | none => exact h
  | some silence => exact h.noteActivity _ _

theorem Floor.foldl_advanceOne {tick : Tick} {clocks : CoordinatorClocks} {fqn : String}
    {t : DateTime} (h : Floor clocks.map fqn t)
    (refs : List (Sigma fun _ : String => String × String)) :
    Floor (refs.foldl (AutoClose.advanceOne tick) clocks).map fqn t := by
  induction refs generalizing clocks with
  | nil => exact h
  | cons e refs ih => exact ih (h.advanceOne e)

theorem floor_advance {world : World} {tick : Tick} {team fqn cwd : String}
    (href : tick.coordRefs.lookup team = some (fqn, cwd)) {silence : Duration}
    (hsilence : teamMinSilence tick.readings team = some silence) :
    Floor (world.advance tick).clocks.map fqn ((tick.nowSecs - asSecs silence) * 10 ^ 9) := by
  have hmem : (⟨team, fqn, cwd⟩ : Sigma fun _ : String => String × String) ∈
      tick.coordRefs.entries := AList.mem_lookup_iff.mp href
  obtain ⟨before, behind, hentries⟩ := List.append_of_mem hmem
  show Floor (tick.coordRefs.entries.foldl (advanceOne tick) world.clocks).map fqn _
  rw [hentries, List.foldl_append, List.foldl_cons]
  refine Floor.foldl_advanceOne ?_ behind
  unfold advanceOne
  rw [hsilence]
  exact Floor.of_noteActivity _ _

end AgentsCommander.AutoClose
