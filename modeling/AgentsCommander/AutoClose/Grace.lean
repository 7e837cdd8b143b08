import AgentsCommander.AutoClose.Laws

/-! How long a session has lived when the auto-close takes it. -/
namespace AgentsCommander.AutoClose
open Foundation Clocks Idle

namespace Tick
variable (tick : Tick)

/-- The session was tracked, and old enough, when the tick began. -/
def Mature (id : Uuid) : Prop :=
  ∃ since, tick.registeredAt.lookup id = some since ∧ since + wakeGrace ≤ tick.startedAt

theorem any_iff_mature (id : Uuid) :
    (tick.registeredAt.lookup id).any (· + wakeGrace ≤ tick.startedAt) = true ↔
      tick.Mature id := by
  rw [Mature]
  cases tick.registeredAt.lookup id with
  | none => exact ⟨nofun, fun ⟨_, hsince, _⟩ => nomatch hsince⟩
  | some since =>
    rw [Option.any_some, decide_eq_true_iff]
    exact ⟨fun hle => ⟨since, rfl, hle⟩, fun ⟨_, hsince, hle⟩ => Option.some.inj hsince ▸ hle⟩

instance (id : Uuid) : Decidable (tick.Mature id) := decidable_of_iff _ (tick.any_iff_mature id)

def TakesMature : Prop := ∀ c ∈ tick.confirmed, tick.Mature c.id

/-- In the established teams, whoever is not protected was old enough. -/
def Established : Prop :=
  ∀ team ∈ tick.establishedTeams, ∀ m ∈ tick.members, m.2 = team →
    m.1 ∉ tick.telegramProtected → tick.Mature m.1

end Tick

namespace Evaluator
variable {s : Evaluator}

/-- The team of which the next step sees an established member. -/
def establishes (s : Evaluator) (choice : Choice) : Option String :=
  match s.stage with
  | .establishing ((id, team) :: _) => if s.isEstablished id choice.now then some team else none
  | _ => none

/-- Where a member reads as established, all live members of its team were tracked and old enough
when the tick began, but for those that are protected. -/
def TeamMature (s : Evaluator) : AutoCloseEvent → Prop
  | .proceed choice => ∀ m ∈ s.tick.members, s.establishes choice = some m.2 →
    m.1 ∉ s.tick.telegramProtected → s.tick.Mature m.1
  | _ => True

instance : ∀ event, Decidable (s.TeamMature event)
  | .proceed choice => inferInstanceAs (Decidable (∀ m ∈ s.tick.members,
      s.establishes choice = some m.2 → m.1 ∉ s.tick.telegramProtected → s.tick.Mature m.1))
  | .settings _ | .sessions _ _ | .userMessage _ _ | .spawnCoordinator _ _ | .detect _ _ _
  | .output _ _ _ _ => isTrue trivial

theorem Sound.takesMature (h : s.Sound) (hteams : s.tick.Established) : s.tick.TakesMature := by
  intro c hc
  obtain ⟨policy, hpolicy⟩ := Option.isSome_iff_exists.mp (h.policed (List.ne_nil_of_mem hc))
  obtain ⟨team, hmember, hestablished, hfree, -⟩ :=
    h.chosen c.id (h.confirmed policy hpolicy c hc).1.chosen
  exact hteams team hestablished (c.id, team) hmember rfl hfree

/-- No team is established before all members are known. -/
theorem established_of_nil {tick : Tick} (h : tick.establishedTeams = []) : tick.Established := by
  intro team hteam
  rw [h] at hteam
  cases hteam

theorem established_proceed (h : s.Sound) (hteams : s.tick.Established) {choice : Choice}
    (hok : s.TeamMature (.proceed choice)) : (s.proceed choice).tick.Established := by
  unfold Evaluator.proceed
  split
  · exact established_of_nil rfl
  · exact established_of_nil rfl
  · next hstage =>
    obtain ⟨-, -, hnone, -⟩ : Stage.Facts s.world s.tick .candidates := hstage ▸ h.facts
    exact established_of_nil hnone
  · next hstage =>
    obtain ⟨-, -, hnone, -⟩ : Stage.Facts s.world s.tick .live := hstage ▸ h.facts
    exact established_of_nil hnone
  · exact hteams
  · next hstage =>
    obtain ⟨-, -, hnone, -⟩ : Stage.Facts s.world s.tick (.protecting _) := hstage ▸ h.facts
    exact established_of_nil hnone
  · exact hteams
  · next id team todo hstage =>
    intro other hother m hm hteam hfree
    have hother : other ∈ (if s.isEstablished id choice.now then team :: s.tick.establishedTeams
      else s.tick.establishedTeams) := hother
    split_ifs at hother with hestablished
    · rcases List.mem_cons.mp hother with rfl | hold
      · refine hok m hm ?_ hfree
        rw [establishes, hstage, hteam]
        exact if_pos hestablished
      · exact hteams other hold m hm hteam hfree
    · exact hteams other hother m hm hteam hfree
  · exact hteams
  · exact hteams
  · exact hteams
  · exact hteams
  · exact hteams
  · unfold Evaluator.takeSnapshot
    dsimp only
    split <;> exact hteams
  · exact hteams
  · exact hteams
  · exact hteams
  · exact hteams
  · exact hteams
  · unfold Evaluator.confirmSilence
    dsimp only
    split_ifs <;> exact hteams
  · unfold Evaluator.confirmAssignment
    dsimp only
    split_ifs <;> exact hteams

theorem established_next (h : s.Sound) (hteams : s.tick.Established) {event : AutoCloseEvent}
    (hok : s.TeamMature event) : (autoClose.next s event).tick.Established := by
  cases event with
  | proceed choice => exact established_proceed h hteams hok
  | _ => exact hteams

/-- In a run whose established teams hold no young members, no young session is taken. -/
theorem takesMature_always (world : World) (events : List AutoCloseEvent)
    (h : autoClose.Along TeamMature (atRest world) events) :
    autoClose.Always (fun s => s.tick.TakesMature) (atRest world) events := by
  rw [Machine.always_iff]
  rintro pre ⟨suf, rfl⟩
  have hpre := ((Machine.along_append _ _ _ _).mp h).1
  obtain ⟨hsound, hteams⟩ := Machine.run_inv
    (P := fun s : Evaluator => s.Sound ∧ s.tick.Established)
    (fun _ e hs hok => ⟨hs.1.next e, established_next hs.1 hs.2 hok⟩)
    ⟨sound_atRest world, established_of_nil rfl⟩ hpre
  exact hsound.takesMature hteams

/-- A team of a coordinator that was registered at 0, and a member that was registered at 980. -/
def reawakened : World where
  settings := some ⟨true, 1, false⟩
  sessions := (AList.singleton 2 ⟨"p:wg/dev", "/p/wg/dev", false, true, false, false⟩).insert 1
    ⟨"p:wg/lead", "/p/wg/lead", true, true, false, false⟩
  live := [1, 2]
  idle := runAlone ⟨980 * 10 ^ 9, true⟩ (registerSession 2 .default)
    (runAlone ⟨0, true⟩ (registerSession 1 .default) .new)
  clocks := ⟨AList.singleton "p:wg/lead" { ClockEntry.default with lastUserMessageAt := some 0 },
    false, ∅⟩
  outputs := ∅

theorem takesMature_grown :
    autoClose.Always (fun s => s.tick.TakesMature) (atRest reawakened)
      (List.replicate 22 (.proceed ⟨2000 * 10 ^ 9, 2000 * 10 ^ 9, 2000 * 10 ^ 9, true⟩)) :=
  takesMature_always reawakened _ (by decide +kernel)

/-- The coordinator establishes the team of a member that is 20 seconds old. -/
theorem young_isTaken :
    ¬ ∀ (world : World) (events : List AutoCloseEvent),
      autoClose.Always (fun s => s.tick.TakesMature) (atRest world) events := by
  intro h
  have hrun := (Machine.always_iff _ _ _).mp (h reawakened
    (List.replicate 22 (.proceed ⟨1000 * 10 ^ 9, 1000 * 10 ^ 9, 1000 * 10 ^ 9, true⟩))) _
    (List.prefix_refl _)
  obtain ⟨since, hsince, hle⟩ := hrun ⟨2, 0, 1000 * 10 ^ 9, some (980 * 10 ^ 9), false, none⟩
    (by decide +kernel)
  have hregistered : ((autoClose.run (atRest reawakened) (List.replicate 22
      (.proceed ⟨1000 * 10 ^ 9, 1000 * 10 ^ 9, 1000 * 10 ^ 9, true⟩))).tick.registeredAt.lookup 2) =
      some (980 * 10 ^ 9) := by decide +kernel
  obtain rfl := Option.some.inj (hregistered.symm.trans hsince)
  revert hle
  decide +kernel

end Evaluator

end AgentsCommander.AutoClose
