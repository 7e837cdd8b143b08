import AgentsCommander.AutoClose.Anchors

/-! What a tick of the auto-close may take. -/
namespace AgentsCommander.AutoClose
open Foundation Clocks Idle

/-- The last output lies after the repaint window, and less than the timeout back. -/
def Reading.Working (policy : AutoClosePolicy) (reading : Reading) : Prop :=
  ∃ alive silence, reading.alive = some alive ∧ reading.silence = some silence ∧
    silence + repaintGrace < alive ∧ (silence : ℤ) < policy.timeoutSecs * 10 ^ 9

namespace Tick
variable (tick : Tick)

def policy : Option AutoClosePolicy := autoClosePolicy tick.closeSettings tick.nowSecs

/-- The coordinator record of a session's team. -/
def refOf (id : Uuid) : Option (String × String) :=
  ((tick.members.find? (·.1 = id)).map (·.2)).bind tick.coordRefs.lookup

def SkipsAssigned : Prop := tick.closeSettings.any (·.skipTelegramAssigned) = true

/-- A tick takes no session that is active or protected as far as it can see. -/
structure TakesNoActive : Prop where
  quiet : ∀ c ∈ tick.confirmed, ∀ stamp, c.stamp = some stamp → stamp ≤ c.readAt →
    repaintGrace ≤ c.readAt - stamp
  unassigned : ∀ policy, tick.policy = some policy → policy.skipTelegramAssigned = true →
    ∀ c ∈ tick.confirmed, c.telegramBot = false
  idle : ∀ policy, tick.policy = some policy → ∀ c ∈ tick.confirmed, (tick.refOf c.id).isSome →
    c.anchor = i64Min ∨ policy.timeoutSecs < policy.nowSecs - c.anchor
  spared : ∀ policy, tick.policy = some policy → ∀ reading ∈ tick.readings,
    reading.Working policy → (tick.coordRefs.lookup reading.team).isSome →
      ∀ c ∈ tick.confirmed, (c.id, reading.team) ∉ tick.members

/-- What `closeable_members` has seen of a session that it puts up for closing. -/
def Chosen (id : Uuid) : Prop :=
  ∃ team, (id, team) ∈ tick.members ∧ team ∈ tick.establishedTeams ∧
    id ∉ tick.telegramProtected ∧
    ∀ policy, tick.policy = some policy → (tick.coordRefs.lookup team).isSome →
      ∀ reading ∈ tick.readings, reading.team = team → ¬ reading.Working policy

/-- What `confirm_closeable_members` has seen of a session before its assignment. -/
structure Listened (policy : AutoClosePolicy) (c : Confirmation) : Prop where
  chosen : c.id ∈ tick.toClose
  idle : c.anchor = i64Min ∨ policy.timeoutSecs < policy.nowSecs - c.anchor
  quiet : ∀ stamp, c.stamp = some stamp → stamp ≤ c.readAt → repaintGrace ≤ c.readAt - stamp

/-- The activity of every team with a coordinator record is in the clocks. -/
def Advanced (map : ClockMap) : Prop :=
  ∀ team fqn cwd, tick.coordRefs.lookup team = some (fqn, cwd) →
    ∀ reading ∈ tick.readings, reading.team = team → ∀ silence,
      reading.postRepaint = some silence →
        Floor map fqn ((tick.nowSecs - asSecs silence) * 10 ^ 9)

end Tick

/-- What is known at each stage of the tick. -/
def Stage.Facts (world : World) (tick : Tick) : Stage → Prop
  | .resting | .finalized => True
  | .candidates | .live => tick.toClose = [] ∧ tick.confirmed = [] ∧ tick.establishedTeams = [] ∧
    tick.telegramProtected = []
  | .protecting _ => tick.toClose = [] ∧ tick.confirmed = [] ∧ tick.establishedTeams = [] ∧
    tick.SkipsAssigned
  | .establishing _ | .references | .clock | .measuring _ | .advancing =>
    tick.toClose = [] ∧ tick.confirmed = []
  | .snapshot => tick.toClose = [] ∧ tick.confirmed = [] ∧ tick.Advanced world.clocks.map
  | .choosing policy todo => tick.confirmed = [] ∧ tick.policy = some policy ∧
    todo ⊆ tick.members ∧ tick.Advanced tick.snap
  | .reserving policy => tick.confirmed = [] ∧ tick.policy = some policy
  | .confirming policy todo => tick.policy = some policy ∧ todo ⊆ tick.toClose
  | .listening policy id anchor todo => tick.policy = some policy ∧ id :: todo ⊆ tick.toClose ∧
    (anchor = i64Min ∨ policy.timeoutSecs < policy.nowSecs - anchor)
  | .assigning policy c todo => tick.policy = some policy ∧ todo ⊆ tick.toClose ∧
    tick.Listened policy c

namespace Evaluator

structure Sound (s : Evaluator) : Prop where
  facts : s.stage.Facts s.world s.tick
  nodup : (s.tick.members.map Prod.fst).Nodup
  protects : s.tick.telegramProtected ≠ [] → s.tick.SkipsAssigned
  chosen : ∀ id ∈ s.tick.toClose, s.tick.Chosen id
  confirmed : ∀ policy, s.tick.policy = some policy → ∀ c ∈ s.tick.confirmed,
    s.tick.Listened policy c ∧ (policy.skipTelegramAssigned = true → c.telegramBot = false)
  policed : s.tick.confirmed ≠ [] → s.tick.policy.isSome

variable {s : Evaluator}

theorem Sound.takesNoActive (h : s.Sound) : s.tick.TakesNoActive := by
  constructor
  · intro c hc
    obtain ⟨policy, hpolicy⟩ := Option.isSome_iff_exists.mp (h.policed (List.ne_nil_of_mem hc))
    exact (h.confirmed policy hpolicy c hc).1.quiet
  · exact fun policy hpolicy hskip c hc => (h.confirmed policy hpolicy c hc).2 hskip
  · exact fun policy hpolicy c hc _ => (h.confirmed policy hpolicy c hc).1.idle
  · intro policy hpolicy reading hreading hworking href c hc hmember
    obtain ⟨team, hteam, -, -, hspared⟩ :=
      h.chosen c.id (h.confirmed policy hpolicy c hc).1.chosen
    have hsame : (c.id, team) = (c.id, reading.team) :=
      List.inj_on_of_nodup_map h.nodup hteam hmember rfl
    obtain rfl : team = reading.team := (Prod.mk.inj hsame).2
    exact hspared policy hpolicy href reading hreading rfl hworking

/-- A stage before anything is put up for closing. -/
theorem Sound.early {stage : Stage} {world : World} {tick : Tick}
    (hfacts : stage.Facts world tick) (hclose : tick.toClose = []) (hconfirmed : tick.confirmed = [])
    (hnodup : (tick.members.map Prod.fst).Nodup)
    (hprotects : tick.telegramProtected ≠ [] → tick.SkipsAssigned) :
    Sound ⟨world, stage, tick⟩ where
  facts := hfacts
  nodup := hnodup
  protects := hprotects
  chosen id hid := by
    rw [hclose] at hid
    cases hid
  confirmed policy _ c hc := by
    rw [hconfirmed] at hc
    cases hc
  policed hne := absurd hconfirmed hne

/-- Only the stage moves. -/
theorem Sound.at_ (h : s.Sound) {stage : Stage} (hfacts : stage.Facts s.world s.tick) :
    (s.goTo stage s.tick).Sound :=
  ⟨hfacts, h.nodup, h.protects, h.chosen, h.confirmed, h.policed⟩

theorem nodup_agentTeamMembers (sessions : SessionTable) :
    ((agentTeamMembers sessions).map Prod.fst).Nodup := by
  have hkeys := List.nodupKeys_iff_pairwise.mp sessions.nodupKeys
  refine List.pairwise_map.mpr (List.pairwise_filterMap.mpr (hkeys.imp ?_))
  intro x y hne m hm n hn
  have hfst : ∀ (e : Sigma fun _ : Uuid => Session) (m : Uuid × String),
      (if !e.2.pendingCreate && (e.2.isCoordinator || e.2.hasAgent) then
        (teamKey e.2.fqn).map (Prod.mk e.1) else none) = some m → m.1 = e.1 := by
    intro e m hm
    split_ifs at hm
    obtain ⟨team, -, rfl⟩ := Option.map_eq_some_iff.mp hm
    rfl
  rw [hfst x m hm, hfst y n hn]
  exact hne

theorem Sound.start (choice : Choice) : (s.start choice).Sound :=
  .early ⟨rfl, rfl, rfl, rfl⟩ rfl rfl List.nodup_nil fun hne => absurd rfl hne

theorem Sound.readCandidates (h : s.Sound) (hstage : s.stage = .candidates) :
    s.readCandidates.Sound := by
  obtain ⟨hclose, hconfirmed, hteams, hprotected⟩ : Stage.Facts s.world s.tick .candidates :=
    hstage ▸ h.facts
  exact .early ⟨hclose, hconfirmed, hteams, hprotected⟩ hclose hconfirmed
    (nodup_agentTeamMembers _) h.protects

theorem Sound.liveMembers (h : s.Sound) (hstage : s.stage = .live) : s.liveMembers.Sound := by
  obtain ⟨hclose, hconfirmed, hteams, hprotected⟩ : Stage.Facts s.world s.tick .live :=
    hstage ▸ h.facts
  refine .early ?_ hclose hconfirmed (h.nodup.sublist (List.filter_sublist.map _)) h.protects
  split_ifs with hskips
  · exact ⟨hclose, hconfirmed, hteams, hskips⟩
  · exact ⟨hclose, hconfirmed⟩

theorem Sound.protect (h : s.Sound) {id : Uuid} {m : Uuid × String} {todo : List (Uuid × String)}
    (hstage : s.stage = .protecting (m :: todo)) : (s.protect id todo).Sound := by
  obtain ⟨hclose, hconfirmed, hteams, hskips⟩ : Stage.Facts s.world s.tick (.protecting _) :=
    hstage ▸ h.facts
  exact .early ⟨hclose, hconfirmed, hteams, hskips⟩ hclose hconfirmed h.nodup fun _ => hskips

theorem Sound.establish (h : s.Sound) (choice : Choice) {id : Uuid} {team : String}
    {m : Uuid × String} {todo : List (Uuid × String)}
    (hstage : s.stage = .establishing (m :: todo)) :
    (s.establish choice id team todo).Sound := by
  obtain ⟨hclose, hconfirmed⟩ : Stage.Facts s.world s.tick (.establishing _) := hstage ▸ h.facts
  exact .early ⟨hclose, hconfirmed⟩ hclose hconfirmed h.nodup h.protects

theorem Sound.readReferences (h : s.Sound) (hstage : s.stage = .references) :
    s.readReferences.Sound := by
  obtain ⟨hclose, hconfirmed⟩ : Stage.Facts s.world s.tick .references := hstage ▸ h.facts
  exact .early ⟨hclose, hconfirmed⟩ hclose hconfirmed h.nodup h.protects

theorem Sound.readClock (h : s.Sound) (choice : Choice) (hstage : s.stage = .clock) :
    (s.readClock choice).Sound := by
  obtain ⟨hclose, hconfirmed⟩ : Stage.Facts s.world s.tick .clock := hstage ▸ h.facts
  exact .early ⟨hclose, hconfirmed⟩ hclose hconfirmed h.nodup h.protects

theorem Sound.measure (h : s.Sound) (choice : Choice) {id : Uuid} {team : String}
    {m : Uuid × String} {todo : List (Uuid × String)} (hstage : s.stage = .measuring (m :: todo)) :
    (s.measure choice id team todo).Sound := by
  obtain ⟨hclose, hconfirmed⟩ : Stage.Facts s.world s.tick (.measuring _) := hstage ▸ h.facts
  exact .early ⟨hclose, hconfirmed⟩ hclose hconfirmed h.nodup h.protects

theorem asSecs_mono {x y : Duration} (h : x ≤ y) : asSecs x ≤ asSecs y :=
  Int.ofNat_le.mpr (Nat.div_le_div_right h)

theorem advanced_advance (world : World) (tick : Tick) :
    tick.Advanced (world.advance tick).clocks.map := by
  intro team fqn cwd href reading hreading hteam silence hsilence
  obtain ⟨least, hleast, hle⟩ := teamMinSilence_le hreading hsilence
  rw [hteam] at hleast
  refine (floor_advance href hleast).mono ?_
  have hsecs := asSecs_mono hle
  exact Int.mul_le_mul_of_nonneg_right (by omega) (by omega)

theorem Sound.advance (h : s.Sound) (hstage : s.stage = .advancing) : s.advance.Sound := by
  obtain ⟨hclose, hconfirmed⟩ : Stage.Facts s.world s.tick .advancing := hstage ▸ h.facts
  exact .early ⟨hclose, hconfirmed, advanced_advance s.world s.tick⟩ hclose hconfirmed h.nodup
    h.protects

theorem Sound.takeSnapshot (h : s.Sound) (hstage : s.stage = .snapshot) :
    s.takeSnapshot.Sound := by
  obtain ⟨hclose, hconfirmed, hadvanced⟩ : Stage.Facts s.world s.tick .snapshot :=
    hstage ▸ h.facts
  unfold Evaluator.takeSnapshot
  dsimp only
  cases hpolicy : autoClosePolicy s.tick.closeSettings s.tick.nowSecs with
  | none => exact .early trivial hclose hconfirmed h.nodup h.protects
  | some policy =>
    exact .early ⟨hconfirmed, hpolicy, fun _ hm => hm, hadvanced⟩ hclose hconfirmed h.nodup
      h.protects

theorem policy_settings {tick : Tick} {policy : AutoClosePolicy}
    (h : tick.policy = some policy) :
    policy.nowSecs = tick.nowSecs ∧ (policy.skipTelegramAssigned = true ↔ tick.SkipsAssigned) := by
  obtain ⟨settings, hsettings, hpolicy⟩ := Option.bind_eq_some_iff.mp h
  split_ifs at hpolicy
  cases hpolicy
  refine ⟨rfl, ?_⟩
  rw [Tick.SkipsAssigned, hsettings, Option.any_some]

/-- A working member's silence is what the team is measured by. -/
theorem postRepaint_of_working {policy : AutoClosePolicy} {reading : Reading}
    (h : reading.Working policy) :
    ∃ silence, reading.postRepaint = some silence ∧ asSecs silence ≤ policy.timeoutSecs := by
  obtain ⟨alive, silence, halive, hsilence, hwindow, htimeout⟩ := h
  refine ⟨silence, ?_, ?_⟩
  · rw [Reading.postRepaint, halive, hsilence]
    exact if_pos ⟨(Nat.le_add_left _ _).trans hwindow.le, Nat.lt_sub_of_add_lt hwindow⟩
  · unfold asSecs
    omega

theorem chosen_of_chooses (h : s.Sound) {policy : AutoClosePolicy} {choice : Choice} {id : Uuid}
    {team : String} {todo : List (Uuid × String)}
    (hstage : s.stage = .choosing policy ((id, team) :: todo))
    (hchooses : s.chooses policy choice id team = true) : s.tick.Chosen id := by
  obtain ⟨-, hpolicy, htodo, hadvanced⟩ : Stage.Facts s.world s.tick (.choosing _ _) :=
    hstage ▸ h.facts
  obtain ⟨hnow, hskips⟩ := policy_settings hpolicy
  unfold chooses shouldCloseMember teamIsCloseable at hchooses
  simp only [Bool.and_eq_true, Bool.not_eq_true', decide_eq_true_eq] at hchooses
  obtain ⟨hfree, ⟨hestablished, -⟩, hidle⟩ := hchooses
  refine ⟨team, htodo List.mem_cons_self, hestablished, fun hprotected => ?_, ?_⟩
  · have hskip := hskips.mpr (h.protects (List.ne_nil_of_mem hprotected))
    rw [sessionIsTelegramProtected, hskip, decide_eq_true hprotected] at hfree
    cases hfree
  · intro other hother href reading hreading hteam hworking
    obtain rfl : policy = other := Option.some.inj (hpolicy.symm.trans hother)
    obtain ⟨⟨fqn, cwd⟩, href⟩ := Option.isSome_iff_exists.mp href
    obtain ⟨silence, hsilence, htimeout⟩ := postRepaint_of_working hworking
    have hfloor := (hadvanced team fqn cwd href reading hreading hteam silence hsilence)
    have hanchor := hfloor.le_teamIdleSinceSecs
      ((s.tick.snap.lookup fqn).bind (·.lastUserMessageAt))
    rw [href, resolveMemberAnchor] at hidle
    omega

/-- What is chosen stays chosen: the tick changes nothing that it was chosen by. -/
theorem Sound.choose (h : s.Sound) {policy : AutoClosePolicy} {choice : Choice} {id : Uuid}
    {team : String} {todo : List (Uuid × String)}
    (hstage : s.stage = .choosing policy ((id, team) :: todo)) :
    (s.choose policy choice id team todo).Sound := by
  obtain ⟨hconfirmed, hpolicy, htodo, hadvanced⟩ : Stage.Facts s.world s.tick (.choosing _ _) :=
    hstage ▸ h.facts
  refine ⟨⟨hconfirmed, hpolicy, fun m hm => htodo (List.mem_cons_of_mem _ hm), hadvanced⟩,
    h.nodup, h.protects, ?_, ?_, fun hne => absurd hconfirmed hne⟩
  · show ∀ other ∈ (if s.chooses policy choice id team then s.tick.toClose ++ [id]
      else s.tick.toClose), s.tick.Chosen other
    split_ifs with hchooses
    · intro other hother
      rcases List.mem_append.mp hother with hold | hnew
      · exact h.chosen other hold
      · rw [List.mem_singleton.mp hnew]
        exact chosen_of_chooses h hstage hchooses
    · exact h.chosen
  · intro _ _ c hc
    have hc : c ∈ s.tick.confirmed := hc
    rw [hconfirmed] at hc
    cases hc

theorem Sound.reserve (h : s.Sound) {policy : AutoClosePolicy} (choice : Choice)
    (hstage : s.stage = .reserving policy) : (s.reserve policy choice).Sound := by
  obtain ⟨-, hpolicy⟩ : Stage.Facts s.world s.tick (.reserving _) := hstage ▸ h.facts
  refine h.at_ ?_
  split_ifs
  · exact ⟨hpolicy, fun _ hm => hm⟩
  · trivial

theorem Sound.confirmAnchor (h : s.Sound) {policy : AutoClosePolicy} {id : Uuid}
    {todo : List Uuid} (hstage : s.stage = .confirming policy (id :: todo)) :
    (s.confirmAnchor policy id todo).Sound := by
  obtain ⟨hpolicy, htodo⟩ : Stage.Facts s.world s.tick (.confirming _ _) := hstage ▸ h.facts
  refine h.at_ ?_
  split_ifs with hfresh
  · exact ⟨hpolicy, fun _ hm => htodo (List.mem_cons_of_mem _ hm)⟩
  · refine ⟨hpolicy, htodo, ?_⟩
    by_cases hmin : s.freshAnchor id = i64Min
    · exact Or.inl hmin
    · exact Or.inr (not_le.mp fun hle => hfresh ⟨hmin, hle⟩)

theorem Sound.confirm (h : s.Sound) {policy : AutoClosePolicy} {c : Confirmation}
    {todo : List Uuid} (hpolicy : s.tick.policy = some policy) (htodo : todo ⊆ s.tick.toClose)
    (hlistened : s.tick.Listened policy c)
    (hassigned : policy.skipTelegramAssigned = true → c.telegramBot = false) :
    (s.confirm policy c todo).Sound := by
  refine ⟨⟨hpolicy, htodo⟩, h.nodup, h.protects, h.chosen, ?_,
    fun _ => Option.isSome_of_eq_some hpolicy⟩
  intro other hother d hd
  obtain rfl : policy = other := Option.some.inj (hpolicy.symm.trans hother)
  rcases List.mem_append.mp hd with hold | hnew
  · obtain ⟨hl, ha⟩ := h.confirmed policy hpolicy d hold
    exact ⟨⟨hl.chosen, hl.idle, hl.quiet⟩, ha⟩
  · rw [List.mem_singleton.mp hnew]
    exact ⟨⟨hlistened.chosen, hlistened.idle, hlistened.quiet⟩, hassigned⟩

theorem quiet_of_silenceAge {idle : IdleDetector} {id : Uuid} {now : Instant}
    (h : ¬ (silenceAge idle id now).any (· < repaintGrace) = true) :
    ∀ stamp, idle.silence.lookup id = some stamp → stamp ≤ now → repaintGrace ≤ now - stamp := by
  intro stamp hstamp hle
  rw [silenceAge, hstamp, Option.bind_some, checkedDurationSince, if_pos hle,
    Option.any_some, decide_eq_true_iff] at h
  exact not_lt.mp h

theorem Sound.confirmSilence (h : s.Sound) {policy : AutoClosePolicy} (choice : Choice) {id : Uuid}
    {anchor : ℤ} {todo : List Uuid} (hstage : s.stage = .listening policy id anchor todo) :
    (s.confirmSilence policy choice id anchor todo).Sound := by
  obtain ⟨hpolicy, htodo, hidle⟩ : Stage.Facts s.world s.tick (.listening _ _ _ _) :=
    hstage ▸ h.facts
  obtain ⟨hid, htodo⟩ := List.cons_subset.mp htodo
  unfold Evaluator.confirmSilence
  dsimp only
  split_ifs with hrecent hskip
  · exact h.at_ ⟨hpolicy, htodo⟩
  · exact h.at_ ⟨hpolicy, htodo, hid, hidle, quiet_of_silenceAge hrecent⟩
  · exact h.confirm hpolicy htodo ⟨hid, hidle, quiet_of_silenceAge hrecent⟩ fun _ => rfl

theorem Sound.confirmAssignment (h : s.Sound) {policy : AutoClosePolicy} {c : Confirmation}
    {todo : List Uuid} (hstage : s.stage = .assigning policy c todo) :
    (s.confirmAssignment policy c todo).Sound := by
  obtain ⟨hpolicy, htodo, hlistened⟩ : Stage.Facts s.world s.tick (.assigning _ _ _) :=
    hstage ▸ h.facts
  unfold Evaluator.confirmAssignment
  dsimp only
  split_ifs with hassigned
  · exact h.at_ ⟨hpolicy, htodo⟩
  · refine h.confirm hpolicy htodo ⟨hlistened.chosen, hlistened.idle, hlistened.quiet⟩ fun _ => ?_
    exact eq_false_of_ne_true hassigned

theorem Sound.proceed (h : s.Sound) (choice : Choice) : (s.proceed choice).Sound := by
  unfold Evaluator.proceed
  split
  · exact .start choice
  · exact .start choice
  · next hstage => exact h.readCandidates hstage
  · next hstage => exact h.liveMembers hstage
  · next hstage =>
    obtain ⟨hclose, hconfirmed, -, -⟩ : Stage.Facts s.world s.tick (.protecting _) :=
      hstage ▸ h.facts
    exact h.at_ ⟨hclose, hconfirmed⟩
  · next hstage => exact h.protect hstage
  · next hstage =>
    obtain ⟨hclose, hconfirmed⟩ : Stage.Facts s.world s.tick (.establishing _) := hstage ▸ h.facts
    exact h.at_ ⟨hclose, hconfirmed⟩
  · next hstage => exact h.establish choice hstage
  · next hstage => exact h.readReferences hstage
  · next hstage => exact h.readClock choice hstage
  · next hstage =>
    obtain ⟨hclose, hconfirmed⟩ : Stage.Facts s.world s.tick (.measuring _) := hstage ▸ h.facts
    exact h.at_ ⟨hclose, hconfirmed⟩
  · next hstage => exact h.measure choice hstage
  · next hstage => exact h.advance hstage
  · next hstage => exact h.takeSnapshot hstage
  · next policy hstage =>
    obtain ⟨hconfirmed, hpolicy, -, -⟩ : Stage.Facts s.world s.tick (.choosing _ _) :=
      hstage ▸ h.facts
    refine h.at_ ?_
    split_ifs
    · trivial
    · exact ⟨hconfirmed, hpolicy⟩
  · next hstage => exact h.choose hstage
  · next hstage => exact h.reserve choice hstage
  · exact h.at_ trivial
  · next hstage => exact h.confirmAnchor hstage
  · next hstage => exact h.confirmSilence choice hstage
  · next hstage => exact h.confirmAssignment hstage

/-- What goes on around the tick takes no activity from the clocks. -/
theorem Sound.inWorld (h : s.Sound) {world : World}
    (hclocks : ∀ fqn t, Floor s.world.clocks.map fqn t → Floor world.clocks.map fqn t) :
    (s.inWorld world).Sound := by
  refine ⟨?_, h.nodup, h.protects, h.chosen, h.confirmed, h.policed⟩
  have hfacts := h.facts
  show s.stage.Facts world s.tick
  cases hstage : s.stage with
  | snapshot =>
    rw [hstage] at hfacts
    obtain ⟨hclose, hconfirmed, hadvanced⟩ := hfacts
    exact ⟨hclose, hconfirmed, fun team fqn cwd href reading hreading hteam silence hsilence =>
      hclocks fqn _ (hadvanced team fqn cwd href reading hreading hteam silence hsilence)⟩
  | _ =>
    rw [hstage] at hfacts
    exact hfacts

theorem Sound.next (h : s.Sound) (event : AutoCloseEvent) : (autoClose.next s event).Sound := by
  cases event with
  | proceed choice => exact h.proceed choice
  | settings settings => exact h.inWorld fun _ _ hf => hf
  | sessions sessions live => exact h.inWorld fun _ _ hf => hf
  | userMessage fqn now => exact h.inWorld fun _ _ hf => hf.noteUserMessage fqn now
  | spawnCoordinator fqn now => exact h.inWorld fun _ _ hf => hf.spawnCoordinator fqn now
  | detect thread act choice => exact h.inWorld fun _ _ hf => hf
  | output id byteCount printable now => exact h.inWorld fun _ _ hf => hf

theorem sound_atRest (world : World) : (atRest world).Sound :=
  .early trivial rfl rfl List.nodup_nil fun hne => absurd rfl hne

/-- A coordinator that was registered at 0 with a burst filter, in a team that has been idle. -/
def filtered : World where
  settings := some ⟨true, 1, false⟩
  sessions := AList.singleton 1 ⟨"p:wg/lead", "/p/wg/lead", true, true, false, false⟩
  live := [1]
  idle := runAlone ⟨0, true⟩
    (registerSession 1 { IdleTuning.default with
      burstMaxBytes := 1000
      burstWindow := 5 * 10 ^ 9
      burstPriorSilence := 60 * 10 ^ 9 }) .new
  clocks := ⟨AList.singleton "p:wg/lead" { ClockEntry.default with lastUserMessageAt := some 0 },
    false, ∅⟩
  outputs := ∅

end Evaluator

end AgentsCommander.AutoClose
