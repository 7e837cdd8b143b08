import AgentsCommander.ResponseClose.Returns

/-! What an operation that is not about the close itself keeps of a route. -/
namespace AgentsCommander.ResponseClose
open Foundation Sessions

/-- It keeps the closing mark and the policy, or drops the policy. Where a ticket stays selected,
nothing but the remembered hold window has changed. -/
structure Keeps (r r' : ResponseCloseRoute) : Prop where
  generation : r'.generation = r.generation
  closing : r'.closing = r.closing
  closingTarget : r'.closingTarget = r.closingTarget
  committedBinding : r'.committedBinding = r.committedBinding
  policy : ∀ p', r'.policy = some p' → r'.workEpoch = r.workEpoch ∧ ∃ p, r.policy = some p ∧
    p' = { p with settingsEpoch := p'.settingsEpoch, selected := p'.selected }
  still : ∀ p', r'.policy = some p' → p'.selected.isSome = true →
    r' = { r with holdWindow := r'.holdWindow }

/-- It counts no writer either. -/
structure Observes (r r' : ResponseCloseRoute) : Prop extends Keeps r r' where
  writers : r'.writers = r.writers

/-- Whatever ticket was selected no longer is. -/
structure Unselects (r r' : ResponseCloseRoute) : Prop where
  generation : r'.generation = r.generation
  closing : r'.closing = r.closing
  closingTarget : r'.closingTarget = r.closingTarget
  committedBinding : r'.committedBinding = r.committedBinding
  policy : ∀ p', r'.policy = some p' → r'.workEpoch = r.workEpoch ∧ ∃ p, r.policy = some p ∧
    p' = { p with settingsEpoch := p'.settingsEpoch, selected := none }

namespace ResponseCloseRoute

/-- The part of a route that the close is decided on. -/
def core (r : ResponseCloseRoute) :=
  (r.generation, r.closing, r.closingTarget, r.committedBinding, r.workEpoch, r.policy)

end ResponseCloseRoute

theorem Unselects.keeps {r r' : ResponseCloseRoute} (h : Unselects r r') : Keeps r r' where
  generation := h.generation
  closing := h.closing
  closingTarget := h.closingTarget
  committedBinding := h.committedBinding
  policy p' hp' := by
    obtain ⟨hepoch, p, hp, heq⟩ := h.policy p' hp'
    have hselected : p'.selected = none := congrArg ResponseClosePolicy.selected heq
    exact ⟨hepoch, p, hp, hselected ▸ heq⟩
  still p' hp' hsome := by
    obtain ⟨-, p, -, heq⟩ := h.policy p' hp'
    have hselected : p'.selected = none := congrArg ResponseClosePolicy.selected heq
    rw [hselected] at hsome
    cases hsome

theorem Unselects.congr {r r₀ r₁ r' : ResponseCloseRoute} (h : Unselects r₀ r₁)
    (h₀ : r₀.core = r.core) (h₁ : r'.core = r₁.core) : Unselects r r' := by
  simp only [ResponseCloseRoute.core, Prod.mk.injEq] at h₀ h₁
  obtain ⟨hg, hc, ht, hb, he, hp⟩ := h₀
  obtain ⟨hg', hc', ht', hb', he', hp'⟩ := h₁
  refine ⟨hg'.trans (h.generation.trans hg), hc'.trans (h.closing.trans hc),
    ht'.trans (h.closingTarget.trans ht), hb'.trans (h.committedBinding.trans hb), ?_⟩
  intro p' hsome
  obtain ⟨hepoch, p, hpolicy, heq⟩ := h.policy p' (hp' ▸ hsome)
  exact ⟨he'.trans (hepoch.trans he), p, hp ▸ hpolicy, heq⟩

theorem Keeps.refl (r : ResponseCloseRoute) : Keeps r r where
  generation := rfl
  closing := rfl
  closingTarget := rfl
  committedBinding := rfl
  policy p' hp' := ⟨rfl, p', hp', rfl⟩
  still _ _ _ := rfl

theorem Keeps.trans {r r' r'' : ResponseCloseRoute} (h : Keeps r r') (h' : Keeps r' r'') :
    Keeps r r'' where
  generation := h'.generation.trans h.generation
  closing := h'.closing.trans h.closing
  closingTarget := h'.closingTarget.trans h.closingTarget
  committedBinding := h'.committedBinding.trans h.committedBinding
  policy p'' hp'' := by
    obtain ⟨hepoch', p', hp', heq'⟩ := h'.policy p'' hp''
    obtain ⟨hepoch, p, hp, heq⟩ := h.policy p' hp'
    refine ⟨hepoch'.trans hepoch, p, hp, ?_⟩
    rw [heq] at heq'
    exact heq'
  still p'' hp'' hsome := by
    have heq' := h'.still p'' hp'' hsome
    have hp' : r'.policy = some p'' := by
      rw [heq'] at hp''
      exact hp''
    have heq := h.still p'' hp' hsome
    rw [heq] at heq'
    exact heq'

theorem Observes.refl (r : ResponseCloseRoute) : Observes r r := ⟨.refl r, rfl⟩

theorem Observes.trans {r r' r'' : ResponseCloseRoute} (h : Observes r r') (h' : Observes r' r'') :
    Observes r r'' := ⟨h.toKeeps.trans h'.toKeeps, h'.writers.trans h.writers⟩

/-- The remembered window is not among what a ticket stands for. -/
theorem Observes.window (r : ResponseCloseRoute) (window : Option Duration) :
    Observes r { r with holdWindow := window } where
  generation := rfl
  closing := rfl
  closingTarget := rfl
  committedBinding := rfl
  policy p' hp' := ⟨rfl, p', hp', rfl⟩
  still _ _ _ := rfl
  writers := rfl

theorem unselects_none {r r' : ResponseCloseRoute} (hg : r'.generation = r.generation)
    (hc : r'.closing = r.closing) (ht : r'.closingTarget = r.closingTarget)
    (hb : r'.committedBinding = r.committedBinding) (hp : r'.policy = none) : Unselects r r' where
  generation := hg
  closing := hc
  closingTarget := ht
  committedBinding := hb
  policy p' hp' := by
    rw [hp] at hp'
    cases hp'

theorem unselects_touch (r : ResponseCloseRoute) (now : Instant) :
    Unselects r (r.touch now).1 := by
  unfold ResponseCloseRoute.touch
  dsimp only
  split
  · refine ⟨rfl, rfl, rfl, rfl, ?_⟩
    intro p' hp'
    obtain ⟨p, hp, rfl⟩ := Option.map_eq_some_iff.mp hp'
    exact ⟨rfl, p, hp, rfl⟩
  · exact unselects_none rfl rfl rfl rfl rfl

@[simp] theorem writers_touch (r : ResponseCloseRoute) (now : Instant) :
    (r.touch now).1.writers = r.writers := by
  unfold ResponseCloseRoute.touch
  dsimp only
  split <;> rfl

theorem unselects_invalidate (r : ResponseCloseRoute) (now : Instant) :
    Unselects r (r.invalidate now).1 := by
  unfold ResponseCloseRoute.invalidate
  dsimp only
  split
  · have h := unselects_touch { r with policy := none, workEpoch := ‹ℕ› } now
    refine unselects_none h.generation h.closing h.closingTarget h.committedBinding ?_
    rw [Option.eq_none_iff_forall_not_mem]
    intro p' hp'
    obtain ⟨-, p, hp, -⟩ := h.policy p' hp'
    cases hp
  · exact unselects_none rfl rfl rfl rfl rfl

@[simp] theorem writers_invalidate (r : ResponseCloseRoute) (now : Instant) :
    (r.invalidate now).1.writers = r.writers := by
  unfold ResponseCloseRoute.invalidate
  dsimp only
  split
  · exact writers_touch _ now
  · rfl

section
variable {r r' : ResponseCloseRoute} (now : Instant) (r₀ : ResponseCloseRoute)

theorem keeps_of_touch (h₀ : r₀.core = r.core) (h₁ : r'.core = (r₀.touch now).1.core) :
    Keeps r r' := ((unselects_touch r₀ now).congr h₀ h₁).keeps

theorem keeps_of_invalidate (h₀ : r₀.core = r.core) (h₁ : r'.core = (r₀.invalidate now).1.core) :
    Keeps r r' := ((unselects_invalidate r₀ now).congr h₀ h₁).keeps

theorem observes_of_touch (h₀ : r₀.core = r.core) (h₁ : r'.core = (r₀.touch now).1.core)
    (hw : r'.writers = r.writers) : Observes r r' := ⟨keeps_of_touch now r₀ h₀ h₁, hw⟩

theorem observes_of_invalidate (h₀ : r₀.core = r.core)
    (h₁ : r'.core = (r₀.invalidate now).1.core) (hw : r'.writers = r.writers) : Observes r r' :=
  ⟨keeps_of_invalidate now r₀ h₀ h₁, hw⟩

end

namespace ResponseCloseRoute
variable (r : ResponseCloseRoute) (now : Instant)

theorem observes_touch : Observes r (r.touch now).1 :=
  ⟨(unselects_touch r now).keeps, writers_touch r now⟩

theorem observes_invalidate : Observes r (r.invalidate now).1 :=
  ⟨(unselects_invalidate r now).keeps, writers_invalidate r now⟩

theorem observes_publishManagerRow (token : Uuid) (version : ℕ) (eligible working : Bool) :
    Observes r (r.publishManagerRow token version eligible working now).1 := by
  unfold publishManagerRow touchIf
  dsimp only
  split_ifs with hrow hworking
  · exact observes_of_invalidate now r rfl rfl (writers_invalidate r now)
  · exact observes_of_touch now r rfl rfl (writers_touch r now)
  · simp only [not_or, ne_eq, Decidable.not_not] at hrow hworking
    obtain ⟨htoken, hversion, heligible⟩ := hrow
    rw [← htoken, ← hversion, ← heligible, ← hworking]
    exact .refl r

theorem observes_publishManagerFacts (identity : ResponseRouteIdentity)
    (eligible working : Bool) :
    Observes r (r.publishManagerFacts identity eligible working now).1 := by
  unfold publishManagerFacts touchIf
  dsimp only
  split_ifs with hrow hworking
  · exact observes_of_invalidate now r rfl rfl (writers_invalidate r now)
  · exact observes_of_touch now r rfl rfl (writers_touch r now)
  · simp only [not_or, ne_eq, Decidable.not_not] at hrow hworking
    rw [← hrow.1, ← hrow.2, ← hworking]
    exact .refl r

theorem observes_invalidateManagerRow : Observes r (r.invalidateManagerRow now).1 :=
  observes_of_invalidate now { r with facts := none, eligible := false } rfl rfl
    (writers_invalidate _ now)

theorem observes_observeDetector (working : Bool) :
    Observes r (r.observeDetector working now).1 := by
  unfold observeDetector touchIf
  dsimp only
  split_ifs with hworking
  · exact observes_of_touch now r rfl rfl (writers_touch r now)
  · rw [← Decidable.not_not.mp hworking]
    exact .refl r

theorem observes_publishMenu (blocked : Option Bool) :
    Observes r (r.publishMenu blocked now).1 := by
  unfold publishMenu touchIf
  dsimp only
  split_ifs with hblocked
  · exact observes_of_touch now r rfl rfl (writers_touch r now)
  · rw [← Decidable.not_not.mp hblocked]
    exact .refl r

theorem observes_publishHold (endsAt : Option Instant) (known : Bool) :
    Observes r (r.publishHold endsAt known now).1 := by
  unfold publishHold touchIf
  dsimp only
  split_ifs with hhold
  · exact observes_of_touch now r rfl rfl (writers_touch r now)
  · rw [ne_eq, Decidable.not_not, Prod.mk.injEq] at hhold
    rw [← hhold.1, ← hhold.2]
    exact .refl r

theorem observes_publishHeldKey (key : String) (held : Bool) :
    Observes r (r.publishHeldKey key held now).1 := by
  unfold publishHeldKey touchIf
  dsimp only
  split_ifs with hchanged hheld hheld
  · exact observes_of_touch now { r with held := insert key r.held } rfl rfl (writers_touch _ now)
  · exact observes_of_touch now { r with held := r.held.erase key } rfl rfl (writers_touch _ now)
  · rw [hheld, ne_eq, Decidable.not_not, decide_eq_true_eq] at hchanged
    rw [Finset.insert_eq_of_mem hchanged]
    exact .refl r
  · rw [Bool.eq_false_iff.mpr hheld, ne_eq, Decidable.not_not, decide_eq_false_iff_not] at hchanged
    rw [Finset.erase_eq_of_notMem hchanged]
    exact .refl r

theorem observes_publishTypingKey (window : Option Duration) :
    Observes r (r.publishTypingKey window now).1 := by
  unfold publishTypingKey
  cases window <;>
    exact observes_of_touch now r rfl rfl (writers_touch r now)

theorem observes_refreshHoldSnapshot (window : Duration) (closed : Bool) :
    Observes r (r.refreshHoldSnapshot window closed now).1 := by
  unfold refreshHoldSnapshot
  dsimp only
  split_ifs
  · exact observes_of_touch now { r with holdUntil := none, holdKnown := true } rfl rfl
      (writers_touch _ now)
  · exact .window r (some window)
  · exact observes_of_touch now { r with holdKnown := false } rfl rfl (writers_touch _ now)
  · exact .window r (some window)

theorem unselects_applySettings (enabled : Bool) (epoch : ℕ) :
    Unselects r (r.applySettings enabled epoch now).1 := by
  unfold applySettings
  dsimp only
  generalize hpolicy : (if enabled then r.policy.bind (·.underSettings epoch) else none) = policy
  have h := unselects_touch { r with policy := policy } now
  refine ⟨h.generation, h.closing, h.closingTarget, h.committedBinding, ?_⟩
  intro p' hp'
  obtain ⟨hepoch, q, hq, heq⟩ := h.policy p' hp'
  refine ⟨hepoch, ?_⟩
  rw [show policy = some q from hq] at hpolicy
  split_ifs at hpolicy with henabled
  obtain ⟨p, hp, hsome⟩ := Option.bind_eq_some_iff.mp hpolicy
  unfold ResponseClosePolicy.underSettings at hsome
  split_ifs at hsome with hregistered
  cases hsome
  exact ⟨p, hp, heq⟩

theorem observes_applySettings (enabled : Bool) (epoch : ℕ) :
    Observes r (r.applySettings enabled epoch now).1 :=
  ⟨(r.unselects_applySettings now enabled epoch).keeps, writers_touch _ now⟩

end ResponseCloseRoute

/-- Every route is there afterwards, and keeps what counts. -/
def RoutesKept (R : ResponseCloseRoute → ResponseCloseRoute → Prop)
    (s s' : ResponseCloseInner) : Prop :=
  ∀ id, Option.Rel R (s.routes.lookup id) (s'.routes.lookup id)

section
variable {R : ResponseCloseRoute → ResponseCloseRoute → Prop} {s s' s'' : ResponseCloseInner}

theorem RoutesKept.of_eq (hR : ∀ r, R r r) (h : s'.routes = s.routes) : RoutesKept R s s' := by
  intro id
  rw [h]
  cases s.routes.lookup id with
  | none => exact .none
  | some r => exact .some (hR r)

theorem RoutesKept.trans (hR : ∀ a b c, R a b → R b c → R a c) (h : RoutesKept R s s')
    (h' : RoutesKept R s' s'') : RoutesKept R s s'' := by
  intro id
  have hid := h id
  have hid' := h' id
  generalize s.routes.lookup id = o at hid
  generalize s'.routes.lookup id = o' at hid hid'
  generalize s''.routes.lookup id = o'' at hid'
  cases hid with
  | none =>
    cases hid'
    exact .none
  | some hr =>
    cases hid' with
    | some hr' => exact .some (hR _ _ _ hr hr')

theorem routesKept_revise {f : Uuid → ResponseCloseRoute → ResponseCloseRoute × Bool}
    (hroutes : s'.routes = s.routes) (hf : ∀ id r, R r (f id r).1) :
    RoutesKept R s (s'.revise f) := by
  intro id
  rw [ResponseCloseInner.lookup_revise, hroutes]
  cases s.routes.lookup id with
  | none => exact .none
  | some r => exact .some (hf id r)

theorem routesKept_reviseAt (hR : ∀ r, R r r) {id : Uuid}
    {f : ResponseCloseRoute → ResponseCloseRoute × Bool} (hroutes : s'.routes = s.routes)
    (hf : ∀ r, R r (f r).1) : RoutesKept R s (s'.reviseAt id f) := by
  refine routesKept_revise hroutes fun j r => ?_
  split_ifs
  · exact hf r
  · exact hR r

theorem routesKept_reviseAll (hR : ∀ r, R r r) {p : ResponseCloseRoute → Bool}
    {f : ResponseCloseRoute → ResponseCloseRoute × Bool} (hroutes : s'.routes = s.routes)
    (hf : ∀ r, R r (f r).1) : RoutesKept R s (s'.reviseAll p f) := by
  refine routesKept_revise hroutes fun j r => ?_
  split_ifs
  · exact hf r
  · exact hR r

theorem RoutesKept.before (h : RoutesKept R s s') {id : Uuid} {r' : ResponseCloseRoute}
    (hr' : s'.routes.lookup id = some r') : ∃ r, s.routes.lookup id = some r ∧ R r r' := by
  have hid := h id
  rw [hr'] at hid
  generalize s.routes.lookup id = o at hid
  cases hid with
  | some hr => exact ⟨_, rfl, hr⟩

theorem RoutesKept.after (h : RoutesKept R s s') {id : Uuid} {r : ResponseCloseRoute}
    (hr : s.routes.lookup id = some r) : ∃ r', s'.routes.lookup id = some r' ∧ R r r' := by
  have hid := h id
  rw [hr] at hid
  generalize s'.routes.lookup id = o at hid
  cases hid with
  | some hr => exact ⟨_, rfl, hr⟩

theorem RoutesKept.mono {R' : ResponseCloseRoute → ResponseCloseRoute → Prop}
    (hR : ∀ a b, R a b → R' a b) (h : RoutesKept R s s') : RoutesKept R' s s' := by
  intro id
  have hid := h id
  generalize s.routes.lookup id = o at hid ⊢
  generalize s'.routes.lookup id = o' at hid ⊢
  cases hid with
  | none => exact .none
  | some hr => exact .some (hR _ _ hr)

end
end AgentsCommander.ResponseClose
