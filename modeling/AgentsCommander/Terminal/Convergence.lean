import AgentsCommander.Terminal.App

/-! What an event can do to the selection the store has applied. The selection a terminal window
shows, whatever reaches it and in whatever order. -/
namespace AgentsCommander.Terminal
open Foundation Sessions
namespace TerminalStore
variable {s : TerminalStore} {sel : SessionSelection} {gen : ℤ}

/-- What a payload writes. -/
def applied (s : TerminalStore) :
    Option Uuid × ℤ × Option Uuid × SelectionMode × Finset Uuid :=
  (s.selectionEpoch, s.appliedRevision, s.selectionId, s.selectionMode, s.retiredEpochs)

/-- The store shows a payload. -/
structure Shows (s : TerminalStore) (sel : SessionSelection) : Prop where
  epoch : s.selectionEpoch = some sel.epoch
  revision : s.appliedRevision = sel.revision
  id : s.selectionId = sel.id
  mode : s.selectionMode = sel.mode

/-- A payload of the current epoch is newer, or the awaited hydration repeats its revision; one
of another epoch retires the current one. -/
inductive Admits (s : TerminalStore) (sel : SessionSelection) (gen : ℤ) (allow : Bool) :
    Finset Uuid → Prop
  | newer (he : s.selectionEpoch = some sel.epoch) (hr : s.appliedRevision < sel.revision) :
      Admits s sel gen allow s.retiredEpochs
  | repeated (he : s.selectionEpoch = some sel.epoch) (hr : (sel.revision : ℤ) = s.appliedRevision)
      (ha : allow = true) (hw : s.awaitingHydrationGeneration = some gen) :
      Admits s sel gen allow s.retiredEpochs
  | first (he : s.selectionEpoch = none) (hr : sel.epoch ∉ s.retiredEpochs) :
      Admits s sel gen allow s.retiredEpochs
  | another (epoch : Uuid) (he : s.selectionEpoch = some epoch) (hne : epoch ≠ sel.epoch)
      (hr : sel.epoch ∉ s.retiredEpochs) : Admits s sel gen allow (insert epoch s.retiredEpochs)

structure Reserved (s s' : TerminalStore) (sel : SessionSelection) (gen : ℤ) (allow : Bool) :
    Prop where
  generation : gen = s.connectionGeneration
  connected : s.transportConnected = true
  admits : s.Admits sel gen allow s'.retiredEpochs
  shows : s'.Shows sel
  unbound : s'.bindingState ≠ .bound

theorem admits_of_not_refuses {allow : Bool} (h : s.refuses sel gen allow = false) :
    s.Admits sel gen allow (s.retire sel) := by
  unfold refuses at h
  unfold retire
  by_cases he : s.selectionEpoch = some sel.epoch
  · rw [if_pos he, Bool.or_eq_false_iff, decide_eq_false_iff_not, not_lt] at h
    rw [if_pos he]
    rcases h.1.lt_or_eq with hlt | heq
    · exact .newer he hlt
    · have hwait := h.2
      rw [decide_eq_true heq.symm, Bool.true_and, Bool.or_eq_false_iff, Bool.not_eq_false',
        decide_eq_false_iff_not, not_not] at hwait
      exact .repeated he heq.symm hwait.1 hwait.2
  · rw [if_neg he, decide_eq_false_iff_not] at h
    rw [if_neg he]
    cases hepoch : s.selectionEpoch with
    | none => exact .first hepoch h
    | some epoch =>
      have hne : epoch ≠ sel.epoch := by
        intro hc
        exact he (hc ▸ hepoch)
      exact .another epoch hepoch hne h

theorem reserveSelection_cases (s : TerminalStore) (sel : SessionSelection) (gen : ℤ)
    (allow : Bool) :
    s.reserveSelection sel gen allow = (s, false) ∨
      ∃ s', s.reserveSelection sel gen allow = (s', true) ∧ s.Reserved s' sel gen allow := by
  unfold reserveSelection
  by_cases hrefused : (decide (gen ≠ s.connectionGeneration) || !s.transportConnected ||
      s.refuses sel gen allow) = true
  · exact .inl (if_pos hrefused)
  · right
    rw [if_neg hrefused]
    rw [Bool.not_eq_true, Bool.or_eq_false_iff, Bool.or_eq_false_iff, decide_eq_false_iff_not,
      not_not, Bool.not_eq_false'] at hrefused
    refine ⟨_, rfl, hrefused.1.1, hrefused.1.2, admits_of_not_refuses hrefused.2,
      ⟨rfl, rfl, rfl, rfl⟩, ?_⟩
    dsimp only
    split_ifs
    · decide
    · decide

theorem bindLive_cases (toLowerCase : String → String) (s : TerminalStore)
    (sel : SessionSelection) (gen : ℤ) (session : ListedSession) (seq : ℕ) :
    s.bindLive toLowerCase sel gen session seq = (s, false) ∨
      ∃ s', s.bindLive toLowerCase sel gen session seq = (s', true) ∧ sel.mode = .live ∧
        some session.id = sel.id ∧ s.matchesCurrentSelection sel gen = true ∧
        s'.applied = s.applied ∧ s'.activeSessionId = some session.id := by
  unfold bindLive
  split_ifs with hrefused
  · exact .inl rfl
  · right
    simp only [Bool.or_eq_true, decide_eq_true_eq, Bool.not_eq_true', not_or, not_not,
      Bool.not_eq_false] at hrefused
    exact ⟨_, rfl, hrefused.1.1.1, hrefused.1.1.2, hrefused.2, rfl, rfl⟩

theorem shows_of_matches (h : s.matchesCurrentSelection sel gen = true) :
    s.Shows sel ∧ s.connectionGeneration = gen ∧ s.transportConnected = true := by
  unfold matchesCurrentSelection at h
  simp only [Bool.and_eq_true, decide_eq_true_eq] at h
  obtain ⟨⟨⟨⟨⟨hgen, hconn⟩, he⟩, hr⟩, hi⟩, hm⟩ := h
  exact ⟨⟨he, hr, hi, hm⟩, hgen, hconn⟩

/-- An operation that applies nothing and binds nothing. -/
structure Aside (s s' : TerminalStore) : Prop where
  applied : s'.applied = s.applied
  binding : s'.bindingState = .bound →
    s.bindingState = .bound ∧ s'.activeSessionId = s.activeSessionId

theorem Aside.refl (s : TerminalStore) : s.Aside s := ⟨rfl, fun h => ⟨h, rfl⟩⟩

theorem Aside.trans {s' s'' : TerminalStore} (h : s.Aside s') (h' : s'.Aside s'') :
    s.Aside s'' where
  applied := h'.applied.trans h.applied
  binding hb := by
    obtain ⟨hb', hid⟩ := h'.binding hb
    obtain ⟨hb, hid'⟩ := h.binding hb'
    exact ⟨hb, hid.trans hid'⟩

/-- Suspending what is bound. -/
theorem Aside.suspended {s' : TerminalStore} {b : TerminalBindingState} (hb : b ≠ .bound)
    (ha : s'.applied = s.applied) (hs : s'.bindingState = b) : s.Aside s' :=
  ⟨ha, fun h => absurd (hs.symm.trans h) hb⟩

theorem aside_observeConnection (s : TerminalStore) (connected : Bool) (gen : ℤ) :
    s.Aside (s.observeConnection connected gen).1 := by
  unfold observeConnection
  dsimp only
  split_ifs
  · exact .refl s
  · exact .suspended (b := .unavailable) (by decide) rfl rfl
  · exact ⟨rfl, fun h => ⟨h, rfl⟩⟩

theorem aside_beginHydration (s : TerminalStore) (gen : ℤ) :
    s.Aside (s.beginHydration gen).1 := by
  unfold beginHydration
  split_ifs
  · exact .refl s
  · exact ⟨rfl, fun h => ⟨h, rfl⟩⟩

theorem aside_cancelHydration (s : TerminalStore) (gen : Option ℤ) :
    s.Aside (s.cancelHydration gen) := by
  unfold cancelHydration
  split_ifs
  · exact ⟨rfl, fun h => ⟨h, rfl⟩⟩
  · exact .refl s

theorem aside_suspendLiveBinding (s : TerminalStore) : s.Aside s.suspendLiveBinding :=
  .suspended (b := .unavailable) (by decide) rfl rfl

theorem aside_markUnavailable (s : TerminalStore) (sel : SessionSelection) (gen : ℤ) :
    s.Aside (s.markUnavailable sel gen) := by
  unfold markUnavailable
  split_ifs
  · exact s.aside_suspendLiveBinding
  · exact .refl s

theorem aside_safetySuspendDestroyed (s : TerminalStore) (id : Uuid) :
    s.Aside (s.safetySuspendDestroyed id).1 := by
  unfold safetySuspendDestroyed
  by_cases hid : s.activeSessionId ≠ some id
  · rw [if_pos hid]
    exact .refl s
  · rw [if_neg hid]
    split_ifs
    · exact .suspended (b := .pending) (by decide) rfl rfl
    · exact .suspended (b := .unavailable) (by decide) rfl rfl

theorem aside_renameBoundSession (s : TerminalStore) (id : Uuid) (name : String) :
    s.Aside (s.renameBoundSession id name) := by
  unfold renameBoundSession
  split_ifs
  · exact ⟨rfl, fun h => ⟨h, rfl⟩⟩
  · exact .refl s

end TerminalStore

/-- What one event makes of the store, and the answer it gives. -/
inductive StoreMove (s : TerminalStore) (e : AppEvent) : TerminalStore → AppReply → Prop
  | aside (s' : TerminalStore) (h : s.Aside s') : StoreMove s e s' .nothing
  | applied (s' : TerminalStore) (sel : SessionSelection) (gen : ℤ) (allow : Bool)
      (h : s.Reserved s' sel gen allow) (ha : allow = true → e = .hydrationAnswered gen sel) :
      StoreMove s e s' (.applied sel)
  | bound (s' : TerminalStore) (sel : SessionSelection) (session : ListedSession)
      (hm : sel.mode = .live) (hid : some session.id = sel.id) (hs : s.Shows sel)
      (h : s'.applied = s.applied) (hb : s'.activeSessionId = some session.id) :
      StoreMove s e s' (.bound sel session)

theorem StoreMove.refl {e : AppEvent} (s : TerminalStore) : StoreMove s e s .nothing :=
  .aside s (.refl s)

namespace TerminalApp
variable {a : TerminalApp} {e : AppEvent}

theorem storeMove_reconcileSelection (sel : SessionSelection) (gen : ℤ) {allow : Bool}
    (ha : allow = true → e = .hydrationAnswered gen sel) :
    StoreMove a.store e (a.reconcileSelection sel gen allow).1.store
      (a.reconcileSelection sel gen allow).2 := by
  unfold reconcileSelection
  split_ifs
  · exact .refl a.store
  · rcases a.store.reserveSelection_cases sel gen allow with h | ⟨s', h, hres⟩
    · rw [h]
      exact .refl a.store
    · rw [h]
      exact .applied s' sel gen allow hres ha

theorem storeMove_resolveLive (toLowerCase : String → String) (sel : SessionSelection) (gen : ℤ)
    (seq : ℕ) (sessions : List ListedSession) :
    StoreMove a.store e (a.resolveLive toLowerCase sel gen seq sessions).1.store
      (a.resolveLive toLowerCase sel gen seq sessions).2 := by
  have hmark : StoreMove a.store e (a.store.markUnavailable sel gen) .nothing :=
    .aside _ (a.store.aside_markUnavailable sel gen)
  unfold resolveLive
  split_ifs
  · exact .refl a.store
  · split
    · exact hmark
    · next session hfind =>
      split_ifs
      · exact hmark
      · rcases a.store.bindLive_cases toLowerCase sel gen session seq with
          h | ⟨s', h, hm, hid, hmatch, happ, hact⟩
        · rw [h]
          exact .refl a.store
        · rw [h]
          exact .bound s' sel session hm hid (TerminalStore.shows_of_matches hmatch).1 happ hact

theorem aside_liveUnresolved (a : TerminalApp) (sel : SessionSelection) (gen : ℤ) :
    a.store.Aside (a.liveUnresolved sel gen).store := by
  unfold liveUnresolved
  split_ifs
  · exact a.store.aside_markUnavailable sel gen
  · exact .refl a.store

theorem aside_requestHydration (a : TerminalApp) (gen : ℤ) :
    a.store.Aside (a.requestHydration gen).store := by
  unfold requestHydration
  split_ifs
  · exact .refl a.store
  · dsimp only
    split_ifs
    · exact a.store.aside_beginHydration gen
    · exact .refl a.store

theorem aside_hydrationFailed (a : TerminalApp) (gen : ℤ) (busy : Bool) :
    a.store.Aside (a.hydrationFailed gen busy).store := by
  unfold hydrationFailed scheduleHydrationRetry
  split_ifs
  · exact .refl a.store
  · exact .refl a.store
  · exact .refl a.store
  · exact (a.store.aside_cancelHydration _).trans (TerminalStore.aside_suspendLiveBinding _)

theorem aside_hydrationSettled (a : TerminalApp) (gen : ℤ) :
    a.store.Aside (a.hydrationSettled gen).store := by
  unfold hydrationSettled
  split_ifs <;> exact .refl a.store

theorem aside_applyConnectionState (a : TerminalApp) (connected : Bool) (gen : ℤ) :
    a.store.Aside (a.applyConnectionState connected gen).store := by
  have hobserve := a.store.aside_observeConnection connected gen
  unfold applyConnectionState
  split_ifs
  · exact .refl a.store
  · exact hobserve.trans (aside_requestHydration { a with
      observedConnected := connected
      observedGeneration := gen
      store := (a.store.observeConnection connected gen).1
      retryTimer := none
      retryAttempt := 0 } gen)
  · exact hobserve

theorem storeMove_step (toLowerCase : String → String) (a : TerminalApp) (e : AppEvent) :
    StoreMove a.store e (a.step toLowerCase e).1.store (a.step toLowerCase e).2 := by
  cases e with
  | mounted => exact .refl a.store
  | cleanedUp => exact .aside _ (a.store.aside_cancelHydration none)
  | sessionSwitched sel gen => exact storeMove_reconcileSelection sel gen fun h => nomatch h
  | connectionState connected gen => exact .aside _ (a.aside_applyConnectionState connected gen)
  | hydrationAnswered gen sel =>
    unfold step hydrationAnswered
    dsimp only
    split_ifs
    · exact storeMove_reconcileSelection sel gen fun _ => rfl
    · exact .refl a.store
  | hydrationFailed gen busy => exact .aside _ (a.aside_hydrationFailed gen busy)
  | hydrationSettled gen => exact .aside _ (a.aside_hydrationSettled gen)
  | retryFired =>
    unfold step
    dsimp only
    split
    · exact .aside _ (a.cancelRetry.aside_requestHydration _)
    · exact .refl a.store
  | sessionsListed sel gen seq sessions => exact storeMove_resolveLive toLowerCase sel gen seq sessions
  | listFailed sel gen => exact .aside _ (a.aside_liveUnresolved sel gen)
  | sessionDestroyed id => exact .aside _ (a.store.aside_safetySuspendDestroyed id)
  | sessionRenamed id name => exact .aside _ (a.store.aside_renameBoundSession id name)
  | _ => exact .aside _ ⟨rfl, fun h => ⟨h, rfl⟩⟩

end TerminalApp

/-- The payload an answer says was applied. -/
def AppReply.selection : AppReply → Option SessionSelection
  | .applied sel => some sel
  | _ => none

/-- The store, against the payloads accepted so far. -/
structure History (s : TerminalStore) (acc : List SessionSelection) : Prop where
  current : ∀ epoch, s.selectionEpoch = some epoch → epoch ∉ s.retiredEpochs
  epochs : ∀ p ∈ acc, p.epoch ∈ s.retiredEpochs ∨ s.selectionEpoch = some p.epoch
  revisions : ∀ p ∈ acc, s.selectionEpoch = some p.epoch → (p.revision : ℤ) ≤ s.appliedRevision
  sorted : acc.Pairwise fun p q => p.epoch = q.epoch → p.revision ≤ q.revision
  first : acc = [] → s.applied = TerminalStore.initial.applied
  last : ∀ p, acc.getLast? = some p → s.Shows p
  bound : s.bindingState = .bound →
    s.selectionMode = .live ∧ s.activeSessionId = s.selectionId

variable {s s' : TerminalStore} {acc : List SessionSelection} {e : AppEvent}

theorem History.initial : History .initial [] where
  current epoch h := by cases h
  epochs p h := by cases h
  revisions p h := by cases h
  sorted := .nil
  first _ := rfl
  last p h := by cases h
  bound h := by cases h

/-- What the history says of the applied selection depends on nothing else. -/
theorem History.of_applied (h : History s acc) (ha : s'.applied = s.applied)
    (hb : s'.bindingState = .bound →
      s'.selectionMode = .live ∧ s'.activeSessionId = s'.selectionId) : History s' acc := by
  have hall := ha
  unfold TerminalStore.applied at ha
  simp only [Prod.mk.injEq] at ha
  obtain ⟨he, hr, hi, hm, ht⟩ := ha
  constructor
  · rw [he, ht]
    exact h.current
  · rw [he, ht]
    exact h.epochs
  · rw [he, hr]
    exact h.revisions
  · exact h.sorted
  · exact fun hn => hall.trans (h.first hn)
  · intro p hp
    have hs := h.last p hp
    exact ⟨he.trans hs.epoch, hr.trans hs.revision, hi.trans hs.id, hm.trans hs.mode⟩
  · exact hb

/-- Which epochs are over once a payload is let in. -/
theorem TerminalStore.Admits.retired {sel : SessionSelection} {gen : ℤ} {allow : Bool}
    {retired : Finset Uuid} (ha : s.Admits sel gen allow retired) :
    retired = s.retiredEpochs ∧ s.selectionEpoch = some sel.epoch ∨
      retired = s.retiredEpochs ∧ s.selectionEpoch = none ∨
        ∃ epoch, s.selectionEpoch = some epoch ∧ epoch ≠ sel.epoch ∧
          retired = insert epoch s.retiredEpochs := by
  cases ha with
  | newer he hr => exact .inl ⟨rfl, he⟩
  | repeated he hr ha hw => exact .inl ⟨rfl, he⟩
  | first he hr => exact .inr (.inl ⟨rfl, he⟩)
  | another epoch he hne hr => exact .inr (.inr ⟨epoch, he, hne, rfl⟩)

theorem TerminalStore.Admits.same_epoch {sel : SessionSelection} {gen : ℤ} {allow : Bool}
    {retired : Finset Uuid} (ha : s.Admits sel gen allow retired)
    (he : s.selectionEpoch = some sel.epoch) :
    s.appliedRevision < sel.revision ∨ (sel.revision : ℤ) = s.appliedRevision ∧ allow = true ∧
      s.awaitingHydrationGeneration = some gen := by
  cases ha with
  | newer _ hr => exact .inl hr
  | repeated _ hr ha hw => exact .inr ⟨hr, ha, hw⟩
  | first hn hr => cases he.symm.trans hn
  | another epoch hep hne hr => exact absurd (Option.some.inj (hep.symm.trans he)) hne

/-- A payload that is let in is of the current epoch, or of one that was never left. -/
theorem History.fresh (h : History s acc) {sel : SessionSelection} {gen : ℤ} {allow : Bool}
    {retired : Finset Uuid} (ha : s.Admits sel gen allow retired) :
    sel.epoch ∉ s.retiredEpochs := by
  cases ha with
  | newer he hr => exact h.current _ he
  | repeated he hr ha hw => exact h.current _ he
  | first he hr => exact hr
  | another epoch he hne hr => exact hr

/-- No payload accepted before in the epoch of a new one has a higher revision. -/
theorem History.le_of_admits (h : History s acc) {sel : SessionSelection} {gen : ℤ}
    {allow : Bool} {retired : Finset Uuid} (ha : s.Admits sel gen allow retired)
    {p : SessionSelection} (hp : p ∈ acc) (hsame : p.epoch = sel.epoch) :
    p.revision ≤ sel.revision := by
  have hfresh := h.fresh ha
  rcases h.epochs p hp with hretired | hcurrent
  · exact absurd (hsame ▸ hretired) hfresh
  · have hle := h.revisions p hp hcurrent
    cases ha with
    | newer he hr => omega
    | repeated he hr ha hw => omega
    | first he hr => cases hcurrent.symm.trans he
    | another epoch he hne hr =>
      have heq : epoch = p.epoch := Option.some.inj (he.symm.trans hcurrent)
      exact absurd (heq.trans hsame) hne

theorem History.reserved (h : History s acc) {sel : SessionSelection} {gen : ℤ} {allow : Bool}
    (hr : s.Reserved s' sel gen allow) : History s' (acc ++ [sel]) := by
  have hfresh := h.fresh hr.admits
  have hretired := hr.admits.retired
  constructor
  · intro epoch he
    have heq : sel.epoch = epoch := Option.some.inj (hr.shows.epoch.symm.trans he)
    rw [← heq]
    rcases hretired with ⟨ht, -⟩ | ⟨ht, -⟩ | ⟨old, -, hne, ht⟩
    · rw [ht]
      exact hfresh
    · rw [ht]
      exact hfresh
    · rw [ht, Finset.mem_insert, not_or]
      exact ⟨hne.symm, hfresh⟩
  · intro p hp
    rcases List.mem_append.mp hp with hp | hp
    · rcases hretired with ⟨ht, hcur⟩ | ⟨ht, hcur⟩ | ⟨old, hcur, -, ht⟩
      · rw [ht, hr.shows.epoch, ← hcur]
        exact h.epochs p hp
      · rw [ht]
        rcases h.epochs p hp with hin | hc
        · exact .inl hin
        · cases hcur.symm.trans hc
      · rw [ht, Finset.mem_insert]
        rcases h.epochs p hp with hin | hc
        · exact .inl (.inr hin)
        · exact .inl (.inl (Option.some.inj (hc.symm.trans hcur)))
    · rw [List.mem_singleton.mp hp]
      exact .inr hr.shows.epoch
  · intro p hp he
    have hsame : p.epoch = sel.epoch := Option.some.inj (he.symm.trans hr.shows.epoch)
    rw [hr.shows.revision]
    apply Int.ofNat_le.mpr
    rcases List.mem_append.mp hp with hp | hp
    · exact h.le_of_admits hr.admits hp hsame
    · rw [List.mem_singleton.mp hp]
  · rw [List.pairwise_append]
    refine ⟨h.sorted, List.pairwise_singleton _ _, ?_⟩
    intro p hp q hq hsame
    rw [List.mem_singleton] at hq
    rw [hq] at hsame ⊢
    exact h.le_of_admits hr.admits hp hsame
  · intro hn
    cases List.append_ne_nil_of_right_ne_nil acc (List.cons_ne_nil sel []) hn
  · intro p hp
    rw [List.getLast?_append_cons, List.getLast?_singleton] at hp
    rw [← Option.some.inj hp]
    exact hr.shows
  · exact fun hb => absurd hb hr.unbound

theorem History.moved {reply : AppReply} (h : History s acc) (hm : StoreMove s e s' reply) :
    History s' (acc ++ reply.selection.toList) := by
  cases hm with
  | aside ha =>
    rw [show AppReply.nothing.selection.toList = [] from rfl, List.append_nil]
    apply h.of_applied ha.applied
    intro hb
    obtain ⟨hb, hid⟩ := ha.binding hb
    obtain ⟨hmode, hsame⟩ := h.bound hb
    have happ := ha.applied
    unfold TerminalStore.applied at happ
    simp only [Prod.mk.injEq] at happ
    exact ⟨happ.2.2.2.1.trans hmode, hid.trans (hsame.trans happ.2.2.1.symm)⟩
  | applied sel gen allow hr ha => exact h.reserved hr
  | bound sel session hm hid hs ha hb =>
    rw [show (AppReply.bound sel session).selection.toList = [] from rfl, List.append_nil]
    apply h.of_applied ha
    intro _
    unfold TerminalStore.applied at ha
    simp only [Prod.mk.injEq] at ha
    exact ⟨ha.2.2.2.1.trans (hs.mode.trans hm),
      hb.trans (hid.trans (hs.id.symm.trans ha.2.2.1.symm))⟩

section
variable (toLowerCase : String → String)

def windowAfter (es : List AppEvent) : TerminalApp := (terminalWindow toLowerCase).run .initial es

def storeAfter (es : List AppEvent) : TerminalStore := (windowAfter toLowerCase es).store

def answerAfter (es : List AppEvent) (e : AppEvent) : AppReply :=
  (terminalWindow toLowerCase).answer (windowAfter toLowerCase es) e

/-- The payloads a run has accepted, in order. -/
def acceptedSelections (es : List AppEvent) : List SessionSelection :=
  ((terminalWindow toLowerCase).answers .initial es).filterMap AppReply.selection

theorem storeMove_after (es : List AppEvent) (e : AppEvent) :
    StoreMove (storeAfter toLowerCase es) e (storeAfter toLowerCase (es ++ [e]))
      (answerAfter toLowerCase es e) := by
  unfold storeAfter answerAfter windowAfter
  rw [Machine.run_append]
  exact TerminalApp.storeMove_step toLowerCase _ e

theorem acceptedSelections_append (es : List AppEvent) (e : AppEvent) :
    acceptedSelections toLowerCase (es ++ [e]) =
      acceptedSelections toLowerCase es ++ (answerAfter toLowerCase es e).selection.toList := by
  unfold acceptedSelections answerAfter windowAfter
  rw [Machine.answers_append, List.filterMap_append, Machine.answers, Machine.answers,
    List.filterMap_cons]
  cases ((terminalWindow toLowerCase).answer _ e).selection <;> rfl

theorem history_after (es : List AppEvent) :
    History (storeAfter toLowerCase es) (acceptedSelections toLowerCase es) := by
  induction es using List.reverseRecOn with
  | nil => exact .initial
  | append_singleton es e ih =>
    rw [acceptedSelections_append]
    exact ih.moved (storeMove_after toLowerCase es e)

/-- What a window shows after any events, and what the next one may do. -/
structure ConvergenceLaw (es : List AppEvent) : Prop where
  current : ∀ epoch, (storeAfter toLowerCase es).selectionEpoch = some epoch →
    epoch ∉ (storeAfter toLowerCase es).retiredEpochs
  fresh : ∀ e sel, answerAfter toLowerCase es e = .applied sel →
    sel.epoch ∉ (storeAfter toLowerCase es).retiredEpochs
  revision_le : ∀ e, (storeAfter toLowerCase (es ++ [e])).selectionEpoch =
      (storeAfter toLowerCase es).selectionEpoch →
    (storeAfter toLowerCase es).appliedRevision ≤
      (storeAfter toLowerCase (es ++ [e])).appliedRevision
  sorted : (acceptedSelections toLowerCase es).Pairwise fun p q =>
    p.epoch = q.epoch → p.revision ≤ q.revision
  repeated : ∀ e sel, answerAfter toLowerCase es e = .applied sel →
    (storeAfter toLowerCase es).selectionEpoch = some sel.epoch →
    (sel.revision : ℤ) = (storeAfter toLowerCase es).appliedRevision →
      ∃ gen, e = .hydrationAnswered gen sel ∧
        (storeAfter toLowerCase es).awaitingHydrationGeneration = some gen ∧
        (storeAfter toLowerCase es).connectionGeneration = gen ∧
        (storeAfter toLowerCase es).transportConnected = true
  shows : ∀ p, (acceptedSelections toLowerCase es).getLast? = some p →
    (storeAfter toLowerCase es).Shows p ∧
      ∀ q ∈ acceptedSelections toLowerCase es, q.epoch = p.epoch → q.revision ≤ p.revision
  unseen : acceptedSelections toLowerCase es = [] →
    (storeAfter toLowerCase es).applied = TerminalStore.initial.applied
  bound : ∀ e sel session, answerAfter toLowerCase es e = .bound sel session →
    sel.mode = .live ∧ some session.id = sel.id ∧ (storeAfter toLowerCase es).Shows sel ∧
      (storeAfter toLowerCase (es ++ [e])).Shows sel ∧
      (storeAfter toLowerCase (es ++ [e])).activeSessionId = some session.id
  bound_live : (storeAfter toLowerCase es).bindingState = .bound →
    (storeAfter toLowerCase es).selectionMode = .live ∧
      (storeAfter toLowerCase es).activeSessionId = (storeAfter toLowerCase es).selectionId

end

/-- Within an epoch the applied revision never goes back. -/
theorem StoreMove.revision_le {reply : AppReply} (hm : StoreMove s e s' reply)
    (he : s'.selectionEpoch = s.selectionEpoch) :
    s.appliedRevision ≤ s'.appliedRevision := by
  cases hm with
  | aside ha => exact (congrArg (fun t => t.2.1) ha.applied).ge
  | bound sel session hm hid hs ha hb => exact (congrArg (fun t => t.2.1) ha).ge
  | applied sel gen allow hr ha =>
    have hsame : s.selectionEpoch = some sel.epoch := he.symm.trans hr.shows.epoch
    rw [hr.shows.revision]
    rcases hr.admits.same_epoch hsame with hlt | ⟨heq, -, -⟩
    · exact hlt.le
    · exact heq.ge

theorem convergenceLaw (toLowerCase : String → String) (es : List AppEvent) :
    ConvergenceLaw toLowerCase es := by
  have h := history_after toLowerCase es
  have hmove := storeMove_after toLowerCase es
  constructor
  · exact h.current
  · intro e sel hreply
    have hm := hmove e
    rw [hreply] at hm
    cases hm with
    | applied sel gen allow hr ha => exact h.fresh hr.admits
  · intro e he
    exact (hmove e).revision_le he
  · exact h.sorted
  · intro e sel hreply he hrev
    have hm := hmove e
    rw [hreply] at hm
    cases hm with
    | applied _ gen allow hr ha =>
      rcases hr.admits.same_epoch he with hlt | ⟨-, hallow, hw⟩
      · omega
      · exact ⟨gen, ha hallow, hw, hr.generation.symm, hr.connected⟩
  · intro p hp
    have hs := h.last p hp
    refine ⟨hs, ?_⟩
    intro q hq hsame
    have hle := h.revisions q hq (hs.epoch.trans (congrArg some hsame.symm))
    rw [hs.revision] at hle
    exact Int.ofNat_le.mp hle
  · exact h.first
  · intro e sel session hreply
    have hm := hmove e
    rw [hreply] at hm
    cases hm with
    | bound _ _ hm hid hs ha hb =>
      have happ := ha
      unfold TerminalStore.applied at happ
      simp only [Prod.mk.injEq] at happ
      exact ⟨hm, hid, hs, ⟨happ.1.trans hs.epoch, happ.2.1.trans hs.revision,
        happ.2.2.1.trans hs.id, happ.2.2.2.1.trans hs.mode⟩, hb⟩
  · exact h.bound

end AgentsCommander.Terminal
