import AgentsCommander.ResponseClose.Evidence

/-! The counters count what is held, so a close is committed in quiet. -/
namespace AgentsCommander.ResponseClose
open Foundation Sessions

theorem checkedSucc_eq_some {n m : ℕ} (h : checkedSucc n = some m) : m = n + 1 := by
  unfold checkedSucc at h
  split_ifs at h
  exact (Option.some.inj h).symm

namespace ResponseCloseInner

/-- Every route was there before, with the same generation and as many writers. -/
def TallyKept (s s' : ResponseCloseInner) : Prop :=
  ∀ id r', s'.routes.lookup id = some r' → ∃ r, s.routes.lookup id = some r ∧
    r'.generation = r.generation ∧ r'.writers = r.writers

variable {s s' : ResponseCloseInner} {id j : Uuid}

theorem tallyKept_of_eq {t : ResponseCloseInner} (h : t = s') (hs' : TallyKept s s') :
    TallyKept s t := by
  rw [h]
  exact hs'

theorem tallyKept_of_routes (h : s'.routes = s.routes) : TallyKept s s' := by
  intro id r' hr'
  rw [h] at hr'
  exact ⟨r', hr', rfl, rfl⟩

theorem tallyKept_of_observed (h : s.Observed s') : TallyKept s s' := by
  intro id r' hr'
  obtain ⟨r, hr, hobs⟩ := h.before hr'
  exact ⟨r, hr, hobs.generation, hobs.writers⟩

theorem tallyKept_setRoute {r₀ r₁ : ResponseCloseRoute} (h₀ : s.routes.lookup j = some r₀)
    (hroutes : s'.routes = (s.setRoute j r₁).routes) (hgeneration : r₁.generation = r₀.generation)
    (hwriters : r₁.writers = r₀.writers) : TallyKept s s' := by
  intro id r' hr'
  rcases lookup_of_setRoute hroutes hr' with ⟨rfl, rfl⟩ | ⟨-, hr⟩
  · exact ⟨r₀, h₀, hgeneration, hwriters⟩
  · exact ⟨r', hr, rfl, rfl⟩

theorem tallyKept_erase (hroutes : s'.routes = s.routes.erase j) : TallyKept s s' := by
  intro id r' hr'
  rw [hroutes, Assoc.lookup_erase_eq] at hr'
  split_ifs at hr'
  exact ⟨r', hr', rfl, rfl⟩

end ResponseCloseInner

/-- The events that count writers, or start to. -/
def Event.countsWriters : Event → Bool
  | .reserveWriterInner .. | .dropWriter .. | .registerRoute .. => true
  | _ => false

namespace World
open ResponseCloseInner

theorem tallyKept_act (w : World) (s : ResponseCloseInner) {e : Event}
    (h : e.countsWriters = false) : TallyKept s (w.act s e).1 := by
  cases hobs : e.observes with
  | true => exact tallyKept_of_observed (w.observed_act s hobs)
  | false =>
    cases e with
    | removeRoute j generation =>
      rcases s.removeRoute_cases j generation with h | ⟨route, hroute, -, ⟨-, h⟩ | h⟩
      · exact tallyKept_of_eq h (tallyKept_of_routes rfl)
      · exact tallyKept_of_eq h (tallyKept_erase rfl)
      · exact tallyKept_of_eq h (tallyKept_setRoute hroute rfl rfl rfl)
    | reservePolicyCandidate member coordinator key digest now =>
      rcases s.reservePolicyCandidate_cases w.nextUuid member coordinator key digest now with
        ⟨e, h⟩ | ⟨route, hroute, -, -, h⟩
      · exact tallyKept_of_eq (congrArg Prod.fst h :) (tallyKept_of_routes rfl)
      · exact tallyKept_of_eq (congrArg Prod.fst h :) (tallyKept_setRoute hroute rfl rfl rfl)
    | markRequestSubmitted context submitted =>
      rcases s.markRequestSubmitted_cases context submitted with
        h | ⟨route, policy, hroute, -, -, h⟩
      · exact tallyKept_of_eq h (tallyKept_of_routes rfl)
      · exact tallyKept_of_eq h (tallyKept_setRoute hroute rfl rfl rfl)
    | registerRequest proof now =>
      rcases s.registerRequest_cases proof now with
        ⟨e, h⟩ | ⟨route, policy, hroute, -, -, h | ⟨-, h⟩⟩
      · exact tallyKept_of_eq (congrArg Prod.fst h :) (tallyKept_of_routes rfl)
      · exact tallyKept_of_eq (congrArg Prod.fst h :) (tallyKept_setRoute hroute rfl rfl rfl)
      · exact tallyKept_of_eq (congrArg Prod.fst h :) (tallyKept_setRoute hroute rfl rfl rfl)
    | admitReturn member coordinator key digest now =>
      rcases s.admitReturn_cases member coordinator key digest now with
        ⟨e, h | h⟩ | ⟨route, policy, sequence, hadmit, ⟨-, h⟩ | ⟨-, h⟩⟩
      · exact tallyKept_of_eq (congrArg Prod.fst h :) (tallyKept_of_routes rfl)
      · exact tallyKept_of_eq (congrArg Prod.fst h :) (tallyKept_of_routes rfl)
      · exact tallyKept_of_eq (congrArg Prod.fst h :) (tallyKept_of_routes rfl)
      · exact tallyKept_of_eq (congrArg Prod.fst h :) (tallyKept_setRoute hadmit.found rfl rfl rfl)
    | settleReturn c success now =>
      rcases s.settleReturn_cases c success now with
        ⟨digest, -, h⟩ | ⟨-, ⟨e, h, -⟩ | ⟨route, policy, hout, h⟩⟩
      · exact tallyKept_of_eq (congrArg Prod.fst h :) (tallyKept_of_routes rfl)
      · exact tallyKept_of_eq (congrArg Prod.fst h :) (tallyKept_of_routes rfl)
      · exact tallyKept_of_eq (congrArg Prod.fst h :) (tallyKept_setRoute hout.found rfl rfl rfl)
    | selectTicket j now =>
      rcases s.selectTicket_cases w.nextUuid j now with ⟨e, h⟩ | ⟨route, policy, hroute, -, -, h⟩
      · exact tallyKept_of_eq (congrArg Prod.fst h :) (tallyKept_of_routes rfl)
      · exact tallyKept_of_eq (congrArg Prod.fst h :) (tallyKept_setRoute hroute rfl rfl rfl)
    | tryCommitResponseClose ticket now =>
      rcases s.tryCommitResponseClose_cases ticket now with ⟨e, h⟩ | ⟨route, hroute, -, -, h⟩
      · exact tallyKept_of_eq (congrArg Prod.fst h :) (tallyKept_of_routes rfl)
      · exact tallyKept_of_eq (congrArg Prod.fst h :) (tallyKept_setRoute hroute rfl rfl rfl)
    | finishResponseClose ticket evidence =>
      rcases s.finishResponseClose_cases ticket evidence with h | ⟨route, hroute, -, h | h⟩
      · exact tallyKept_of_eq (congrArg Prod.fst h :) (tallyKept_of_routes rfl)
      · exact tallyKept_of_eq (congrArg Prod.fst h :) (tallyKept_erase rfl)
      · exact tallyKept_of_eq (congrArg Prod.fst h :) (tallyKept_setRoute hroute rfl rfl rfl)
    | registerRoute | reserveWriterInner | dropWriter => cases h
    | poison | failClosed | read | tryEnableReadiness | publish | applySettings
    | beginUnresolvedSpawn | endUnresolvedSpawn | reserveWork | acceptDurable | dropWork
    | settleTerminal | beginDelivery | dropDelivery | reserveCreateOwner | dropCreateOwner =>
      cases hobs

/-- The admissions of one route's writers. -/
def writersOf (w : World) (id : Uuid) (generation : ℕ) : ℕ :=
  w.writers.countP fun a => decide (a.sessionId = id ∧ a.generation = generation)

/-- Every route counts its writers, and no number was given twice. -/
structure WritersBalanced (w : World) : Prop where
  counted : ∀ id r, w.inner.routes.lookup id = some r → r.writers = w.writersOf id r.generation
  held : ∀ a ∈ w.writers, a.generation ≤ w.nextRouteGeneration
  routes : ∀ id r, w.inner.routes.lookup id = some r → r.generation ≤ w.nextRouteGeneration

/-- The work of every target counts its admissions and its deliveries. -/
structure WorkBalanced (w : World) : Prop where
  provisional : ∀ target, (w.inner.workFor target).provisional =
    w.works.countP fun a => decide (a.target = target)
  dispatch : ∀ target, (w.inner.workFor target).dispatch =
    w.deliveries.countP fun a => decide (a.target = target)

/-- Every creation that is held is among the owners of its target. -/
structure CreatesBalanced (w : World) : Prop where
  nodup : w.creates.Nodup
  owned : ∀ a ∈ w.creates, ∃ owners, w.inner.createOwners.lookup a.target = some owners ∧
    a.nonce ∈ owners

structure Balanced (w : World) : Prop where
  writers : w.WritersBalanced
  work : w.WorkBalanced
  creates : w.CreatesBalanced
  spawns : w.inner.unknownSpawns = w.spawns

theorem writers_enter (w : World) {e : Event} (a : Answer) (h : e.countsWriters = false) :
    (w.enter e a).writers = w.writers ∧
      (w.enter e a).nextRouteGeneration = w.nextRouteGeneration := by
  unfold enter
  split <;> first | exact ⟨rfl, rfl⟩ | (split_ifs <;> exact ⟨rfl, rfl⟩) | cases h

/-- What the books of writers say only depends on the routes and on who holds what. -/
theorem WritersBalanced.transfer {w w' : World} (h : w.WritersBalanced)
    (htally : TallyKept w.inner w'.inner) (hwriters : w'.writers = w.writers)
    (hnumber : w'.nextRouteGeneration = w.nextRouteGeneration) : w'.WritersBalanced where
  counted id r' hr' := by
    obtain ⟨r, hr, hgeneration, hcount⟩ := htally id r' hr'
    unfold writersOf
    rw [hcount, hgeneration, hwriters]
    exact h.counted id r hr
  held a ha := by
    rw [hwriters] at ha
    rw [hnumber]
    exact h.held a ha
  routes id r' hr' := by
    obtain ⟨r, hr, hgeneration, -⟩ := htally id r' hr'
    rw [hgeneration, hnumber]
    exact h.routes id r hr

theorem writersBalanced_registerRoute {w : World} (h : w.WritersBalanced) {id : Uuid}
    {generation : ℕ} {now : Instant} (hnumbered : w.nextRouteGeneration < generation)
    (ha : w.Acting (.registerRoute id generation now))
    (hopen : (tracker.next w (.registerRoute id generation now)).inner.failed = false) :
    (tracker.next w (.registerRoute id generation now)).WritersBalanced := by
  have hinner : (tracker.next w (.registerRoute id generation now)).inner =
      w.inner.registerRoute id generation now := ha.inner
  rcases w.inner.registerRoute_cases id generation now with heq | ⟨-, heq⟩
  · rw [hinner, heq] at hopen
    cases hopen
  · have hnumber : (tracker.next w (.registerRoute id generation now)).nextRouteGeneration =
        max w.nextRouteGeneration generation := rfl
    have hroutes := congrArg ResponseCloseInner.routes (hinner.trans heq)
    refine ⟨?_, fun a ha => (h.held a ha).trans (le_max_left _ _), ?_⟩
    · intro j r' hr'
      rcases lookup_of_setRoute hroutes hr' with ⟨rfl, rfl⟩ | ⟨-, hr⟩
      · refine (List.countP_eq_zero.mpr fun a ha hand => ?_).symm
        obtain ⟨-, hgeneration⟩ := of_decide_eq_true hand
        have hle := h.held a ha
        rw [hgeneration] at hle
        exact absurd hnumbered (Nat.not_lt.mpr hle)
      · exact h.counted j r' hr
    · intro j r' hr'
      rw [hnumber]
      rcases lookup_of_setRoute hroutes hr' with ⟨rfl, rfl⟩ | ⟨-, hr⟩
      · exact le_max_right _ _
      · exact (h.routes j r' hr).trans (le_max_left _ _)

theorem lookup_reviseAt (s : ResponseCloseInner) (id : Uuid)
    (f : ResponseCloseRoute → ResponseCloseRoute × Bool) (j : Uuid) :
    (s.reviseAt id f).routes.lookup j =
      (s.routes.lookup j).map fun r => if j = id then (f r).1 else r := by
  unfold reviseAt
  rw [lookup_revise]
  congr 1
  funext r
  split_ifs <;> rfl

theorem writersBalanced_reserveWriterInner {w : World} (h : w.WritersBalanced) {id : Uuid}
    {generation : ℕ} {invalidate : Bool} {now : Instant}
    (ha : w.Acting (.reserveWriterInner id generation invalidate now)) :
    (tracker.next w (.reserveWriterInner id generation invalidate now)).WritersBalanced := by
  have hinner : (tracker.next w (.reserveWriterInner id generation invalidate now)).inner =
      (w.inner.reserveWriterInner id generation invalidate now).1 := ha.inner
  have hanswer : (w.respond (.reserveWriterInner id generation invalidate now)).2 =
      .of .writer (w.inner.reserveWriterInner id generation invalidate now).2 := ha.answer
  have hwriters : (tracker.next w (.reserveWriterInner id generation invalidate now)).writers =
      (w.enter (.reserveWriterInner id generation invalidate now)
        (w.respond (.reserveWriterInner id generation invalidate now)).2).writers := rfl
  have hnumber :
      (tracker.next w (.reserveWriterInner id generation invalidate now)).nextRouteGeneration =
        w.nextRouteGeneration := by
    change (w.enter _ _).nextRouteGeneration = _
    unfold enter
    split <;> first | rfl | (split_ifs <;> rfl) | contradiction
  rw [hanswer] at hwriters
  rcases w.inner.reserveWriterInner_cases id generation invalidate now with
    ⟨hsame, hnot⟩ | ⟨route, next, hroute, hgeneration, hnext, heq⟩
  · refine h.transfer ?_ ?_ hnumber
    · rw [hinner]
      rcases hsame with hsame | hsame <;> rw [hsame] <;> exact tallyKept_of_routes rfl
    · rw [hwriters]
      rcases hnot with ⟨e, hnot⟩ | hnot <;> rw [hnot] <;> rfl
  · rw [heq] at hinner hwriters
    have hlookup : ∀ j r', (tracker.next w
        (.reserveWriterInner id generation invalidate now)).inner.routes.lookup j = some r' →
        ∃ r, w.inner.routes.lookup j = some r ∧ r'.generation = r.generation ∧
          r'.writers = if j = id then next else r.writers := by
      intro j r' hr'
      rw [hinner] at hr'
      change (w.inner.countWriter id next invalidate now).routes.lookup j = _ at hr'
      unfold countWriter at hr'
      rw [lookup_reviseAt] at hr'
      obtain ⟨r, hr, hfr⟩ := Option.map_eq_some_iff.mp hr'
      refine ⟨r, hr, ?_⟩
      subst hfr
      split_ifs
      · exact ⟨(unselects_invalidate _ now).generation, writers_invalidate _ now⟩
      · exact ⟨(unselects_touch _ now).generation, writers_touch _ now⟩
      · exact ⟨rfl, rfl⟩
    refine ⟨?_, ?_, ?_⟩
    · intro j r' hr'
      obtain ⟨r, hr, hg, hw⟩ := hlookup j r' hr'
      unfold writersOf
      rw [hwriters, hw, hg]
      change _ = (⟨true, id, generation⟩ :: w.writers).countP _
      rw [List.countP_cons]
      have hcounted := h.counted j r hr
      unfold writersOf at hcounted
      rw [← hcounted]
      by_cases hj : j = id
      · subst hj
        cases hroute.symm.trans hr
        rw [if_pos rfl, if_pos (decide_eq_true ⟨rfl, hgeneration.symm⟩), checkedSucc_eq_some hnext]
      · rw [if_neg hj, if_neg (fun hand => hj (of_decide_eq_true hand).1.symm), Nat.add_zero]
    · intro a hmem
      rw [hwriters] at hmem
      rw [hnumber]
      rcases List.mem_cons.mp hmem with rfl | hmem
      · exact hgeneration ▸ h.routes id route hroute
      · exact h.held a hmem
    · intro j r' hr'
      obtain ⟨r, hr, hg, -⟩ := hlookup j r' hr'
      rw [hg, hnumber]
      exact h.routes j r hr

theorem writersBalanced_dropWriter {w : World} (h : w.WritersBalanced) {a : WriterAdmission}
    {now : Instant} (ha : w.Acting (.dropWriter a now)) :
    (tracker.next w (.dropWriter a now)).WritersBalanced := by
  have hinner : (tracker.next w (.dropWriter a now)).inner = w.inner.dropWriter a now := ha.inner
  have hheld : a ∈ w.writers := of_decide_eq_true ha.held
  have hanswer : (w.respond (.dropWriter a now)).2 = .done := ha.answer
  have hwriters : (tracker.next w (.dropWriter a now)).writers = w.writers.erase a := by
    change (w.enter _ (w.respond _).2).writers = _
    rw [hanswer]
    rfl
  have hnumber : (tracker.next w (.dropWriter a now)).nextRouteGeneration =
      w.nextRouteGeneration := by
    change (w.enter _ (w.respond _).2).nextRouteGeneration = _
    rw [hanswer]
    rfl
  have hlookup : ∀ j r', (tracker.next w (.dropWriter a now)).inner.routes.lookup j = some r' →
      ∃ r, w.inner.routes.lookup j = some r ∧ r'.generation = r.generation ∧
        r'.writers = r.writers - if a.sessionId = j ∧ a.generation = r.generation then 1 else 0 := by
    intro j r' hr'
    rw [hinner] at hr'
    unfold dropWriter at hr'
    rw [lookup_reviseAt] at hr'
    obtain ⟨r, hr, hfr⟩ := Option.map_eq_some_iff.mp hr'
    refine ⟨r, hr, ?_⟩
    subst hfr
    by_cases hj : j = a.sessionId
    · by_cases hg : r.generation = a.generation
      · rw [if_pos hj, if_pos hg, if_pos ⟨hj.symm, hg.symm⟩]
        exact ⟨(unselects_touch _ now).generation, writers_touch _ now⟩
      · rw [if_pos hj, if_neg hg, if_neg (fun hand => hg hand.2.symm)]
        exact ⟨rfl, rfl⟩
    · rw [if_neg hj, if_neg (fun hand => hj hand.1.symm)]
      exact ⟨rfl, rfl⟩
  refine ⟨?_, ?_, ?_⟩
  · intro j r' hr'
    obtain ⟨r, hr, hg, hw⟩ := hlookup j r' hr'
    have hcounted := h.counted j r hr
    unfold writersOf at hcounted ⊢
    rw [hwriters, hw, hg, hcounted, List.countP_erase]
    by_cases hand : a.sessionId = j ∧ a.generation = r.generation
    · rw [if_pos hand, if_pos ⟨hheld, decide_eq_true hand⟩]
    · rw [if_neg hand, if_neg (fun hp => hand (of_decide_eq_true hp.2))]
  · intro b hb
    rw [hwriters] at hb
    rw [hnumber]
    exact h.held b (List.mem_of_mem_erase hb)
  · intro j r' hr'
    obtain ⟨r, hr, hg, -⟩ := hlookup j r' hr'
    rw [hg, hnumber]
    exact h.routes j r hr

theorem writersBalanced_next {w : World} (h : w.WritersBalanced) {e : Event}
    (hnumbered : Numbered w e) (ha : w.Acting e)
    (hopen : (tracker.next w e).inner.failed = false) : (tracker.next w e).WritersBalanced := by
  cases hcounts : e.countsWriters with
  | false =>
    obtain ⟨hwriters, hnumber⟩ := w.writers_enter (w.respond e).2 hcounts
    refine h.transfer ?_ hwriters hnumber
    rw [inner_next, ha.inner]
    exact w.tallyKept_act w.inner hcounts
  | true =>
    cases e with
    | registerRoute => exact writersBalanced_registerRoute h hnumbered ha hopen
    | reserveWriterInner => exact writersBalanced_reserveWriterInner h ha
    | dropWriter => exact writersBalanced_dropWriter h ha
    | _ => cases hcounts

theorem work_enter (w : World) {e : Event} (a : Answer) (h : e.ledger ≠ .work) :
    (w.enter e a).works = w.works ∧ (w.enter e a).deliveries = w.deliveries := by
  unfold enter
  split <;> first | exact ⟨rfl, rfl⟩ | (split_ifs <;> exact ⟨rfl, rfl⟩) | exact absurd rfl h

/-- The counts of a target's work went up or down with its admissions. -/
theorem WorkBalanced.transfer {w w' : World} (h : w.WorkBalanced)
    (hcounts : ∀ target, (w'.inner.workFor target).provisional =
        (w.inner.workFor target).provisional ∧
      (w'.inner.workFor target).dispatch = (w.inner.workFor target).dispatch)
    (hworks : w'.works = w.works) (hdeliveries : w'.deliveries = w.deliveries) :
    w'.WorkBalanced where
  provisional target := by
    rw [(hcounts target).1, hworks]
    exact h.provisional target
  dispatch target := by
    rw [(hcounts target).2, hdeliveries]
    exact h.dispatch target

theorem workBalanced_reserveWork {w : World} (h : w.WorkBalanced) {target key : String}
    {now : Instant} (ha : w.Acting (.reserveWork target key now))
    (hopen : (tracker.next w (.reserveWork target key now)).inner.failed = false) :
    (tracker.next w (.reserveWork target key now)).WorkBalanced := by
  have hinner : (tracker.next w (.reserveWork target key now)).inner =
      (w.inner.reserveWork target key now).1 := ha.inner
  have hanswer : (w.respond (.reserveWork target key now)).2 =
      .of .work (w.inner.reserveWork target key now).2 := ha.answer
  have hworks : (tracker.next w (.reserveWork target key now)).works =
      (w.enter (.reserveWork target key now) (w.respond (.reserveWork target key now)).2).works := rfl
  have hdeliveries : (tracker.next w (.reserveWork target key now)).deliveries = w.deliveries := by
    change (w.enter _ _).deliveries = _
    unfold enter
    split <;> first | rfl | (split_ifs <;> rfl) | contradiction
  rw [hanswer] at hworks
  unfold reserveWork at hinner hworks
  dsimp only at hinner hworks
  split_ifs at hinner hworks with hknown
  · refine h.transfer (fun other => ?_) hworks hdeliveries
    rw [hinner, lookup_setWork]
    split_ifs with hother
    · rw [hother]
      exact ⟨rfl, rfl⟩
    · exact ⟨rfl, rfl⟩
  · cases hnext : checkedSucc (w.inner.workFor target).provisional with
    | none =>
      rw [hnext] at hinner
      rw [hinner] at hopen
      cases hopen
    | some next =>
      rw [hnext] at hinner hworks
      have hfor : ∀ other, (tracker.next w (.reserveWork target key now)).inner.workFor other =
          if other = target then { w.inner.workFor target with provisional := next }
          else w.inner.workFor other := by
        intro other
        rw [hinner]
        exact lookup_setWork w.inner target _ other
      refine ⟨fun other => ?_, fun other => ?_⟩
      · rw [hfor, hworks]
        change _ = (⟨target, key, true⟩ :: w.works).countP _
        rw [List.countP_cons, ← h.provisional other]
        by_cases hother : other = target
        · rw [if_pos hother, if_pos (decide_eq_true hother.symm), hother]
          exact checkedSucc_eq_some hnext
        · rw [if_neg hother, if_neg (fun hp => hother (of_decide_eq_true hp).symm), Nat.add_zero]
      · rw [hfor, hdeliveries, ← h.dispatch other]
        split_ifs with hother
        · rw [hother]
        · rfl

theorem workFor_adjust (s : ResponseCloseInner) (target : String)
    (f : ResponseCloseWork → ResponseCloseWork) (now : Instant) (other : String)
    (hf : f {} = {}) :
    (touchTarget { s with work := Assoc.adjust s.work target f } target now).workFor other =
      if other = target then f (s.workFor other) else s.workFor other := by
  change ((Assoc.adjust s.work target f).lookup other).getD {} = _
  rw [Assoc.lookup_adjust]
  unfold workFor
  split_ifs
  · cases s.work.lookup other with
    | none => exact hf.symm
    | some work => rfl
  · rfl

theorem workBalanced_dropWork {w : World} (h : w.WorkBalanced) {a : WorkAdmission} {now : Instant}
    (ha : w.Acting (.dropWork a now)) : (tracker.next w (.dropWork a now)).WorkBalanced := by
  have hinner : (tracker.next w (.dropWork a now)).inner = w.inner.dropWork a now := ha.inner
  have hheld : a ∈ w.works := of_decide_eq_true ha.held
  have hanswer : (w.respond (.dropWork a now)).2 = .done := ha.answer
  have hworks : (tracker.next w (.dropWork a now)).works = w.works.erase a := by
    change (w.enter _ (w.respond _).2).works = _
    rw [hanswer]
    rfl
  have hdeliveries : (tracker.next w (.dropWork a now)).deliveries = w.deliveries := by
    change (w.enter _ (w.respond _).2).deliveries = _
    rw [hanswer]
    rfl
  have hfor : ∀ other, (tracker.next w (.dropWork a now)).inner.workFor other =
      if other = a.target then { w.inner.workFor other with
        provisional := (w.inner.workFor other).provisional - 1 }
      else w.inner.workFor other := by
    intro other
    rw [hinner]
    exact workFor_adjust w.inner a.target _ now other rfl
  refine ⟨fun other => ?_, fun other => ?_⟩
  · rw [hfor, hworks, List.countP_erase, ← h.provisional other]
    by_cases hother : other = a.target
    · rw [if_pos hother, if_pos ⟨hheld, decide_eq_true hother.symm⟩]
    · rw [if_neg hother, if_neg (fun hp => hother (of_decide_eq_true hp.2).symm), Nat.sub_zero]
  · rw [hfor, hdeliveries, ← h.dispatch other]
    split_ifs <;> rfl

theorem workBalanced_beginDelivery {w : World} (h : w.WorkBalanced) {target : String}
    (ha : w.Acting (.beginDelivery target))
    (hopen : (tracker.next w (.beginDelivery target)).inner.failed = false) :
    (tracker.next w (.beginDelivery target)).WorkBalanced := by
  have hinner : (tracker.next w (.beginDelivery target)).inner =
      (w.inner.beginDelivery target).1 := ha.inner
  have hanswer : (w.respond (.beginDelivery target)).2 =
      .of .delivery (w.inner.beginDelivery target).2 := ha.answer
  have hdeliveries : (tracker.next w (.beginDelivery target)).deliveries =
      (w.enter (.beginDelivery target) (w.respond (.beginDelivery target)).2).deliveries := rfl
  have hworks : (tracker.next w (.beginDelivery target)).works = w.works := by
    change (w.enter _ _).works = _
    unfold enter
    split <;> first | rfl | contradiction
  rw [hanswer] at hdeliveries
  unfold beginDelivery at hinner hdeliveries
  split_ifs at hinner hdeliveries with hclosing hfailed
  · exact h.transfer (fun other => by rw [hinner]; exact ⟨rfl, rfl⟩) hworks hdeliveries
  · exact h.transfer (fun other => by rw [hinner]; exact ⟨rfl, rfl⟩) hworks hdeliveries
  · dsimp only at hinner hdeliveries
    cases hnext : checkedSucc (w.inner.workFor target).dispatch with
    | none =>
      rw [hnext] at hinner
      rw [hinner] at hopen
      cases hopen
    | some next =>
      rw [hnext] at hinner hdeliveries
      have hfor : ∀ other, (tracker.next w (.beginDelivery target)).inner.workFor other =
          if other = target then { w.inner.workFor target with dispatch := next }
          else w.inner.workFor other := by
        intro other
        rw [hinner]
        exact lookup_setWork w.inner target _ other
      refine ⟨fun other => ?_, fun other => ?_⟩
      · rw [hfor, hworks, ← h.provisional other]
        split_ifs with hother
        · rw [hother]
        · rfl
      · rw [hfor, hdeliveries]
        change _ = ((⟨target⟩ : WorkDeliveryReservation) :: w.deliveries).countP _
        rw [List.countP_cons, ← h.dispatch other]
        by_cases hother : other = target
        · rw [if_pos hother, if_pos (decide_eq_true hother.symm), hother]
          exact checkedSucc_eq_some hnext
        · rw [if_neg hother, if_neg (fun hp => hother (of_decide_eq_true hp).symm), Nat.add_zero]

theorem workBalanced_dropDelivery {w : World} (h : w.WorkBalanced) {a : WorkDeliveryReservation}
    {now : Instant} (ha : w.Acting (.dropDelivery a now)) :
    (tracker.next w (.dropDelivery a now)).WorkBalanced := by
  have hinner : (tracker.next w (.dropDelivery a now)).inner = w.inner.dropDelivery a now := ha.inner
  have hheld : a ∈ w.deliveries := of_decide_eq_true ha.held
  have hanswer : (w.respond (.dropDelivery a now)).2 = .done := ha.answer
  have hdeliveries : (tracker.next w (.dropDelivery a now)).deliveries = w.deliveries.erase a := by
    change (w.enter _ (w.respond _).2).deliveries = _
    rw [hanswer]
    rfl
  have hworks : (tracker.next w (.dropDelivery a now)).works = w.works := by
    change (w.enter _ (w.respond _).2).works = _
    rw [hanswer]
    rfl
  have hfor : ∀ other, (tracker.next w (.dropDelivery a now)).inner.workFor other =
      if other = a.target then { w.inner.workFor other with
        dispatch := (w.inner.workFor other).dispatch - 1 }
      else w.inner.workFor other := by
    intro other
    rw [hinner]
    exact workFor_adjust w.inner a.target _ now other rfl
  refine ⟨fun other => ?_, fun other => ?_⟩
  · rw [hfor, hworks, ← h.provisional other]
    split_ifs <;> rfl
  · rw [hfor, hdeliveries, List.countP_erase, ← h.dispatch other]
    by_cases hother : other = a.target
    · rw [if_pos hother, if_pos ⟨hheld, decide_eq_true hother.symm⟩]
    · rw [if_neg hother, if_neg (fun hp => hother (of_decide_eq_true hp.2).symm), Nat.sub_zero]

/-- Work that only changes its keys counts the same. -/
theorem counts_setWork (s : ResponseCloseInner) (target : String) (work : ResponseCloseWork)
    (hprovisional : work.provisional = (s.workFor target).provisional)
    (hdispatch : work.dispatch = (s.workFor target).dispatch) (other : String) :
    ((s.setWork target work).workFor other).provisional = (s.workFor other).provisional ∧
      ((s.setWork target work).workFor other).dispatch = (s.workFor other).dispatch := by
  rw [lookup_setWork]
  split_ifs with hother
  · rw [hother]
    exact ⟨hprovisional, hdispatch⟩
  · exact ⟨rfl, rfl⟩

theorem counts_acceptDurable (s : ResponseCloseInner) (a : WorkAdmission) (digest : String)
    (now : Instant) (other : String) :
    ((s.acceptDurable a digest now).1.workFor other).provisional =
        (s.workFor other).provisional ∧
      ((s.acceptDurable a digest now).1.workFor other).dispatch = (s.workFor other).dispatch := by
  unfold acceptDurable
  cases hwork : s.work.lookup a.target with
  | none => exact ⟨rfl, rfl⟩
  | some work =>
    have hfor : s.workFor a.target = work := by
      unfold workFor
      rw [hwork]
      rfl
    dsimp only
    cases (work.pending.lookup a.key).or (work.terminal.lookup a.key) with
    | some old => exact ⟨rfl, rfl⟩
    | none => exact counts_setWork s a.target _ (by rw [hfor]) (by rw [hfor]) other

theorem counts_settleTerminal (s : ResponseCloseInner) (target key : String) (now : Instant)
    (other : String) :
    ((s.settleTerminal target key now).workFor other).provisional =
        (s.workFor other).provisional ∧
      ((s.settleTerminal target key now).workFor other).dispatch = (s.workFor other).dispatch := by
  unfold settleTerminal
  dsimp only
  cases (s.workFor target).pending.lookup key with
  | none => exact counts_setWork s target _ rfl rfl other
  | some digest =>
    exact counts_setWork s target { s.workFor target with
      pending := (s.workFor target).pending.erase key
      terminal := (s.workFor target).terminal.insert key digest } rfl rfl other

theorem counts_registerRequest (s : ResponseCloseInner) (proof : ResponseDeliveryProof)
    (now : Instant) (other : String) :
    ((s.registerRequest proof now).1.workFor other).provisional =
        (s.workFor other).provisional ∧
      ((s.registerRequest proof now).1.workFor other).dispatch = (s.workFor other).dispatch := by
  rcases s.registerRequest_cases proof now with
    ⟨e, h⟩ | ⟨route, policy, -, -, -, h | ⟨-, h⟩⟩ <;> rw [h]
  · exact ⟨rfl, rfl⟩
  · exact counts_setWork s policy.member.target _ rfl rfl other
  · exact counts_setWork s policy.member.target { s.workFor policy.member.target with
      pending := (s.workFor policy.member.target).pending.erase policy.requestKey
      terminal := (s.workFor policy.member.target).terminal.insert policy.requestKey
        policy.requestDigest } rfl rfl other

theorem workBalanced_next {w : World} (h : w.WorkBalanced) {e : Event} (ha : w.Acting e)
    (hopen : (tracker.next w e).inner.failed = false) : (tracker.next w e).WorkBalanced := by
  by_cases hledger : e.ledger = .work
  · cases e with
    | reserveWork => exact workBalanced_reserveWork h ha hopen
    | dropWork => exact workBalanced_dropWork h ha
    | beginDelivery => exact workBalanced_beginDelivery h ha hopen
    | dropDelivery => exact workBalanced_dropDelivery h ha
    | acceptDurable a digest now =>
      refine h.transfer (fun other => ?_) rfl rfl
      rw [inner_next, ha.inner]
      exact counts_acceptDurable w.inner a digest now other
    | settleTerminal target key now =>
      refine h.transfer (fun other => ?_) rfl rfl
      rw [inner_next, ha.inner]
      exact counts_settleTerminal w.inner target key now other
    | registerRequest proof now =>
      refine h.transfer (fun other => ?_) rfl rfl
      rw [inner_next, ha.inner]
      exact counts_registerRequest w.inner proof now other
    | _ => cases hledger
  · obtain ⟨hworks, hdeliveries⟩ := w.work_enter (w.respond e).2 hledger
    refine h.transfer (fun other => ?_) hworks hdeliveries
    rw [inner_next, ha.inner]
    unfold workFor
    rw [(w.booksKept_act w.inner e).work hledger]
    exact ⟨rfl, rfl⟩

theorem creates_enter (w : World) {e : Event} (a : Answer) (h : e.ledger ≠ .creates) :
    (w.enter e a).creates = w.creates := by
  unfold enter
  split <;> first | rfl | (split_ifs <;> rfl) | exact absurd rfl h

/-- A creation is reserved under a nonce that the target's owners do not have. -/
theorem reserveCreateOwner_cases (s : ResponseCloseInner) (target : String) (nonce : Uuid)
    (classification : CreateClassification) (now : Instant) :
    ((∀ a, (s.reserveCreateOwner target nonce classification now).2 ≠ .ok (.reserved a)) ∧
      ((s.reserveCreateOwner target nonce classification now).1 = s ∨
        (s.reserveCreateOwner target nonce classification now).1.createOwners =
          s.createOwners.insert target (s.ownersFor target))) ∨
    (s.reserveCreateOwner target nonce classification now).2 = .ok (.reserved ⟨target, nonce⟩) ∧
      nonce ∉ s.ownersFor target ∧ ∃ exclusive,
        (s.reserveCreateOwner target nonce classification now).1.createOwners =
          s.createOwners.insert target ((s.ownersFor target).insert nonce exclusive) := by
  unfold reserveCreateOwner
  dsimp only
  split_ifs with hunknown hidentity hclosing howner hmem hexclusive
  · exact Or.inl ⟨nofun, Or.inl rfl⟩
  · exact Or.inl ⟨nofun, Or.inl rfl⟩
  · exact Or.inl ⟨nofun, Or.inl rfl⟩
  · exact Or.inl ⟨nofun, Or.inl rfl⟩
  · exact Or.inl ⟨nofun, Or.inr rfl⟩
  · exact Or.inl ⟨nofun, Or.inr rfl⟩
  · exact Or.inr ⟨rfl, hmem, _, rfl⟩

theorem ownersFor_of_lookup {s : ResponseCloseInner} {target : String}
    {owners : AList fun _ : Uuid => Bool} (h : s.createOwners.lookup target = some owners) :
    s.ownersFor target = owners := by
  unfold ownersFor
  rw [h]
  rfl

theorem createsBalanced_reserve {w : World} (h : w.CreatesBalanced) {target : String}
    {nonce : Uuid} {classification : CreateClassification} {now : Instant}
    (ha : w.Acting (.reserveCreateOwner target nonce classification now)) :
    (tracker.next w (.reserveCreateOwner target nonce classification now)).CreatesBalanced := by
  have hinner : (tracker.next w (.reserveCreateOwner target nonce classification now)).inner =
      (w.inner.reserveCreateOwner target nonce classification now).1 := ha.inner
  have hanswer : (w.respond (.reserveCreateOwner target nonce classification now)).2 =
      .of .create (w.inner.reserveCreateOwner target nonce classification now).2 := ha.answer
  have hcreates : (tracker.next w (.reserveCreateOwner target nonce classification now)).creates =
      (w.enter (.reserveCreateOwner target nonce classification now)
        (w.respond (.reserveCreateOwner target nonce classification now)).2).creates := rfl
  rw [hanswer] at hcreates
  have hlifted : ∀ owners', (∀ n, n ∈ w.inner.ownersFor target → n ∈ owners') →
      (tracker.next w (.reserveCreateOwner target nonce classification now)).inner.createOwners =
        w.inner.createOwners.insert target owners' →
      ∀ a ∈ w.creates, ∃ owners, (tracker.next w (.reserveCreateOwner target nonce classification
        now)).inner.createOwners.lookup a.target = some owners ∧ a.nonce ∈ owners := by
    intro owners' hsub howners a hmem
    obtain ⟨owners, hlookup, hnonce⟩ := h.owned a hmem
    rw [howners, Assoc.lookup_insert_eq]
    split_ifs with htarget
    · refine ⟨owners', rfl, hsub _ ?_⟩
      rw [← htarget, ownersFor_of_lookup hlookup]
      exact hnonce
    · exact ⟨owners, hlookup, hnonce⟩
  rcases reserveCreateOwner_cases w.inner target nonce classification now with
    ⟨hnot, hsame⟩ | ⟨hok, hfresh, exclusive, howners⟩
  · have hnone : (tracker.next w (.reserveCreateOwner target nonce classification now)).creates =
        w.creates := by
      rw [hcreates]
      cases hresult : (w.inner.reserveCreateOwner target nonce classification now).2 with
      | error e => rfl
      | ok admission =>
        cases admission with
        | reserved a => exact absurd hresult (hnot a)
        | closingDeferred => rfl
        | waitingIdentity => rfl
    refine ⟨hnone ▸ h.nodup, ?_⟩
    rw [hnone]
    rcases hsame with hsame | hsame
    · rw [hinner, hsame]
      exact h.owned
    · exact hlifted _ (fun n hn => hn) (by rw [hinner, hsame])
  · rw [hok] at hcreates
    have hcons : (tracker.next w (.reserveCreateOwner target nonce classification now)).creates =
        ⟨target, nonce⟩ :: w.creates := hcreates
    have hsub : ∀ n, n ∈ w.inner.ownersFor target →
        n ∈ (w.inner.ownersFor target).insert nonce exclusive :=
      fun n hn => (AList.mem_insert _).mpr (Or.inr hn)
    have hlookups := hlifted _ hsub (by rw [hinner, howners])
    refine ⟨?_, ?_⟩
    · rw [hcons, List.nodup_cons]
      refine ⟨fun hmem => ?_, h.nodup⟩
      obtain ⟨owners, hlookup, hnonce⟩ := h.owned _ hmem
      rw [ownersFor_of_lookup hlookup] at hfresh
      exact hfresh hnonce
    · intro a hmem
      rw [hcons] at hmem
      rcases List.mem_cons.mp hmem with rfl | hmem
      · refine ⟨(w.inner.ownersFor target).insert nonce exclusive, ?_,
          (AList.mem_insert _).mpr (Or.inl rfl)⟩
        rw [hinner, howners]
        exact AList.lookup_insert _
      · exact hlookups a hmem

theorem createsBalanced_drop {w : World} (h : w.CreatesBalanced) {a : CreateOwnerReservation}
    {now : Instant} (ha : w.Acting (.dropCreateOwner a now)) :
    (tracker.next w (.dropCreateOwner a now)).CreatesBalanced := by
  have hinner : (tracker.next w (.dropCreateOwner a now)).inner = w.inner.dropCreateOwner a now :=
    ha.inner
  have hheld : a ∈ w.creates := of_decide_eq_true ha.held
  have hanswer : (w.respond (.dropCreateOwner a now)).2 = .done := ha.answer
  have hcreates : (tracker.next w (.dropCreateOwner a now)).creates = w.creates.erase a := by
    change (w.enter _ (w.respond _).2).creates = _
    rw [hanswer]
    rfl
  obtain ⟨owners, hlookup, -⟩ := h.owned a hheld
  have howners : (tracker.next w (.dropCreateOwner a now)).inner.createOwners =
      if (owners.erase a.nonce).entries.isEmpty then w.inner.createOwners.erase a.target
      else w.inner.createOwners.insert a.target (owners.erase a.nonce) := by
    rw [hinner]
    unfold dropCreateOwner
    rw [hlookup]
    dsimp only
    by_cases hmem : a.nonce ∈ owners
    · rw [if_pos hmem]
      rfl
    · rw [if_neg hmem]
  refine ⟨hcreates ▸ h.nodup.erase a, ?_⟩
  intro b hb
  rw [hcreates] at hb
  obtain ⟨hne, hb⟩ := (h.nodup.mem_erase_iff).mp hb
  obtain ⟨owners', hlookup', hnonce⟩ := h.owned b hb
  rw [howners]
  by_cases htarget : b.target = a.target
  · have hsame : owners' = owners := by
      rw [htarget] at hlookup'
      exact Option.some.inj (hlookup'.symm.trans hlookup)
    have hnonces : b.nonce ≠ a.nonce := by
      intro heq
      refine hne ?_
      obtain ⟨bt, bn⟩ := b
      obtain ⟨at', an⟩ := a
      cases htarget
      cases heq
      rfl
    have hrest : b.nonce ∈ owners.erase a.nonce :=
      AList.mem_erase.mpr ⟨hnonces, hsame ▸ hnonce⟩
    have hnotempty : ¬ (owners.erase a.nonce).entries.isEmpty = true := by
      intro hempty
      rw [eq_empty_of_isEmpty hempty] at hrest
      exact AList.notMem_empty _ hrest
    rw [if_neg hnotempty, htarget]
    exact ⟨_, AList.lookup_insert _, hrest⟩
  · refine ⟨owners', ?_, hnonce⟩
    split_ifs
    · rw [Assoc.lookup_erase_eq, if_neg htarget]
      exact hlookup'
    · rw [Assoc.lookup_insert_eq, if_neg htarget]
      exact hlookup'

theorem createsBalanced_next {w : World} (h : w.CreatesBalanced) {e : Event} (ha : w.Acting e) :
    (tracker.next w e).CreatesBalanced := by
  by_cases hledger : e.ledger = .creates
  · cases e with
    | reserveCreateOwner => exact createsBalanced_reserve h ha
    | dropCreateOwner => exact createsBalanced_drop h ha
    | _ => cases hledger
  · have hcreates : (tracker.next w e).creates = w.creates :=
      w.creates_enter (w.respond e).2 hledger
    refine ⟨hcreates ▸ h.nodup, ?_⟩
    rw [hcreates, inner_next, ha.inner, (w.booksKept_act w.inner e).creates hledger]
    exact h.owned

theorem spawns_next {w : World} (h : w.inner.unknownSpawns = w.spawns) {e : Event}
    (ha : w.Acting e) (hopen : (tracker.next w e).inner.failed = false) :
    (tracker.next w e).inner.unknownSpawns = (tracker.next w e).spawns := by
  by_cases hledger : e.ledger = .spawns
  · rw [inner_next, ha.inner] at hopen ⊢
    cases e with
    | beginUnresolvedSpawn now =>
      change (w.inner.beginUnresolvedSpawn now).failed = false at hopen
      change (w.inner.beginUnresolvedSpawn now).unknownSpawns = w.spawns + 1
      unfold beginUnresolvedSpawn at hopen ⊢
      cases hnext : checkedSucc w.inner.unknownSpawns with
      | none =>
        rw [hnext] at hopen
        cases hopen
      | some next =>
        change next = w.spawns + 1
        rw [checkedSucc_eq_some hnext, h]
    | endUnresolvedSpawn now =>
      change (w.inner.endUnresolvedSpawn now).failed = false at hopen
      change (w.inner.endUnresolvedSpawn now).unknownSpawns = w.spawns - 1
      unfold endUnresolvedSpawn at hopen ⊢
      split_ifs at hopen ⊢ with hzero
      · cases hopen
      · change w.inner.unknownSpawns - 1 = w.spawns - 1
        rw [h]
    | _ => cases hledger
  · have hspawns : (tracker.next w e).spawns = w.spawns := by
      change (w.enter e (w.respond e).2).spawns = w.spawns
      unfold enter
      split <;> first | rfl | (split_ifs <;> rfl) | exact absurd rfl hledger
    rw [hspawns, inner_next, ha.inner, (w.booksKept_act w.inner e).spawns hledger]
    exact h

theorem enter_idle (w : World) {e : Event} (h : w.holds e = false) : w.enter e .idle = w := by
  cases e <;> first | rfl | cases h

theorem balanced_next {w : World} (h : w.inner.failed = false → w.Balanced) {e : Event}
    (hnumbered : Numbered w e) (hopen : (tracker.next w e).inner.failed = false) :
    (tracker.next w e).Balanced := by
  rcases w.respond_cases e with ⟨hinner, hidle⟩ | hfailing | hacting
  · have henter : w.enter e (w.respond e).2 = w := by
      rcases hidle with rfl | ⟨hheld, hidle⟩
      · rfl
      · rw [hidle]
        exact w.enter_idle hheld
    have hnext : tracker.next w e = { w with
        state := (w.respond e).1
        history := (e, (w.respond e).2) :: w.history } := by
      change { w.enter e (w.respond e).2 with
        state := (w.respond e).1, history := (e, (w.respond e).2) :: w.history } = _
      rw [henter]
    have hsame : (tracker.next w e).inner = w.inner := hinner
    rw [hsame] at hopen
    have hw := h hopen
    have hwriters : (tracker.next w e).writers = w.writers := by rw [hnext]
    have hnumber : (tracker.next w e).nextRouteGeneration = w.nextRouteGeneration := by rw [hnext]
    refine ⟨hw.writers.transfer (tallyKept_of_routes (congrArg routes hsame)) hwriters hnumber,
      hw.work.transfer (fun other => by rw [hsame]; exact ⟨rfl, rfl⟩) (by rw [hnext])
        (by rw [hnext]), ⟨?_, ?_⟩, ?_⟩
    · rw [hnext]
      exact hw.creates.nodup
    · rw [hsame, hnext]
      exact hw.creates.owned
    · rw [hsame, hnext]
      exact hw.spawns
  · have hfailed : (tracker.next w e).inner.failed = true := hfailing.failed
    rw [hfailed] at hopen
    cases hopen
  · have hw := h hacting.opened
    exact ⟨writersBalanced_next hw.writers hnumbered hacting hopen,
      workBalanced_next hw.work hacting hopen, createsBalanced_next hw.creates hacting,
      spawns_next hw.spawns hacting hopen⟩

theorem balanced_run {es : List Event} (hes : tracker.Along Numbered initial es)
    (hopen : (tracker.run initial es).inner.failed = false) :
    (tracker.run initial es).Balanced := by
  have hinitial : initial.inner.failed = false → initial.Balanced := fun _ =>
    ⟨⟨(fun _ _ hr => nomatch hr), nofun, (fun _ _ hr => nomatch hr)⟩,
      ⟨fun _ => rfl, fun _ => rfl⟩, ⟨List.nodup_nil, nofun⟩, rfl⟩
  have hstep : ∀ w e, (w.inner.failed = false → w.Balanced) → Numbered w e →
      (tracker.next w e).inner.failed = false → (tracker.next w e).Balanced :=
    fun _ _ hw hnumbered hnext => balanced_next hw hnumbered hnext
  exact Machine.run_inv hstep hinitial hes hopen

/-- Nothing is going on at the ticket's route and target, and its request has been answered. -/
structure Quiet (w : World) (ticket : ResponseCloseTicket) (now : Instant)
    (r : ResponseCloseRoute) (p : ResponseClosePolicy) : Prop where
  route : w.inner.routes.lookup ticket.sessionId = some r
  policy : r.policy = some p
  generation : r.generation = ticket.generation
  nonce : p.nonce = ticket.nonce
  member : p.member = ticket.member
  writers : ∀ a ∈ w.writers, ¬ (a.sessionId = ticket.sessionId ∧ a.generation = ticket.generation)
  works : ∀ a ∈ w.works, a.target ≠ ticket.member.target
  deliveries : ∀ a ∈ w.deliveries, a.target ≠ ticket.member.target
  pending : (w.inner.workFor ticket.member.target).pending = ∅
  creates : ∀ a ∈ w.creates, a.target ≠ ticket.member.target
  spawns : w.spawns = 0
  submitted : ∃ a, (Event.markRequestSubmitted ⟨ticket.sessionId, ticket.nonce⟩ true, a) ∈ w.history
  registered : ∃ proof t, proof.context = ⟨ticket.sessionId, ticket.nonce⟩ ∧
    (Event.registerRequest proof t, Answer.done) ∈ w.history ∧ p.registeredAt = some t ∧
    t + Duration.fromSecs w.inner.seconds ≤ now
  succeeded : ∃ c ∈ w.issued, ∃ t, c.sessionId = ticket.sessionId ∧ c.nonce = ticket.nonce ∧
    (Event.settleReturn c true t, Answer.done) ∈ w.history ∧ p.successAt = some t ∧
    t + Duration.fromSecs w.inner.seconds ≤ now
  settled : ∀ c ∈ w.issued, c.sessionId = ticket.sessionId → c.nonce = ticket.nonce →
    w.SettledReturn ticket.sessionId ticket.nonce c.key
  unchanged : r.lastChange + Duration.fromSecs w.inner.seconds ≤ now

theorem committed_spec {w : World} {ticket : ResponseCloseTicket} {now : Instant} {n : Uuid}
    (h : tracker.answer w (.tryCommitResponseClose ticket now) = .committed n) :
    w.inner.failed = false ∧ ∃ r, w.inner.routes.lookup ticket.sessionId = some r ∧
      w.inner.safe r now = true ∧ w.inner.ticketCurrent r ticket = true := by
  change (w.respond (.tryCommitResponseClose ticket now)).2 = .committed n at h
  have hacting := acting_of_granted (by rw [h]; rfl)
  refine ⟨hacting.opened, ?_⟩
  rw [hacting.answer] at h
  rcases w.inner.tryCommitResponseClose_cases ticket now with
    ⟨e, heq⟩ | ⟨route, hroute, hsafe, hcurrent, -⟩
  · unfold act at h
    dsimp only at h
    rw [heq] at h
    cases h
  · exact ⟨route, hroute, hsafe, hcurrent⟩

/-- A close is committed in quiet only. -/
theorem commitLaw (es : List Event) (hes : tracker.Along Numbered initial es)
    (ticket : ResponseCloseTicket) (now : Instant) (n : Uuid)
    (h : tracker.answer (tracker.run initial es) (.tryCommitResponseClose ticket now) =
      .committed n) : ∃ r p, (tracker.run initial es).Quiet ticket now r p := by
  obtain ⟨hopen, r, hr, hsafe, hcurrent⟩ := committed_spec h
  have hbalanced := balanced_run hes hopen
  have hsound := sound_run es
  obtain ⟨p, registeredAt, successAt, hs⟩ := safe_spec hsafe
  obtain ⟨p', hp', -, hnonce, hmember, hgeneration⟩ := ticketCurrent_spec hcurrent
  cases hs.current.symm.trans hp'
  have hevidence := hsound.policies _ _ _ hr hs.current
  have htarget : p.member.target = ticket.member.target := by rw [hmember]
  have hzero : ∀ {m : ℕ}, m = 0 → ∀ {α : Type} {l : List α} {q : α → Bool}, m = l.countP q →
      ∀ a ∈ l, ¬ q a = true := by
    intro m hm α l q hcount a ha
    exact List.countP_eq_zero.mp (hcount.symm.trans hm) a ha
  have hpassed : ∀ t, t ≤ max (max registeredAt successAt) r.lastChange →
      t + Duration.fromSecs (tracker.run initial es).inner.seconds ≤ now :=
    fun t ht => (Nat.add_le_add_right ht _).trans hs.passed
  obtain ⟨hsubmitted, proof, hcontext, hregistered⟩ := hevidence.registered _ hs.registered
  obtain ⟨c, hc, hid, hn, hsettled⟩ := hevidence.success _ hs.succeeded
  refine ⟨r, p, hr, hs.current, hgeneration, hnonce, hmember, ?_, ?_, ?_, ?_, ?_, ?_, ?_, ?_, ?_,
    ?_, ?_⟩
  · intro a ha hand
    rw [← hgeneration] at hand
    exact hzero hs.writers (hbalanced.writers.counted _ _ hr) a ha (decide_eq_true hand)
  · intro a ha heq
    exact hzero hs.provisional (hbalanced.work.provisional _) a ha
      (decide_eq_true (heq.trans htarget.symm))
  · intro a ha heq
    exact hzero hs.dispatch (hbalanced.work.dispatch _) a ha
      (decide_eq_true (heq.trans htarget.symm))
  · rw [← htarget]
    exact hs.pending
  · intro a ha heq
    obtain ⟨owners, hlookup, -⟩ := hbalanced.creates.owned a ha
    rw [heq, ← htarget, AList.lookup_eq_none.mpr hs.creates] at hlookup
    cases hlookup
  · rw [← hbalanced.spawns]
    exact hs.spawns
  · rw [← hnonce]
    exact hevidence.submitted hsubmitted
  · rw [← hnonce]
    exact ⟨proof, registeredAt, hcontext, hregistered, hs.registered,
      hpassed _ ((le_max_left _ _).trans (le_max_left _ _))⟩
  · rw [← hnonce]
    exact ⟨c, hc, successAt, hid, hn, hsettled, hs.succeeded,
      hpassed _ ((le_max_right _ _).trans (le_max_left _ _))⟩
  · intro c' hc' hid' hn'
    have hacc := hevidence.returns c' hc' hid' (hn'.trans hnonce.symm)
    rcases hacc.stands with howed | ⟨-, -, hdone⟩
    · rw [hs.returns] at howed
      cases howed
    · rw [hid', hn'] at hdone
      exact hdone
  · exact hpassed _ (le_max_right _ _)

theorem commitLaw_of_selected : ∃ r p,
    (tracker.run initial selectedRun).Quiet sampleTicket (30 * 10 ^ 9) r p :=
  commitLaw selectedRun (by decide +kernel) sampleTicket (30 * 10 ^ 9) 1 (by decide +kernel)

end World
end AgentsCommander.ResponseClose
