import AgentsCommander.Idle.Detector

/-! The callbacks of each session alternate as long as no tick overtakes one that is still to be
made, and a consumer handle that has been replaced stays without effect. -/
namespace AgentsCommander.Idle
open Foundation Platform Protocol

section Ticks

/-- The edges of one session among those of a tick. -/
def edgesOf (id : Uuid) (edges : List (Uuid × Edge)) : List Edge :=
  edges.filterMap fun e => if e.1 = id then some e.2 else none

theorem edgesOf_cons (id : Uuid) (e : Uuid × Edge) (edges : List (Uuid × Edge)) :
    edgesOf id (e :: edges) = if e.1 = id then e.2 :: edgesOf id edges else edgesOf id edges := by
  by_cases h : e.1 = id <;> simp [edgesOf, h]

theorem foldl_notify (edges : List (Uuid × Edge)) (w : World) :
    (edges.foldl (fun w e => w.notify e.1 e.2) w).detector = w.detector ∧
    (edges.foldl (fun w e => w.notify e.1 e.2) w).owed = w.owed ∧
    ∀ id, (edges.foldl (fun w e => w.notify e.1 e.2) w).notified id =
      w.notified id ++ edgesOf id edges := by
  induction edges generalizing w with
  | nil => exact ⟨rfl, rfl, fun id => (List.append_nil _).symm⟩
  | cons e edges ih =>
    obtain ⟨hd, ho, hn⟩ := ih (w.notify e.1 e.2)
    refine ⟨hd, ho, fun id => ?_⟩
    rw [List.foldl_cons, hn, edgesOf_cons]
    by_cases h : e.1 = id
    · simp [World.notify, h]
    · have h' : ¬ id = e.1 := fun hid => h hid.symm
      simp [World.notify, h, h']

theorem mem_foldl_applyEdge (edges : List (Uuid × Edge)) (s : Finset Uuid) (id : Uuid) :
    id ∈ edges.foldl (fun s e => IdleDetector.applyEdge s e.1 e.2) s ↔
      (edgesOf id edges).foldl (fun _ e => e = .idle) (id ∈ s) := by
  induction edges generalizing s with
  | nil => exact Iff.rfl
  | cons e edges ih =>
    rw [List.foldl_cons, ih, edgesOf_cons]
    obtain ⟨j, e⟩ := e
    by_cases h : j = id
    · subst h
      cases e <;> simp [IdleDetector.applyEdge]
    · have h' : ¬ id = j := fun hid => h hid.symm
      cases e <;> simp [IdleDetector.applyEdge, h, h']

variable (d : IdleDetector) (tuning : AList fun _ : Uuid => IdleTuning) (now : Instant) (id : Uuid)

theorem turnsIdle_eq : d.turnsIdle tuning now id = (d.crosses tuning now id && !d.positive id) := by
  have hkind : d.detectorKind id = .timed → d.positive id = false := by
    intro h
    unfold IdleDetector.positive
    unfold IdleDetector.detectorKind at h
    cases hr : d.semantic.lookup id with
    | none => rfl
    | some r =>
      rw [hr] at h
      have hk : r.kind = .timed := h
      simp [hk]
  unfold IdleDetector.turnsIdle
  cases hk : d.detectorKind id with
  | timed => simp [ActivityDetectorKind.isBusy, hkind hk]
  | codexWorking => simp [ActivityDetectorKind.isBusy, Bool.and_comm]

/-- An idle edge finds the session busy, a busy edge finds it idle. -/
theorem tickEdge_idle (h : d.tickEdge tuning now id = some .idle) :
    d.turnsIdle tuning now id = true ∧ id ∉ d.idleSet := by
  unfold IdleDetector.tickEdge at h
  by_cases ht : d.turnsIdle tuning now id = true
  · refine ⟨ht, ?_⟩
    rw [turnsIdle_eq] at ht
    have hc : d.crosses tuning now id = true := (Bool.and_eq_true_iff.mp ht).1
    unfold IdleDetector.crosses at hc
    obtain ⟨elapsed, -, he⟩ := (Option.any_eq_true _ _).mp hc
    simp at he
    exact he.2
  · rw [if_neg ht] at h
    split_ifs at h
    cases h

theorem tickEdge_busy (h : d.tickEdge tuning now id = some .busy) : id ∈ d.idleSet := by
  unfold IdleDetector.tickEdge at h
  split_ifs at h with ht hp
  · cases h
  · simp at hp
    exact hp.2

theorem tickEdge_untracked (h : id ∉ d.tracked) : d.tickEdge tuning now id = none := by
  have hkeys : id ∉ d.timestamps.keys ∧ id ∉ d.semantic.keys := by
    unfold IdleDetector.tracked at h
    rw [Finset.mem_sort, List.mem_toFinset, List.mem_append] at h
    exact not_or.mp h
  have hstamp : d.timestamps.lookup id = none := AList.lookup_eq_none.mpr hkeys.1
  have hregistration : d.semantic.lookup id = none := AList.lookup_eq_none.mpr hkeys.2
  have hcrosses : d.crosses tuning now id = false := by
    simp [IdleDetector.crosses, hstamp]
  have hpositive : d.positive id = false := by simp [IdleDetector.positive, hregistration]
  unfold IdleDetector.tickEdge
  rw [turnsIdle_eq, hcrosses, hpositive]
  rfl

private theorem edgesOf_filterMap (f : Uuid → Option Edge) (ids : List Uuid) (hnd : ids.Nodup) :
    edgesOf id (ids.filterMap fun j => (f j).map (Prod.mk j)) =
      if id ∈ ids then (f id).toList else [] := by
  induction ids with
  | nil => rfl
  | cons j ids ih =>
    obtain ⟨hj, hnd'⟩ := List.nodup_cons.mp hnd
    have hrest := ih hnd'
    by_cases h : j = id
    · subst h
      rw [if_neg hj] at hrest
      cases hf : f j with
      | none => simp [hf, hrest]
      | some e => simp [hf, edgesOf_cons, hrest]
    · have h' : ¬ id = j := fun hid => h hid.symm
      cases hf : f j with
      | none => simp [hf, hrest, h']
      | some e => simp [hf, edgesOf_cons, hrest, h, h']

/-- A tick gives each session one edge at most. -/
theorem edgesOf_tickEdges :
    edgesOf id (d.tickEdges tuning now) = (d.tickEdge tuning now id).toList := by
  unfold IdleDetector.tickEdges
  rw [edgesOf_filterMap id (d.tickEdge tuning now) d.tracked (Finset.sort_nodup _ _)]
  by_cases h : id ∈ d.tracked
  · rw [if_pos h]
  · rw [if_neg h, tickEdge_untracked d tuning now id h]
    rfl

variable (w : World)

theorem tick_owed : (w.tick tuning now).owed = w.owed := (foldl_notify _ _).2.1

theorem tick_detector : (w.tick tuning now).detector = w.detector.tick tuning now :=
  (foldl_notify _ _).1

theorem tick_notified : (w.tick tuning now).notified id =
    w.notified id ++ (w.detector.tickEdge tuning now id).toList := by
  have h := (foldl_notify (w.detector.tickEdges tuning now) (w.change (·.tick tuning now))).2.2 id
  rw [edgesOf_tickEdges] at h
  exact h

theorem mem_tick_idleSet : id ∈ (w.tick tuning now).detector.idleSet ↔
    ((w.detector.tickEdge tuning now id).elim (id ∈ w.detector.idleSet) fun e => e = .idle) := by
  have hdetector : (w.tick tuning now).detector = w.detector.tick tuning now :=
    tick_detector tuning now w
  rw [hdetector]
  unfold IdleDetector.tick
  rw [mem_foldl_applyEdge, edgesOf_tickEdges]
  cases w.detector.tickEdge tuning now id <;> rfl

end Ticks

/-- What the callbacks made for a session say about whether it is idle and who still owes it
one. -/
structure Alternates (idle : Prop) (owes : Thread → Prop) (sent : List Edge) : Prop where
  chain : sent.IsChain (· ≠ ·)
  last : idle → sent.getLast? = some .idle
  nobody : idle → ∀ t, ¬ owes t
  single : ∀ t u, owes t → owes u → t = u
  owing : ∀ t, owes t → sent.getLast? ≠ some .busy
  settled : ¬ idle → (∀ t, ¬ owes t) → sent.getLast? ≠ some .idle

namespace Alternates
variable {idle : Prop} {owes : Thread → Prop} {sent : List Edge}

theorem congr {idle' : Prop} {owes' : Thread → Prop} (h : Alternates idle owes sent)
    (hi : idle' ↔ idle) (ho : ∀ t, owes' t ↔ owes t) : Alternates idle' owes' sent := by
  have howes : owes' = owes := funext fun t => propext (ho t)
  rw [propext hi, howes]
  exact h

private theorem isChain_concat (h : sent.IsChain (· ≠ ·)) {e : Edge}
    (he : sent.getLast? ≠ some e) : (sent ++ [e]).IsChain (· ≠ ·) := by
  refine List.isChain_append.mpr ⟨h, List.isChain_singleton e, fun x hx y hy => ?_⟩
  have hy' : e = y := by simpa using hy
  intro hxy
  rw [hxy, ← hy'] at hx
  exact he hx

theorem empty (hs : ∀ t u, owes t → owes u → t = u) : Alternates False owes [] where
  chain := List.isChain_nil
  last h := h.elim
  nobody h := h.elim
  single := hs
  owing _ _ h := by cases h
  settled _ _ h := by cases h

theorem turnIdle (h : Alternates idle owes sent) (hi : ¬ idle) (ho : ∀ t, ¬ owes t) :
    Alternates True owes (sent ++ [.idle]) where
  chain := isChain_concat h.chain (h.settled hi ho)
  last _ := by simp
  nobody _ := ho
  single := h.single
  owing t ht := absurd ht (ho t)
  settled hn := absurd trivial hn

theorem turnBusy (h : Alternates idle owes sent) (hi : idle) :
    Alternates False owes (sent ++ [.busy]) where
  chain := isChain_concat h.chain (by rw [h.last hi]; decide)
  last := False.elim
  nobody := False.elim
  single := h.single
  owing t ht := absurd ht (h.nobody hi t)
  settled _ _ := by simp

/-- Taken from the idle set, and the callback left for later. -/
theorem take (h : Alternates idle owes sent) (hi : idle) (t : Thread) :
    Alternates False (fun u => u = t ∨ owes u) sent where
  chain := h.chain
  last := False.elim
  nobody := False.elim
  single u v hu hv := by
    have hu' : u = t := hu.resolve_right (h.nobody hi u)
    have hv' : v = t := hv.resolve_right (h.nobody hi v)
    exact hu'.trans hv'.symm
  owing _ _ := by rw [h.last hi]; decide
  settled _ ho := absurd (Or.inl rfl) (ho t)

theorem pay (h : Alternates idle owes sent) {t : Thread} (ht : owes t) :
    Alternates idle (fun u => u ≠ t ∧ owes u) (sent ++ [.busy]) where
  chain := isChain_concat h.chain (h.owing t ht)
  last hi := absurd ht (h.nobody hi t)
  nobody hi := absurd ht (h.nobody hi t)
  single u v hu hv := h.single u v hu.2 hv.2
  owing u hu := absurd (h.single u t hu.2 ht) hu.1
  settled _ _ := by simp

end Alternates

def World.Alternates (w : World) (id : Uuid) : Prop :=
  Idle.Alternates (id ∈ w.detector.idleSet) (fun t => w.owed t = some id) (w.notified id)

/-- No tick turns a session idle while a busy callback of that session is still to be made. -/
def promptCallbacks : idlePlatform.Guard
  | _, .tick tuning now _, x, w => ∀ id, w.detector.turnsIdle tuning (now.getD x.now) id = true →
      ∀ t, w.owed t ≠ some id
  | _, _, _, _ => True

/-- An action that neither moves a session in or out of the idle set nor makes a callback. -/
def Act.light : Act → Bool
  | .stamp _ | .prepareBoundary _ | .removeIdle _ | .tick _ _ _ | .onBusy _ => false
  | _ => true

section Steps
variable {t : Thread} {x : Choice} {w : World}

theorem IdleDetector.activityConsumer_idleSet (d : IdleDetector) (id : Uuid) :
    (d.activityConsumer id).2.idleSet = d.idleSet := by
  unfold IdleDetector.activityConsumer
  split <;> rfl

theorem IdleDetector.observe_idleSet (d : IdleDetector) (id : Uuid) (token : Token)
    (value : Option Bool) : (d.observe id token value).2.idleSet = d.idleSet := by
  unfold IdleDetector.observe
  split
  · rfl
  · cases value <;> rfl

theorem IdleDetector.retire_idleSet (d : IdleDetector) (id : Uuid) (token : Token) :
    (d.retire id token).2.idleSet = d.idleSet := by
  unfold IdleDetector.retire
  split <;> rfl

theorem act_light {o : Act} (ho : o.light = true) :
    (w.act t o x).2.detector.idleSet = w.detector.idleSet ∧ (w.act t o x).2.owed = w.owed ∧
      (w.act t o x).2.notified = w.notified := by
  cases o with
  | stamp | prepareBoundary | removeIdle | tick | onBusy => cases ho
  | activityConsumer id => exact ⟨IdleDetector.activityConsumer_idleSet _ id, rfl, rfl⟩
  | observe id token value => exact ⟨IdleDetector.observe_idleSet _ id token value, rfl, rfl⟩
  | retire id token => exact ⟨IdleDetector.retire_idleSet _ id token, rfl, rfl⟩
  | markControlWrite id reopened =>
    refine ⟨?_, rfl, rfl⟩
    simp only [World.act, World.change]
    split <;> rfl
  | _ => exact ⟨rfl, rfl, rfl⟩

theorem Alternates.of_eq {w' : World} {id : Uuid} (h : w.Alternates id)
    (hi : id ∈ w'.detector.idleSet ↔ id ∈ w.detector.idleSet)
    (ho : ∀ u, w'.owed u = some id ↔ w.owed u = some id) (hn : w'.notified id = w.notified id) :
    w'.Alternates id := by
  unfold World.Alternates
  rw [hn]
  exact h.congr hi ho

/-- The stamp of a session, as an output thread or a boundary makes it. -/
theorem alternates_stamp (hw : ∀ j, w.Alternates j) (ht : w.owed t = none) (id : Uuid)
    (now : Instant) (j : Uuid) :
    ((w.change fun d => (d.stamp id now).2).owe t id (w.detector.stamp id now).1).Alternates j := by
  by_cases hid : id ∈ w.detector.idleSet
  · have hwas : (w.detector.stamp id now).1 = true := decide_eq_true hid
    rw [hwas]
    by_cases hj : j = id
    · subst hj
      refine ((hw j).take hid t).congr ?_ fun u => ?_
      · simp [World.owe, World.change, IdleDetector.stamp]
      · by_cases hu : u = t <;> simp [World.owe, World.change, hu]
    · refine Alternates.of_eq (hw j) ?_ (fun u => ?_) rfl
      · simp [World.owe, World.change, IdleDetector.stamp, hj]
      · have hj' : ¬ id = j := fun h => hj h.symm
        by_cases hu : u = t
        · subst hu
          simp [World.owe, World.change, hj', ht]
        · simp [World.owe, World.change, hu]
  · have hwas : (w.detector.stamp id now).1 = false := decide_eq_false hid
    rw [hwas]
    refine Alternates.of_eq (hw j) ?_ (fun u => Iff.rfl) rfl
    have herase : (w.detector.stamp id now).2.idleSet = w.detector.idleSet :=
      Finset.erase_eq_of_notMem hid
    exact iff_of_eq (congrArg (j ∈ ·) herase)

theorem IdleDetector.prepareBoundary_cases (d : IdleDetector) (id : Uuid) (now : Instant)
    (route : Bool) :
    (∃ e, d.prepareBoundary id now route = (.error e, d)) ∨
      d.prepareBoundary id now route = (.ok (d.stamp id now).1, (d.stamp id now).2) := by
  unfold IdleDetector.prepareBoundary
  split
  · split
    · exact Or.inl ⟨_, rfl⟩
    · split
      · split
        · split
          · exact Or.inr rfl
          · exact Or.inl ⟨_, rfl⟩
        · exact Or.inl ⟨_, rfl⟩
      · split
        · exact Or.inr rfl
        · exact Or.inl ⟨_, rfl⟩
  · exact Or.inl ⟨_, rfl⟩

theorem alternates_prepareBoundary (hw : ∀ j, w.Alternates j) (ht : w.owed t = none) (id : Uuid)
    (j : Uuid) : (w.act t (.prepareBoundary id) x).2.Alternates j := by
  obtain ⟨e, he⟩ | hok := w.detector.prepareBoundary_cases id x.now x.route
  · simp only [World.act, he]
    exact hw j
  · simp only [World.act, hok]
    exact alternates_stamp hw ht id x.now j

theorem alternates_tick (hw : ∀ j, w.Alternates j) (tuning : AList fun _ : Uuid => IdleTuning)
    (now : Instant) (hprompt : ∀ id, w.detector.turnsIdle tuning now id = true →
      ∀ t, w.owed t ≠ some id) (id : Uuid) : (w.tick tuning now).Alternates id := by
  have hidle := mem_tick_idleSet tuning now id w
  have hsent := tick_notified tuning now id w
  unfold World.Alternates
  rw [propext hidle, hsent, tick_owed]
  cases he : w.detector.tickEdge tuning now id with
  | none =>
    rw [Option.toList_none, List.append_nil]
    exact hw id
  | some e =>
    cases e with
    | idle =>
      obtain ⟨hturns, hbusy⟩ := tickEdge_idle w.detector tuning now id he
      exact ((hw id).turnIdle hbusy (hprompt id hturns)).congr (by simp) fun u => Iff.rfl
    | busy =>
      have hbusy := tickEdge_busy w.detector tuning now id he
      exact ((hw id).turnBusy hbusy).congr (by simp) fun u => Iff.rfl

theorem alternates_removeIdle (hw : ∀ j, w.Alternates j) (id j : Uuid) :
    (w.act t (.removeIdle id) x).2.Alternates j := by
  by_cases hj : j = id
  · subst hj
    have hsent : (w.act t (.removeIdle j) x).2.notified j = [] := if_pos rfl
    unfold World.Alternates
    rw [hsent]
    exact (Alternates.empty (hw j).single).congr (by simp [World.act, World.change, World.forget])
      fun u => Iff.rfl
  · refine Alternates.of_eq (hw j) ?_ (fun u => Iff.rfl) (if_neg hj)
    simp [World.act, World.change, World.forget, hj]

theorem alternates_onBusy (hw : ∀ j, w.Alternates j) (id j : Uuid) (ht : w.owed t = some id) :
    (w.act t (.onBusy id) x).2.Alternates j := by
  by_cases hj : j = id
  · subst hj
    have hsent : (w.act t (.onBusy j) x).2.notified j = w.notified j ++ [.busy] := if_pos rfl
    unfold World.Alternates
    rw [hsent]
    refine ((hw j).pay ht).congr Iff.rfl fun u => ?_
    by_cases hu : u = t <;> simp [World.act, World.settle, World.notify, hu]
  · refine Alternates.of_eq (hw j) Iff.rfl (fun u => ?_) (if_neg hj)
    have hj' : ¬ id = j := fun h => hj h.symm
    by_cases hu : u = t
    · subst hu
      simp [World.act, World.settle, World.notify, ht, hj']
    · simp [World.act, World.settle, World.notify, hu]

theorem owed_owe (w : World) (id : Uuid) (wasIdle : Bool) {u : Thread} (hu : u ≠ t) :
    (w.owe t id wasIdle).owed u = w.owed u := by
  cases wasIdle with
  | true => exact if_neg hu
  | false => rfl

/-- No action touches what another thread owes. -/
theorem act_owed (o : Act) {u : Thread} (hu : u ≠ t) : (w.act t o x).2.owed u = w.owed u := by
  cases ho : o.light with
  | true => rw [(act_light ho).2.1]
  | false =>
    cases o with
    | stamp id => exact owed_owe _ id _ hu
    | prepareBoundary id => exact owed_owe _ id _ hu
    | removeIdle id => rfl
    | tick tuning now heartbeat =>
      exact congrFun (tick_owed tuning (now.getD x.now) w) u
    | onBusy id => exact if_neg hu
    | _ => cases ho

end Steps

/-- A thread calls back for the session it owes, and takes no other before. -/
def mayAct (t : Thread) : Act → World → Prop
  | .onBusy id, w => w.owed t = some id
  | .stamp _, w | .prepareBoundary _, w => w.owed t = none
  | _, _ => True

theorem alternates_act {t : Thread} {o : Act} {x : Choice} {w : World}
    (hw : ∀ id, w.Alternates id) (hmay : mayAct t o w) (hok : promptCallbacks t o x w) (id : Uuid) :
    (w.act t o x).2.Alternates id := by
  cases ho : o.light with
  | true =>
    obtain ⟨hidle, howed, hsent⟩ := act_light (t := t) (x := x) (w := w) ho
    exact Alternates.of_eq (hw id) (by rw [hidle]) (fun u => by rw [howed]) (by rw [hsent])
  | false =>
    cases o with
    | stamp j => exact alternates_stamp hw hmay j x.now id
    | prepareBoundary j => exact alternates_prepareBoundary hw hmay j id
    | removeIdle j => exact alternates_removeIdle hw j id
    | tick tuning now heartbeat => exact alternates_tick hw tuning (now.getD x.now) hok id
    | onBusy j => exact alternates_onBusy hw j id hmay
    | _ => cases ho

def idleProtocol : Protocol idlePlatform promptCallbacks where
  Inv w := ∀ id, w.Alternates id
  Allowed := mayAct
  rely t w w' := w'.owed t = w.owed t
  Idle t w := w.owed t = none
  keeps hw hmay hok hact := by
    obtain rfl := congrArg Prod.snd (Option.some.inj hact)
    exact ⟨alternates_act hw hmay hok, fun u hu => act_owed _ hu⟩
  survives h := h.elim
  idle_keeps _ _ hr h := hr.trans h

section Programs
variable {t : Thread}

/-- The thread owes nothing. -/
def Free (t : Thread) (w : World) : Prop := w.owed t = none

theorem stable_owed (A : Option Uuid → Prop) : idleProtocol.Stable t fun w => A (w.owed t) := by
  intro w w' _ _ hr h
  have howed : w'.owed t = w.owed t := hr
  rw [howed]
  exact h

/-- An action after which its thread owes what it owed before. -/
def Act.free : Act → Bool
  | .stamp _ | .prepareBoundary _ | .onBusy _ => false
  | _ => true

theorem act_free {o : Act} (ho : o.free = true) (x : Choice) (w : World) :
    (w.act t o x).2.owed = w.owed := by
  cases hlight : o.light with
  | true => exact (act_light hlight).2.1
  | false =>
    cases o with
    | stamp | prepareBoundary | onBusy => cases ho
    | removeIdle id => rfl
    | tick tuning now heartbeat => exact tick_owed tuning (now.getD x.now) w
    | _ => cases hlight

theorem kept_owed (A : Option Uuid → Prop) :
    idleProtocol.Kept t (fun o => o.free = true) fun w => A (w.owed t) := by
  refine ⟨stable_owed A, fun o ho w _ h => ⟨?_, fun x r w' _ hact => ?_⟩⟩
  · cases o with
    | stamp | prepareBoundary | onBusy => cases ho
    | _ => trivial
  · obtain rfl := congrArg Prod.snd (Option.some.inj hact)
    have howed : (w.act t o x).2.owed = w.owed := act_free ho x w
    rw [howed]
    exact h

theorem triple_free {o : Act} (ho : o.free = true) :
    idleProtocol.Triple t (Free t) (call o) fun _ => Free t :=
  Triple.uses (kept_owed (· = none)) (Program.uses_call ho)

theorem triple_onBusy (id : Uuid) :
    idleProtocol.Triple t (fun w => w.owed t = some id) (call (.onBusy id)) fun _ => Free t := by
  refine Triple.call (stable_owed (· = some id)) (fun _ _ h => h) fun w x r w' _ _ _ hact => ?_
  obtain rfl := congrArg Prod.snd (Option.some.inj hact)
  exact if_pos rfl

theorem triple_pay (id : Uuid) (wasIdle : Bool) :
    idleProtocol.Triple t (fun w => w.owed t = if wasIdle then some id else none)
      (if wasIdle then call (.onBusy id) else pure ()) fun _ => Free t := by
  cases wasIdle with
  | true => exact triple_onBusy id
  | false => exact Triple.done fun _ _ h => h

theorem owe_owed (w : World) (id : Uuid) (wasIdle : Bool) (h : w.owed t = none) :
    (w.owe t id wasIdle).owed t = if wasIdle then some id else none := by
  cases wasIdle with
  | true => exact if_pos rfl
  | false => exact h

theorem triple_stamp (id : Uuid) : idleProtocol.Triple t (Free t) (call (.stamp id))
    fun (wasIdle : Bool) w => w.owed t = if wasIdle then some id else none := by
  refine Triple.call (stable_owed (· = none)) (fun _ _ h => h) fun w x r w' _ h _ hact => ?_
  obtain ⟨rfl, rfl⟩ := Prod.mk.inj (Option.some.inj hact)
  exact owe_owed _ id _ h

theorem triple_recordActivity (id : Uuid) :
    idleProtocol.Triple t (Free t) (recordActivityWithBytes id) fun _ => Free t := by
  unfold recordActivityWithBytes
  refine Triple.bind (triple_free rfl) fun tuning => ?_
  refine Triple.bind (triple_free rfl) fun elapsed => ?_
  split
  · exact Triple.done fun _ _ h => h
  · exact Triple.bind (triple_stamp id) fun wasIdle => triple_pay id wasIdle

theorem triple_countOutput (id : Uuid) (printable : Bool) :
    idleProtocol.Triple t (Free t) (countOutput id printable) fun _ => Free t := by
  unfold countOutput
  refine Triple.bind (triple_free rfl) fun _ => ?_
  cases printable with
  | true => exact triple_recordActivity id
  | false => exact Triple.done fun _ _ h => h

theorem triple_recordOutputAt (id : Uuid) (byteCount : ℕ) (printable : Bool) (now : Instant) :
    idleProtocol.Triple t (Free t) (recordOutputAt id byteCount printable now)
      fun _ => Free t := by
  unfold recordOutputAt
  refine Triple.bind (triple_free rfl) fun tuning => ?_
  dsimp only
  split
  · exact triple_countOutput id printable
  · refine Triple.bind (triple_free rfl) fun stamp => ?_
    refine Triple.bind (triple_free rfl) fun verdict => ?_
    cases verdict with
    | countsNow => exact triple_countOutput id printable
    | confirmed bytes sawPrintable => exact triple_countOutput id sawPrintable
    | pending => exact Triple.done fun _ _ h => h

theorem triple_prepareBoundary (id : Uuid) :
    idleProtocol.Triple t (Free t) (call (.prepareBoundary id))
      fun (prepared : Except PtyInputBoundaryFailure Bool × Instant) w =>
        w.owed t = match prepared.1 with
          | .ok wasIdle => if wasIdle then some id else none
          | .error _ => none := by
  refine Triple.call (stable_owed (· = none)) (fun _ _ h => h) fun w x r w' _ h _ hact => ?_
  obtain ⟨rfl, rfl⟩ := Prod.mk.inj (Option.some.inj hact)
  dsimp only
  cases hp : (w.detector.prepareBoundary id x.now x.route).1 with
  | ok wasIdle => exact owe_owed _ id wasIdle h
  | error e => exact h

theorem triple_ptyInputBoundary (id : Uuid) :
    idleProtocol.Triple t (Free t) (ptyInputBoundary id) fun _ => Free t := by
  unfold ptyInputBoundary
  refine Triple.bind (triple_prepareBoundary id) fun prepared => ?_
  obtain ⟨e | wasIdle, now⟩ := prepared
  · exact Triple.done fun _ _ h => h
  · have hsilence : idleProtocol.Triple t (fun w => w.owed t = if wasIdle then some id else none)
        (call (.insertSilence id now)) fun _ w => w.owed t = if wasIdle then some id else none :=
      Triple.uses (kept_owed (· = if wasIdle then some id else none)) (Program.uses_call rfl)
    exact Triple.bind hsilence fun _ => triple_pay id wasIdle

theorem triple_removeSession (id : Uuid) :
    idleProtocol.Triple t (Free t) (removeSession id) fun _ => Free t := by
  unfold removeSession
  refine Triple.bind (triple_free rfl) fun _ => ?_
  refine Triple.bind (triple_free rfl) fun _ => ?_
  refine Triple.bind (triple_free rfl) fun _ => ?_
  refine Triple.bind (triple_free rfl) fun _ => ?_
  refine Triple.bind (triple_free rfl) fun _ => ?_
  refine Triple.bind (triple_free rfl) fun _ => ?_
  exact Triple.bind (triple_free rfl) fun _ => triple_free rfl

/-- Whatever a thread starts, it owes nothing in the end. -/
theorem triple_starts {p : IdleProgram Unit} (h : Starts t p) :
    idleProtocol.Triple t (idleProtocol.Idle t) p fun _ => idleProtocol.Idle t := by
  cases h with
  | registerSession id tuning =>
    exact Triple.bind (triple_free rfl) fun _ => Triple.bind (triple_free rfl) fun _ =>
      Triple.bind (triple_free rfl) fun _ => triple_free rfl
  | recordResize id => exact triple_free rfl
  | touchSilence id => exact triple_free rfl
  | recordActivity id => exact triple_recordActivity id
  | recordOutput id byteCount printable now => exact triple_recordOutputAt id byteCount printable now
  | recordControlWrite id =>
    exact Triple.bind (triple_free rfl) fun reopened =>
      Triple.bind (triple_free rfl) fun _ => triple_recordActivity id
  | clearControlWrite id => exact triple_free rfl
  | ptyInputBoundary id => exact triple_ptyInputBoundary id
  | removeSession id => exact triple_removeSession id
  | activityConsumer id =>
    exact Triple.bind (triple_free rfl) fun _ => Triple.done fun _ _ h => h
  | observe id token value =>
    exact Triple.bind (triple_free rfl) fun _ => Triple.done fun _ _ h => h
  | retire id token => exact Triple.bind (triple_free rfl) fun _ => Triple.done fun _ _ h => h
  | evaluateTick now heartbeat =>
    exact Triple.bind (triple_free rfl) fun tuning =>
      Triple.bind (triple_free rfl) fun _ => Triple.done fun _ _ h => h

end Programs
end AgentsCommander.Idle
