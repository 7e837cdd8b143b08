import AgentsCommander.Idle.Alternation

/-! Consumer handles that a later attach, registration or removal has replaced, and what holds of
the detector after every run. -/
namespace AgentsCommander.Idle
open Foundation Platform

namespace IdleDetector
variable {d : IdleDetector} {id : Uuid} {token : Token}

/-- The token was given out, and is no longer the one its session is attached to. -/
def Replaced (d : IdleDetector) (id : Uuid) (token : Token) : Prop :=
  token < d.nextToken ∧ ∀ r ∈ d.semantic.lookup id, r.observation ≠ some token

theorem currentAttach_replaced (h : d.Replaced id token) : d.currentAttach id token = none := by
  unfold currentAttach
  refine Option.filter_eq_none_iff.mpr fun r hr hcurrent => ?_
  simp at hcurrent
  exact h.2 r hr hcurrent.2

/-- An observation through a replaced handle is refused, and changes nothing. -/
theorem observe_replaced (h : d.Replaced id token) (value : Option Bool) :
    d.observe id token value = (false, d) := by
  unfold observe
  rw [currentAttach_replaced h]

theorem Replaced.of_eq {d' : IdleDetector} (h : d.Replaced id token)
    (hs : d'.semantic = d.semantic) (hn : d'.nextToken = d.nextToken) : d'.Replaced id token := by
  unfold Replaced
  rw [hs, hn]
  exact h

theorem Replaced.insert (h : d.Replaced id token) {j : Uuid} {r : SemanticRegistration}
    {d' : IdleDetector} (hs : d'.semantic = d.semantic.insert j r)
    (hn : d.nextToken ≤ d'.nextToken) (hr : id = j → r.observation ≠ some token) :
    d'.Replaced id token := by
  refine ⟨Nat.lt_of_lt_of_le h.1 hn, fun r' hr' => ?_⟩
  rw [hs] at hr'
  by_cases hj : id = j
  · subst hj
    rw [AList.lookup_insert] at hr'
    obtain rfl := Option.some.inj hr'
    exact hr rfl
  · rw [AList.lookup_insert_ne hj] at hr'
    exact h.2 r' hr'

theorem Replaced.registerActivity (h : d.Replaced id token) (j : Uuid) (tuning : IdleTuning)
    (now : Instant) : (d.registerActivity j tuning now).Replaced id token :=
  h.insert rfl (Nat.le_refl _) fun _ hnone => nomatch hnone

theorem Replaced.activityConsumer (h : d.Replaced id token) (j : Uuid) :
    (d.activityConsumer j).2.Replaced id token := by
  unfold IdleDetector.activityConsumer
  split
  · exact h
  · refine h.insert rfl (Nat.le_succ _) fun _ hnext => ?_
    have htoken : d.nextToken = token := Option.some.inj hnext
    exact absurd htoken (Nat.ne_of_gt h.1)

theorem currentAttach_mem {r : SemanticRegistration} {j : Uuid} {other : Token}
    (hr : d.currentAttach j other = some r) :
    r ∈ d.semantic.lookup j ∧ r.observation = some other := by
  obtain ⟨hlookup, hcurrent⟩ := Option.filter_eq_some_iff.mp hr
  simp at hcurrent
  exact ⟨hlookup, hcurrent.2⟩

theorem Replaced.observe (h : d.Replaced id token) (j : Uuid) (other : Token)
    (value : Option Bool) : (d.observe j other value).2.Replaced id token := by
  unfold IdleDetector.observe
  split
  · exact h
  · rename_i r hr
    cases value with
    | none => exact h
    | some v =>
      refine h.insert rfl (Nat.le_refl _) fun hj => ?_
      subst hj
      exact h.2 r (currentAttach_mem hr).1

theorem Replaced.retire (h : d.Replaced id token) (j : Uuid) (other : Token) :
    (d.retire j other).2.Replaced id token := by
  unfold IdleDetector.retire
  split
  · exact h
  · exact h.insert rfl (Nat.le_refl _) fun _ hnone => nomatch hnone

/-- A new attach replaces every handle given out before for its session. -/
theorem activityConsumer_replaces (hgiven : token < d.nextToken)
    (h : (d.activityConsumer id).1.isSome = true) :
    (d.activityConsumer id).2.Replaced id token := by
  unfold IdleDetector.activityConsumer at h ⊢
  split at h
  · cases h
  · refine ⟨Nat.lt_succ_of_lt hgiven, fun r hr => ?_⟩
    rw [AList.lookup_insert] at hr
    obtain rfl := Option.some.inj hr
    intro hnext
    have htoken : d.nextToken = token := Option.some.inj hnext
    exact absurd htoken (Nat.ne_of_gt hgiven)

/-- So does a new registration. -/
theorem registerActivity_replaces (hgiven : token < d.nextToken) (tuning : IdleTuning)
    (now : Instant) : (d.registerActivity id tuning now).Replaced id token := by
  refine ⟨hgiven, fun r hr => ?_⟩
  have hr' : r ∈ (d.semantic.insert id ⟨tuning.activityDetector, none, none⟩).lookup id := hr
  rw [AList.lookup_insert] at hr'
  obtain rfl := Option.some.inj hr'
  exact fun hnone => nomatch hnone

end IdleDetector

section Runs
variable {t : Thread} {o : Act} {x : Choice} {w : World} {id : Uuid} {token : Token}

theorem owe_detector (w : World) (t : Thread) (id : Uuid) (wasIdle : Bool) :
    (w.owe t id wasIdle).detector = w.detector := by
  cases wasIdle <;> rfl

theorem replaced_act (h : w.detector.Replaced id token) :
    (w.act t o x).2.detector.Replaced id token := by
  cases o with
  | registerActivity j tuning => exact h.registerActivity j tuning x.now
  | removeActivity j =>
    refine ⟨h.1, fun r hr => ?_⟩
    have hr' : r ∈ (w.detector.semantic.erase j).lookup id := hr
    by_cases hj : id = j
    · subst hj
      rw [AList.lookup_erase] at hr'
      cases hr'
    · rw [AList.lookup_erase_ne hj] at hr'
      exact h.2 r hr'
  | activityConsumer j => exact h.activityConsumer j
  | observe j other value => exact h.observe j other value
  | retire j other => exact h.retire j other
  | tick tuning now heartbeat =>
    have hdetector : (w.act t (.tick tuning now heartbeat) x).2.detector =
        w.detector.tick tuning (now.getD x.now) := tick_detector tuning _ w
    rw [hdetector]
    exact h.of_eq rfl rfl
  | stamp j =>
    have hdetector : (w.act t (.stamp j) x).2.detector = (w.detector.stamp j x.now).2 :=
      owe_detector _ t j _
    rw [hdetector]
    exact h.of_eq rfl rfl
  | prepareBoundary j =>
    have hdetector : (w.act t (.prepareBoundary j) x).2.detector =
        (w.detector.prepareBoundary j x.now x.route).2 := owe_detector _ t j _
    rw [hdetector]
    obtain ⟨e, he⟩ | hok := w.detector.prepareBoundary_cases j x.now x.route
    · rw [he]
      exact h
    · rw [hok]
      exact h.of_eq rfl rfl
  | markControlWrite j reopened =>
    simp only [World.act, World.change]
    split
    · exact h.of_eq rfl rfl
    · exact h
  | _ => exact h.of_eq rfl rfl

theorem replaced_run {ok : idlePlatform.Guard} {c c' : idlePlatform.Conf} (h : Reaches ok c c')
    (hc : c.shared.detector.Replaced id token) : c'.shared.detector.Replaced id token := by
  refine kept_of_reaches (P := idlePlatform)
    (A := fun (w : World) => w.detector.Replaced id token) ?_ (fun _ _ hdead => hdead.elim) h hc
  intro t o x w r w' hw hact
  obtain rfl := congrArg Prod.snd (Option.some.inj hact)
  exact replaced_act hw

end Runs

/-- The callbacks of every session alternate, and no observation through a replaced handle has
an effect, however long it was kept. -/
structure IdleLaw (c : idlePlatform.Conf) : Prop where
  alternates : ∀ id, (c.shared.notified id).IsChain (· ≠ ·)
  replaced : ∀ id token, c.shared.detector.Replaced id token →
    ∀ c', Reaches anything c c' → ∀ value,
      c'.shared.detector.observe id token value = (false, c'.shared.detector)

theorem new_alternates (id : Uuid) : World.new.Alternates id := by
  have hnone : Alternates False (fun _ : Thread => False) [] := .empty fun _ _ h => h.elim
  refine hnone.congr ?_ fun t => ?_
  · simp [World.new, IdleDetector.new]
  · simp [World.new]

theorem idleLaw_run {c : idlePlatform.Conf} (h : Reaches promptCallbacks (quiet World.new) c) :
    IdleLaw c where
  alternates id := by
    have halternates : ∀ id, c.shared.Alternates id :=
      idleProtocol.inv_of_reaches (fun t p hp => triple_starts hp) new_alternates (fun _ => rfl) h
    exact (halternates id).chain
  replaced id token hr c' hc' value := IdleDetector.observe_replaced (replaced_run hc' hr) value

/-- The clock at one reading after another. -/
def readings (l : List Instant) : List Choice := l.map fun now => ⟨now, true⟩

def watcher : idlePlatform.Thread := (0 : ℕ)
def reader : idlePlatform.Thread := (1 : ℕ)

open Classical in
/-- A tick on its own, while no callback is still to be made. -/
theorem reaches_tick {w : World} (hw : ∀ t, w.owed t = none) (x : Choice) :
    Reaches promptCallbacks (quiet w) (quiet (w.tick w.detector.tuning x.now)) := by
  have hprompt : promptCallbacks watcher (.tick w.detector.tuning none false) x w :=
    fun _ _ t howes => nomatch (hw t).symm.trans howes
  let check : idlePlatform.Thread → Act → Choice → World → Bool :=
    fun t o x w => decide (promptCallbacks t o x w)
  have hsnapshot : promptCallbacks watcher .snapshotTuning x w := trivial
  have hread : idlePlatform.run check watcher (evaluateTick none false) [x, x] w =
      idlePlatform.run check watcher
        (.act (Act.tick w.detector.tuning none false) fun _ => .done ()) [x] w :=
    if_pos (decide_eq_true hsnapshot)
  have htick : idlePlatform.run check watcher
      (.act (Act.tick w.detector.tuning none false) fun _ => .done ()) [x] w =
        some (w.tick w.detector.tuning x.now) := if_pos (decide_eq_true hprompt)
  exact reaches_run (fun _ _ _ _ => of_decide_eq_true) (.evaluateTick watcher none false)
    (hread.trans htick)

/-- No tick. -/
def noTick : idlePlatform.Thread → Act → Choice → World → Bool
  | _, .tick _ _ _, _, _ => false
  | _, _, _, _ => true

theorem noTick_prompt (t : idlePlatform.Thread) (o : Act) (x : Choice) (w : World)
    (h : noTick t o x w = true) : promptCallbacks t o x w := by
  cases o with
  | tick tuning now heartbeat => cases h
  | _ => trivial

theorem idleLaw_run_tick : ∃ c, Reaches promptCallbacks (quiet World.new) c ∧
    c.shared.notified 7 = [.idle, .busy] ∧ IdleLaw c := by
  obtain ⟨w₁, h₁, howed, hrest⟩ : ∃ w₁, idlePlatform.run noTick watcher
      (registerSession 7 .default) (readings [0, 0, 0, 0]) World.new = some w₁ ∧
      (∀ t, w₁.owed t = none) ∧
      ((idlePlatform.run noTick reader (recordActivityWithBytes 7)
        (readings [4000000000, 4000000000, 4000000000, 4000000000])
        (w₁.tick w₁.detector.tuning 3000000000)).map fun w => w.notified 7) =
        some [.idle, .busy] := by
    refine ⟨_, rfl, fun _ => rfl, ?_⟩
    decide +kernel
  obtain ⟨w₂, h₂, hsent⟩ := Option.map_eq_some_iff.mp hrest
  have hregister := reaches_run noTick_prompt (.registerSession watcher 7 .default) h₁
  have htick := reaches_tick howed ⟨3000000000, true⟩
  have hrecord := reaches_run noTick_prompt (.recordActivity reader 7) h₂
  have hreach := (hregister.trans htick).trans hrecord
  exact ⟨quiet w₂, hreach, hsent, idleLaw_run hreach⟩

/-- An output thread takes the session from the idle set, and a tick finds it silent again before
the thread has called back. -/
theorem preempted_reader :
    ((idlePlatform.run (fun _ _ _ _ => true) watcher (registerSession 7 .default)
        (readings [0, 0, 0, 0]) World.new).bind fun w₁ =>
      (idlePlatform.run (fun _ _ _ _ => true) watcher (evaluateTick none false)
        (readings [0, 3000000000]) w₁).bind fun w₂ =>
      (idlePlatform.walk (fun _ _ _ _ => true) reader (recordActivityWithBytes 7)
        (readings [4000000000, 4000000000, 4000000000]) w₂).bind fun left =>
      (idlePlatform.run (fun _ _ _ _ => true) watcher (evaluateTick none false)
        (readings [0, 8000000000]) left.2).map fun w₄ => w₄.notified 7) =
      some [.idle, .idle] := by
  decide +kernel

theorem not_idleLaw : ¬ ∀ c, Reaches anything (quiet World.new) c → IdleLaw c := by
  intro hlaw
  obtain ⟨w₁, h₁, hrest⟩ := Option.bind_eq_some_iff.mp preempted_reader
  obtain ⟨w₂, h₂, hrest⟩ := Option.bind_eq_some_iff.mp hrest
  obtain ⟨⟨p, w₃⟩, h₃, hrest⟩ := Option.bind_eq_some_iff.mp hrest
  obtain ⟨w₄, h₄, hsent⟩ := Option.map_eq_some_iff.mp hrest
  have hany : ∀ t o x w, (fun _ _ _ _ => true : idlePlatform.Thread → Act → Choice → World → Bool)
      t o x w = true → anything (P := idlePlatform) t o x w := fun _ _ _ _ _ => trivial
  have hregister := reaches_run hany (.registerSession watcher 7 .default) h₁
  have htick := reaches_run hany (.evaluateTick watcher none false) h₂
  let c : idlePlatform.Conf := quiet w₂
  have hstart : Reaches anything c (c.set reader (some (recordActivityWithBytes 7)) w₂) :=
    .single (.start rfl (.recordActivity reader 7))
  have hread := reaches_walk hany c _ _ p w₂ w₃ h₃
  have hagain : Reaches anything (c.set reader (some p) w₃)
      ((c.set reader (some p) w₃).set watcher (some (evaluateTick none false)) w₃) :=
    .single (.start (c.set_threads_ne _ _ fun h : (0 : ℕ) = 1 => nomatch h) (.evaluateTick watcher none false))
  have htick' := reaches_run_from hany (c.set reader (some p) w₃) _ _ w₃ w₄ h₄
  have hreach := ((((hregister.trans htick).trans hstart).trans hread).trans hagain).trans htick'
  have hchain : ([.idle, .idle] : List Edge).IsChain (· ≠ ·) := hsent ▸ (hlaw _ hreach).alternates 7
  exact absurd hchain (by decide)

end AgentsCommander.Idle
