import AgentsCommander.Loops.Sections

/-! What a scan knows of the outstanding deliveries, and the actions that change it. -/
namespace AgentsCommander.Loops
open Foundation Program Protocol

/-- Whatever deliveries last, the assertion still holds of them. -/
def Persistent (A : System → Prop) : Prop := ∀ s s', Lasting s s' → A s → A s'

theorem Persistent.durable {t : Thread} {A : System → Prop} (h : Persistent A) : Durable t true A :=
  durable_of_onward fun s s' ho => h s s' ho.lasting

theorem persistent_true : Persistent fun _ => True :=
  fun _ _ _ _ => trivial

theorem Persistent.and {A B : System → Prop} (hA : Persistent A) (hB : Persistent B) :
    Persistent fun s => A s ∧ B s := fun _ _ hl h => ⟨hA _ _ hl h.1, hB _ _ hl h.2⟩

theorem persistent_paid : Persistent Paid := fun _ _ hl h d hd =>
  (hl d hd).raw.elim (fun hr => hr.trans (h d (hl d hd).mem)) id

section
variable (crates : Crates) (strict : Prop) (snapshot : LoopScanSnapshot)

/-- The delivery's Loop is the one the scan read, but for the delivery's own state. -/
structure Delivery.SeenBy (d : Delivery) (w : World) : Prop where
  config : ∀ config, Live crates w config → config = snapshot.config
  generation : w.generation = snapshot.generation
  raw : w.raw = snapshot.raw ∨ w.raw = d.after

def Seen (s : System) : Prop :=
  strict → ∀ d ∈ s.trace.outstanding, d.SeenBy crates snapshot s.world

/-- The scheduler holds a record of a delivery that the scan is to commit. -/
def Replays (w : World) : Prop := ∃ record, w.unrecordedDelivery = some record ∧
  record.replayable snapshot.config snapshot.generation snapshot.raw = true

/-- A delivery is in the state the scan read, or the scheduler holds its record. -/
def Covered (s : System) : Prop :=
  strict → snapshot.config.loopDef.enabled = true → ∀ d ∈ s.trace.outstanding,
    s.world.raw = d.after ∧ Past snapshot.state d.dueAt ∨ Replays snapshot s.world

/-- No outstanding delivery is due in the state the scan read. -/
def Clear (s : System) : Prop :=
  strict → ∀ d ∈ s.trace.outstanding, Past snapshot.state d.dueAt

end

variable {crates : Crates} {place : Place} {strict : Prop} {snapshot : LoopScanSnapshot}
variable {t : Thread} {A B : System → Prop}

theorem persistent_seen : Persistent (Seen crates strict snapshot) := by
  intro s s' hl h hs d hd
  have hlast := hl d hd
  have hseen := h hs d hlast.mem
  refine ⟨fun config hlive => hseen.config config (hlive.of_config hlast.config),
    hlast.generation.trans hseen.generation, ?_⟩
  exact hlast.raw.elim (fun hr => hr ▸ hseen.raw) .inr

theorem persistent_clear : Persistent (Clear strict snapshot) :=
  fun _ _ hl h hs d hd => h hs d (hl d hd).mem

theorem durable_covered : Durable t true (Covered strict snapshot) := by
  refine durable_of_onward fun s s' ho h hs he d hd => ?_
  have hlast := ho.lasting d hd
  rcases h hs he d hlast.mem with ⟨hraw, hpast⟩ | hrep
  · exact .inl ⟨hlast.raw.elim (fun hr => hr.trans hraw) id, hpast⟩
  · exact .inr (by rwa [Replays, ho.record])

theorem marks_reported (tr : Trace) (t : Thread) (config : LoopConfigToml) (g : ℕ)
    (raw : Option Bytes) (failed : Bool) :
    (tr.reported t config g raw failed).snapshot = tr.snapshot ∧
      (tr.reported t config g raw failed).commit = tr.commit := by
  unfold Trace.reported
  split <;> exact ⟨rfl, rfl⟩

theorem stands_delivering {σ : Station} {o : Act} {x : Choice} {s s' : System} {r : o.Res}
    (ho : o.delivering = true) (h : Stands t σ s) (ha : s.act t o x = some (r, s')) :
    Stands t σ s' := by
  obtain ⟨hw, htr⟩ := act_eq ha
  cases o with
  | deliver origin config run due =>
    cases x with
    | report report =>
      have hworld := world_eq hw
      exact h.same (hworld ▸ rfl) (hworld ▸ rfl) (hworld ▸ rfl) (htr ▸ rfl) (htr ▸ rfl)
    | _ => cases hw
  | keepUnrecordedDelivery record =>
    have hworld := world_eq hw
    exact h.same (hworld ▸ rfl) (hworld ▸ rfl) (hworld ▸ rfl) (htr ▸ rfl) (htr ▸ rfl)
  | takeUnrecordedDelivery =>
    have hworld := world_eq hw
    exact h.same (hworld ▸ rfl) (hworld ▸ rfl) (hworld ▸ rfl) (htr ▸ rfl) (htr ▸ rfl)
  | note n =>
    have hworld := world_eq hw
    rw [Trace.observe_note] at htr
    cases n with
    | prepared after =>
      exact h.same (hworld ▸ rfl) (hworld ▸ rfl) (hworld ▸ rfl) (htr ▸ rfl) (htr ▸ rfl)
    | reportApplied config g raw failed =>
      have hmarks : s'.trace.snapshot = s.trace.snapshot ∧ s'.trace.commit = s.trace.commit :=
        htr ▸ marks_reported _ t config g raw failed
      exact h.same (hworld ▸ rfl) (hworld ▸ rfl) (hworld ▸ rfl) (congrFun hmarks.1 t)
        (congrFun hmarks.2 t)
    | _ => cases ho
  | _ => cases ho

theorem disciplined_of_delivering {o : Act} {w : World} (ho : o.delivering = true)
    (hl : w.scanLock = some t) : Disciplined t o w := by
  refine ⟨?_, ?_, fun _ => hl, fun _ => hl, ?_, ?_⟩ <;> intro h <;> cases o <;> first
    | exact absurd ho Bool.false_ne_true
    | exact absurd h Bool.false_ne_true
    | exact Act.noConfusion h

theorem allowed_of_delivering {o : Act} {s : System} (ho : o.delivering = true)
    (hl : s.world.scanLock = some t) (hd : strict → DeliveryAllowed crates t o s) :
    LoopAllowed crates strict t o s where
  commit := by
    refine ⟨disciplined_of_delivering ho hl, ?_, ?_⟩
    · rintro f bytes rfl
      exact absurd ho Bool.false_ne_true
    · rintro entry rfl
      exact absurd ho Bool.false_ne_true
  delivery := hd

/-- One action on the deliveries, by the holder of the scan lock. -/
theorem safely_delivering {σ : Station} {o : Act} {C : o.Res → System → Prop}
    (ho : o.delivering = true) (hσ : σ.scan = true) (hA : Durable t true A)
    (hd : ∀ s, At t σ A s → strict → DeliveryAllowed crates t o s)
    (hC : ∀ s x r s', At t σ A s → Stands t σ s' →
      (environment crates place strict) t o x s → s.act t o x = some (r, s') → C r s') :
    Safely crates place strict t (At t σ A) (call o) C :=
  Triple.call (enduring_at (hσ ▸ hA)).kept.1
    (fun s _ h => allowed_of_delivering ho (h.stands.scan.mpr hσ) (hd s h))
    fun s x r s' _ h hok hact => hC s x r s' h (stands_delivering ho h.stands hact) hok hact

theorem safely_take {σ : Station} (hσ : σ.scan = true) (hA : Durable t true A)
    (hB : Persistent B) (hAB : ∀ s, A s → B s)
    (hpaid : ∀ s, A s → strict → ∀ d ∈ s.trace.outstanding, ∀ config,
      Live crates s.world config → s.world.raw = d.after) :
    Safely crates place strict t (At t σ A) takeUnrecordedDelivery fun _ => At t σ B := by
  refine safely_delivering rfl hσ hA (fun s h hs => ?_) fun s x r s' h hstands _ hact => ?_
  · exact ⟨fun _ => Act.noConfusion, fun _ => hpaid s h.holds hs, fun _ _ _ => Act.noConfusion,
      fun _ _ _ _ _ _ _ => Act.noConfusion⟩
  · exact ⟨hstands, hB s s' (lasting_of_act hact rfl) (hAB s h.holds)⟩

/-- The thread has a report of a delivery whose state is not yet prepared. -/
def Carrying (t : Thread) (u : Underway) (s : System) : Prop :=
  s.trace.underway t = some u ∧ s.trace.prepared t = none

theorem durable_carrying (u : Underway) : Durable t true (Carrying t u) :=
  durable_of_onward fun _ _ ho h => ⟨ho.underway.trans h.1, ho.prepared.trans h.2⟩

theorem safely_deliver {σ : Station} (hσ : σ.scan = true) (hA : Persistent A) (origin : Origin)
    (config : LoopConfigToml) (run : Uuid) (due : DateTime)
    (hnew : ∀ s, A s → strict → origin = .scan → ∀ d ∈ s.trace.outstanding, d.dueAt ≠ due) :
    Safely crates place strict t (At t σ A) (deliver origin config run due) fun report =>
      At t σ fun s => A s ∧ Carrying t ⟨origin, config, run, due, report.kind⟩ s := by
  refine safely_delivering rfl hσ hA.durable (fun s h hs => ?_)
    fun s x r s' h hstands _ hact => ?_
  · refine ⟨fun _ => Act.noConfusion, Act.noConfusion, fun config' run' due' he => ?_,
      fun _ _ _ _ _ _ _ => Act.noConfusion⟩
    obtain ⟨rfl, -, -, rfl⟩ := Act.deliver.inj he
    exact hnew s h.holds hs rfl
  · have htr := (act_eq hact).2
    refine ⟨hstands, hA s s' (lasting_of_act hact rfl) h.holds, ?_, ?_⟩
    · rw [htr]
      exact Function.update_self ..
    · rw [htr]
      exact Function.update_self ..

end AgentsCommander.Loops
