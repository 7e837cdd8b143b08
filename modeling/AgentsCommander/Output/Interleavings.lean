import AgentsCommander.Output.Receipt

/-! The account of every window along every interleaving in which no flush drains what its labels
are too old for. -/
namespace AgentsCommander.Output
open Foundation Platform Protocol

/-- No flush drains a batch that holds a chunk later than the snapshot of an attached window which
its labels, read before, do not name. -/
def timelyLabels : outputPlatform.Guard
  | _, .drain b labels _, _, w => ∀ n, w.parser = some ⟨n, true⟩ → w.Covers b labels
  | _, _, _, _ => True

/-- The sections that run under the parser lock. -/
def Act.locked : Act → Bool
  | .unlockParsers | .process | .locate | .append _ _ _ _ | .snapshot | .attach _ _
  | .flushPending _ _ | .resize | .closeGate | .removeParser | .removeAttachments => true
  | _ => false

/-- The batch was given up, and no chunk will join it under its name. -/
def World.Orphan (w : World) (b : BatchId) : Prop := b < w.fresh ∧ w.accumulator ≠ some b

/-- What each section needs beside its lock. -/
def Act.ready : Act → World → Prop
  | .append b _ chunk fault, w => ∀ n, w.parser = some ⟨n, true⟩ → fault = false ∧
      chunk.above n = false ∧ (∀ c ∈ w.ingested, World.Before c chunk) ∧
      ∀ label, ∀ s ∈ w.seeds label, w.accumulator = some b
  | .attach _ seed, w => ∀ n, w.parser = some ⟨n, true⟩ → ∀ s ∈ seed, s = n
  | .flushPending b labels, w => ∀ n, w.parser = some ⟨n, true⟩ → w.Covers b labels
  | .discard b, w => w.Orphan b
  | _, _ => True

def mayAct (t : Thread) (o : Act) (w : World) : Prop :=
  (o.locked = true → w.holder = some t) ∧ o.ready w

/-- What may happen to a thread that holds the parser lock. -/
structure World.Sheltered (w w' : World) : Prop where
  holder : w'.holder = w.holder
  parser : w'.parser = w.parser
  ingested : w'.ingested = w.ingested
  seeds : ∀ label, w'.seeds label ⊆ w.seeds label
  contents : ∀ b, w'.contents b ⊆ w.contents b
  accumulator : w'.accumulator = w.accumulator ∨ ∀ label, w'.seeds label = []

structure World.Relies (t : Thread) (w w' : World) : Prop where
  holding : w.holder = some t → w.Sheltered w'
  free : w.holder ≠ some t → w'.holder ≠ some t
  orphans : ∀ b, w.Orphan b → w'.Orphan b

section Steps
variable {t : Thread} {o : Act} {x : Choice} {w w' : World} {r : o.Res}

theorem World.Sheltered.refl (w : World) : w.Sheltered w :=
  ⟨rfl, rfl, rfl, fun _ => List.Subset.refl _, fun _ => List.Subset.refl _, Or.inl rfl⟩

theorem sheltered_flush (w : World) (b : BatchId) (labels : Finset WindowLabel) :
    w.Sheltered (w.flush b labels) := by
  refine ⟨rfl, rfl, rfl, fun _ => List.Subset.refl _, fun j c hc => ?_, Or.inl rfl⟩
  by_cases hj : j = b
  · subst hj
    simp [World.flush, World.discard] at hc
  · simpa [World.flush, World.discard, hj] using hc

theorem sheltered_discard (w : World) (b : BatchId) : w.Sheltered (w.discard b) := by
  refine ⟨rfl, rfl, rfl, fun _ => List.Subset.refl _, fun j c hc => ?_, Or.inl rfl⟩
  by_cases hj : j = b
  · subst hj
    simp [World.discard] at hc
  · simpa [World.discard, hj] using hc

theorem sheltered_detach (h : w.Inv) (label : WindowLabel) : w.Sheltered (w.detach label).2 := by
  have hseeds : ∀ other, Function.update w.seeds label [] other ⊆ w.seeds other := by
    intro other s hs
    by_cases hother : other = label
    · subst hother
      simp at hs
    · simpa [hother] using hs
  unfold World.detach
  by_cases hlabel : label ∈ w.attached
  · rw [if_pos hlabel]
    dsimp only
    split_ifs with hempty
    · refine ⟨rfl, rfl, rfl, hseeds, fun _ => List.Subset.refl _, Or.inr fun other => ?_⟩
      refine List.eq_nil_iff_forall_not_mem.mpr fun s hs => ?_
      by_cases hother : other = label
      · subst hother
        simp at hs
      · have hattached := h.seeded other s (hseeds other hs)
        have hleft := Finset.mem_erase_of_ne_of_mem hother hattached
        rw [hempty] at hleft
        cases hleft
    · exact ⟨rfl, rfl, rfl, hseeds, fun _ => List.Subset.refl _, Or.inl rfl⟩
  · rw [if_neg hlabel]
    exact .refl w

theorem sheltered_act (h : w.Inv) (ho : o.locked = false) (hheld : w.holder.isSome = true)
    (hact : World.act t o x w = some (r, w')) : w.Sheltered w' := by
  cases o with
  | acquireReaderLease | lockParsers =>
    simp only [World.act] at hact
    rw [if_pos hheld] at hact
    cases hact
  | completeLease | armTimer =>
    obtain rfl := congrArg Prod.snd (Option.some.inj hact)
    exact ⟨rfl, rfl, rfl, fun _ => List.Subset.refl _, fun _ => List.Subset.refl _, Or.inl rfl⟩
  | lookUp =>
    obtain rfl := congrArg Prod.snd (Option.some.inj hact)
    exact .refl w
  | takeTimer =>
    simp only [World.act] at hact
    split_ifs at hact
    obtain rfl := congrArg Prod.snd (Option.some.inj hact)
    exact ⟨rfl, rfl, rfl, fun _ => List.Subset.refl _, fun _ => List.Subset.refl _, Or.inl rfl⟩
  | waitForDrain =>
    simp only [World.act] at hact
    split_ifs at hact
    obtain rfl := congrArg Prod.snd (Option.some.inj hact)
    exact .refl w
  | drain b labels fromTimer =>
    obtain rfl := congrArg Prod.snd (Option.some.inj hact)
    cases fromTimer with
    | false => exact sheltered_flush w b labels
    | true =>
      have hflush := sheltered_flush (w.setTimer b false) b labels
      exact ⟨hflush.holder, hflush.parser, hflush.ingested, hflush.seeds, hflush.contents,
        hflush.accumulator⟩
  | detach label =>
    obtain rfl := congrArg Prod.snd (Option.some.inj hact)
    exact sheltered_detach h label
  | discard b =>
    obtain rfl := congrArg Prod.snd (Option.some.inj hact)
    exact sheltered_discard w b
  | _ => cases ho

/-- The lock, and what batches there are, stay as they were. -/
structure World.Frame (w w' : World) : Prop where
  holder : w'.holder = w.holder
  fresh : w'.fresh = w.fresh
  accumulator : w'.accumulator = w.accumulator

theorem frame_append (w : World) (b : BatchId) (labels : Finset WindowLabel) (chunk : Chunk)
    (fault : Bool) : w.Frame (w.append b labels chunk fault).2 := by
  have hextended : w.Frame ((if fault then w.flush b labels else w).extend b chunk) := by
    cases fault <;> exact ⟨rfl, rfl, rfl⟩
  unfold World.append
  dsimp only
  generalize (if fault = true then w.flush b labels else w).extend b chunk = w₁ at hextended ⊢
  split_ifs <;> exact ⟨hextended.holder, hextended.fresh, hextended.accumulator⟩

theorem frame_process (w : World) (panics : Bool) : w.Frame (w.process panics).2 := by
  unfold World.process
  split
  · exact ⟨rfl, rfl, rfl⟩
  · dsimp only
    split_ifs <;> exact ⟨rfl, rfl, rfl⟩

theorem frame_snapshot (w : World) (copy : World.Copy) : w.Frame (w.snapshot copy).2 := by
  unfold World.snapshot
  split
  · exact ⟨rfl, rfl, rfl⟩
  · split_ifs
    · split <;> exact ⟨rfl, rfl, rfl⟩
    · exact ⟨rfl, rfl, rfl⟩

theorem frame_resize (w : World) (panics : Bool) : w.Frame (w.resize panics).2 := by
  unfold World.resize
  split
  · exact ⟨rfl, rfl, rfl⟩
  · split_ifs <;> exact ⟨rfl, rfl, rfl⟩

theorem World.Frame.orphan (h : w.Frame w') {b : BatchId} (hb : w.Orphan b) : w'.Orphan b := by
  unfold World.Orphan
  rw [h.fresh, h.accumulator]
  exact hb

theorem orphan_detach (w : World) (label : WindowLabel) {b : BatchId} (hb : w.Orphan b) :
    (w.detach label).2.Orphan b := by
  unfold World.detach
  dsimp only
  split_ifs
  · exact ⟨hb.1, fun hnone => nomatch hnone⟩
  · exact hb
  · exact hb

theorem orphan_locate (w : World) {b : BatchId} (hb : w.Orphan b) : w.locate.2.Orphan b := by
  unfold World.locate
  split_ifs
  · exact hb
  · split
    · exact hb
    · refine ⟨Nat.lt_succ_of_lt hb.1, fun hnew => ?_⟩
      have hfresh : w.fresh = b := Option.some.inj hnew
      exact absurd hfresh (Nat.ne_of_gt hb.1)

/-- The actions that leave the lock, and what batches there are, as they were. -/
def Act.framed : Act → Bool
  | .lockParsers | .unlockParsers | .locate | .detach _ | .removeAttachments => false
  | _ => true

theorem frame_act (ho : o.framed = true) (hact : World.act t o x w = some (r, w')) :
    w.Frame w' := by
  cases o with
  | acquireReaderLease | takeTimer | waitForDrain | closeGate | removeParser =>
    simp only [World.act] at hact
    split_ifs at hact <;> obtain rfl := congrArg Prod.snd (Option.some.inj hact) <;>
      exact ⟨rfl, rfl, rfl⟩
  | lockParsers | unlockParsers | locate | detach | removeAttachments => cases ho
  | process =>
    obtain rfl := congrArg Prod.snd (Option.some.inj hact)
    exact frame_process w x.panics
  | snapshot =>
    obtain rfl := congrArg Prod.snd (Option.some.inj hact)
    exact frame_snapshot w x.copy
  | resize =>
    obtain rfl := congrArg Prod.snd (Option.some.inj hact)
    exact frame_resize w x.panics
  | append b labels chunk fault =>
    obtain rfl := congrArg Prod.snd (Option.some.inj hact)
    exact frame_append w b labels chunk fault
  | drain b labels fromTimer =>
    obtain rfl := congrArg Prod.snd (Option.some.inj hact)
    cases fromTimer <;> exact ⟨rfl, rfl, rfl⟩
  | _ =>
    obtain rfl := congrArg Prod.snd (Option.some.inj hact)
    exact ⟨rfl, rfl, rfl⟩

/-- A batch that was given up stays so. -/
theorem orphan_act (hact : World.act t o x w = some (r, w')) {b : BatchId} (hb : w.Orphan b) :
    w'.Orphan b := by
  cases ho : o.framed with
  | true => exact (frame_act ho hact).orphan hb
  | false =>
    cases o with
    | lockParsers =>
      simp only [World.act] at hact
      split_ifs at hact
      obtain rfl := congrArg Prod.snd (Option.some.inj hact)
      exact hb
    | unlockParsers =>
      obtain rfl := congrArg Prod.snd (Option.some.inj hact)
      exact hb
    | locate =>
      obtain rfl := congrArg Prod.snd (Option.some.inj hact)
      exact orphan_locate w hb
    | detach label =>
      obtain rfl := congrArg Prod.snd (Option.some.inj hact)
      exact orphan_detach w label hb
    | removeAttachments =>
      obtain rfl := congrArg Prod.snd (Option.some.inj hact)
      exact ⟨hb.1, fun hnone => nomatch hnone⟩
    | _ => cases ho

theorem locate_holder (w : World) : w.locate.2.holder = w.holder := by
  unfold World.locate
  split_ifs
  · rfl
  · split <;> rfl

/-- No action gives the parser lock to another thread. -/
theorem holder_act (h : w.Inv) (hact : World.act t o x w = some (r, w')) {u : Thread}
    (hu : u ≠ t) (hfree : w.holder ≠ some u) : w'.holder ≠ some u := by
  cases ho : o.framed with
  | true =>
    rw [(frame_act ho hact).holder]
    exact hfree
  | false =>
    cases o with
    | lockParsers =>
      simp only [World.act] at hact
      split_ifs at hact
      obtain rfl := congrArg Prod.snd (Option.some.inj hact)
      exact fun heq => hu (Option.some.inj heq).symm
    | unlockParsers =>
      obtain rfl := congrArg Prod.snd (Option.some.inj hact)
      exact fun heq => nomatch heq
    | locate =>
      obtain rfl := congrArg Prod.snd (Option.some.inj hact)
      have hholder : w.locate.2.holder = w.holder := locate_holder w
      exact hholder ▸ hfree
    | detach label =>
      obtain rfl := congrArg Prod.snd (Option.some.inj hact)
      have hholder : (w.detach label).2.holder = w.holder := (sheltered_detach h label).holder
      exact hholder ▸ hfree
    | removeAttachments =>
      obtain rfl := congrArg Prod.snd (Option.some.inj hact)
      exact hfree
    | _ => cases ho

theorem relies_act (h : w.Inv) (hmay : mayAct t o w) (hact : World.act t o x w = some (r, w'))
    {u : Thread} (hu : u ≠ t) : w.Relies u w' where
  holding hheld := by
    refine sheltered_act h (Bool.eq_false_iff.mpr fun hlocked => ?_) (hheld ▸ rfl) hact
    exact hu (Option.some.inj (hheld.symm.trans (hmay.1 hlocked)))
  free := holder_act h hact hu
  orphans _ := orphan_act hact

theorem World.Inv.act (h : w.Inv) (hmay : mayAct t o w) (hok : timelyLabels t o x w)
    (hact : World.act t o x w = some (r, w')) : w'.Inv := by
  have hframe : ∀ (holder : Option Thread) (closing : Bool) (admitted timers : ℕ), World.Inv
      { w with holder := holder, lifecycleClosing := closing, admittedCount := admitted,
               timers := timers } := fun _ _ _ _ =>
    ⟨h.described, h.delivered, h.known, h.seeded, fun n hn =>
      have ho := h.inOrder n hn
      ⟨⟨ho.bounded.ingested, ho.bounded.flushed, ho.bounded.contents, ho.bounded.received⟩,
        ho.ordered, fun label s hs =>
          have hr := ho.reconciled label s hs
          ⟨hr.received, hr.settled, hr.elsewhere⟩⟩⟩
  cases o with
  | acquireReaderLease | takeTimer | waitForDrain | closeGate | lockParsers =>
    simp only [World.act] at hact
    split_ifs at hact <;> obtain rfl := congrArg Prod.snd (Option.some.inj hact) <;>
      first | exact h | exact hframe _ _ _ _
  | completeLease | armTimer | unlockParsers =>
    obtain rfl := congrArg Prod.snd (Option.some.inj hact)
    exact hframe _ _ _ _
  | lookUp =>
    obtain rfl := congrArg Prod.snd (Option.some.inj hact)
    exact h
  | process =>
    obtain rfl := congrArg Prod.snd (Option.some.inj hact)
    exact h.process x.panics
  | locate =>
    obtain rfl := congrArg Prod.snd (Option.some.inj hact)
    exact h.locate
  | append b labels chunk fault =>
    obtain rfl := congrArg Prod.snd (Option.some.inj hact)
    exact h.append chunk fault hmay.2
  | drain b labels fromTimer =>
    obtain rfl := congrArg Prod.snd (Option.some.inj hact)
    exact h.drain fromTimer hok
  | snapshot =>
    obtain rfl := congrArg Prod.snd (Option.some.inj hact)
    exact h.snapshot x.copy
  | attach label seed =>
    obtain rfl := congrArg Prod.snd (Option.some.inj hact)
    exact h.attach label seed hmay.2
  | flushPending b labels =>
    obtain rfl := congrArg Prod.snd (Option.some.inj hact)
    exact h.flush hmay.2
  | detach label =>
    obtain rfl := congrArg Prod.snd (Option.some.inj hact)
    exact h.detach label
  | discard b =>
    obtain rfl := congrArg Prod.snd (Option.some.inj hact)
    exact h.discard hmay.2.2
  | resize =>
    obtain rfl := congrArg Prod.snd (Option.some.inj hact)
    exact h.resize x.panics
  | removeParser =>
    simp only [World.act] at hact
    split_ifs at hact <;> obtain rfl := congrArg Prod.snd (Option.some.inj hact)
    · exact h
    · exact h.setParser none fun n hn => nomatch hn
  | removeAttachments =>
    obtain rfl := congrArg Prod.snd (Option.some.inj hact)
    exact h.removeAttachments

end Steps

def outputProtocol : Protocol outputPlatform timelyLabels where
  Inv := World.Inv
  Allowed := mayAct
  rely t w w' := w.Relies t w'
  Idle t w := w.holder ≠ some t
  keeps hw hmay hok hact := ⟨hw.act hmay hok hact, fun _ hu => relies_act hw hmay hact hu⟩
  survives h := h.elim
  idle_keeps _ _ hr h := hr.free h

section Programs
variable {t : Thread}

/-- The thread does not hold the parser lock. -/
def Free (t : Thread) (w : World) : Prop := w.holder ≠ some t

/-- The thread holds the parser lock, and knows this of what only the holder changes. -/
def Holds (t : Thread) (A : World → Prop) (w : World) : Prop := w.holder = some t ∧ A w

/-- A fact that outlasts whatever happens beside the holder of the parser lock. -/
def Safe (A : World → Prop) : Prop := ∀ w w', w.Sheltered w' → A w → A w'

theorem stable_holds {A : World → Prop} (hA : Safe A) : outputProtocol.Stable t (Holds t A) := by
  intro w w' _ _ hr h
  have hsheltered := hr.holding h.1
  exact ⟨hsheltered.holder.trans h.1, hA w w' hsheltered h.2⟩

theorem stable_free : outputProtocol.Stable t (Free t) := fun _ _ _ _ hr h => hr.free h

theorem safe_true : Safe fun _ => True := fun _ _ _ _ => trivial

/-- Actions a thread without the lock may take at any time. -/
def Act.easy : Act → Bool
  | .acquireReaderLease | .completeLease | .armTimer | .takeTimer | .lookUp | .drain _ _ _
  | .detach _ | .waitForDrain => true
  | _ => false

theorem holder_easy {o : Act} {x : Choice} {w w' : World} {r : o.Res} (hw : w.Inv)
    (ho : o.easy = true) (hact : World.act t o x w = some (r, w')) : w'.holder = w.holder := by
  cases o with
  | detach label =>
    obtain rfl := congrArg Prod.snd (Option.some.inj hact)
    exact (sheltered_detach hw label).holder
  | acquireReaderLease | completeLease | armTimer | takeTimer | lookUp | drain | waitForDrain =>
    exact (frame_act rfl hact).holder
  | _ => cases ho

theorem mayAct_easy {o : Act} (ho : o.easy = true) (w : World) : mayAct t o w := by
  cases o with
  | acquireReaderLease | completeLease | armTimer | takeTimer | lookUp | drain | detach
  | waitForDrain => exact ⟨(fun hlocked => nomatch hlocked), trivial⟩
  | _ => cases ho

theorem kept_free : outputProtocol.Kept t (fun o => o.easy = true) (Free t) := by
  refine ⟨stable_free, fun o ho w hw hfree => ⟨mayAct_easy ho w, fun x r w' _ hact => ?_⟩⟩
  have hholder : w'.holder = w.holder := holder_easy hw ho hact
  unfold Free
  rw [hholder]
  exact hfree

theorem triple_easy {o : Act} (ho : o.easy = true) :
    outputProtocol.Triple t (Free t) (call o) fun _ => Free t :=
  Triple.uses kept_free (Program.uses_call ho)

theorem triple_flush (fromTimer : Bool) :
    outputProtocol.Triple t (Free t) (flush fromTimer) fun _ => Free t := by
  unfold flush
  refine Triple.bind (triple_easy rfl) fun found => ?_
  obtain _ | ⟨b, labels⟩ := found
  · exact Triple.done fun _ _ h => h
  · exact triple_easy rfl

theorem triple_lock : outputProtocol.Triple t (Free t) (call .lockParsers)
    fun _ => Holds t fun _ => True := by
  refine Triple.call stable_free (fun _ _ _ => ⟨(fun hlocked => nomatch hlocked), trivial⟩) ?_
  intro w x r w' _ _ _ hact
  change World.act t .lockParsers x w = some (r, w') at hact
  simp only [World.act] at hact
  split_ifs at hact
  obtain rfl := congrArg Prod.snd (Option.some.inj hact)
  exact ⟨rfl, trivial⟩

theorem triple_unlock {A : World → Prop} (hA : Safe A) :
    outputProtocol.Triple t (Holds t A) (call .unlockParsers) fun _ => Free t := by
  refine Triple.call (stable_holds hA) (fun _ _ h => ⟨fun _ => h.1, trivial⟩) ?_
  intro w x r w' _ _ _ hact
  obtain rfl := congrArg Prod.snd (Option.some.inj hact)
  exact fun hnone => nomatch hnone

/-- The chunk just taken is the one after everything appended so far. -/
def Latest (sequence : Option ℕ) (fault : Bool) (w : World) : Prop :=
  ∀ n, w.parser = some ⟨n, true⟩ → fault = false ∧ sequence = some n ∧
    ∀ c ∈ w.ingested, ∀ m ∈ c.sequence, m < n

theorem safe_latest (sequence : Option ℕ) (fault : Bool) : Safe (Latest sequence fault) := by
  intro w w' h hl n hn
  rw [h.parser] at hn
  rw [h.ingested]
  exact hl n hn

/-- Whoever is seeded waits for this batch. -/
def Located (b : BatchId) (w : World) : Prop := ∀ label, ∀ s ∈ w.seeds label, w.accumulator = some b

theorem safe_located (b : BatchId) : Safe (Located b) := by
  intro w w' h hl label s hs
  obtain hacc | hnone := h.accumulator
  · rw [hacc]
    exact hl label s (h.seeds label hs)
  · rw [hnone label] at hs
    cases hs

theorem process_latest {w : World} (h : w.Inv) (panics : Bool) :
    ∀ p ∈ (w.process panics).1, Latest p.2.1 p.2.2 (w.process panics).2 := by
  intro p hp n hn
  have hingested : (w.process panics).2.ingested = w.ingested := by
    unfold World.process
    split
    · rfl
    · split_ifs <;> rfl
  rw [hingested]
  unfold World.process at hp hn
  cases hparser : w.parser with
  | none => simp [hparser] at hp
  | some state =>
    obtain ⟨k, available⟩ := state
    rw [hparser] at hp hn
    cases available with
    | false =>
      have hnone : w.parser = some ⟨n, true⟩ := by simpa using hn
      rw [hparser] at hnone
      cases hnone
    | true =>
      dsimp only at hp hn
      rw [if_pos rfl] at hp hn
      split_ifs at hp hn
      · cases hn
      · obtain rfl := Option.some.inj hp
        have hk : k + 1 = n := by simpa using hn
        refine ⟨rfl, congrArg some hk, fun c hc m hm => ?_⟩
        have hbound := not_above.mp ((h.inOrder k hparser).bounded.ingested c hc) m hm
        omega

theorem triple_process : outputProtocol.Triple t (Holds t fun _ => True) (call .process)
    fun (r : Option (Bool × Option ℕ × Bool)) => Holds t fun w =>
      ∀ p ∈ r, Latest p.2.1 p.2.2 w := by
  refine Triple.call (stable_holds safe_true) (fun _ _ h => ⟨fun _ => h.1, trivial⟩) ?_
  intro w x r w' hw h _ hact
  obtain ⟨rfl, rfl⟩ := Prod.mk.inj (Option.some.inj hact)
  exact ⟨(frame_process w x.panics).holder.trans h.1, process_latest hw x.panics⟩

theorem locate_located (w : World) : ∀ p ∈ w.locate.1, Located p.1 w.locate.2 := by
  intro p hp label s hs
  unfold World.locate at hp hs ⊢
  split_ifs at hp hs ⊢ with hempty
  · cases hp
  · cases hacc : w.accumulator with
    | none =>
      rw [hacc] at hp
      obtain rfl := Option.some.inj hp
      rfl
    | some b =>
      rw [hacc] at hp
      obtain rfl := Option.some.inj hp
      exact hacc

theorem locate_latest {w : World} {sequence : Option ℕ} {fault : Bool}
    (h : Latest sequence fault w) : Latest sequence fault w.locate.2 := by
  unfold World.locate
  split_ifs
  · exact h
  · split <;> exact h

theorem triple_locate (sequence : Option ℕ) (fault : Bool) :
    outputProtocol.Triple t (Holds t (Latest sequence fault)) (call .locate)
      fun (r : Option (BatchId × Finset WindowLabel)) => Holds t fun w =>
        Latest sequence fault w ∧ ∀ p ∈ r, Located p.1 w := by
  refine Triple.call (stable_holds (safe_latest sequence fault))
    (fun _ _ h => ⟨fun _ => h.1, trivial⟩) ?_
  intro w x r w' hw h _ hact
  obtain ⟨rfl, rfl⟩ := Prod.mk.inj (Option.some.inj hact)
  exact ⟨(locate_holder w).trans h.1, locate_latest h.2, locate_located w⟩

theorem triple_append (b : BatchId) (labels : Finset WindowLabel) (sequence : Option ℕ)
    (data : List Byte) (fault : Bool) :
    outputProtocol.Triple t (Holds t fun w => Latest sequence fault w ∧ Located b w)
      (call (.append b labels ⟨sequence, data⟩ fault)) fun _ => Holds t fun _ => True := by
  have hsafe : Safe fun w => Latest sequence fault w ∧ Located b w := fun w w' hs h =>
    ⟨safe_latest sequence fault w w' hs h.1, safe_located b w w' hs h.2⟩
  refine Triple.call (stable_holds hsafe) (fun w _ h => ⟨fun _ => h.1, fun n hn => ?_⟩) ?_
  · obtain ⟨hfault, hsequence, hbelow⟩ := h.2.1 n hn
    refine ⟨hfault, ?_, fun c hc m hm k hk => ?_, h.2.2⟩
    · simp [Chunk.above, hsequence]
    · have hk' : n = k := Option.some.inj (hsequence.symm.trans hk)
      exact hk' ▸ hbelow c hc m hm
  · intro w x r w' _ h _ hact
    obtain rfl := congrArg Prod.snd (Option.some.inj hact)
    exact ⟨(frame_append w b labels _ fault).holder.trans h.1, trivial⟩

theorem triple_accumulate (sequence : Option ℕ) (data : List Byte) (fault : Bool) :
    outputProtocol.Triple t (Holds t (Latest sequence fault)) (accumulate ⟨sequence, data⟩ fault)
      fun _ => Holds t fun _ => True := by
  unfold accumulate
  refine Triple.bind (triple_locate sequence fault) fun found => ?_
  obtain _ | ⟨b, labels⟩ := found
  · exact Triple.done fun _ _ h => ⟨h.1, trivial⟩
  · refine (triple_append b labels sequence data fault).conseq (fun w _ h => ?_) fun _ _ h => h
    exact ⟨h.1, h.2.1, h.2.2 (b, labels) rfl⟩

theorem triple_ingest (data : List Byte) :
    outputProtocol.Triple t (Holds t fun _ => True) (ingest data)
      fun _ => Holds t fun _ => True := by
  unfold ingest
  refine Triple.bind triple_process fun processed => ?_
  obtain _ | ⟨open_, sequence, fault⟩ := processed
  · exact Triple.done fun _ _ h => ⟨h.1, trivial⟩
  · dsimp only
    split_ifs
    · have hacc := triple_accumulate (t := t) sequence data fault
      have hmap : outputProtocol.Triple t (Holds t (Latest sequence fault))
          (some <$> accumulate ⟨sequence, data⟩ fault) fun _ => Holds t fun _ => True :=
        Triple.bind hacc fun _ => Triple.done fun _ _ h => h
      exact hmap.conseq (fun w _ h => ⟨h.1, h.2 _ rfl⟩) fun _ _ h => h
    · exact Triple.done fun _ _ h => ⟨h.1, trivial⟩

theorem triple_handleOutput (data : List Byte) :
    outputProtocol.Triple t (Free t) (handleOutput data) fun _ => Free t := by
  unfold handleOutput
  refine Triple.bind (triple_easy rfl) fun leased => ?_
  split_ifs
  · refine Triple.bind triple_lock fun _ => ?_
    refine Triple.bind (triple_ingest data) fun accumulated => ?_
    refine Triple.bind (triple_unlock safe_true) fun _ => ?_
    have hend : outputProtocol.Triple t (Free t) (call .completeLease) fun _ => Free t :=
      triple_easy rfl
    obtain _ | _ | _ | _ | _ := accumulated
    · exact hend
    · exact hend
    · exact hend
    · exact Triple.bind (triple_easy rfl) fun _ => hend
    · exact Triple.bind (triple_flush false) fun _ => hend
  · exact Triple.done fun _ _ h => h

/-- The snapshot's sequence is the parser's. -/
def Seeding (seed : Option ℕ) (w : World) : Prop :=
  ∀ n, w.parser = some ⟨n, true⟩ → ∀ s ∈ seed, s = n

theorem safe_seeding (seed : Option ℕ) : Safe (Seeding seed) := by
  intro w w' h hs n hn
  rw [h.parser] at hn
  exact hs n hn

theorem snapshot_seeding (w : World) (copy : World.Copy) (seed : Option ℕ) (fault : Bool)
    (h : (w.snapshot copy).1 = .ok (seed, fault)) : Seeding seed (w.snapshot copy).2 := by
  intro n hn s hs
  unfold World.snapshot at h hn
  cases hparser : w.parser with
  | none => rw [hparser] at h; cases h
  | some state =>
    obtain ⟨k, available⟩ := state
    rw [hparser] at h hn
    cases available with
    | false =>
      obtain rfl := (Prod.mk.inj (Except.ok.inj h)).1
      cases hs
    | true =>
      cases copy with
      | seeded =>
        obtain rfl := (Prod.mk.inj (Except.ok.inj h)).1
        have hsk : k = s := Option.some.inj hs
        have hkn : w.parser = some ⟨n, true⟩ := hn
        rw [hparser] at hkn
        have hn' : k = n := by simpa using hkn
        omega
      | refused | panics =>
        obtain rfl := (Prod.mk.inj (Except.ok.inj h)).1
        cases hs
      | regrid panics =>
        cases panics <;> obtain rfl := (Prod.mk.inj (Except.ok.inj h)).1 <;> cases hs

theorem triple_snapshot : outputProtocol.Triple t (Holds t fun _ => True) (call .snapshot)
    fun (r : Except World.TerminalOutputAttachError (Option ℕ × Bool)) => Holds t fun w =>
      ∀ seed fault, r = .ok (seed, fault) → Seeding seed w := by
  refine Triple.call (stable_holds safe_true) (fun _ _ h => ⟨fun _ => h.1, trivial⟩) ?_
  intro w x r w' _ h _ hact
  obtain ⟨rfl, rfl⟩ := Prod.mk.inj (Option.some.inj hact)
  exact ⟨(frame_snapshot w x.copy).holder.trans h.1, snapshot_seeding w x.copy⟩

/-- The batch found under the map lock may be flushed to the windows attached by then. -/
def Coverable (b : BatchId) (labels : Finset WindowLabel) (w : World) : Prop :=
  ∀ n, w.parser = some ⟨n, true⟩ → w.Covers b labels

theorem safe_coverable (b : BatchId) (labels : Finset WindowLabel) : Safe (Coverable b labels) := by
  intro w w' h hc n hn label s hs
  rw [h.parser] at hn
  obtain hl | hold := hc n hn label s (h.seeds label hs)
  · exact Or.inl hl
  · exact Or.inr fun c hm => hold c (h.contents b hm)

theorem attach_coverable {w : World} (h : w.Inv) (label : WindowLabel) (seed : Option ℕ)
    (hseed : Seeding seed w) :
    ∀ p ∈ (w.attach label seed).1, Coverable p.1 p.2 (w.attach label seed).2 := by
  intro p hp n hn other s hs
  obtain ⟨b, _, rfl⟩ := Option.map_eq_some_iff.mp hp
  by_cases hother : other = label
  · subst hother
    have hs' : s ∈ seed.toList ++ w.seeds other := by simpa [World.attach] using hs
    obtain hs' | hs' := List.mem_append.mp hs'
    · obtain rfl := hseed n hn s (by simpa using hs')
      exact Or.inr fun c hc => (h.inOrder s hn).bounded.contents b c hc
    · exact Or.inl (h.seeded other s hs')
  · exact Or.inl (h.seeded other s (by simpa [World.attach, hother] using hs))

theorem triple_attach (label : WindowLabel) (seed : Option ℕ) :
    outputProtocol.Triple t (Holds t (Seeding seed)) (attach label seed)
      fun _ => Holds t fun _ => True := by
  unfold attach
  have hattach : outputProtocol.Triple t (Holds t (Seeding seed)) (call (.attach label seed))
      fun (r : Option (BatchId × Finset WindowLabel)) => Holds t fun w =>
        ∀ p ∈ r, Coverable p.1 p.2 w := by
    refine Triple.call (stable_holds (safe_seeding seed)) (fun _ _ h => ⟨fun _ => h.1, h.2⟩) ?_
    intro w x r w' hw h _ hact
    obtain ⟨rfl, rfl⟩ := Prod.mk.inj (Option.some.inj hact)
    exact ⟨h.1, attach_coverable hw label seed h.2⟩
  refine Triple.bind hattach fun pending => ?_
  obtain _ | ⟨b, labels⟩ := pending
  · exact Triple.done fun _ _ h => ⟨h.1, trivial⟩
  · have hflush : outputProtocol.Triple t (Holds t (Coverable b labels))
        (call (.flushPending b labels)) fun _ => Holds t fun _ => True := by
      refine Triple.call (stable_holds (safe_coverable b labels))
        (fun _ _ h => ⟨fun _ => h.1, h.2⟩) ?_
      intro w x r w' _ h _ hact
      obtain rfl := congrArg Prod.snd (Option.some.inj hact)
      exact ⟨h.1, trivial⟩
    exact hflush.conseq (fun w _ h => ⟨h.1, h.2 _ rfl⟩) fun _ _ h => h

theorem triple_activate (label : WindowLabel) :
    outputProtocol.Triple t (Free t) (activateTerminalOutput label) fun _ => Free t := by
  unfold activateTerminalOutput
  refine Triple.bind triple_lock fun _ => ?_
  refine Triple.bind triple_snapshot fun copied => ?_
  obtain e | ⟨seed, fault⟩ := copied
  · exact (triple_unlock safe_true).conseq (fun _ _ h => ⟨h.1, trivial⟩) fun _ _ h => h
  · refine Triple.bind ((triple_attach label seed).conseq
      (fun w _ h => ⟨h.1, h.2 seed fault rfl⟩) fun _ _ h => h) fun _ => ?_
    refine Triple.bind (triple_unlock safe_true) fun _ => ?_
    split_ifs
    · exact triple_flush false
    · exact Triple.done fun _ _ h => h

theorem orphan_of_detach {w : World} (h : w.Inv) (label : WindowLabel) :
    ∀ b ∈ (w.detach label).1, (w.detach label).2.Orphan b := by
  intro b hb
  unfold World.detach at hb ⊢
  dsimp only at hb ⊢
  split_ifs at hb ⊢
  · exact ⟨h.known b hb, fun hnone => nomatch hnone⟩
  · cases hb
  · cases hb

/-- A thread that found an orphan may discard it, with or without the lock. -/
theorem triple_discardOrphaned {A : World → Prop} (hA : outputProtocol.Stable t A)
    (hkeep : ∀ w b, A w → A (w.discard b)) (orphaned : Option BatchId) :
    outputProtocol.Triple t (fun w => A w ∧ ∀ b ∈ orphaned, w.Orphan b)
      (discardOrphaned orphaned) fun _ => A := by
  unfold discardOrphaned
  obtain _ | b := orphaned
  · exact Triple.done fun _ _ h => h.1
  · have hdiscard : outputProtocol.Triple t (fun (w : World) => A w ∧ w.Orphan b)
        (call (.discard b)) fun _ => A := by
      refine Triple.call ?_ (fun w _ h => ⟨(fun hlocked => nomatch hlocked), h.2⟩) ?_
      · exact fun w w' hi hi' hr h => ⟨hA w w' hi hi' hr h.1, hr.orphans b h.2⟩
      · intro w x r w' _ h _ hact
        obtain rfl := congrArg Prod.snd (Option.some.inj hact)
        exact hkeep w b h.1
    exact hdiscard.conseq (fun w _ h => ⟨h.1, h.2 b rfl⟩) fun _ _ h => h

theorem triple_detach (label : WindowLabel) :
    outputProtocol.Triple t (Free t) (detach label) fun _ => Free t := by
  have hdetach : outputProtocol.Triple t (Free t) (call (.detach label))
      fun (r : Option BatchId) w => Free t w ∧ ∀ b ∈ r, w.Orphan b := by
    refine Triple.call stable_free (fun w _ _ => mayAct_easy rfl w) ?_
    intro w x r w' hw h _ hact
    obtain ⟨rfl, rfl⟩ := Prod.mk.inj (Option.some.inj hact)
    have hholder : (World.detach w label).2.holder = w.holder := (sheltered_detach hw label).holder
    exact ⟨fun hheld => h (hholder.symm.trans hheld), orphan_of_detach hw label⟩
  exact Triple.bind hdetach fun orphaned =>
    triple_discardOrphaned stable_free (fun _ _ h => h) orphaned

theorem triple_resizeScreen : outputProtocol.Triple t (Free t) resizeScreen fun _ => Free t := by
  unfold resizeScreen
  refine Triple.bind triple_lock fun _ => ?_
  have hresize : outputProtocol.Triple t (Holds t fun _ => True) (call .resize)
      fun _ => Holds t fun _ => True := by
    refine Triple.call (stable_holds safe_true) (fun _ _ h => ⟨fun _ => h.1, trivial⟩) ?_
    intro w x r w' _ h _ hact
    obtain rfl := congrArg Prod.snd (Option.some.inj hact)
    exact ⟨(frame_resize w x.panics).holder.trans h.1, trivial⟩
  refine Triple.bind hresize fun fault => ?_
  refine Triple.bind (triple_unlock safe_true) fun _ => ?_
  split_ifs
  · exact triple_flush false
  · exact Triple.done fun _ _ h => h

/-- An action under the lock that leaves the lock as it is. -/
theorem triple_held {o : Act} (hframed : o.framed = true) (hready : ∀ w, o.ready w) :
    outputProtocol.Triple t (Holds t fun _ => True) (call o) fun _ => Holds t fun _ => True := by
  refine Triple.call (stable_holds safe_true) (fun w _ h => ⟨fun _ => h.1, hready w⟩) ?_
  intro w x r w' _ h _ hact
  have hframe : w.Frame w' := frame_act hframed hact
  exact ⟨hframe.holder.trans h.1, trivial⟩

theorem triple_removeSession : outputProtocol.Triple t (Free t) removeSession fun _ => Free t := by
  unfold removeSession
  refine Triple.bind triple_lock fun _ => ?_
  refine Triple.bind (triple_held rfl fun _ => trivial) fun present => ?_
  refine Triple.bind (triple_unlock safe_true) fun _ => ?_
  split_ifs
  · refine Triple.bind (triple_easy rfl) fun _ => ?_
    refine Triple.bind triple_lock fun _ => ?_
    refine Triple.bind (triple_held rfl fun _ => trivial) fun removed => ?_
    have hremove : outputProtocol.Triple t (Holds t fun _ => True) (call .removeAttachments)
        fun (r : Option BatchId) w => Holds t (fun _ => True) w ∧ ∀ b ∈ r, w.Orphan b := by
      refine Triple.call (stable_holds safe_true) (fun _ _ h => ⟨fun _ => h.1, trivial⟩) ?_
      intro w x r w' hw h _ hact
      obtain ⟨rfl, rfl⟩ := Prod.mk.inj (Option.some.inj hact)
      exact ⟨⟨h.1, trivial⟩, fun b hb => ⟨hw.known b hb, fun hnone => nomatch hnone⟩⟩
    have hunlock : outputProtocol.Triple t (Holds t fun _ => True) (call .unlockParsers)
        fun _ => Free t := triple_unlock safe_true
    split_ifs
    · refine Triple.bind hremove fun orphaned => ?_
      exact Triple.bind (triple_discardOrphaned (stable_holds safe_true) (fun _ _ h => h)
        orphaned) fun _ => hunlock
    · exact hunlock
  · exact Triple.done fun _ _ h => h

theorem triple_starts {p : OutputProgram Unit} (h : Starts t p) :
    outputProtocol.Triple t (outputProtocol.Idle t) p fun _ => outputProtocol.Idle t := by
  cases h with
  | handleOutput data => exact triple_handleOutput data
  | timerFlush => exact Triple.bind (triple_easy rfl) fun _ => triple_flush true
  | activate label => exact triple_activate label
  | detach label => exact triple_detach label
  | releaseWindow label => exact triple_detach label
  | resizeScreen => exact triple_resizeScreen
  | removeSession => exact triple_removeSession

end Programs
end AgentsCommander.Output
