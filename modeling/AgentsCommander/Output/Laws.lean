import AgentsCommander.Output.Interleavings

/-! What every window has received in every configuration the fan-out can reach. -/
namespace AgentsCommander.Output
open Foundation Platform

/-- A window attached since it was seeded has the bytes of every later chunk that was flushed, in
order and once; what it does not have yet is still in the current batch. -/
structure ReceiptLaw (w : World) : Prop where
  described : ∀ label, ∀ d ∈ w.sent label,
    Describes d.payload.data d.payload.sequence d.chunks
  ordered : w.ingested.Pairwise World.Before
  received : ∀ label, ∀ s ∈ w.seeds label,
    bytesAbove s (w.received label) = bytesAbove s w.flushed
  settled : ∀ label, ∀ s ∈ w.seeds label, w.ingested.filter (Chunk.above s) =
    w.flushed.filter (Chunk.above s) ++ w.pending.filter (Chunk.above s)

def World.ParserAvailable (w : World) : Prop := ∃ n, w.parser = some ⟨n, true⟩

theorem receiptLaw_run {c : outputPlatform.Conf}
    (h : Reaches timelyLabels (quiet World.registered) c) (ha : c.shared.ParserAvailable) :
    ReceiptLaw c.shared := by
  have hinv : c.shared.Inv :=
    outputProtocol.inv_of_reaches (fun t p hp => triple_starts hp) World.inv_registered
      (fun _ hheld => nomatch hheld) h
  obtain ⟨n, hn⟩ := ha
  have ho := hinv.inOrder n hn
  exact
    { described := hinv.delivered
      ordered := ho.ordered
      received := fun label s hs => (ho.reconciled label s hs).received
      settled := fun label s hs => (ho.reconciled label s hs).settled }

def reader : outputPlatform.Thread := (1 : ℕ)
def sleeper : outputPlatform.Thread := (2 : ℕ)

/-- Nothing panics and every snapshot can be copied. -/
def smooth : outputPlatform.Choice := (⟨false, .seeded⟩ : Choice)

def always : outputPlatform.Thread → Act → outputPlatform.Choice → World → Bool :=
  fun _ _ _ _ => true

/-- No flush. -/
def noDrain : outputPlatform.Thread → Act → outputPlatform.Choice → World → Bool
  | _, .drain _ _ _, _, _ => false
  | _, _, _, _ => true

theorem noDrain_timely (t : outputPlatform.Thread) (o : Act) (x : outputPlatform.Choice)
    (w : World) (h : noDrain t o x w = true) : timelyLabels t o x w := by
  cases o with
  | drain b labels fromTimer => cases h
  | _ => trivial

theorem receiptLaw_run_attach : ∃ c : outputPlatform.Conf,
    Reaches timelyLabels (quiet World.registered) c ∧ c.shared.ParserAvailable ∧
    bytesAbove 0 (c.shared.received "main") = [97] ∧ ReceiptLaw c.shared := by
  have hruns : ((outputPlatform.run noDrain reader (activateTerminalOutput "main")
        (List.replicate 4 smooth) World.registered).bind fun w₁ =>
      (outputPlatform.run noDrain reader (handleOutput [97]) (List.replicate 8 smooth) w₁).bind
        fun w₂ =>
      (outputPlatform.run noDrain reader (activateTerminalOutput "detached")
        (List.replicate 5 smooth) w₂).map fun w₃ =>
        (w₃.parser, bytesAbove 0 (w₃.received "main"))) = some (some ⟨1, true⟩, [97]) := by
    decide +kernel
  obtain ⟨w₁, h₁, hrest⟩ := Option.bind_eq_some_iff.mp hruns
  obtain ⟨w₂, h₂, hrest⟩ := Option.bind_eq_some_iff.mp hrest
  obtain ⟨w₃, h₃, hend⟩ := Option.map_eq_some_iff.mp hrest
  obtain ⟨hparser, hreceived⟩ := Prod.mk.inj hend
  have r₁ := reaches_run noDrain_timely (.activate reader "main") h₁
  have r₂ := reaches_run noDrain_timely (.handleOutput reader [97]) h₂
  have r₃ := reaches_run noDrain_timely (.activate reader "detached") h₃
  have hreach := (r₁.trans r₂).trans r₃
  exact ⟨quiet w₃, hreach, ⟨1, hparser⟩, hreceived, receiptLaw_run hreach ⟨1, hparser⟩⟩

/-- A timer reads its labels and is preempted; a second window attaches and a chunk arrives before
it drains the batch. -/
theorem overtaken_timer :
    ((outputPlatform.run always reader (activateTerminalOutput "main") (List.replicate 4 smooth)
        World.registered).bind fun w₁ =>
      (outputPlatform.run always reader (handleOutput [97]) (List.replicate 8 smooth) w₁).bind
        fun w₂ =>
      (outputPlatform.walk always sleeper timerFlush (List.replicate 2 smooth) w₂).bind
        fun left =>
      (outputPlatform.run always reader (activateTerminalOutput "detached")
        (List.replicate 5 smooth) left.2).bind fun w₄ =>
      (outputPlatform.run always reader (handleOutput [98]) (List.replicate 7 smooth) w₄).bind
        fun w₅ =>
      (outputPlatform.run always sleeper left.1 [smooth] w₅).map fun w₆ =>
        (w₆.parser, w₆.seeds "detached", bytesAbove 1 w₆.flushed,
          bytesAbove 1 (w₆.received "detached"))) =
      some (some ⟨2, true⟩, [1], [98], []) := by
  decide +kernel

theorem not_receiptLaw : ¬ ∀ c : outputPlatform.Conf, Reaches anything (quiet World.registered) c →
    World.ParserAvailable c.shared → ReceiptLaw c.shared := by
  intro hlaw
  obtain ⟨w₁, h₁, hrest⟩ := Option.bind_eq_some_iff.mp overtaken_timer
  obtain ⟨w₂, h₂, hrest⟩ := Option.bind_eq_some_iff.mp hrest
  obtain ⟨⟨p, w₃⟩, h₃, hrest⟩ := Option.bind_eq_some_iff.mp hrest
  obtain ⟨w₄, h₄, hrest⟩ := Option.bind_eq_some_iff.mp hrest
  obtain ⟨w₅, h₅, hrest⟩ := Option.bind_eq_some_iff.mp hrest
  obtain ⟨w₆, h₆, hend⟩ := Option.map_eq_some_iff.mp hrest
  simp only [Prod.mk.injEq] at hend
  obtain ⟨hparser, hseeds, hflushed, hreceived⟩ := hend
  have hany : ∀ t o x w, always t o x w = true → anything (P := outputPlatform) t o x w :=
    fun _ _ _ _ _ => trivial
  let c₁ : outputPlatform.Conf := (quiet World.registered : outputPlatform.Conf).set reader none w₁
  let c₂ := c₁.set reader none w₂
  let c₃ := c₂.set sleeper (some p) w₃
  let c₄ := c₃.set reader none w₄
  let c₅ := c₄.set reader none w₅
  have hother : reader ≠ sleeper := fun h : (1 : ℕ) = 2 => nomatch h
  have r₁ : Reaches anything (quiet World.registered) c₁ :=
    reaches_turn hany rfl (.activate reader "main") h₁
  have r₂ : Reaches anything c₁ c₂ :=
    reaches_turn hany (Conf.set_threads_self _ _ _ _) (.handleOutput reader [97]) h₂
  have hidle : c₂.threads sleeper = none := by
    rw [Conf.set_threads_ne _ _ _ hother.symm, Conf.set_threads_ne _ _ _ hother.symm]
    rfl
  have r₃ : Reaches anything c₂ c₃ := reaches_pause hany hidle (.timerFlush sleeper) h₃
  have hrest₃ : c₃.threads reader = none := by
    rw [Conf.set_threads_ne _ _ _ hother]
    exact Conf.set_threads_self _ _ _ _
  have r₄ : Reaches anything c₃ c₄ :=
    reaches_turn hany hrest₃ (.activate reader "detached") h₄
  have r₅ : Reaches anything c₄ c₅ :=
    reaches_turn hany (Conf.set_threads_self _ _ _ _) (.handleOutput reader [98]) h₅
  have hleft : c₅.threads sleeper = some p := by
    rw [Conf.set_threads_ne _ _ _ hother.symm, Conf.set_threads_ne _ _ _ hother.symm]
    exact Conf.set_threads_self _ _ _ _
  have r₆ : Reaches anything c₅ (c₅.set sleeper none w₆) := reaches_resume hany hleft h₆
  have hreach := ((((r₁.trans r₂).trans r₃).trans r₄).trans r₅).trans r₆
  have hreceipt := (hlaw _ hreach ⟨2, hparser⟩).received "detached" 1 (by
    change 1 ∈ w₆.seeds "detached"
    rw [hseeds]
    exact List.mem_singleton_self 1)
  change bytesAbove 1 (w₆.received "detached") = bytesAbove 1 w₆.flushed at hreceipt
  rw [hreceived, hflushed] at hreceipt
  cases hreceipt

end AgentsCommander.Output
