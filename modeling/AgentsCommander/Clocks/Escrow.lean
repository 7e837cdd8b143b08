import AgentsCommander.Clocks.Convergence

/-! The creates of one coordinator: each clears the close markers into an escrow that all in flight
share, and the last to fail puts back what is in it. What becomes of the close markers over every
interleaving of creates and marks. -/
namespace AgentsCommander.Clocks
open Foundation

def ClockEntry.closeMarkers (entry : ClockEntry) : ClearedCloseMarkers :=
  ⟨entry.autoClosedAt, entry.manuallyClosedAt⟩

namespace CoordinatorClocks
variable (clocks : CoordinatorClocks) (fqn : String)

def closeMarkers : ClearedCloseMarkers := ⟨clocks.autoClosedAt fqn, clocks.manuallyClosedAt fqn⟩

/-- `note_coordinator_create_on_app` under the clocks lock, and what it clears. -/
def noteCoordinatorCreate (now : DateTime) : CoordinatorClocks × ClearedCloseMarkers :=
  let seeded := clocks.seedIfAbsent fqn now
  let autoBefore := seeded.1.autoClosedAt fqn
  let manualBefore := seeded.1.manuallyClosedAt fqn
  let auto := seeded.1.clearAutoClosed fqn
  let manual := auto.1.clearManuallyClosed fqn
  let cleared : ClearedCloseMarkers :=
    ⟨autoBefore.filter fun _ => auto.2, manualBefore.filter fun _ => manual.2⟩
  (manual.1.beginCoordinatorCreate fqn cleared, cleared)

/-- `CoordinatorCreateTicket::finish_failed` under the clocks lock, and what it puts back. -/
def finishFailed : CoordinatorClocks × ClearedCloseMarkers :=
  let ended := clocks.finishCoordinatorCreate fqn false
  let escrow := ended.2.getD .default
  let manual := Markers.remark (ended.1.markManuallyClosed fqn) ended.1 escrow.manuallyClosedAt
  let auto := Markers.remark (manual.1.markAutoClosed fqn) manual.1 escrow.autoClosedAt
  (auto.1, ⟨escrow.autoClosedAt.filter fun _ => auto.2,
    escrow.manuallyClosedAt.filter fun _ => manual.2⟩)

end CoordinatorClocks

/-- `tickets`: the creates in flight, each with its spawn fence. -/
structure Creates where
  clocks : CoordinatorClocks
  tickets : AList fun _ : ℕ => Bool

inductive CreatesEvent where
  | noteCoordinatorCreate (ticket : ℕ) (now : DateTime)
  | sessionMayExist (ticket : ℕ)
  | succeeded (ticket : ℕ)
  /-- Also the drop of a ticket that was not ended. -/
  | failed (ticket : ℕ)
  | markAutoClosed (now : DateTime)
  | markManuallyClosed (now : DateTime)

inductive CreatesAnswer where
  | noted (cleared : ClearedCloseMarkers)
  /-- A create ended well, or past its fence. -/
  | ended
  /-- A create failed before its fence; what it put back. -/
  | restored (markers : ClearedCloseMarkers)
  | marked (changed : Bool)
  | ignored
  deriving DecidableEq

namespace Creates
variable (fqn : String) (s : Creates)

def atRest (clocks : CoordinatorClocks) : Creates := ⟨clocks, ∅⟩

def finishOk (ticket : ℕ) : Creates :=
  ⟨(s.clocks.finishCoordinatorCreate fqn true).1, s.tickets.erase ticket⟩

def mark (marked : CoordinatorClocks × Bool) : Creates × CreatesAnswer :=
  (⟨marked.1, s.tickets⟩, .marked marked.2)

def step : CreatesEvent → Creates × CreatesAnswer
  | .noteCoordinatorCreate ticket now => match s.tickets.lookup ticket with
    | none =>
      let noted := s.clocks.noteCoordinatorCreate fqn now
      (⟨noted.1, s.tickets.insert ticket false⟩, .noted noted.2)
    | some _ => (s, .ignored)
  | .sessionMayExist ticket =>
    (⟨s.clocks, Assoc.adjust s.tickets ticket fun _ => true⟩, .ignored)
  | .succeeded ticket => match s.tickets.lookup ticket with
    | some _ => (s.finishOk fqn ticket, .ended)
    | none => (s, .ignored)
  | .failed ticket => match s.tickets.lookup ticket with
    | some true => (s.finishOk fqn ticket, .ended)
    | some false =>
      let failed := s.clocks.finishFailed fqn
      (⟨failed.1, s.tickets.erase ticket⟩, .restored failed.2)
    | none => (s, .ignored)
  | .markAutoClosed now => s.mark (s.clocks.markAutoClosed fqn now)
  | .markManuallyClosed now => s.mark (s.clocks.markManuallyClosed fqn now)

end Creates

def creates (fqn : String) : Machine Creates CreatesEvent CreatesAnswer := ⟨Creates.step fqn⟩

namespace ClearedCloseMarkers
variable (m escrow : ClearedCloseMarkers) (now : DateTime)

def marker : Channel → Option DateTime
  | .auto => m.autoClosedAt
  | .manual => m.manuallyClosedAt

/-- At most one is set. -/
def Exclusive : Prop := m.autoClosedAt = none ∨ m.manuallyClosedAt = none

def markAuto : ClearedCloseMarkers × Bool :=
  if m.manuallyClosedAt.isSome then (m, false)
  else if m.autoClosedAt.isSome then (m, false)
  else (⟨some now, m.manuallyClosedAt⟩, true)

def markManual : ClearedCloseMarkers × Bool :=
  if m.manuallyClosedAt.isSome then (m, false) else (⟨none, some now⟩, true)

/-- Put into the escrow: a marker replaces the one that was there. -/
def replacing : ClearedCloseMarkers :=
  ⟨m.autoClosedAt <|> escrow.autoClosedAt, m.manuallyClosedAt <|> escrow.manuallyClosedAt⟩

/-- Put back what is in escrow, the manual marker first; and what was put back. -/
def restore : ClearedCloseMarkers × ClearedCloseMarkers :=
  let manual := escrow.manuallyClosedAt.elim (m, false) m.markManual
  let auto := escrow.autoClosedAt.elim (manual.1, false) manual.1.markAuto
  (auto.1, ⟨escrow.autoClosedAt.filter fun _ => auto.2,
    escrow.manuallyClosedAt.filter fun _ => manual.2⟩)

end ClearedCloseMarkers

/-- The markers, what is in escrow, and how many creates are in flight. -/
structure Held where
  closed : ClearedCloseMarkers
  escrow : ClearedCloseMarkers
  flight : ℕ

def Creates.held (fqn : String) (s : Creates) : Held :=
  ⟨s.clocks.closeMarkers fqn, (s.clocks.ledger fqn).escrow, (s.clocks.ledger fqn).active⟩

inductive Held.Moves : Held → CreatesAnswer → Held → Prop
  | noted (h : Held) :
    Moves h (.noted h.closed) ⟨.default, h.closed.replacing h.escrow, h.flight + 1⟩
  | ended (closed escrow : ClearedCloseMarkers) (flight : ℕ) :
    Moves ⟨closed, escrow, flight + 1⟩ .ended ⟨closed, .default, flight⟩
  | handedOn (closed escrow : ClearedCloseMarkers) (flight : ℕ) :
    Moves ⟨closed, escrow, flight + 2⟩ (.restored .default) ⟨closed, escrow, flight + 1⟩
  | restored (closed escrow : ClearedCloseMarkers) :
    Moves ⟨closed, escrow, 1⟩ (.restored (closed.restore escrow).2)
      ⟨(closed.restore escrow).1, .default, 0⟩
  | markAuto (h : Held) (now : DateTime) :
    Moves h (.marked (h.closed.markAuto now).2) { h with closed := (h.closed.markAuto now).1 }
  | markManual (h : Held) (now : DateTime) :
    Moves h (.marked (h.closed.markManual now).2) { h with closed := (h.closed.markManual now).1 }
  | ignored (h : Held) : Moves h .ignored h

/-- After the last time a create ended well a create cleared this marker. -/
def ClearedSince (log : List CreatesAnswer) (channel : Channel) (t : DateTime) : Prop :=
  ∃ before cleared since, log = before ++ .noted cleared :: since ∧
    cleared.marker channel = some t ∧ .ended ∉ since

namespace ClearedCloseMarkers
variable {m escrow : ClearedCloseMarkers}

theorem exclusive_default : Exclusive .default := Or.inl rfl

theorem Exclusive.markAuto (h : m.Exclusive) (now : DateTime) : (m.markAuto now).1.Exclusive := by
  unfold ClearedCloseMarkers.markAuto
  split_ifs with hmanual
  · exact h
  · exact h
  · exact Or.inr (Option.not_isSome_iff_eq_none.mp hmanual)

theorem Exclusive.markManual (h : m.Exclusive) (now : DateTime) :
    (m.markManual now).1.Exclusive := by
  unfold ClearedCloseMarkers.markManual
  split_ifs
  · exact h
  · exact Or.inl rfl

theorem Exclusive.restore (h : m.Exclusive) (escrow : ClearedCloseMarkers) :
    (m.restore escrow).1.Exclusive := by
  have hmanual : (escrow.manuallyClosedAt.elim (m, false) m.markManual).1.Exclusive := by
    cases escrow.manuallyClosedAt with
    | none => exact h
    | some t => exact h.markManual t
  unfold ClearedCloseMarkers.restore
  dsimp only
  cases escrow.autoClosedAt with
  | none => exact hmanual
  | some t => exact hmanual.markAuto t

theorem markAuto_of_false {now : DateTime} (h : (m.markAuto now).2 = false) :
    (m.markAuto now).1 = m := by
  unfold ClearedCloseMarkers.markAuto at h ⊢
  split_ifs at h ⊢ <;> rfl

theorem markManual_of_false {now : DateTime} (h : (m.markManual now).2 = false) :
    (m.markManual now).1 = m := by
  unfold ClearedCloseMarkers.markManual at h ⊢
  split_ifs at h ⊢
  rfl

/-- A marker that is put back was in escrow. -/
theorem marker_of_restore {channel : Channel} {t : DateTime}
    (h : (m.restore escrow).2.marker channel = some t) : escrow.marker channel = some t := by
  cases channel with
  | auto => exact (Option.filter_eq_some_iff.mp h).1
  | manual => exact (Option.filter_eq_some_iff.mp h).1

/-- Where none is set all are put back. -/
theorem restore_default (h : escrow.Exclusive) : (default.restore escrow).1 = escrow := by
  obtain ⟨auto, manual⟩ := escrow
  obtain rfl | rfl := h
  · cases manual <;> rfl
  · cases auto <;> rfl

@[simp] theorem replacing_default (m : ClearedCloseMarkers) : m.replacing .default = m := by
  obtain ⟨auto, manual⟩ := m
  cases auto <;> cases manual <;> rfl

@[simp] theorem default_replacing (escrow : ClearedCloseMarkers) :
    ClearedCloseMarkers.default.replacing escrow = escrow := rfl

theorem marker_of_replacing {channel : Channel} {t : DateTime}
    (h : (m.replacing escrow).marker channel = some t) :
    m.marker channel = some t ∨ escrow.marker channel = some t := by
  have horElse : ∀ x y : Option DateTime, (x <|> y) = some t → x = some t ∨ y = some t := by
    intro x y hxy
    cases x with
    | none => exact Or.inr hxy
    | some _ => exact Or.inl hxy
  cases channel with
  | auto => exact horElse _ _ h
  | manual => exact horElse _ _ h

end ClearedCloseMarkers

namespace CoordinatorClocks
variable {clocks : CoordinatorClocks} {fqn : String}

theorem closeMarkers_put (entry : ClockEntry) :
    (clocks.put fqn entry).closeMarkers fqn = entry.closeMarkers :=
  congrArg₂ ClearedCloseMarkers.mk (marker_put entry .auto) (marker_put entry .manual)

theorem closeMarkers_entry : clocks.closeMarkers fqn = (clocks.entry fqn).closeMarkers :=
  congrArg₂ ClearedCloseMarkers.mk autoClosedAt_entry.symm manuallyClosedAt_entry.symm

theorem closeMarkers_of_map {other : CoordinatorClocks} (h : other.map = clocks.map) :
    other.closeMarkers fqn = clocks.closeMarkers fqn :=
  congrArg₂ ClearedCloseMarkers.mk (marker_of_map h .auto) (marker_of_map h .manual)

/-- A mark does to the markers of a coordinator what it says, and nothing to the ledgers. -/
structure Marks (fqn : String) (clocks : CoordinatorClocks) (marked : CoordinatorClocks × Bool)
    (m : ClearedCloseMarkers × Bool) : Prop where
  closed : marked.1.closeMarkers fqn = m.1
  changed : marked.2 = m.2
  creates : marked.1.creates = clocks.creates

theorem marks_auto (clocks : CoordinatorClocks) (fqn : String) (now : DateTime) :
    Marks fqn clocks (clocks.markAutoClosed fqn now)
      ((clocks.closeMarkers fqn).markAuto now) := by
  have hmark : (clocks.entry fqn).closeMarkers.markAuto now =
      if (clocks.entry fqn).manuallyClosedAt.isSome then ((clocks.entry fqn).closeMarkers, false)
      else if (clocks.entry fqn).autoClosedAt.isSome then ((clocks.entry fqn).closeMarkers, false)
      else (⟨some now, (clocks.entry fqn).manuallyClosedAt⟩, true) := rfl
  rw [closeMarkers_entry, hmark]
  unfold markAutoClosed
  dsimp only
  split_ifs
  · exact ⟨closeMarkers_entry, rfl, rfl⟩
  · exact ⟨closeMarkers_entry, rfl, rfl⟩
  · exact ⟨closeMarkers_put _, rfl, rfl⟩

theorem marks_manual (clocks : CoordinatorClocks) (fqn : String) (now : DateTime) :
    Marks fqn clocks (clocks.markManuallyClosed fqn now)
      ((clocks.closeMarkers fqn).markManual now) := by
  have hmark : (clocks.entry fqn).closeMarkers.markManual now =
      if (clocks.entry fqn).manuallyClosedAt.isSome then ((clocks.entry fqn).closeMarkers, false)
      else (⟨none, some now⟩, true) := rfl
  rw [closeMarkers_entry, hmark]
  unfold markManuallyClosed
  dsimp only
  split_ifs
  · exact ⟨closeMarkers_entry, rfl, rfl⟩
  · exact ⟨closeMarkers_put _, rfl, rfl⟩

theorem closeMarkers_seedIfAbsent (now : DateTime) :
    (clocks.seedIfAbsent fqn now).1.closeMarkers fqn = clocks.closeMarkers fqn ∧
      (clocks.seedIfAbsent fqn now).1.creates = clocks.creates := by
  unfold seedIfAbsent
  split_ifs with hsome
  · exact ⟨rfl, rfl⟩
  · have hentry : clocks.entry fqn = .default := by
      rw [entry, Option.not_isSome_iff_eq_none.mp hsome]
      rfl
    rw [closeMarkers_put, closeMarkers_entry, hentry]
    exact ⟨rfl, rfl⟩

/-- A clear of what is not set leaves the markers as they are. -/
theorem clear_spec {marked : ClockEntry → Bool} {cleared : ClockEntry → ClockEntry}
    (hdefault : marked .default = false)
    (hunmarked : ∀ entry, marked entry = false →
      (cleared entry).closeMarkers = entry.closeMarkers) :
    (clocks.clear fqn marked cleared).1.closeMarkers fqn =
        (cleared (clocks.entry fqn)).closeMarkers ∧
      (clocks.clear fqn marked cleared).2 = marked (clocks.entry fqn) ∧
      (clocks.clear fqn marked cleared).1.creates = clocks.creates := by
  unfold clear
  cases hlookup : clocks.map.lookup fqn with
  | none =>
    have hentry : clocks.entry fqn = .default := by
      rw [entry, hlookup]
      rfl
    refine ⟨?_, (hentry ▸ hdefault).symm, rfl⟩
    rw [closeMarkers_entry, hunmarked _ (hentry ▸ hdefault)]
  | some stored =>
    obtain rfl : clocks.entry fqn = stored := by
      rw [entry, hlookup]
      rfl
    dsimp only
    split_ifs with hset
    · exact ⟨closeMarkers_put _, hset.symm, rfl⟩
    · rw [Bool.not_eq_true] at hset
      exact ⟨closeMarkers_entry.trans (hunmarked _ hset).symm, hset.symm, rfl⟩

theorem clearAutoClosed_spec (clocks : CoordinatorClocks) (fqn : String) :
    (clocks.clearAutoClosed fqn).1.closeMarkers fqn = ⟨none, clocks.manuallyClosedAt fqn⟩ ∧
      (clocks.clearAutoClosed fqn).2 = (clocks.autoClosedAt fqn).isSome ∧
      (clocks.clearAutoClosed fqn).1.creates = clocks.creates := by
  obtain ⟨hclosed, hchanged, hcreates⟩ := @clear_spec clocks fqn (·.autoClosedAt.isSome)
    (fun entry => { entry with autoClosedAt := none }) rfl fun entry hnone => by
      rw [ClockEntry.closeMarkers, ClockEntry.closeMarkers,
        Option.not_isSome_iff_eq_none.mp (ne_true_of_eq_false hnone)]
  refine ⟨hclosed.trans ?_, hchanged.trans (congrArg Option.isSome autoClosedAt_entry), hcreates⟩
  exact congrArg (ClearedCloseMarkers.mk none) manuallyClosedAt_entry

theorem clearManuallyClosed_spec (clocks : CoordinatorClocks) (fqn : String) :
    (clocks.clearManuallyClosed fqn).1.closeMarkers fqn = ⟨clocks.autoClosedAt fqn, none⟩ ∧
      (clocks.clearManuallyClosed fqn).2 = (clocks.manuallyClosedAt fqn).isSome ∧
      (clocks.clearManuallyClosed fqn).1.creates = clocks.creates := by
  obtain ⟨hclosed, hchanged, hcreates⟩ := @clear_spec clocks fqn (·.manuallyClosedAt.isSome)
    (fun entry => { entry with manuallyClosedAt := none }) rfl fun entry hnone => by
      rw [ClockEntry.closeMarkers, ClockEntry.closeMarkers,
        Option.not_isSome_iff_eq_none.mp (ne_true_of_eq_false hnone)]
  refine ⟨hclosed.trans ?_, hchanged.trans (congrArg Option.isSome manuallyClosedAt_entry),
    hcreates⟩
  exact congrArg (ClearedCloseMarkers.mk · none) autoClosedAt_entry

theorem ledger_of_creates {other : CoordinatorClocks} (h : other.creates = clocks.creates) :
    other.ledger fqn = clocks.ledger fqn := by
  rw [ledger, ledger, h]

theorem noteCoordinatorCreate_spec (clocks : CoordinatorClocks) (fqn : String) (now : DateTime) :
    (clocks.noteCoordinatorCreate fqn now).1.closeMarkers fqn = .default ∧
      (clocks.noteCoordinatorCreate fqn now).2 = clocks.closeMarkers fqn ∧
      (clocks.noteCoordinatorCreate fqn now).1.creates.lookup fqn =
        some ⟨(clocks.ledger fqn).active + 1,
          (clocks.closeMarkers fqn).replacing (clocks.ledger fqn).escrow⟩ := by
  obtain ⟨hseeded, hledgers⟩ := @closeMarkers_seedIfAbsent clocks fqn now
  unfold noteCoordinatorCreate
  dsimp only
  generalize (clocks.seedIfAbsent fqn now).1 = seeded at hseeded hledgers ⊢
  obtain ⟨hauto, hautoSet, hautoLedgers⟩ := clearAutoClosed_spec seeded fqn
  generalize seeded.clearAutoClosed fqn = auto at hauto hautoSet hautoLedgers ⊢
  obtain ⟨hmanual, hmanualSet, hmanualLedgers⟩ := clearManuallyClosed_spec auto.1 fqn
  generalize auto.1.clearManuallyClosed fqn = manual at hmanual hmanualSet hmanualLedgers ⊢
  have hnoAuto : auto.1.autoClosedAt fqn = none := congrArg (·.autoClosedAt) hauto
  have hsameManual : auto.1.manuallyClosedAt fqn = seeded.manuallyClosedAt fqn :=
    congrArg (·.manuallyClosedAt) hauto
  have hfilter : ∀ t : Option DateTime, (t.filter fun _ => t.isSome) = t := by
    intro t
    cases t <;> rfl
  have hcleared : (⟨(seeded.autoClosedAt fqn).filter fun _ => auto.2,
      (seeded.manuallyClosedAt fqn).filter fun _ => manual.2⟩ : ClearedCloseMarkers) =
        clocks.closeMarkers fqn := by
    rw [hautoSet, hmanualSet, hsameManual, hfilter, hfilter]
    exact hseeded
  have hledger : manual.1.ledger fqn = clocks.ledger fqn :=
    ledger_of_creates (hmanualLedgers.trans (hautoLedgers.trans hledgers))
  refine ⟨?_, hcleared, ?_⟩
  · rw [hnoAuto] at hmanual
    exact hmanual
  · rw [hcleared, ← hledger]
    exact AList.lookup_insert manual.1.creates

/-- One create fewer is in flight; a good end empties the escrow. -/
theorem finishCoordinatorCreate_spec {ledger : CreateLedger}
    (h : clocks.creates.lookup fqn = some ledger) (ok : Bool) :
    (clocks.finishCoordinatorCreate fqn ok).1.closeMarkers fqn = clocks.closeMarkers fqn ∧
      (clocks.finishCoordinatorCreate fqn ok).1.creates.lookup fqn =
        (if 0 < ledger.active - 1 then
          some ⟨ledger.active - 1, if ok then .default else ledger.escrow⟩ else none) ∧
      (clocks.finishCoordinatorCreate fqn ok).2.getD .default =
        if 0 < ledger.active - 1 ∨ ok = true then .default else ledger.escrow := by
  refine ⟨closeMarkers_of_map (map_finishCoordinatorCreate ok), ?_⟩
  unfold finishCoordinatorCreate
  rw [h]
  dsimp only
  by_cases hmore : 0 < ledger.active - 1
  · rw [if_pos hmore, if_pos hmore, if_pos (Or.inl hmore)]
    exact ⟨AList.lookup_insert clocks.creates, rfl⟩
  · rw [if_neg hmore, if_neg hmore]
    refine ⟨AList.lookup_erase fqn clocks.creates, ?_⟩
    cases ok with
    | true => exact (if_pos (Or.inr rfl)).symm
    | false =>
      have hput : ∀ e : ClearedCloseMarkers,
          (if (false || decide (e = .default)) = true then none else some e).getD .default = e := by
        intro e
        split_ifs with hempty
        · exact (of_decide_eq_true hempty).symm
        · rfl
      rw [if_neg (not_or.mpr ⟨hmore, Bool.false_ne_true⟩)]
      exact hput ledger.escrow

theorem marks_remarkManual (clocks : CoordinatorClocks) (fqn : String)
    (escrowed : Option DateTime) :
    Marks fqn clocks (Markers.remark (clocks.markManuallyClosed fqn) clocks escrowed)
      (escrowed.elim (clocks.closeMarkers fqn, false) (clocks.closeMarkers fqn).markManual) := by
  cases escrowed with
  | none => exact ⟨rfl, rfl, rfl⟩
  | some t => exact marks_manual clocks fqn t

theorem marks_remarkAuto (clocks : CoordinatorClocks) (fqn : String)
    (escrowed : Option DateTime) :
    Marks fqn clocks (Markers.remark (clocks.markAutoClosed fqn) clocks escrowed)
      (escrowed.elim (clocks.closeMarkers fqn, false) (clocks.closeMarkers fqn).markAuto) := by
  cases escrowed with
  | none => exact ⟨rfl, rfl, rfl⟩
  | some t => exact marks_auto clocks fqn t

/-- To fail before the fence: the others in flight take the escrow over, or it is put back. -/
theorem finishFailed_spec {ledger : CreateLedger} (h : clocks.creates.lookup fqn = some ledger) :
    (0 < ledger.active - 1 →
      (clocks.finishFailed fqn).1.closeMarkers fqn = clocks.closeMarkers fqn ∧
      (clocks.finishFailed fqn).2 = .default ∧
      (clocks.finishFailed fqn).1.creates.lookup fqn =
        some ⟨ledger.active - 1, ledger.escrow⟩) ∧
    (ledger.active - 1 = 0 →
      (clocks.finishFailed fqn).1.closeMarkers fqn =
        ((clocks.closeMarkers fqn).restore ledger.escrow).1 ∧
      (clocks.finishFailed fqn).2 = ((clocks.closeMarkers fqn).restore ledger.escrow).2 ∧
      (clocks.finishFailed fqn).1.creates.lookup fqn = none) := by
  obtain ⟨hclosed, hledger, hescrow⟩ := finishCoordinatorCreate_spec h false
  unfold finishFailed
  dsimp only
  generalize hended : clocks.finishCoordinatorCreate fqn false = ended at hclosed hledger hescrow ⊢
  constructor
  · intro hmore
    rw [if_pos hmore] at hledger
    rw [if_pos (Or.inl hmore)] at hescrow
    rw [hescrow]
    exact ⟨hclosed, rfl, hledger⟩
  · intro hlast
    rw [hlast, if_neg (lt_irrefl 0)] at hledger
    rw [hlast, if_neg (by decide)] at hescrow
    rw [hescrow, ClearedCloseMarkers.restore]
    obtain ⟨hmanual, hmanualSet, hmanualLedgers⟩ :=
      marks_remarkManual ended.1 fqn ledger.escrow.manuallyClosedAt
    rw [hclosed] at hmanual hmanualSet
    generalize Markers.remark (ended.1.markManuallyClosed fqn) ended.1
      ledger.escrow.manuallyClosedAt = manual at hmanual hmanualSet hmanualLedgers ⊢
    obtain ⟨hauto, hautoSet, hautoLedgers⟩ :=
      marks_remarkAuto manual.1 fqn ledger.escrow.autoClosedAt
    rw [hmanual] at hauto hautoSet
    dsimp only
    rw [hauto, hautoSet, hmanualSet, hautoLedgers, hmanualLedgers]
    exact ⟨rfl, rfl, hledger⟩

end CoordinatorClocks

theorem ClearedSince.concat {log : List CreatesAnswer} {channel : Channel} {t : DateTime}
    (h : ClearedSince log channel t) {a : CreatesAnswer} (ha : a ≠ .ended) :
    ClearedSince (log ++ [a]) channel t := by
  obtain ⟨before, cleared, since, rfl, hcleared, hsince⟩ := h
  refine ⟨before, cleared, since ++ [a], by rw [List.append_assoc, List.cons_append], hcleared, ?_⟩
  rw [List.mem_append, List.mem_singleton]
  exact fun hmem => hmem.elim hsince fun heq => ha heq.symm

theorem clearedSince_noted {cleared : ClearedCloseMarkers} {channel : Channel} {t : DateTime}
    (h : cleared.marker channel = some t) (log : List CreatesAnswer) :
    ClearedSince (log ++ [.noted cleared]) channel t :=
  ⟨log, cleared, [], rfl, h, List.not_mem_nil⟩

namespace Held
variable {h h' : Held} {a : CreatesAnswer}

structure Sound (h : Held) : Prop where
  exclusive : h.closed.Exclusive
  idle : h.flight = 0 → h.escrow = .default

/-- The markers are these, or all creates that could bring them back are still in flight. -/
def Home (markers : ClearedCloseMarkers) (h : Held) : Prop :=
  h.flight = 0 ∧ h.closed = markers ∧ h.escrow = .default ∨
    0 < h.flight ∧ h.closed = .default ∧ h.escrow = markers

namespace Moves

theorem sound (hm : h.Moves a h') (hs : h.Sound) : h'.Sound := by
  cases hm with
  | noted => exact ⟨ClearedCloseMarkers.exclusive_default, fun hzero => nomatch hzero⟩
  | ended closed escrow flight => exact ⟨hs.exclusive, fun _ => rfl⟩
  | handedOn closed escrow flight => exact ⟨hs.exclusive, fun hzero => nomatch hzero⟩
  | restored closed escrow => exact ⟨hs.exclusive.restore escrow, fun _ => rfl⟩
  | markAuto _ now => exact ⟨hs.exclusive.markAuto now, hs.idle⟩
  | markManual _ now => exact ⟨hs.exclusive.markManual now, hs.idle⟩
  | ignored => exact hs

/-- With no good end and no new marker the markers find their way back. -/
theorem home {markers : ClearedCloseMarkers} (hm : h.Moves a h') (hone : markers.Exclusive)
    (hended : a ≠ .ended) (hmarked : a ≠ .marked true) (hh : h.Home markers) :
    h'.Home markers := by
  cases hm with
  | noted =>
    obtain ⟨-, hclosed, hescrow⟩ | ⟨-, hclosed, hescrow⟩ := hh
    · exact Or.inr ⟨Nat.succ_pos _, rfl, by
        rw [hclosed, hescrow, ClearedCloseMarkers.replacing_default]⟩
    · exact Or.inr ⟨Nat.succ_pos _, rfl, by
        rw [hclosed, hescrow, ClearedCloseMarkers.default_replacing]⟩
  | ended closed escrow flight => exact absurd rfl hended
  | handedOn closed escrow flight =>
    obtain ⟨hzero, -⟩ | ⟨-, hclosed, hescrow⟩ := hh
    · cases hzero
    · exact Or.inr ⟨Nat.succ_pos _, hclosed, hescrow⟩
  | restored closed escrow =>
    obtain ⟨hzero, -⟩ | ⟨-, hclosed, hescrow⟩ := hh
    · cases hzero
    · obtain rfl : closed = .default := hclosed
      obtain rfl : escrow = markers := hescrow
      exact Or.inl ⟨rfl, ClearedCloseMarkers.restore_default hone, rfl⟩
  | markAuto _ now =>
    have hsame := ClearedCloseMarkers.markAuto_of_false
      (Bool.eq_false_iff.mpr fun htrue => hmarked (congrArg CreatesAnswer.marked htrue))
    rw [hsame]
    exact hh
  | markManual _ now =>
    have hsame := ClearedCloseMarkers.markManual_of_false
      (Bool.eq_false_iff.mpr fun htrue => hmarked (congrArg CreatesAnswer.marked htrue))
    rw [hsame]
    exact hh
  | ignored => exact hh

/-- What is in escrow was cleared since the last good end. -/
theorem cleared {log : List CreatesAnswer} (hm : h.Moves a h')
    (hlog : ∀ channel t, h.escrow.marker channel = some t → ClearedSince log channel t)
    (channel : Channel) (t : DateTime) (ht : h'.escrow.marker channel = some t) :
    ClearedSince (log ++ [a]) channel t := by
  cases hm with
  | noted =>
    rcases ClearedCloseMarkers.marker_of_replacing ht with hnew | hold
    · exact clearedSince_noted hnew log
    · exact (hlog channel t hold).concat nofun
  | ended closed escrow flight => cases channel <;> cases ht
  | handedOn closed escrow flight => exact (hlog channel t ht).concat nofun
  | restored closed escrow => cases channel <;> cases ht
  | markAuto _ now => exact (hlog channel t ht).concat nofun
  | markManual _ now => exact (hlog channel t ht).concat nofun
  | ignored => exact (hlog channel t ht).concat nofun

theorem escrowed {markers : ClearedCloseMarkers} (hm : h.Moves (.restored markers) h')
    {channel : Channel} {t : DateTime} (ht : markers.marker channel = some t) :
    h.escrow.marker channel = some t := by
  cases hm with
  | handedOn closed escrow flight => cases channel <;> cases ht
  | restored closed escrow => exact ClearedCloseMarkers.marker_of_restore ht

end Moves
end Held

namespace Creates
variable {fqn : String} {s : Creates}

/-- There is a ledger while there are tickets, and it counts them. -/
def Counted (fqn : String) (s : Creates) : Prop :=
  ∃ escrow, s.clocks.creates.lookup fqn =
    if 0 < Assoc.size s.tickets then some ⟨Assoc.size s.tickets, escrow⟩ else none

theorem Counted.isSome_iff (h : s.Counted fqn) :
    (s.clocks.creates.lookup fqn).isSome ↔ s.tickets ≠ ∅ := by
  obtain ⟨escrow, hlookup⟩ := h
  rw [hlookup, Ne, ← Assoc.size_eq_zero]
  split_ifs with hpos
  · exact iff_of_true rfl hpos.ne'
  · exact iff_of_false nofun (not_not.mpr (Nat.eq_zero_of_not_pos hpos))

theorem held_of_some {ledger : CreateLedger} (h : s.clocks.creates.lookup fqn = some ledger) :
    s.held fqn = ⟨s.clocks.closeMarkers fqn, ledger.escrow, ledger.active⟩ := by
  rw [held, CoordinatorClocks.ledger, h]
  rfl

theorem held_of_none (h : s.clocks.creates.lookup fqn = none) :
    s.held fqn = ⟨s.clocks.closeMarkers fqn, .default, 0⟩ := by
  rw [held, CoordinatorClocks.ledger, h]
  rfl

theorem Counted.flight (h : s.Counted fqn) : (s.held fqn).flight = Assoc.size s.tickets := by
  obtain ⟨escrow, hlookup⟩ := h
  split_ifs at hlookup with hpos
  · rw [held_of_some hlookup]
  · rw [held_of_none hlookup]
    exact (Nat.eq_zero_of_not_pos hpos).symm

/-- With one of its tickets a coordinator has a ledger that counts it beside the others. -/
theorem Counted.lookup (h : s.Counted fqn) {ticket : ℕ}
    (hticket : (s.tickets.lookup ticket).isSome) :
    ∃ escrow, s.clocks.creates.lookup fqn =
      some ⟨Assoc.size (s.tickets.erase ticket) + 1, escrow⟩ := by
  obtain ⟨escrow, hlookup⟩ := h
  rw [← Assoc.size_erase hticket, if_pos (Nat.succ_pos _)] at hlookup
  exact ⟨escrow, hlookup⟩

/-- What an operation says of the ledger it leaves. -/
theorem held_of_ite {escrow : ClearedCloseMarkers} {flight : ℕ}
    (h : s.clocks.creates.lookup fqn = if 0 < flight then some ⟨flight, escrow⟩ else none)
    (hempty : flight = 0 → escrow = .default) :
    s.held fqn = ⟨s.clocks.closeMarkers fqn, escrow, flight⟩ := by
  split_ifs at h with hpos
  · exact held_of_some h
  · have hzero := Nat.eq_zero_of_not_pos hpos
    rw [held_of_none h, hzero, hempty hzero]

theorem moves_finishOk (h : s.Counted fqn) {ticket : ℕ}
    (hticket : (s.tickets.lookup ticket).isSome) :
    (s.held fqn).Moves .ended ((s.finishOk fqn ticket).held fqn) ∧
      (s.finishOk fqn ticket).Counted fqn := by
  obtain ⟨escrow, hlookup⟩ := h.lookup hticket
  obtain ⟨hclosed, hledger, -⟩ := CoordinatorClocks.finishCoordinatorCreate_spec hlookup true
  have hheld := @held_of_ite fqn (s.finishOk fqn ticket) .default _ hledger fun _ => rfl
  rw [held_of_some hlookup, hheld, finishOk, hclosed]
  exact ⟨.ended _ _ _, .default, hledger⟩

theorem moves_finishFailed (h : s.Counted fqn) {ticket : ℕ}
    (hticket : (s.tickets.lookup ticket).isSome) :
    (s.held fqn).Moves (.restored (s.clocks.finishFailed fqn).2)
      (held fqn ⟨(s.clocks.finishFailed fqn).1, s.tickets.erase ticket⟩) ∧
      Counted fqn ⟨(s.clocks.finishFailed fqn).1, s.tickets.erase ticket⟩ := by
  obtain ⟨escrow, hlookup⟩ := h.lookup hticket
  obtain ⟨hmore, hlast⟩ := CoordinatorClocks.finishFailed_spec hlookup
  dsimp only at hmore hlast
  rw [Nat.add_sub_cancel] at hmore hlast
  rw [held_of_some hlookup]
  cases hsize : Assoc.size (s.tickets.erase ticket) with
  | zero =>
    obtain ⟨hclosed, hrestored, hledger⟩ := hlast hsize
    rw [held_of_none hledger, hclosed, hrestored]
    refine ⟨.restored _ _, .default, ?_⟩
    rw [hledger]
    exact (if_neg (by rw [hsize]; exact lt_irrefl 0)).symm
  | succ flight =>
    obtain ⟨hclosed, hrestored, hledger⟩ := hmore (hsize ▸ Nat.succ_pos flight)
    rw [held_of_some hledger, hclosed, hrestored, hsize]
    refine ⟨.handedOn _ _ _, escrow, ?_⟩
    rw [hledger]
    exact (if_pos (by rw [hsize]; exact Nat.succ_pos flight)).symm

theorem moves_noteCoordinatorCreate (h : s.Counted fqn) {ticket : ℕ}
    (hticket : s.tickets.lookup ticket = none) (now : DateTime) :
    (s.held fqn).Moves (.noted (s.clocks.noteCoordinatorCreate fqn now).2)
      (held fqn ⟨(s.clocks.noteCoordinatorCreate fqn now).1, s.tickets.insert ticket false⟩) ∧
      Counted fqn ⟨(s.clocks.noteCoordinatorCreate fqn now).1, s.tickets.insert ticket false⟩ := by
  obtain ⟨hclosed, hcleared, hledger⟩ :=
    CoordinatorClocks.noteCoordinatorCreate_spec s.clocks fqn now
  have hflight := h.flight
  refine ⟨?_, (s.clocks.closeMarkers fqn).replacing (s.clocks.ledger fqn).escrow, ?_⟩
  · rw [@held_of_some fqn ⟨_, s.tickets.insert ticket false⟩ _ hledger, hclosed, hcleared]
    exact .noted _
  · rw [hledger, Assoc.size_insert hticket, ← hflight, if_pos (Nat.succ_pos _)]
    rfl

theorem moves_mark (h : s.Counted fqn) {marked : CoordinatorClocks × Bool}
    {m : ClearedCloseMarkers × Bool} (hmarks : CoordinatorClocks.Marks fqn s.clocks marked m) :
    held fqn (s.mark marked).1 = { s.held fqn with closed := m.1 } ∧
      (s.mark marked).2 = .marked m.2 ∧ Counted fqn (s.mark marked).1 := by
  obtain ⟨hclosed, hchanged, hcreates⟩ := hmarks
  refine ⟨?_, congrArg CreatesAnswer.marked hchanged, ?_⟩
  · rw [held, held, ← hclosed, ← CoordinatorClocks.ledger_of_creates hcreates]
    rfl
  · obtain ⟨escrow, hlookup⟩ := h
    exact ⟨escrow, hcreates ▸ hlookup⟩

/-- Every step is a move of what is held. -/
theorem moves_next (h : s.Counted fqn) (e : CreatesEvent) :
    (s.held fqn).Moves ((creates fqn).answer s e) (((creates fqn).next s e).held fqn) ∧
      ((creates fqn).next s e).Counted fqn := by
  have hstays : (s.held fqn).Moves .ignored (s.held fqn) ∧ s.Counted fqn := ⟨.ignored _, h⟩
  cases e with
  | noteCoordinatorCreate ticket now =>
    simp only [Machine.next, Machine.answer, creates, step]
    cases hticket : s.tickets.lookup ticket with
    | none => exact moves_noteCoordinatorCreate h hticket now
    | some _ => exact hstays
  | sessionMayExist ticket =>
    obtain ⟨escrow, hlookup⟩ := h
    refine ⟨.ignored _, escrow, ?_⟩
    simp only [Machine.next, creates, step, Assoc.size_adjust]
    exact hlookup
  | succeeded ticket =>
    simp only [Machine.next, Machine.answer, creates, step]
    cases hticket : s.tickets.lookup ticket with
    | none => exact hstays
    | some _ => exact moves_finishOk h (Option.isSome_of_eq_some hticket)
  | failed ticket =>
    simp only [Machine.next, Machine.answer, creates, step]
    cases hticket : s.tickets.lookup ticket with
    | none => exact hstays
    | some fence =>
      cases fence with
      | true => exact moves_finishOk h (Option.isSome_of_eq_some hticket)
      | false => exact moves_finishFailed h (Option.isSome_of_eq_some hticket)
  | markAutoClosed now =>
    obtain ⟨hheld, hanswer, hcounted⟩ :=
      moves_mark h (CoordinatorClocks.marks_auto s.clocks fqn now)
    simp only [Machine.next, Machine.answer, creates, step, hheld, hanswer]
    exact ⟨.markAuto _ now, hcounted⟩
  | markManuallyClosed now =>
    obtain ⟨hheld, hanswer, hcounted⟩ :=
      moves_mark h (CoordinatorClocks.marks_manual s.clocks fqn now)
    simp only [Machine.next, Machine.answer, creates, step, hheld, hanswer]
    exact ⟨.markManual _ now, hcounted⟩

theorem counted_run (h : s.Counted fqn) (es : List CreatesEvent) :
    ((creates fqn).run s es).Counted fqn :=
  Machine.run_inv_free (P := Counted fqn) (fun _ e hc => (moves_next hc e).2) h es

theorem sound_run (h : s.Counted fqn) (hs : (s.held fqn).Sound) (es : List CreatesEvent) :
    (((creates fqn).run s es).held fqn).Sound := by
  induction es generalizing s with
  | nil => exact hs
  | cons e es ih =>
    obtain ⟨hm, hc⟩ := moves_next h e
    exact ih hc (hm.sound hs)

theorem home_run {markers : ClearedCloseMarkers} (hone : markers.Exclusive) (h : s.Counted fqn)
    (hh : (s.held fqn).Home markers) {es : List CreatesEvent}
    (hes : ∀ a ∈ (creates fqn).answers s es, a ≠ .ended ∧ a ≠ .marked true) :
    (((creates fqn).run s es).held fqn).Home markers := by
  induction es generalizing s with
  | nil => exact hh
  | cons e es ih =>
    obtain ⟨hm, hc⟩ := moves_next h e
    rw [Machine.answers, List.forall_mem_cons] at hes
    exact ih hc (hm.home hone hes.1.1 hes.1.2 hh) hes.2

theorem cleared_run (h : s.Counted fqn) (hs : (s.held fqn).escrow = .default)
    (es : List CreatesEvent) (channel : Channel) (t : DateTime)
    (ht : (((creates fqn).run s es).held fqn).escrow.marker channel = some t) :
    ClearedSince ((creates fqn).answers s es) channel t := by
  induction es using List.reverseRecOn generalizing channel t with
  | nil =>
    rw [Machine.run_nil, hs] at ht
    cases channel <;> cases ht
  | append_singleton es e ih =>
    rw [Machine.run_concat] at ht
    rw [Machine.answers_concat]
    exact (moves_next (counted_run h es) e).1.cleared ih channel t ht

end Creates

/-- After every run there is at most one marker, and a ledger exactly while a create is in flight;
creates that all fail before their fence leave the markers that were set before, unless one is
set meanwhile; and what is put back was cleared since the last create that ended well. -/
theorem markers_escrowed (fqn : String) (clocks : CoordinatorClocks)
    (hone : (clocks.closeMarkers fqn).Exclusive) (hrest : clocks.creates.lookup fqn = none)
    (es : List CreatesEvent) :
    (((creates fqn).run (.atRest clocks) es).clocks.closeMarkers fqn).Exclusive ∧
      ((((creates fqn).run (.atRest clocks) es).clocks.creates.lookup fqn).isSome ↔
        ((creates fqn).run (.atRest clocks) es).tickets ≠ ∅) ∧
      (((creates fqn).run (.atRest clocks) es).tickets = ∅ → ∀ fs,
        (∀ a ∈ (creates fqn).answers ((creates fqn).run (.atRest clocks) es) fs,
          a ≠ .ended ∧ a ≠ .marked true) →
        ((creates fqn).run (.atRest clocks) (es ++ fs)).tickets = ∅ →
          ((creates fqn).run (.atRest clocks) (es ++ fs)).clocks.closeMarkers fqn =
            ((creates fqn).run (.atRest clocks) es).clocks.closeMarkers fqn) ∧
      ∀ e markers, (creates fqn).answer ((creates fqn).run (.atRest clocks) es) e =
          .restored markers →
        ∀ channel t, markers.marker channel = some t →
          ClearedSince ((creates fqn).answers (.atRest clocks) es) channel t := by
  have hcounted : (Creates.atRest clocks).Counted fqn := ⟨.default, hrest⟩
  have hheld : (Creates.atRest clocks).held fqn = ⟨clocks.closeMarkers fqn, .default, 0⟩ :=
    Creates.held_of_none hrest
  have hsound : ((Creates.atRest clocks).held fqn).Sound := by
    rw [hheld]
    exact ⟨hone, fun _ => rfl⟩
  have hc := Creates.counted_run hcounted es
  have hs := Creates.sound_run hcounted hsound es
  refine ⟨hs.exclusive, hc.isSome_iff, fun hnone fs hfs hlast => ?_,
    fun e markers he channel t ht => ?_⟩
  · rw [Machine.run_append] at hlast ⊢
    have hflight : ∀ {s : Creates}, s.Counted fqn → s.tickets = ∅ → (s.held fqn).flight = 0 :=
      fun h hempty => h.flight.trans (Assoc.size_eq_zero.mpr hempty)
    have hstart := hflight hc hnone
    have hend := hflight (Creates.counted_run hc fs) hlast
    obtain ⟨-, hclosed, -⟩ | ⟨hpos, -⟩ := Creates.home_run hs.exclusive hc
      (Or.inl ⟨hstart, rfl, hs.idle hstart⟩) hfs
    · exact hclosed
    · omega
  · have hm := (Creates.moves_next hc e).1
    rw [he] at hm
    refine Creates.cleared_run hcounted ?_ es channel t (hm.escrowed ht)
    rw [hheld]

theorem markers_escrowed_handedOn :
    ((creates "p:wg/lead").run
      (.atRest ((⟨∅, false, ∅⟩ : CoordinatorClocks).markManuallyClosed "p:wg/lead" 7).1)
      ([] ++ [.noteCoordinatorCreate 0 8, .noteCoordinatorCreate 1 9, .failed 0,
        .failed 1])).clocks.closeMarkers "p:wg/lead" = ⟨none, some 7⟩ :=
  ((markers_escrowed "p:wg/lead" _ (Or.inl rfl) rfl []).2.2.1 rfl _ (by decide +kernel)
    (Assoc.size_eq_zero.mp (by decide +kernel))).trans rfl

end AgentsCommander.Clocks
