import AgentsCommander.Clocks.Markers

/-! What the last events of a coordinator say of its markers. -/
namespace AgentsCommander.Clocks
open Foundation

namespace CoordinatorClocks
variable {clocks : CoordinatorClocks} {fqn : String}

theorem autoClosedAt_entry : (clocks.entry fqn).autoClosedAt = clocks.marker fqn .auto := by
  show ((clocks.map.lookup fqn).getD .default).autoClosedAt =
    (clocks.map.lookup fqn).bind (·.autoClosedAt)
  cases clocks.map.lookup fqn <;> rfl

theorem manuallyClosedAt_entry :
    (clocks.entry fqn).manuallyClosedAt = clocks.marker fqn .manual := by
  show ((clocks.map.lookup fqn).getD .default).manuallyClosedAt =
    (clocks.map.lookup fqn).bind (·.manuallyClosedAt)
  cases clocks.map.lookup fqn <;> rfl

theorem marker_put (entry : ClockEntry) (channel : Channel) :
    (clocks.put fqn entry).marker fqn channel = match channel with
      | .auto => entry.autoClosedAt
      | .manual => entry.manuallyClosedAt := by
  have hlookup : (clocks.put fqn entry).map.lookup fqn = some entry := AList.lookup_insert _
  cases channel with
  | auto => exact congrArg (Option.bind · (·.autoClosedAt)) hlookup
  | manual => exact congrArg (Option.bind · (·.manuallyClosedAt)) hlookup

theorem marker_of_map {other : CoordinatorClocks} (h : other.map = clocks.map)
    (channel : Channel) : other.marker fqn channel = clocks.marker fqn channel := by
  cases channel with
  | auto => exact congrArg (fun m : ClockMap => (m.lookup fqn).bind (·.autoClosedAt)) h
  | manual => exact congrArg (fun m : ClockMap => (m.lookup fqn).bind (·.manuallyClosedAt)) h

theorem map_finishCoordinatorCreate (ok : Bool) :
    (clocks.finishCoordinatorCreate fqn ok).1.map = clocks.map := by
  unfold finishCoordinatorCreate
  cases clocks.creates.lookup fqn with
  | none => rfl
  | some ledger =>
    dsimp only
    split_ifs <;> rfl

end CoordinatorClocks

namespace Markers
variable {fqn : String} {markers : Markers}

def events (emissions : List Emission) : List MarkerEvent := emissions.map (·.event)

theorem values_append (channel : Channel) (xs ys : List MarkerEvent) :
    values channel (xs ++ ys) = values channel xs ++ values channel ys := by
  rw [values, List.filter_append, List.map_append]
  rfl

theorem events_append (xs ys : List Emission) : events (xs ++ ys) = events xs ++ events ys :=
  List.map_append

/-- An event may overtake those of the other channel. -/
theorem values_overtakes (channel : Channel) (emitted : List MarkerEvent) {event : MarkerEvent}
    {before : List MarkerEvent} (h : values event.channel before = []) (behind : List MarkerEvent) :
    values channel (emitted ++ [event] ++ (before ++ behind)) =
      values channel (emitted ++ (before ++ event :: behind)) := by
  have hcons : values channel (event :: behind) =
      values channel [event] ++ values channel behind := values_append channel [event] behind
  rw [values_append channel (emitted ++ [event]), values_append channel emitted,
    values_append channel before, values_append channel emitted, values_append channel before,
    hcons]
  by_cases heq : event.channel = channel
  · rw [← heq, h, List.nil_append, List.nil_append, List.append_assoc]
  · have hother : values channel [event] = [] := by
      rw [values, List.filter_cons_of_neg (by rwa [decide_eq_true_iff])]
      rfl
    rw [hother, List.append_nil, List.nil_append]

/-- The events say what became of the markers. -/
def Announces (fqn : String) (before after : CoordinatorClocks) (emissions : List Emission) :
    Prop :=
  ∀ channel, after.marker fqn channel =
    (values channel (events emissions)).getLast?.getD (before.marker fqn channel)

theorem announces_of_map {before after : CoordinatorClocks} (h : after.map = before.map) :
    Announces fqn before after [] := CoordinatorClocks.marker_of_map h

theorem Announces.trans {before between after : CoordinatorClocks} {xs ys : List Emission}
    (hx : Announces fqn before between xs) (hy : Announces fqn between after ys) :
    Announces fqn before after (xs ++ ys) := by
  intro channel
  have hlast : ∀ vs ws : List (Option DateTime), ∀ v,
      (vs ++ ws).getLast?.getD v = ws.getLast?.getD (vs.getLast?.getD v) := by
    intro vs ws v
    rw [List.getLast?_append]
    cases ws.getLast? <;> rfl
  rw [hy channel, hx channel, events_append, values_append, hlast]

/-- One marker is set to a value, and the other stays. -/
theorem announces_put {clocks : CoordinatorClocks} (emitter : Emitter) {channel : Channel}
    {value : Option DateTime} {entry : ClockEntry}
    (hset : (clocks.put fqn entry).marker fqn channel = value)
    (hother : ∀ other, other ≠ channel →
      (clocks.put fqn entry).marker fqn other = clocks.marker fqn other) :
    Announces fqn clocks (clocks.put fqn entry) (announce emitter true channel value) := by
  intro other
  by_cases heq : other = channel
  · subst heq
    rw [hset]
    simp [announce, events, values]
  · rw [hother other heq]
    simp [announce, events, values, Ne.symm heq]

theorem announces_markAutoClosed (clocks : CoordinatorClocks) (emitter : Emitter)
    (now : DateTime) :
    Announces fqn clocks (clocks.markAutoClosed fqn now).1
      (announce emitter (clocks.markAutoClosed fqn now).2 .auto (some now)) := by
  unfold CoordinatorClocks.markAutoClosed
  dsimp only
  split_ifs
  · exact announces_of_map rfl
  · exact announces_of_map rfl
  · refine announces_put emitter (CoordinatorClocks.marker_put _ _) fun other hother => ?_
    rw [CoordinatorClocks.marker_put]
    cases other with
    | auto => exact absurd rfl hother
    | manual => exact CoordinatorClocks.manuallyClosedAt_entry

theorem announces_clearAutoClosed (clocks : CoordinatorClocks) (emitter : Emitter) :
    Announces fqn clocks (clocks.clearAutoClosed fqn).1
      (announce emitter (clocks.clearAutoClosed fqn).2 .auto none) := by
  unfold CoordinatorClocks.clearAutoClosed CoordinatorClocks.clear
  cases hentry : clocks.map.lookup fqn with
  | none => exact announces_of_map rfl
  | some entry =>
    dsimp only
    split_ifs
    · refine announces_put emitter (CoordinatorClocks.marker_put _ _) fun other hother => ?_
      rw [CoordinatorClocks.marker_put]
      cases other with
      | auto => exact absurd rfl hother
      | manual => exact (congrArg (Option.bind · (·.manuallyClosedAt)) hentry).symm
    · exact announces_of_map rfl

theorem announces_clearManuallyClosed (clocks : CoordinatorClocks) (emitter : Emitter) :
    Announces fqn clocks (clocks.clearManuallyClosed fqn).1
      (announce emitter (clocks.clearManuallyClosed fqn).2 .manual none) := by
  unfold CoordinatorClocks.clearManuallyClosed CoordinatorClocks.clear
  cases hentry : clocks.map.lookup fqn with
  | none => exact announces_of_map rfl
  | some entry =>
    dsimp only
    split_ifs
    · refine announces_put emitter (CoordinatorClocks.marker_put _ _) fun other hother => ?_
      rw [CoordinatorClocks.marker_put]
      cases other with
      | auto => exact (congrArg (Option.bind · (·.autoClosedAt)) hentry).symm
      | manual => exact absurd rfl hother
    · exact announces_of_map rfl

/-- A manual mark clears the auto marker without an event: nothing is lost where there is none. -/
theorem announces_markManuallyClosed {clocks : CoordinatorClocks}
    (h : clocks.marker fqn .auto = none) (emitter : Emitter) (now : DateTime) :
    Announces fqn clocks (clocks.markManuallyClosed fqn now).1
      (announce emitter (clocks.markManuallyClosed fqn now).2 .manual (some now)) := by
  unfold CoordinatorClocks.markManuallyClosed
  dsimp only
  split_ifs
  · exact announces_of_map rfl
  · refine announces_put emitter (CoordinatorClocks.marker_put _ _) fun other hother => ?_
    rw [CoordinatorClocks.marker_put]
    cases other with
    | auto => exact h.symm
    | manual => exact absurd rfl hother

theorem announces_remarkAuto (clocks : CoordinatorClocks) (escrowed : Option DateTime) :
    Announces fqn clocks (remark (clocks.markAutoClosed fqn) clocks escrowed).1
      (announce .order (remark (clocks.markAutoClosed fqn) clocks escrowed).2 .auto escrowed) := by
  cases escrowed with
  | none => exact announces_of_map rfl
  | some t => exact announces_markAutoClosed clocks .order t

theorem announces_remarkManual {clocks : CoordinatorClocks} {escrowed : Option DateTime}
    (h : escrowed.isSome → clocks.marker fqn .auto = none) :
    Announces fqn clocks (remark (clocks.markManuallyClosed fqn) clocks escrowed).1
      (announce .order (remark (clocks.markManuallyClosed fqn) clocks escrowed).2 .manual
        escrowed) := by
  cases escrowed with
  | none => exact announces_of_map rfl
  | some t => exact announces_markManuallyClosed (h rfl) .order t

theorem announces_seedIfAbsent (clocks : CoordinatorClocks) (now : DateTime) :
    Announces fqn clocks (clocks.seedIfAbsent fqn now).1 [] := by
  unfold CoordinatorClocks.seedIfAbsent
  split_ifs with hsome
  · exact announces_of_map rfl
  · intro channel
    have hnone : clocks.map.lookup fqn = none := Option.not_isSome_iff_eq_none.mp hsome
    rw [CoordinatorClocks.marker_put]
    cases channel with
    | auto => exact (congrArg (Option.bind · (·.autoClosedAt)) hnone).symm
    | manual => exact (congrArg (Option.bind · (·.manuallyClosedAt)) hnone).symm

/-- What was emitted and what is pending end with the markers; and only the holder of the order
lock tells of manual ones. -/
structure Told (fqn : String) (markers : Markers) : Prop where
  last : ∀ channel value,
    (values channel (markers.emitted ++ events markers.pending)).getLast? = some value →
      value = markers.clocks.marker fqn channel
  manual : ∀ emission ∈ markers.pending, emission.event.channel = .manual →
    emission.emitter = .order

namespace Told

theorem converged (h : markers.Told fqn) : markers.Converged fqn := by
  intro hpending channel value hlast
  refine h.last channel value ?_
  rw [hpending]
  exact (congrArg (fun es => (values channel es).getLast?) (List.append_nil _)).trans hlast

/-- A section under the clocks lock that announces what it changes. -/
theorem announced (h : markers.Told fqn) {clocks : CoordinatorClocks} {emissions : List Emission}
    (hannounces : Announces fqn markers.clocks clocks emissions)
    (hmanual : ∀ emission ∈ emissions, emission.event.channel = .manual →
      emission.emitter = .order) (holder : Option (Option Ordered))
    (tickets : AList fun _ : ℕ => Bool) :
    Told fqn ⟨clocks, holder, tickets, markers.pending ++ emissions, markers.emitted⟩ := by
  constructor
  · intro channel value hlast
    change (values channel (_ ++ events (_ ++ _))).getLast? = _ at hlast
    rw [events_append, ← List.append_assoc, values_append, List.getLast?_append] at hlast
    show value = clocks.marker fqn channel
    rw [hannounces channel]
    cases hnew : (values channel (events emissions)).getLast? with
    | some new =>
      rw [hnew] at hlast
      exact (Option.some.inj hlast).symm
    | none =>
      rw [hnew] at hlast
      exact h.last channel value hlast
  · intro emission hemission
    rcases List.mem_append.mp hemission with hold | hnew
    · exact h.manual emission hold
    · exact hmanual emission hnew

theorem announce_manual (changed : Bool) (channel : Channel) (value : Option DateTime) :
    ∀ emission ∈ announce .order changed channel value, emission.event.channel = .manual →
      emission.emitter = .order := by
  intro emission hemission _
  unfold announce at hemission
  split_ifs at hemission
  · rw [List.mem_singleton.mp hemission]
  · cases hemission

theorem markClosed (h : markers.Told fqn) (mark : ℕ) (now : DateTime) :
    (markers.markClosed fqn mark now).Told fqn := by
  refine h.announced (announces_markAutoClosed _ _ _) (fun emission hemission hmanual => ?_) _ _
  unfold announce at hemission
  split_ifs at hemission
  · rw [List.mem_singleton.mp hemission] at hmanual
    cases hmanual
  · cases hemission

theorem manual_append {xs ys : List Emission}
    (hx : ∀ emission ∈ xs, emission.event.channel = .manual → emission.emitter = .order)
    (hy : ∀ emission ∈ ys, emission.event.channel = .manual → emission.emitter = .order) :
    ∀ emission ∈ xs ++ ys, emission.event.channel = .manual → emission.emitter = .order := by
  intro emission hemission
  rcases List.mem_append.mp hemission with h | h
  · exact hx emission h
  · exact hy emission h

theorem noteCreate (h : markers.Told fqn) (ticket : ℕ) (now : DateTime) :
    (markers.noteCreate fqn ticket now).Told fqn := by
  unfold Markers.noteCreate
  dsimp only
  rw [List.append_assoc]
  refine h.announced ?_ (manual_append (announce_manual _ _ _) (announce_manual _ _ _)) _ _
  have hseeded : Announces fqn markers.clocks (markers.clocks.seedIfAbsent fqn now).1 [] :=
    announces_seedIfAbsent markers.clocks now
  have hcleared := (hseeded.trans
    (announces_clearAutoClosed _ .order)).trans (announces_clearManuallyClosed _ .order)
  have hbegun := hcleared.trans (announces_of_map rfl)
  rwa [List.append_nil] at hbegun

theorem restore (h : markers.Told fqn)
    (hauto : ∀ escrow, (markers.clocks.finishCoordinatorCreate fqn false).2 = some escrow →
      escrow.manuallyClosedAt.isSome → markers.clocks.autoClosedAt fqn = none) :
    (markers.restore fqn).Told fqn := by
  unfold Markers.restore
  dsimp only
  rw [List.append_assoc]
  refine h.announced ?_ (manual_append (announce_manual _ _ _) (announce_manual _ _ _)) _ _
  have hended : Announces fqn markers.clocks
      (markers.clocks.finishCoordinatorCreate fqn false).1 [] :=
    announces_of_map (CoordinatorClocks.map_finishCoordinatorCreate false)
  refine hended.trans ((announces_remarkManual fun hmanual => ?_).trans (announces_remarkAuto _ _))
  rw [CoordinatorClocks.marker_of_map (CoordinatorClocks.map_finishCoordinatorCreate false)]
  cases hescrow : (markers.clocks.finishCoordinatorCreate fqn false).2 with
  | none =>
    rw [hescrow] at hmanual
    cases hmanual
  | some escrow =>
    rw [hescrow] at hmanual
    exact hauto escrow hescrow hmanual

theorem emit (h : markers.Told fqn) {position : ℕ} (hok : markers.InOrder fqn (.emit position)) :
    (markers.emit position).Told fqn := by
  unfold Markers.emit
  cases hget : markers.pending[position]? with
  | none => exact h
  | some emission =>
    dsimp only
    split_ifs
    · exact h
    · have hsplit : markers.pending = markers.pending.take position ++
          emission :: markers.pending.drop (position + 1) := by
        obtain ⟨hlt, hemission⟩ := List.getElem?_eq_some_iff.mp hget
        rw [← hemission, ← List.drop_eq_getElem_cons hlt, List.take_append_drop]
      constructor
      · intro channel value hlast
        refine h.last channel value ?_
        have hearlier : values emission.event.channel
            (events (markers.pending.take position)) = [] := by
          refine List.map_eq_nil_iff.mpr (List.filter_eq_nil_iff.mpr fun event hevent => ?_)
          obtain ⟨earlier, hmem, rfl⟩ := List.mem_map.mp hevent
          exact decide_eq_true_iff.not.mpr (hok emission hget earlier hmem)
        have hpending : events markers.pending = events (markers.pending.take position) ++
            emission.event :: events (markers.pending.drop (position + 1)) :=
          (congrArg events hsplit).trans (events_append _ _)
        rw [hpending, ← values_overtakes channel markers.emitted hearlier, ← events_append]
        exact hlast
      · intro other hother
        refine h.manual other ?_
        rw [hsplit]
        rcases List.mem_append.mp hother with hbefore | hbehind
        · exact List.mem_append_left _ hbefore
        · exact List.mem_append_right _ (List.mem_cons_of_mem _ hbehind)

theorem of_clocks (h : markers.Told fqn) {other : Markers}
    (hclocks : other.clocks.map = markers.clocks.map) (hpending : other.pending = markers.pending)
    (hemitted : other.emitted = markers.emitted) : other.Told fqn := by
  constructor
  · intro channel value hlast
    rw [hpending, hemitted] at hlast
    rw [CoordinatorClocks.marker_of_map hclocks]
    exact h.last channel value hlast
  · exact hpending ▸ h.manual

theorem next (h : markers.Told fqn) {event : MarkersEvent} (hok : markers.InOrder fqn event) :
    ((markersMachine fqn).next markers event).Told fqn := by
  cases event with
  | markClosed mark now => exact h.markClosed mark now
  | lockCreate ticket =>
    show (if _ then _ else markers : Markers).Told fqn
    split_ifs
    · exact h.of_clocks rfl rfl rfl
    · exact h
  | underClocks now =>
    simp only [Machine.next, markersMachine, Markers.step]
    split
    · exact h.noteCreate _ now
    · next hholder => exact h.restore (hok hholder)
    · exact h
  | emit position => exact h.emit hok
  | release =>
    show (if _ then _ else markers : Markers).Told fqn
    split_ifs
    · exact h.of_clocks rfl rfl rfl
    · exact h
  | sessionMayExist ticket => exact h.of_clocks rfl rfl rfl
  | succeeded ticket =>
    simp only [Machine.next, markersMachine, Markers.step]
    cases markers.tickets.lookup ticket with
    | none => exact h
    | some fence =>
      exact h.of_clocks (CoordinatorClocks.map_finishCoordinatorCreate true) rfl rfl
  | failed ticket =>
    simp only [Machine.next, markersMachine, Markers.step]
    split
    · exact h.of_clocks (CoordinatorClocks.map_finishCoordinatorCreate true) rfl rfl
    · split_ifs
      · exact h.of_clocks rfl rfl rfl
      · exact h
    · exact h

end Told

/-- In a run that keeps the order of the changes, the sidebar is told the markers. -/
theorem converged_always (fqn : String) (clocks : CoordinatorClocks) (events : List MarkersEvent)
    (h : (markersMachine fqn).Along (InOrder fqn) (atRest clocks) events) :
    (markersMachine fqn).Always (Converged fqn) (atRest clocks) events := by
  rw [Machine.always_iff]
  rintro pre ⟨suf, rfl⟩
  have hrest : (atRest clocks).Told fqn :=
    ⟨fun channel value hlast => (by cases channel <;> cases hlast), nofun⟩
  have hpre := ((Machine.along_append _ _ _ _).mp h).1
  exact (Machine.run_inv (fun _ _ ht hok => ht.next hok) hrest hpre).converged

theorem converged_reopened :
    (markersMachine "p:wg/lead").Always (Converged "p:wg/lead") (atRest ⟨∅, false, ∅⟩)
      [.markClosed 0 7, .emit 0, .lockCreate 0, .underClocks 8, .emit 0, .release] := by
  refine converged_always _ _ _ ⟨trivial, ?_, trivial, nofun, ?_, trivial, trivial⟩
  · exact fun _ _ earlier hearlier => nomatch hearlier
  · exact fun _ _ earlier hearlier => nomatch hearlier

/-- The mark's event follows that of the create which took the mark away. -/
theorem marked_afterReopen :
    ¬ ∀ (fqn : String) (clocks : CoordinatorClocks) (events : List MarkersEvent),
      (markersMachine fqn).Always (Converged fqn) (atRest clocks) events := by
  intro h
  have hlast := h "p:wg/lead" ⟨∅, false, ∅⟩
    [.markClosed 0 7, .lockCreate 0, .underClocks 8, .emit 1, .release, .succeeded 0, .emit 0]
  have hauto := hlast.2.2.2.2.2.2.2 (by decide +kernel) .auto (some 7) (by decide +kernel)
  revert hauto
  decide +kernel

end Markers

end AgentsCommander.Clocks
