import AgentsCommander.Clocks.Escrow

/-! The sections under the clocks lock as steps of the creates: the order lock and the emits between
them change none of the clocks. -/
namespace AgentsCommander.Clocks
open Foundation

namespace Markers
variable {fqn : String} {markers : Markers} {s : Creates}

/-- The same clocks and tickets, but for the ticket of a create that waits to put markers back. -/
structure Follows (markers : Markers) (s : Creates) : Prop where
  clocks : s.clocks = markers.clocks
  fresh : ∀ ticket, markers.holder = some (some (.create ticket)) →
    markers.tickets.lookup ticket = none
  tickets : markers.holder ≠ some (some .restore) →
    ∀ k, s.tickets.lookup k = markers.tickets.lookup k
  failing : markers.holder = some (some .restore) → ∃ ticket,
    markers.tickets.lookup ticket = none ∧
      ∀ k, s.tickets.lookup k = if k = ticket then some false else markers.tickets.lookup k

theorem follows_noteCreate (h : markers.Follows s) {ticket : ℕ}
    (hholder : markers.holder = some (some (.create ticket))) (now : DateTime) :
    (markers.noteCreate fqn ticket now).Follows
      ((creates fqn).next s (.noteCoordinatorCreate ticket now)) := by
  have htickets := h.tickets fun heq => by cases hholder.symm.trans heq
  have hnone : s.tickets.lookup ticket = none := (htickets ticket).trans (h.fresh ticket hholder)
  simp only [Machine.next, creates, Creates.step, hnone]
  refine ⟨?_, fun _ heq => (by cases heq), fun _ k => ?_, fun heq => by cases heq⟩
  · rw [h.clocks]
    rfl
  · show (s.tickets.insert ticket false).lookup k = (markers.tickets.insert ticket false).lookup k
    rw [Assoc.lookup_insert_eq, Assoc.lookup_insert_eq, htickets k]

theorem follows_restore (h : markers.Follows s)
    (hholder : markers.holder = some (some .restore)) :
    ∃ ticket, (markers.restore fqn).Follows ((creates fqn).next s (.failed ticket)) := by
  obtain ⟨ticket, hgone, htickets⟩ := h.failing hholder
  have hfalse : s.tickets.lookup ticket = some false := (htickets ticket).trans (if_pos rfl)
  refine ⟨ticket, ?_⟩
  simp only [Machine.next, creates, Creates.step, hfalse]
  refine ⟨?_, fun _ heq => (by cases heq), fun _ k => ?_, fun heq => by cases heq⟩
  · rw [h.clocks]
    rfl
  · show (s.tickets.erase ticket).lookup k = markers.tickets.lookup k
    rw [Assoc.lookup_erase_eq, htickets k]
    split_ifs with hk
    · rw [hk, hgone]
    · rfl

theorem follows_finishOk (h : markers.Follows s) {ticket : ℕ} {fence : Bool}
    (hticket : markers.tickets.lookup ticket = some fence) :
    (markers.finishOk fqn ticket).Follows (s.finishOk fqn ticket) := by
  refine ⟨?_, fun other hholder => ?_, fun hholder k => ?_, fun hholder => ?_⟩
  · rw [Creates.finishOk, Markers.finishOk, h.clocks]
  · show (markers.tickets.erase ticket).lookup other = none
    rw [Assoc.lookup_erase_eq, h.fresh other hholder, ite_self]
  · show (s.tickets.erase ticket).lookup k = (markers.tickets.erase ticket).lookup k
    rw [Assoc.lookup_erase_eq, Assoc.lookup_erase_eq, h.tickets hholder k]
  · obtain ⟨failing, hgone, htickets⟩ := h.failing hholder
    refine ⟨failing, ?_, fun k => ?_⟩
    · show (markers.tickets.erase ticket).lookup failing = none
      rw [Assoc.lookup_erase_eq, hgone, ite_self]
    · show (s.tickets.erase ticket).lookup k =
        if k = failing then some false else (markers.tickets.erase ticket).lookup k
      rw [Assoc.lookup_erase_eq, Assoc.lookup_erase_eq, htickets k]
      split_ifs with hk hfailing
      · rw [hk.symm.trans hfailing, hgone] at hticket
        cases hticket
      · rfl
      · rfl
      · rfl

theorem follows_sessionMayExist (h : markers.Follows s) (ticket : ℕ) :
    ∃ es, ((markersMachine fqn).next markers (.sessionMayExist ticket)).Follows
      ((creates fqn).run s es) := by
  have hgone : ∀ k, markers.tickets.lookup k = none →
      (Assoc.adjust markers.tickets ticket fun _ => true).lookup k = none := by
    intro k hk
    rw [Assoc.lookup_adjust, hk, Option.map_none, ite_self]
  by_cases hrestore : markers.holder = some (some .restore)
  · obtain ⟨failing, hfailing, htickets⟩ := h.failing hrestore
    by_cases hticket : ticket = failing
    · subst hticket
      refine ⟨[], h.clocks, fun k hk => hgone k (h.fresh k hk), absurd hrestore, fun _ =>
        ⟨ticket, hgone ticket hfailing, fun k => ?_⟩⟩
      rw [Machine.run_nil, htickets k]
      split_ifs with hk
      · rfl
      · exact ((Assoc.lookup_adjust _ _ _ _).trans (if_neg hk)).symm
    · refine ⟨[.sessionMayExist ticket], h.clocks, fun k hk => hgone k (h.fresh k hk),
        absurd hrestore, fun _ => ⟨failing, hgone failing hfailing, fun k => ?_⟩⟩
      show (Assoc.adjust s.tickets ticket fun _ => true).lookup k = if k = failing then some false
        else (Assoc.adjust markers.tickets ticket fun _ => true).lookup k
      rw [Assoc.lookup_adjust, Assoc.lookup_adjust, htickets k]
      by_cases hk : k = failing
      · rw [if_pos hk, if_pos hk, if_neg fun hkt => hticket (hkt.symm.trans hk)]
      · rw [if_neg hk, if_neg hk]
  · refine ⟨[.sessionMayExist ticket], h.clocks, fun k hk => hgone k (h.fresh k hk),
      fun _ k => ?_, fun hholder => absurd hholder hrestore⟩
    show (Assoc.adjust s.tickets ticket fun _ => true).lookup k =
      (Assoc.adjust markers.tickets ticket fun _ => true).lookup k
    rw [Assoc.lookup_adjust, Assoc.lookup_adjust, h.tickets hrestore k]

theorem Follows.lookup (h : markers.Follows s) {ticket : ℕ} {fence : Bool}
    (hticket : markers.tickets.lookup ticket = some fence) :
    s.tickets.lookup ticket = some fence := by
  by_cases hrestore : markers.holder = some (some .restore)
  · obtain ⟨failing, hgone, htickets⟩ := h.failing hrestore
    rw [htickets ticket, if_neg, hticket]
    rintro rfl
    cases hgone.symm.trans hticket
  · exact (h.tickets hrestore ticket).trans hticket

theorem follows_emit (h : markers.Follows s) (position : ℕ) :
    (markers.emit position).Follows s := by
  unfold Markers.emit
  cases markers.pending[position]? with
  | none => exact h
  | some emission =>
    dsimp only
    split_ifs
    · exact h
    · exact ⟨h.clocks, h.fresh, h.tickets, h.failing⟩

/-- Every step that is not about the order lock or the emits is one of the creates. -/
theorem follows_next (h : markers.Follows s) (e : MarkersEvent) :
    ∃ es, ((markersMachine fqn).next markers e).Follows ((creates fqn).run s es) := by
  have hstays : ∃ es, markers.Follows ((creates fqn).run s es) := ⟨[], h⟩
  cases e with
  | markClosed mark now =>
    refine ⟨[.markAutoClosed now], ?_, h.fresh, h.tickets, h.failing⟩
    show (s.clocks.markAutoClosed fqn now).1 = (markers.clocks.markAutoClosed fqn now).1
    rw [h.clocks]
  | lockCreate ticket =>
    simp only [Machine.next, markersMachine, Markers.step]
    split_ifs with hfree
    · obtain ⟨hholder, hticket⟩ := hfree
      refine ⟨[], h.clocks, fun other hother => ?_, fun _ => h.tickets fun heq => (by cases hholder.symm.trans heq),
        fun heq => by cases heq⟩
      obtain rfl : ticket = other := by
        injection hother with hother
        injection hother with hother
        injection hother
      exact hticket
    · exact hstays
  | underClocks now =>
    simp only [Machine.next, markersMachine, Markers.step]
    split
    · next ticket hholder => exact ⟨[.noteCoordinatorCreate ticket now],
        follows_noteCreate h hholder now⟩
    · next hholder =>
      obtain ⟨ticket, hnext⟩ := follows_restore h hholder
      exact ⟨[.failed ticket], hnext⟩
    · exact hstays
  | emit position => exact ⟨[], follows_emit h position⟩
  | release =>
    simp only [Machine.next, markersMachine, Markers.step]
    split_ifs with hheld
    · refine ⟨[], h.clocks, fun _ heq => (by cases heq),
        fun _ => h.tickets fun heq => (by cases hheld.1.symm.trans heq), fun heq => by cases heq⟩
    · exact hstays
  | sessionMayExist ticket => exact follows_sessionMayExist h ticket
  | succeeded ticket =>
    simp only [Machine.next, markersMachine, Markers.step]
    cases hticket : markers.tickets.lookup ticket with
    | none => exact hstays
    | some fence =>
      refine ⟨[.succeeded ticket], ?_⟩
      simp only [Machine.run_cons, Machine.run_nil, Machine.next, creates, Creates.step,
        h.lookup hticket]
      exact follows_finishOk h hticket
  | failed ticket =>
    simp only [Machine.next, markersMachine, Markers.step]
    cases hticket : markers.tickets.lookup ticket with
    | none => exact hstays
    | some fence =>
      cases fence with
      | true =>
        refine ⟨[.failed ticket], ?_⟩
        simp only [Machine.run_cons, Machine.run_nil, Machine.next, creates, Creates.step,
          h.lookup hticket]
        exact follows_finishOk h hticket
      | false =>
        dsimp only
        split_ifs with hfree
        · refine ⟨[], h.clocks, fun _ heq => (by cases heq), fun hholder => absurd rfl hholder,
            fun _ => ⟨ticket, AList.lookup_erase ticket markers.tickets, fun k => ?_⟩⟩
          show s.tickets.lookup k =
            if k = ticket then some false else (markers.tickets.erase ticket).lookup k
          rw [Assoc.lookup_erase_eq, h.tickets (fun heq => by cases hfree.symm.trans heq) k]
          split_ifs with hk
          · rw [hk, hticket]
          · rfl
        · exact hstays

end Markers

/-- The order lock and the emits add nothing to what becomes of the clocks. -/
theorem creates_of_markers (fqn : String) (clocks : CoordinatorClocks)
    (events : List MarkersEvent) :
    ∃ es, ((creates fqn).run (.atRest clocks) es).clocks =
      ((markersMachine fqn).run (.atRest clocks) events).clocks := by
  have hrun : ∀ (markers : Markers) (s : Creates), markers.Follows s →
      ∃ es, ((markersMachine fqn).run markers events).Follows ((creates fqn).run s es) := by
    induction events with
    | nil => exact fun markers s h => ⟨[], h⟩
    | cons e events ih =>
      intro markers s h
      obtain ⟨es, hnext⟩ := @Markers.follows_next fqn _ _ h e
      obtain ⟨fs, hrest⟩ := ih _ _ hnext
      refine ⟨es ++ fs, ?_⟩
      rw [Machine.run_append]
      exact hrest
  obtain ⟨es, hes⟩ := hrun (.atRest clocks) (.atRest clocks) ⟨rfl, nofun, fun _ _ => rfl, nofun⟩
  exact ⟨es, hes.clocks⟩

theorem exclusive_markers (fqn : String) (clocks : CoordinatorClocks)
    (hone : (clocks.closeMarkers fqn).Exclusive) (hrest : clocks.creates.lookup fqn = none)
    (events : List MarkersEvent) :
    (((markersMachine fqn).run (.atRest clocks) events).clocks.closeMarkers fqn).Exclusive := by
  obtain ⟨es, hes⟩ := creates_of_markers fqn clocks events
  rw [← hes]
  refine (Creates.sound_run ⟨.default, hrest⟩ ?_ es).exclusive
  rw [Creates.held_of_none hrest]
  exact ⟨hone, fun _ => rfl⟩

end AgentsCommander.Clocks
