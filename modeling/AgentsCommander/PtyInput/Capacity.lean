import AgentsCommander.PtyInput.Persistence
import AgentsCommander.PtyInput.Runs

/-! The room that operations take up until they end: only admission takes more, and it looks
at the limits first. -/
namespace AgentsCommander.PtyInput
open Foundation
open MessageStore (Timestamp MessageStoreError)

theorem filterMap_map_sublist {α β : Type*} {f : α → α} {g : α → Option β} {l : List α}
    (h : ∀ a ∈ l, g (f a) = g a ∨ g (f a) = none) :
    ((l.map f).filterMap g).Sublist (l.filterMap g) := by
  induction l with
  | nil => exact List.Sublist.refl _
  | cons a l ih =>
    have htail := ih fun b hb => h b (List.mem_cons_of_mem a hb)
    rw [List.map_cons]
    rcases h a List.mem_cons_self with ha | ha
    · cases hg : g a with
      | none =>
        rw [List.filterMap_cons_none (ha.trans hg), List.filterMap_cons_none hg]
        exact htail
      | some b =>
        rw [List.filterMap_cons_some (ha.trans hg), List.filterMap_cons_some hg]
        exact htail.cons_cons b
    · rw [List.filterMap_cons_none ha]
      cases hg : g a with
      | none =>
        rw [List.filterMap_cons_none hg]
        exact htail
      | some b =>
        rw [List.filterMap_cons_some hg]
        exact htail.cons b

/-- What an operation is charged with, and to whom, until it ends. -/
def Operation.charge (o : Operation) : Option (String × ℤ) :=
  if o.row.status.isTerminal then none else some (o.row.senderFqn, o.row.payloadBytes)

def PtyTables.charges (t : PtyTables) : List (String × ℤ) := t.operations.rows.filterMap (·.charge)

/-- The caps on the rows that have not ended. -/
structure WithinCapacity (t : PtyTables) : Prop where
  sender : ∀ sender,
    t.nonterminal.countP (·.senderFqn = sender) ≤ ptyInputMaxNonterminalPerSender
  all : t.nonterminal.length ≤ ptyInputMaxNonterminalGlobal
  bytes : (t.nonterminal.map (·.payloadBytes)).sum ≤ ptyInputMaxNonterminalBytes

theorem charges_eq (t : PtyTables) :
    t.charges = t.nonterminal.map fun r => (r.senderFqn, r.payloadBytes) := by
  unfold PtyTables.charges PtyTables.nonterminal
  induction t.operations.rows with
  | nil => rfl
  | cons o rows ih =>
    rw [List.map_cons, List.filter_cons]
    cases hs : o.row.status.isTerminal with
    | true =>
      have hc : o.charge = none := by
        unfold Operation.charge
        rw [if_pos hs]
      rw [List.filterMap_cons_none hc, ih]
      rfl
    | false =>
      have hc : o.charge = some (o.row.senderFqn, o.row.payloadBytes) := by
        unfold Operation.charge
        rw [hs]
        rfl
      rw [List.filterMap_cons_some hc, ih]
      rfl

/-- The caps in terms of what is charged. -/
def Fits (charges : List (String × ℤ)) : Prop :=
  (∀ sender, charges.countP (·.1 = sender) ≤ ptyInputMaxNonterminalPerSender) ∧
    charges.length ≤ ptyInputMaxNonterminalGlobal ∧
    (charges.map Prod.snd).sum ≤ ptyInputMaxNonterminalBytes

theorem countP_charges (t : PtyTables) (sender : String) :
    t.charges.countP (·.1 = sender) = t.nonterminal.countP (·.senderFqn = sender) := by
  rw [charges_eq, List.countP_map]
  rfl

theorem length_charges (t : PtyTables) : t.charges.length = t.nonterminal.length := by
  rw [charges_eq, List.length_map]

theorem sum_charges (t : PtyTables) :
    (t.charges.map Prod.snd).sum = (t.nonterminal.map (·.payloadBytes)).sum := by
  rw [charges_eq, List.map_map]
  rfl

theorem withinCapacity_iff (t : PtyTables) : WithinCapacity t ↔ Fits t.charges := by
  unfold Fits
  simp only [countP_charges, length_charges, sum_charges]
  exact ⟨fun h => ⟨h.sender, h.all, h.bytes⟩, fun h => ⟨h.1, h.2.1, h.2.2⟩⟩

theorem Fits.sublist {l l' : List (String × ℤ)} (h : Fits l) (hs : l'.Sublist l)
    (hpos : ∀ x ∈ l, 0 ≤ x.2) : Fits l' := by
  obtain ⟨hsender, hall, hbytes⟩ := h
  refine ⟨fun sender => (hs.countP_le).trans (hsender sender), hs.length_le.trans hall, ?_⟩
  have hmap : (l'.map Prod.snd).Sublist (l.map Prod.snd) := hs.map _
  have hle : (l'.map Prod.snd).sum ≤ (l.map Prod.snd).sum := by
    apply hmap.sum_le_sum
    intro b hb
    obtain ⟨x, hx, rfl⟩ := List.mem_map.mp hb
    exact hpos x hx
  exact hle.trans hbytes

/-- The caps hold with one more, where there was room for it. -/
theorem Fits.concat {t : PtyTables} {r : OperationRow} {l : List (String × ℤ)} (h : Fits t.charges)
    (hroom : t.Room r) (hl : l = t.charges ++ [(r.senderFqn, r.payloadBytes)]) : Fits l := by
  obtain ⟨hsender, hall, hbytes⟩ := h
  rw [hl]
  refine ⟨fun sender => ?_, ?_, ?_⟩
  · rw [List.countP_append, List.countP_singleton]
    by_cases he : r.senderFqn = sender
    · have hlt := hroom.sender
      rw [he, ← countP_charges] at hlt
      rw [if_pos (decide_eq_true he)]
      omega
    · have hne : decide (r.senderFqn = sender) ≠ true := fun hd => he (of_decide_eq_true hd)
      rw [if_neg hne]
      exact hsender sender
  · have hlt := hroom.all
    rw [← length_charges] at hlt
    rw [List.length_append, List.length_singleton]
    omega
  · have hle := hroom.bytes
    rw [← sum_charges] at hle
    rw [List.map_append, List.sum_append, List.map_singleton, List.sum_singleton]
    exact hle

theorem charges_nonneg (t : PtyTables) : ∀ x ∈ t.charges, 0 ≤ x.2 := by
  intro x hx
  obtain ⟨o, -, hc⟩ := List.mem_filterMap.mp hx
  unfold Operation.charge at hc
  split_ifs at hc
  cases hc
  have hvalue := (checks_iff.mp o.checked).2.1
  simp only [PtyRecord.valueChecks, Bool.and_eq_true, decide_eq_true_eq] at hvalue
  have hone : 1 ≤ o.row.payloadBytes := hvalue.1.1.1.2.1
  show 0 ≤ o.row.payloadBytes
  omega

/-- A row put in another's place is charged as that one was, or not at all. -/
theorem charges_set {t : PtyTables} {o o' : Operation}
    (found : t.operations.get o'.row.injectionId = some o)
    (h : o'.charge = o.charge ∨ o'.charge = none) :
    ((t.operations.set o').rows.filterMap (·.charge)).Sublist t.charges := by
  apply filterMap_map_sublist
  intro p hp
  by_cases hk : p.row.injectionId = o'.row.injectionId
  · have hpo : p = o := t.operations.eq_of_key_eq hp (Table.mem_of_get found)
      (hk.trans (id_of_operation found).symm)
    rw [if_pos hk, hpo]
    exact h
  · rw [if_neg hk]
    exact .inl rfl

/-- No transaction charges more, but an admission that found room. -/
theorem charges_of_effect {t t' : PtyTables} {txn : Txn} (h : Effect t txn t') :
    t'.charges.Sublist t.charges ∨
      ∃ r : OperationRow, t.Room r ∧ t'.charges = t.charges ++ [(r.senderFqn, r.payloadBytes)] := by
  cases h with
  | unchanged => exact .inl (List.Sublist.refl _)
  | admitted req wallNow o free status fresh coherent room =>
    right
    have hc : o.charge = some (o.row.senderFqn, o.row.payloadBytes) := by
      unfold Operation.charge
      rw [status]
      rfl
    refine ⟨o.row, room, ?_⟩
    show (t.operations.rows ++ [o]).filterMap (·.charge) = _
    rw [List.filterMap_append, List.filterMap_cons_some hc]
    rfl
  | refused => exact .inl (List.Sublist.refl _)
  | waited _ o o' found before after identity coherent bytes =>
    left
    apply charges_set found
    left
    have hsender : o'.row.senderFqn = o.row.senderFqn := congrArg Identity.senderFqn identity
    unfold Operation.charge
    rw [not_isTerminal_of_isWaiting before, not_isTerminal_of_isWaiting after, hsender, bytes]
  | begun leaseOwner sessionId backend now commit o o' found before after identity coherent bytes =>
    left
    apply charges_set found
    left
    have hsender : o'.row.senderFqn = o.row.senderFqn := congrArg Identity.senderFqn identity
    unfold Operation.charge
    rw [before, after, hsender, bytes]
    rfl
  | settled _ o o' s tombstones found before after =>
    left
    apply charges_set found
    right
    unfold Operation.charge
    rw [if_pos after]
  | compacted _ o s found status buried record =>
    left
    exact List.filter_sublist.filterMap _
  | marked now o o' found status row =>
    left
    apply charges_set found
    right
    unfold Operation.charge
    rw [row, if_pos status]

theorem withinCapacity_of_effect {t t' : PtyTables} {txn : Txn} (h : Effect t txn t')
    (hw : WithinCapacity t) : WithinCapacity t' := by
  rw [withinCapacity_iff] at hw ⊢
  rcases charges_of_effect h with hs | ⟨r, hroom, heq⟩
  · exact hw.sublist hs (charges_nonneg t)
  · exact hw.concat hroom heq

section
variable {sha256Hex : ByteArray → String}

theorem withinCapacity_next {s : PtyStore} (e : PtyEvent) (h : WithinCapacity s.tables) :
    WithinCapacity ((ptyStore sha256Hex).next s e).tables := by
  obtain ⟨ts, hrun, -⟩ := next_run sha256Hex s e
  rw [hrun]
  exact Machine.run_inv_free (P := WithinCapacity)
    (fun t txn ht => withinCapacity_of_effect (effect_next sha256Hex t txn) ht) h ts

end

/-- Whatever is admitted, claimed, retried, recovered, expired, ended or compacted, in any
order, the rows that have not ended stay within the caps. -/
theorem withinCapacity_run (sha256Hex : ByteArray → String) (es : List PtyEvent) :
    WithinCapacity ((ptyStore sha256Hex).run .empty es).tables := by
  have hempty : WithinCapacity PtyStore.empty.tables := by
    refine ⟨fun _ => Nat.zero_le _, Nat.zero_le _, ?_⟩
    decide
  exact Machine.run_inv_free (P := fun s : PtyStore => WithinCapacity s.tables)
    (fun _ e h => withinCapacity_next e h) hempty es

end AgentsCommander.PtyInput
