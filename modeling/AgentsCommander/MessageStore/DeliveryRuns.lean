import AgentsCommander.MessageStore.Delivery

/-! Runs of the delivery queue under any number of workers. A worker settles a message by
id; nothing compares the row's lease with it. -/
namespace AgentsCommander.MessageStore
open Foundation

/-- The table, and the pairs (worker, message) handed out and since then neither settled
nor handed to anyone else. -/
structure Queue where
  messages : Messages
  handed : List (String × String)

def Queue.empty : Queue := ⟨.empty, []⟩

/-- The row exists, delivered or poisoned. -/
def Queue.ended (q : Queue) (messageId : String) : Bool :=
  (q.messages.get messageId).any (·.status.terminal)

inductive QueueEvent where
  | enqueue (req : EnqueueRequest) (messageId : String) (now : Timestamp)
  | leaseDue (now : Timestamp) (limit leaseFor : ℕ) (leaseOwner : String)
      (closing : String → Bool)
  | settle (worker messageId : String) (now : Timestamp) (how : Settlement)

inductive QueueReply where
  | enqueued (result : EnqueueResult)
  | leased (messages : List LeasedMessage)
  | settled

section
variable (sha256Hex : ByteArray → String)

def Queue.step (q : Queue) : QueueEvent → Queue × Except MessageStoreError QueueReply
  | .enqueue req messageId now =>
    match q.messages.enqueue sha256Hex req messageId now with
    | .error e => (q, .error e)
    | .ok (t, result) => (⟨t, q.handed⟩, .ok (.enqueued result))
  | .leaseDue now limit leaseFor leaseOwner closing =>
    let leased := q.messages.leaseDue now limit leaseFor leaseOwner closing
    (⟨leased.1, leased.2.map (fun l => (leaseOwner, l.messageId)) ++
        q.handed.filter fun h => ∀ l ∈ leased.2, l.messageId ≠ h.2⟩,
      .ok (.leased leased.2))
  | .settle worker messageId now how =>
    let handed := q.handed.filter (· ≠ (worker, messageId))
    match q.messages.settle messageId now how with
    | .error e => (⟨q.messages, handed⟩, .error e)
    | .ok t => (⟨t, handed⟩, .ok .settled)

def queue : Machine Queue QueueEvent (Except MessageStoreError QueueReply) := ⟨Queue.step sha256Hex⟩

/-- What the queue promises about a run from the empty store. -/
structure DeliveryLaw (es : List QueueEvent) : Prop where
  /-- A terminal row stays terminal. -/
  absorbing : ∀ pre post, es = pre ++ post → ∀ id,
    ((queue sha256Hex).run .empty pre).ended id = true →
    ((queue sha256Hex).run .empty es).ended id = true
  /-- A terminal row is not leased again. -/
  unleased : ∀ pre e post, es = pre ++ e :: post → ∀ id,
    ((queue sha256Hex).run .empty pre).ended id = true →
    ∀ leased, (queue sha256Hex).answer ((queue sha256Hex).run .empty pre) e = .ok (.leased leased) →
    ∀ l ∈ leased, l.messageId ≠ id
  /-- A settle that changes a row comes from the holder of its lease. -/
  holder : ∀ pre worker messageId now how post, es = pre ++ .settle worker messageId now how :: post →
    ∀ id, ((queue sha256Hex).next ((queue sha256Hex).run .empty pre)
        (.settle worker messageId now how)).messages.get id ≠
      ((queue sha256Hex).run .empty pre).messages.get id →
    ∃ m, ((queue sha256Hex).run .empty pre).messages.get id = some m ∧
      m.status = .delivering ∧ m.leaseOwner = some worker

end

/-- Workers settle what they were handed, once, and before anyone else is handed it. -/
def Queue.Timely (q : Queue) : QueueEvent → Prop
  | .enqueue .. | .leaseDue .. => True
  | .settle worker messageId .. => (worker, messageId) ∈ q.handed

theorem not_due_of_terminal {m : Message} (h : m.status.terminal = true) (now : Timestamp) :
    m.due now = false := by
  cases hs : m.status <;> simp_all [MessageStatus.terminal, Message.due]

theorem enqueue_get {sha256Hex : ByteArray → String} {t t' : Messages} {req : EnqueueRequest}
    {messageId : String} {now : Timestamp} {r : EnqueueResult}
    (h : t.enqueue sha256Hex req messageId now = .ok (t', r)) {id : String} {m : Message}
    (hm : t.get id = some m) : t'.get id = some m := by
  unfold Messages.enqueue at h
  split_ifs at h with hb
  dsimp only at h
  split at h
  · cases h
  · cases h
    unfold Messages.insertOrIgnore
    split_ifs with hf ho
    · rw [Table.get_insert, if_neg]
      · exact hm
      · rintro rfl
        exact absurd (hf.symm.trans hm) (by simp)
    · exact hm
    · exact hm

/-- Where a lease scan may have brought the row under `id`, and what it says it leased. -/
private def Scanned (t : Messages) (now leaseUntil : Timestamp) (leaseOwner : String)
    (acc : Messages × List LeasedMessage) (id : String) : Prop :=
  (acc.1.get id = t.get id ∧ ∀ l ∈ acc.2, l.messageId ≠ id) ∨
    ∃ m, t.get id = some m ∧ m.due now = true ∧
      acc.1.get id = some (m.lease leaseOwner leaseUntil) ∧ ∃ l ∈ acc.2, l.messageId = id

private theorem scanned_leaseOne {t : Messages} {now leaseUntil : Timestamp} {leaseOwner : String}
    {closing : String → Bool} {acc : Messages × List LeasedMessage} {id : String}
    (h : Scanned t now leaseUntil leaseOwner acc id) (c : String × String) :
    Scanned t now leaseUntil leaseOwner
      (Messages.leaseOne now leaseUntil leaseOwner closing acc c) id := by
  unfold Messages.leaseOne
  split_ifs with hc
  · exact h
  split
  · exact h
  rename_i m hm
  split_ifs with hd
  · have hk : m.messageId = c.1 := Table.key_of_get hm
    by_cases hid : id = c.1
    · subst hid
      have hlast : ∃ l ∈ acc.2 ++ [(m.lease leaseOwner leaseUntil).toLeasedMessage],
          l.messageId = c.1 :=
        ⟨_, List.mem_append_right _ (List.mem_singleton_self _), hk⟩
      right
      rcases h with ⟨hg, -⟩ | ⟨m₀, ht, hd₀, hg, -⟩
      · exact ⟨m, hg ▸ hm, hd, by rw [Table.get_update_self, hm]; rfl, hlast⟩
      · refine ⟨m₀, ht, hd₀, ?_, hlast⟩
        rw [Table.get_update_self, hg]
        rfl
    · rcases h with ⟨hg, hl⟩ | ⟨m₀, ht, hd₀, hg, l, hl, hle⟩
      · left
        refine ⟨by rw [Table.get_update_ne _ _ _ hid, hg], ?_⟩
        intro l hmem
        rcases List.mem_append.mp hmem with hmem | hmem
        · exact hl l hmem
        · rw [List.mem_singleton.mp hmem]
          change m.messageId ≠ id
          rw [hk]
          exact fun he => hid he.symm
      · exact Or.inr ⟨m₀, ht, hd₀, by rw [Table.get_update_ne _ _ _ hid, hg],
          l, List.mem_append_left _ hl, hle⟩
  · exact h

/-- A lease scan leaves a row alone, or leases a due one. -/
theorem leaseDue_get (t : Messages) (now : Timestamp) (limit leaseFor : ℕ) (leaseOwner : String)
    (closing : String → Bool) (id : String) :
    ((t.leaseDue now limit leaseFor leaseOwner closing).1.get id = t.get id ∧
      ∀ l ∈ (t.leaseDue now limit leaseFor leaseOwner closing).2, l.messageId ≠ id) ∨
    ∃ m, t.get id = some m ∧ m.due now = true ∧
      (t.leaseDue now limit leaseFor leaseOwner closing).1.get id =
        some (m.lease leaseOwner (now + durationFromStd leaseFor)) ∧
      ∃ l ∈ (t.leaseDue now limit leaseFor leaseOwner closing).2, l.messageId = id := by
  have key : ∀ (cs : List (String × String)) (acc : Messages × List LeasedMessage),
      Scanned t now (now + durationFromStd leaseFor) leaseOwner acc id →
      Scanned t now (now + durationFromStd leaseFor) leaseOwner
        (cs.foldl (Messages.leaseOne now (now + durationFromStd leaseFor) leaseOwner closing) acc)
        id := by
    intro cs
    induction cs with
    | nil => exact fun _ h => h
    | cons c cs ih => exact fun acc h => ih _ (scanned_leaseOne h c)
  exact key _ _ (Or.inl ⟨rfl, fun l hl => by cases hl⟩)

theorem settle_ok {t t' : Messages} {messageId : String} {now : Timestamp} {how : Settlement}
    (h : t.settle messageId now how = .ok t') {id : String} (hid : id ≠ messageId) :
    t'.get id = t.get id := by
  have key : ∀ f hf, Messages.settleWith t messageId f hf = .ok t' → t'.get id = t.get id := by
    intro f hf hs
    unfold Messages.settleWith at hs
    split at hs
    · cases hs
    · cases hs
      exact Table.get_update_ne _ _ _ hid
  cases how with
  | delivered => exact key _ _ h
  | failed error maxAttempts => exact key _ _ h
  | released reason => exact key _ _ h

/-- Every message in a worker's hands is under that worker's lease. -/
def Queue.Held (q : Queue) : Prop :=
  ∀ w id, (w, id) ∈ q.handed →
    ∃ m, q.messages.get id = some m ∧ m.status = .delivering ∧ m.leaseOwner = some w

theorem held_empty : Queue.empty.Held := fun _ _ h => by cases h

section
variable {sha256Hex : ByteArray → String} {q : Queue}

/-- A settle that is not the row's own leaves the row alone. -/
theorem settle_get (worker messageId : String) (now : Timestamp) (how : Settlement) {id : String}
    (hid : id ≠ messageId) :
    ((queue sha256Hex).next q (.settle worker messageId now how)).messages.get id =
      q.messages.get id := by
  simp only [queue, Machine.next, Queue.step]
  split
  · rfl
  · rename_i t ht
    exact settle_ok ht hid

theorem mem_handed_settle {worker messageId : String} {now : Timestamp} {how : Settlement}
    {w id : String}
    (h : (w, id) ∈ ((queue sha256Hex).next q (.settle worker messageId now how)).handed) :
    (w, id) ∈ q.handed ∧ (w, id) ≠ (worker, messageId) := by
  have hf : (w, id) ∈ q.handed.filter (· ≠ (worker, messageId)) := by
    simp only [queue, Machine.next, Queue.step] at h
    split at h <;> exact h
  exact ⟨(List.mem_filter.mp hf).1, of_decide_eq_true (List.mem_filter.mp hf).2⟩

theorem held_next (e : QueueEvent) (hq : q.Held) (ht : q.Timely e) :
    ((queue sha256Hex).next q e).Held := by
  intro w id hmem
  cases e with
  | enqueue req messageId now =>
    simp only [queue, Machine.next, Queue.step] at hmem ⊢
    split at hmem
    · exact hq w id hmem
    · rename_i t r he
      obtain ⟨m, hm, hs⟩ := hq w id hmem
      exact ⟨m, enqueue_get he hm, hs⟩
  | leaseDue now limit leaseFor leaseOwner closing =>
    simp only [queue, Machine.next, Queue.step] at hmem ⊢
    rcases leaseDue_get q.messages now limit leaseFor leaseOwner closing id with
      ⟨hg, hl⟩ | ⟨m, -, -, hg, l, hl, hle⟩
    · rcases List.mem_append.mp hmem with hmem | hmem
      · obtain ⟨l, hlm, he⟩ := List.mem_map.mp hmem
        exact absurd (congrArg Prod.snd he) (hl l hlm)
      · rw [hg]
        exact hq w id (List.mem_filter.mp hmem).1
    · rw [hg]
      rcases List.mem_append.mp hmem with hmem | hmem
      · obtain ⟨l, -, he⟩ := List.mem_map.mp hmem
        exact ⟨_, rfl, rfl, congrArg some (congrArg Prod.fst he)⟩
      · exact absurd hle (of_decide_eq_true (List.mem_filter.mp hmem).2 l hl)
  | settle worker messageId now how =>
    obtain ⟨hold, hne⟩ := mem_handed_settle hmem
    by_cases hid : id = messageId
    · subst hid
      obtain ⟨m, hm, -, ho⟩ := hq w id hold
      obtain ⟨m', hm', -, ho'⟩ := hq worker id ht
      rw [hm] at hm'
      cases hm'
      rw [ho] at ho'
      cases ho'
      exact absurd rfl hne
    · rw [settle_get worker messageId now how hid]
      exact hq w id hold

theorem terminal_next (e : QueueEvent) (hq : q.Held) (ht : q.Timely e) {id : String} {m : Message}
    (hm : q.messages.get id = some m) (hs : m.status.terminal = true) :
    ((queue sha256Hex).next q e).messages.get id = some m := by
  cases e with
  | enqueue req messageId now =>
    simp only [queue, Machine.next, Queue.step]
    split
    · exact hm
    · rename_i he
      exact enqueue_get he hm
  | leaseDue now limit leaseFor leaseOwner closing =>
    rcases leaseDue_get q.messages now limit leaseFor leaseOwner closing id with
      ⟨hg, -⟩ | ⟨m', hm', hd, -⟩
    · exact hg.trans hm
    · rw [hm] at hm'
      cases hm'
      rw [not_due_of_terminal hs] at hd
      cases hd
  | settle worker messageId now how =>
    have hid : id ≠ messageId := by
      rintro rfl
      obtain ⟨m', hm', hd, -⟩ := hq worker id ht
      rw [hm] at hm'
      cases hm'
      rw [hd] at hs
      cases hs
    rw [settle_get worker messageId now how hid]
    exact hm

end

/-- Where no settle comes late, terminal rows are absorbing and only the lease holder settles. -/
theorem deliveryLaw_of_timely (sha256Hex : ByteArray → String) (es : List QueueEvent)
    (h : (queue sha256Hex).Along Queue.Timely .empty es) : DeliveryLaw sha256Hex es := by
  have hheld : ∀ pre post, es = pre ++ post → ((queue sha256Hex).run .empty pre).Held := by
    rintro pre post rfl
    exact Machine.run_inv (fun _ e hq ht => held_next e hq ht) held_empty
      ((Machine.along_append _ _ _ _).mp h).1
  have htimely : ∀ pre e post, es = pre ++ e :: post →
      ((queue sha256Hex).run .empty pre).Timely e := by
    rintro pre e post rfl
    exact ((Machine.along_append _ _ _ _).mp h).2.1
  refine ⟨?_, ?_, ?_⟩
  · rintro pre post rfl id hend
    obtain ⟨m, hm, hs⟩ := (Option.any_eq_true _ _).mp hend
    have hpost := ((Machine.along_append _ _ _ _).mp h).2
    have hkeep := Machine.run_inv (P := fun q => q.Held ∧ q.messages.get id = some m)
      (fun _ e hq ht => ⟨held_next e hq.1 ht, terminal_next e hq.1 ht hq.2 hs⟩)
      ⟨hheld pre post rfl, hm⟩ hpost
    rw [Machine.run_append]
    exact (Option.any_eq_true _ _).mpr ⟨m, hkeep.2, hs⟩
  · intro pre e post he id hend leased ha l hl
    obtain ⟨m, hm, hs⟩ := (Option.any_eq_true _ _).mp hend
    cases e with
    | enqueue req messageId now =>
      simp only [queue, Machine.answer, Queue.step] at ha
      split at ha <;> cases ha
    | leaseDue now limit leaseFor leaseOwner closing =>
      cases ha
      rcases leaseDue_get ((queue sha256Hex).run .empty pre).messages now limit leaseFor leaseOwner
        closing id with ⟨-, hn⟩ | ⟨m', hm', hd, -⟩
      · exact hn l hl
      · rw [hm] at hm'
        cases hm'
        rw [not_due_of_terminal hs] at hd
        cases hd
    | settle worker messageId now how =>
      simp only [queue, Machine.answer, Queue.step] at ha
      split at ha <;> cases ha
  · intro pre worker messageId now how post he id hne
    have hid : id = messageId := by
      by_contra hid
      exact hne (settle_get worker messageId now how hid)
    subst hid
    exact hheld pre _ he worker id (htimely pre _ post he)

/-- One message, leased by `a` for thirty seconds and then, a second too late, by `b`. -/
def leasedTwice : List QueueEvent :=
  [.enqueue ⟨"team/lead", "team/dev", "op-1", "text/plain", "hello", "cli", none⟩ "m-1" 0,
    .leaseDue 0 20 (30 * 10 ^ 9) "a" fun _ => false,
    .leaseDue (31 * 10 ^ 9) 20 (30 * 10 ^ 9) "b" fun _ => false]

def helloSha256 : ByteArray → String :=
  fun _ => "2cf24dba5fb0a30e26e83b2ac5b9e29e1b161e5c1fa7425e73043362938b9824"

theorem deliveryLaw_leasedTwice :
    DeliveryLaw helloSha256 (leasedTwice ++ [.settle "b" "m-1" (32 * 10 ^ 9) .delivered]) := by
  refine deliveryLaw_of_timely _ _ ⟨trivial, trivial, trivial, ?_, trivial⟩
  change ("b", "m-1") ∈ _
  decide

/-- The slower worker takes a delivered message back to the queue. -/
theorem not_deliveryLaw_leasedTwice :
    ¬ DeliveryLaw helloSha256 (leasedTwice ++ [.settle "b" "m-1" (32 * 10 ^ 9) .delivered,
      .settle "a" "m-1" (33 * 10 ^ 9) (.failed "target is not reachable" 5)]) := by
  intro h
  have hopen := h.absorbing (leasedTwice ++ [.settle "b" "m-1" (32 * 10 ^ 9) .delivered]) [_] rfl
    "m-1" (by decide)
  exact absurd hopen (by decide)

end AgentsCommander.MessageStore
