import AgentsCommander.Telegram.Polling

/-! What a poll task delivers of the updates that its server pages over. -/
namespace AgentsCommander.Telegram
open Foundation

/-- The update is a text of the chat. -/
def Update.IsText (chatId : ℤ) (update : Update) (d : DeliveredText) : Prop :=
  update.parse = some d.update ∧ d.update.chatId = chatId ∧ d.update.content = .text d.text

namespace Bridge

def Ordered (bridge : Bridge) : Prop :=
  bridge.delivered.Pairwise fun d e => d.update.updateId < e.update.updateId

/-- `seen`: how many updates the server had confirmed at the start. -/
def NoneSkipped (chatId : ℤ) (seen : ℕ) (start : ℤ) (bridge : Bridge) : Prop :=
  ∀ u ∈ bridge.server.log.drop seen, start ≤ u.updateId → ∀ d, u.IsText chatId d →
    ∀ e ∈ bridge.delivered, u.updateId < e.update.updateId → d ∈ bridge.delivered

def MovesPast (limit : ℕ) (chatId : ℤ) (bridge : Bridge) : PollEvent → Prop
  | .getUpdates .answered transcribe => bridge.phase = .polling →
    ∀ u ∈ bridge.server.answer limit bridge.offset,
      u.updateId < (bridge.getUpdates limit chatId .answered transcribe).offset
  | _ => True

def polls (bridge : Bridge) : PollEvent → Bool
  | .getUpdates .answered _ => bridge.phase = .polling
  | _ => false

/-- How many updates a poll task has to pass to be past this one. -/
def ahead (bridge : Bridge) (u : Update) : ℕ :=
  bridge.server.pending.countP fun v =>
    bridge.offset ≤ v.updateId ∧ v.updateId ≤ u.updateId

def Reaches (limit : ℕ) (chatId : ℤ) (bridge : Bridge) (events : List PollEvent) : Prop :=
  ∀ u ∈ bridge.server.pending, bridge.offset ≤ u.updateId → ∀ d, u.IsText chatId d →
    bridge.ahead u ≤ (pollTask limit chatId).tally polls bridge events →
    d ∈ ((pollTask limit chatId).run bridge events).delivered

/-- Every text once, in order, none skipped, no page that holds the offset, and every text
reached. -/
structure PollLaw (limit : ℕ) (chatId : ℤ) (bridge : Bridge) (events : List PollEvent) :
    Prop where
  ordered : (pollTask limit chatId).Always Ordered bridge events
  noneSkipped : (pollTask limit chatId).Always
    (NoneSkipped chatId bridge.server.confirmed.length bridge.offset) bridge events
  movesPast : (pollTask limit chatId).Along (MovesPast limit chatId) bridge events
  reaches : ∀ pre mid, pre ++ mid <+: events →
    Reaches limit chatId ((pollTask limit chatId).run bridge pre) mid

/-- The last update of every page is a text or a voice. -/
def EndsReadable (limit : ℕ) (bridge : Bridge) : PollEvent → Prop
  | .getUpdates .answered _ => bridge.phase = .polling →
    ∀ last, (bridge.server.answer limit bridge.offset).getLast? = some last → last.parse.isSome
  | _ => True

/-- Past the skip. -/
def attached (server : Server) (offset : ℤ) : Bridge := ⟨server, .polling, offset, []⟩

variable {limit : ℕ} {chatId : ℤ} {bridge : Bridge}

theorem getUpdates_unanswered (seen : Bool) (transcribe : String → Option String) :
    bridge.getUpdates limit chatId (.unanswered seen) transcribe =
      { bridge with
        server := if seen then bridge.server.confirm bridge.offset else bridge.server } := rfl

section Books
variable {seen : ℕ} {start : ℤ}

/-- The offset is behind what was passed on, and what is behind the offset is on the server. -/
structure Books (chatId : ℤ) (seen : ℕ) (start : ℤ) (bridge : Bridge) : Prop where
  polling : bridge.phase ≠ .attaching
  ordered : bridge.Ordered
  started : start ≤ bridge.offset
  held : bridge.offset = start ∨ ∃ v ∈ bridge.server.log, bridge.offset = v.updateId + 1
  passed : ∀ d ∈ bridge.delivered, d.update.updateId < bridge.offset
  unread : ∀ u ∈ bridge.server.log.drop seen, bridge.offset ≤ u.updateId →
    u ∈ bridge.server.pending
  read : ∀ u ∈ bridge.server.log.drop seen, start ≤ u.updateId → u.updateId < bridge.offset →
    ∀ d, u.IsText chatId d → d ∈ bridge.delivered

theorem Books.noneSkipped (h : bridge.Books chatId seen start) :
    bridge.NoneSkipped chatId seen start :=
  fun u hu hstart d hd e he hlt => h.read u hu hstart (hlt.trans (h.passed e he)) d hd

theorem Books.confirm (h : bridge.Books chatId seen start) :
    Books chatId seen start { bridge with server := bridge.server.confirm bridge.offset } := by
  have hlog : (bridge.server.confirm bridge.offset).log = bridge.server.log :=
    Server.log_confirm bridge.offset
  constructor
  · exact h.polling
  · exact h.ordered
  · exact h.started
  · exact hlog.symm ▸ h.held
  · exact h.passed
  · intro u hu hoffset
    rw [hlog] at hu
    exact Server.mem_pending_confirm.mpr ⟨h.unread u hu hoffset, hoffset⟩
  · exact hlog.symm ▸ h.read

theorem Books.receive (h : bridge.Books chatId seen start) (update : Update) :
    Books chatId seen start { bridge with server := bridge.server.receive update } := by
  by_cases hnew : ∀ u ∈ bridge.server.confirmed ++ bridge.server.pending,
    u.updateId < update.updateId
  · have hreceive : bridge.server.receive update =
        ⟨bridge.server.confirmed, bridge.server.pending ++ [update], _⟩ := dif_pos hnew
    have hlog : (bridge.server.receive update).log = bridge.server.log ++ [update] := by
      rw [hreceive]
      exact (List.append_assoc ..).symm
    have hpending : (bridge.server.receive update).pending =
        bridge.server.pending ++ [update] := by rw [hreceive]
    have hdrop : ∀ u ∈ (bridge.server.receive update).log.drop seen,
        u ∈ bridge.server.log.drop seen ∨ u = update := by
      intro u hu
      rw [hlog, List.drop_append] at hu
      rcases List.mem_append.mp hu with hu | hu
      · exact Or.inl hu
      · exact Or.inr (List.mem_singleton.mp (List.mem_of_mem_drop hu))
    have hbehind : start ≤ update.updateId → bridge.offset ≤ update.updateId := by
      intro hstart
      rcases h.held with heq | ⟨v, hv, heq⟩
      · exact heq ▸ hstart
      · have := hnew v hv
        omega
    constructor
    · exact h.polling
    · exact h.ordered
    · exact h.started
    · refine h.held.imp_right ?_
      rintro ⟨v, hv, heq⟩
      exact ⟨v, Server.mem_receive hv, heq⟩
    · exact h.passed
    · intro u hu hoffset
      show u ∈ (bridge.server.receive update).pending
      rw [hpending]
      rcases hdrop u hu with hu | rfl
      · exact List.mem_append_left _ (h.unread u hu hoffset)
      · exact List.mem_append_right _ (List.mem_singleton_self _)
    · intro u hu hstart hlt
      rcases hdrop u hu with hu | rfl
      · exact h.read u hu hstart hlt
      · exact absurd hlt (hbehind hstart).not_gt
  · have hreceive : bridge.server.receive update = bridge.server := dif_neg hnew
    rw [hreceive]
    exact h

/-- A text on the page is passed on. -/
theorem mem_inject_of_mem_answer {transcribe : String → Option String} {u : Update}
    {d : DeliveredText} (hu : u ∈ bridge.server.answer limit bridge.offset)
    (hd : u.IsText chatId d) :
    d ∈ (bridge.updates limit).filterMap (inject chatId transcribe) := by
  obtain ⟨hparse, hchat, htext⟩ := hd
  exact List.mem_filterMap.mpr
    ⟨d.update, mem_updates.mpr ⟨u, hu, hparse⟩, inject_text hchat htext⟩

theorem Books.getUpdates_answered (h : bridge.Books chatId seen start)
    (transcribe : String → Option String) :
    (bridge.getUpdates limit chatId .answered transcribe).Books chatId seen start := by
  rw [Bridge.getUpdates_answered]
  have hlog : (bridge.server.confirm bridge.offset).log = bridge.server.log :=
    Server.log_confirm bridge.offset
  have hgrows : bridge.offset ≤ Bridge.passed bridge.offset (bridge.updates limit) :=
    offset_le_passed
  constructor
  · exact h.polling
  · refine List.pairwise_append.mpr ⟨h.ordered, ?_, ?_⟩
    · refine List.pairwise_filterMap.mpr (pairwise_updates.imp ?_)
      intro u v hlt d hd e he
      rw [(inject_update hd).1, (inject_update he).1]
      exact hlt
    · intro d hd e he
      obtain ⟨v, -, hparse, -, hoffset⟩ := inject_updates he
      rw [Update.updateId_parse hparse]
      exact (h.passed d hd).trans_le hoffset
  · exact h.started.trans hgrows
  · rcases passed_updates with heq | ⟨v, hv, -, heq⟩
    · rcases h.held with hstart | ⟨v, hv, hoffset⟩
      · exact Or.inl (heq.trans hstart)
      · exact Or.inr ⟨v, hlog.symm ▸ hv, heq.trans hoffset⟩
    · exact Or.inr ⟨v, hlog.symm ▸ List.mem_append_right _ (Server.mem_answer hv).1, heq⟩
  · intro d hd
    rcases List.mem_append.mp hd with hd | hd
    · exact (h.passed d hd).trans_le hgrows
    · obtain ⟨update, hupdate, hinject⟩ := List.mem_filterMap.mp hd
      rw [(inject_update hinject).1]
      exact lt_passed pairwise_updates hupdate
  · intro u hu hoffset
    rw [hlog] at hu
    exact Server.mem_pending_confirm.mpr
      ⟨h.unread u hu (hgrows.trans hoffset), hgrows.trans hoffset⟩
  · intro u hu hstart hlt d hd
    rw [hlog] at hu
    by_cases hbefore : u.updateId < bridge.offset
    · exact List.mem_append_left _ (h.read u hu hstart hbefore d hd)
    · refine List.mem_append_right _ (mem_inject_of_mem_answer ?_ hd)
      have hoffset : bridge.offset ≤ u.updateId := not_lt.mp hbefore
      rcases passed_updates with heq | ⟨v, hv, -, heq⟩
      · exact absurd (heq ▸ hlt) hbefore
      · have hpending := Server.mem_pending_confirm.mpr ⟨h.unread u hu hoffset, hoffset⟩
        exact Server.mem_answer_of_le hv hpending (Int.lt_add_one_iff.mp (heq ▸ hlt))

theorem Books.next (h : bridge.Books chatId seen start) (event : PollEvent) :
    ((pollTask limit chatId).next bridge event).Books chatId seen start := by
  cases event with
  | arrive update => exact h.receive update
  | skipOldMessages call =>
    show (if bridge.phase = .attaching then bridge.skipOldMessages limit call
      else bridge).Books chatId seen start
    rw [if_neg h.polling]
    exact h
  | getUpdates call transcribe =>
    show (if bridge.phase = .polling then bridge.getUpdates limit chatId call transcribe
      else bridge).Books chatId seen start
    split_ifs
    · cases call with
      | answered => exact h.getUpdates_answered transcribe
      | unanswered seen =>
        rw [getUpdates_unanswered]
        split_ifs
        · exact h.confirm
        · exact h
    · exact h
  | cancel => exact ⟨nofun, h.ordered, h.started, h.held, h.passed, h.unread, h.read⟩

theorem books_attached (server : Server) (offset : ℤ) :
    (attached server offset).Books chatId server.confirmed.length offset := by
  have hdrop : server.log.drop server.confirmed.length = server.pending := List.drop_left ..
  constructor
  · exact nofun
  · exact List.Pairwise.nil
  · exact le_rfl
  · exact Or.inl rfl
  · exact nofun
  · intro u hu _
    exact hdrop ▸ hu
  · intro u _ hstart hlt
    exact absurd hlt (not_lt.mpr hstart)

end Books

theorem movesPast_iff {event : PollEvent} :
    bridge.MovesPast limit chatId event ↔ bridge.EndsReadable limit event := by
  cases event with
  | getUpdates call transcribe =>
    cases call with
    | answered =>
      refine imp_congr_right fun _ => ?_
      rw [getUpdates_answered]
      show (∀ u ∈ bridge.server.answer limit bridge.offset,
        u.updateId < passed bridge.offset (bridge.updates limit)) ↔ _
      constructor
      · intro h last hlast
        have hmem := List.mem_of_getLast? hlast
        have hlt := h last hmem
        rcases passed_updates with heq | ⟨v, hv, hreadable, heq⟩
        · exact absurd (Server.mem_answer hmem).2 (heq ▸ hlt).not_ge
        · have hle : v.updateId ≤ last.updateId :=
            le_getLast (bridge.server.pairwise_answer limit bridge.offset) hlast hv
          have hlv : v = last := Server.eq_of_updateId
            (List.mem_append_right _ (Server.mem_answer hv).1)
            (List.mem_append_right _ (Server.mem_answer hmem).1)
            (le_antisymm hle (Int.lt_add_one_iff.mp (heq ▸ hlt)))
          exact hlv ▸ hreadable
      · intro h u hu
        cases hlast : (bridge.server.answer limit bridge.offset).getLast? with
        | none =>
          rw [List.getLast?_eq_none_iff.mp hlast] at hu
          cases hu
        | some last =>
          obtain ⟨parsed, hparse⟩ := Option.isSome_iff_exists.mp (h last hlast)
          have hparsed : parsed ∈ bridge.updates limit :=
            mem_updates.mpr ⟨last, List.mem_of_getLast? hlast, hparse⟩
          have hle : u.updateId ≤ last.updateId :=
            le_getLast (bridge.server.pairwise_answer limit bridge.offset) hlast hu
          have hlt : parsed.updateId < passed bridge.offset (bridge.updates limit) :=
            lt_passed pairwise_updates hparsed
          rw [Update.updateId_parse hparse] at hlt
          exact hle.trans_lt hlt
    | unanswered seen => exact Iff.rfl
  | arrive update => exact Iff.rfl
  | skipOldMessages call => exact Iff.rfl
  | cancel => exact Iff.rfl

theorem countP_lt {α : Type*} {p q : α → Bool} {xs : List α} (h : ∀ x ∈ xs, p x → q x) {w : α}
    (hw : w ∈ xs) (hq : q w) (hp : ¬ p w) : xs.countP p < xs.countP q := by
  obtain ⟨pre, suf, rfl⟩ := List.append_of_mem hw
  have hpre : pre.countP p ≤ pre.countP q :=
    List.countP_mono_left fun x hx => h x (List.mem_append_left _ hx)
  have hsuf : suf.countP p ≤ suf.countP q :=
    List.countP_mono_left fun x hx => h x (List.mem_append_right _ (List.mem_cons_of_mem w hx))
  rw [List.countP_append, List.countP_append, List.countP_cons_of_pos hq,
    List.countP_cons_of_neg hp]
  omega

section Reaches
variable {u : Update}

theorem ahead_pos (hu : u ∈ bridge.server.pending) (hoffset : bridge.offset ≤ u.updateId) :
    0 < bridge.ahead u :=
  List.countP_pos_iff.mpr ⟨u, hu, decide_eq_true ⟨hoffset, le_rfl⟩⟩

theorem ahead_confirm (offset : ℤ) :
    ahead { bridge with server := bridge.server.confirm offset } u ≤ bridge.ahead u :=
  (List.dropWhile_sublist _).countP_le

theorem ahead_receive (hu : u ∈ bridge.server.pending) (update : Update) :
    ahead { bridge with server := bridge.server.receive update } u ≤ bridge.ahead u := by
  by_cases hnew : ∀ v ∈ bridge.server.confirmed ++ bridge.server.pending,
    v.updateId < update.updateId
  · have hreceive : bridge.server.receive update =
        ⟨bridge.server.confirmed, bridge.server.pending ++ [update], _⟩ := dif_pos hnew
    have hlt : u.updateId < update.updateId := hnew u (List.mem_append_right _ hu)
    rw [hreceive, ahead, List.countP_append, List.countP_cons_of_neg
      (by rw [decide_eq_true_iff]; omega)]
    exact le_rfl
  · have hreceive : bridge.server.receive update = bridge.server := dif_neg hnew
    rw [hreceive]

theorem mem_pending_receive (hu : u ∈ bridge.server.pending) (update : Update) :
    u ∈ (bridge.server.receive update).pending := by
  unfold Server.receive
  split_ifs
  · exact List.mem_append_left _ hu
  · exact hu

/-- A page that does not hold an update leaves it behind the offset. -/
theorem passed_le (hu : u ∈ bridge.server.pending) (hoffset : bridge.offset ≤ u.updateId)
    (hpage : u ∉ bridge.server.answer limit bridge.offset) :
    passed bridge.offset (bridge.updates limit) ≤ u.updateId := by
  rcases passed_updates with heq | ⟨v, hv, -, heq⟩
  · exact heq.trans_le hoffset
  · have hpending := Server.mem_pending_confirm.mpr ⟨hu, hoffset⟩
    have hlt : v.updateId < u.updateId :=
      not_le.mp fun hle => hpage (Server.mem_answer_of_le hv hpending hle)
    omega

/-- A page that moves the offset past itself and does not hold an update brings it nearer. -/
theorem ahead_getUpdates (hlimit : 0 < limit) (hu : u ∈ bridge.server.pending)
    (hoffset : bridge.offset ≤ u.updateId)
    (hpage : u ∉ bridge.server.answer limit bridge.offset)
    (hpast : ∀ v ∈ bridge.server.answer limit bridge.offset,
      v.updateId < passed bridge.offset (bridge.updates limit))
    (transcribe : String → Option String) :
    (bridge.getUpdates limit chatId .answered transcribe).ahead u < bridge.ahead u := by
  have hconfirm : u ∈ (bridge.server.confirm bridge.offset).pending :=
    Server.mem_pending_confirm.mpr ⟨hu, hoffset⟩
  have hne : bridge.server.answer limit bridge.offset ≠ [] := by
    rw [Server.answer, ne_eq, List.take_eq_nil_iff]
    rintro (h | h)
    · omega
    · rw [h] at hconfirm
      cases hconfirm
  obtain ⟨w, hw⟩ := List.exists_mem_of_ne_nil _ hne
  have hwu : w.updateId < u.updateId :=
    not_le.mp fun hle => hpage (Server.mem_answer_of_le hw hconfirm hle)
  obtain ⟨hwpending, hwoffset⟩ := Server.mem_answer hw
  have hgrows : bridge.offset ≤ passed bridge.offset (bridge.updates limit) := offset_le_passed
  have hwpast : w.updateId < passed bridge.offset (bridge.updates limit) := hpast w hw
  rw [getUpdates_answered]
  refine ((List.dropWhile_sublist _).countP_le).trans_lt (countP_lt ?_ hwpending ?_ ?_)
  · intro v _ hv
    have hv := of_decide_eq_true hv
    exact decide_eq_true ⟨hgrows.trans hv.1, hv.2⟩
  · exact decide_eq_true ⟨hwoffset, hwu.le⟩
  · intro hv
    exact absurd (of_decide_eq_true hv).1 hwpast.not_ge

theorem mem_delivered_next {d : DeliveredText} (h : d ∈ bridge.delivered) (event : PollEvent) :
    d ∈ ((pollTask limit chatId).next bridge event).delivered := by
  cases event with
  | arrive update => exact h
  | skipOldMessages call =>
    show d ∈ (if bridge.phase = .attaching then bridge.skipOldMessages limit call
      else bridge).delivered
    split_ifs
    · cases call <;> exact h
    · exact h
  | getUpdates call transcribe =>
    show d ∈ (if bridge.phase = .polling then bridge.getUpdates limit chatId call transcribe
      else bridge).delivered
    split_ifs
    · cases call with
      | answered =>
        rw [getUpdates_answered]
        exact List.mem_append_left _ h
      | unanswered => exact h
    · exact h
  | cancel => exact h

/-- Every poll that is answered brings a pending text nearer. -/
theorem reaches_run (hlimit : 0 < limit) {events : List PollEvent}
    (hphase : bridge.phase ≠ .attaching)
    (hpast : (pollTask limit chatId).Along (MovesPast limit chatId) bridge events) :
    Reaches limit chatId bridge events := by
  intro u hu hoffset d hd hahead
  induction events generalizing bridge with
  | nil => exact absurd hahead (ahead_pos hu hoffset).not_ge
  | cons event events ih =>
    rw [Machine.tally] at hahead
    cases event with
    | arrive update =>
      have hnear := ahead_receive hu update
      refine ih hphase hpast.2 (mem_pending_receive hu update) hoffset ?_
      exact hnear.trans (hahead.trans (Nat.zero_add _).le)
    | skipOldMessages call =>
      have hnext : (pollTask limit chatId).next bridge (.skipOldMessages call) = bridge :=
        if_neg hphase
      rw [Machine.run_cons, hnext]
      rw [hnext] at hahead
      exact ih hphase (hnext ▸ hpast.2) hu hoffset (hahead.trans (Nat.zero_add _).le)
    | getUpdates call transcribe =>
      by_cases hpolling : bridge.phase = .polling
      · have hnext : (pollTask limit chatId).next bridge (.getUpdates call transcribe) =
            bridge.getUpdates limit chatId call transcribe := if_pos hpolling
        have hrest := hpast.2
        rw [hnext] at hahead hrest
        rw [Machine.run_cons, hnext]
        cases call with
        | answered =>
          have hmoves := hpast.1 hpolling
          have hone : (bridge.polls (.getUpdates .answered transcribe)).toNat = 1 := by
            rw [polls, decide_eq_true hpolling]
            rfl
          by_cases hpage : u ∈ bridge.server.answer limit bridge.offset
          · refine Machine.run_inv_free (P := fun b : Bridge => d ∈ b.delivered)
              (fun _ e h => mem_delivered_next h e) ?_ events
            rw [getUpdates_answered]
            exact List.mem_append_right _ (mem_inject_of_mem_answer hpage hd)
          · rw [getUpdates_answered] at hmoves
            have hnear : (bridge.getUpdates limit chatId .answered transcribe).ahead u <
                bridge.ahead u := ahead_getUpdates hlimit hu hoffset hpage hmoves transcribe
            rw [getUpdates_answered] at hnear hahead hrest ⊢
            refine ih hphase hrest ?_ (passed_le hu hoffset hpage) ?_
            · exact Server.mem_pending_confirm.mpr ⟨hu, hoffset⟩
            · omega
        | unanswered seen =>
          rw [getUpdates_unanswered] at hahead hrest ⊢
          have htally := hahead.trans (Nat.zero_add _).le
          cases seen with
          | true =>
            exact ih hphase hrest (Server.mem_pending_confirm.mpr ⟨hu, hoffset⟩) hoffset
              ((ahead_confirm bridge.offset).trans htally)
          | false => exact ih hphase hrest hu hoffset htally
      · have hnext : (pollTask limit chatId).next bridge (.getUpdates call transcribe) = bridge :=
          if_neg hpolling
        have hzero : (bridge.polls (.getUpdates call transcribe)).toNat = 0 := by
          cases call with
          | answered =>
            rw [polls, decide_eq_false hpolling]
            rfl
          | unanswered => rfl
        rw [Machine.run_cons, hnext]
        rw [hnext, hzero, Nat.zero_add] at hahead
        exact ih hphase (hnext ▸ hpast.2) hu hoffset hahead
    | cancel =>
      exact ih (fun heq => by cases heq) hpast.2 hu hoffset (hahead.trans (Nat.zero_add _).le)

end Reaches

/-- The poll law holds of exactly the runs whose pages end with a text or a voice. -/
theorem pollLaw_iff (limit : ℕ) (chatId : ℤ) (server : Server) (offset : ℤ)
    (events : List PollEvent) (hlimit : 0 < limit) :
    PollLaw limit chatId (attached server offset) events ↔
      (pollTask limit chatId).Along (EndsReadable limit) (attached server offset) events := by
  have hbooks : ∀ pre, ((pollTask limit chatId).run (attached server offset) pre).Books chatId
      server.confirmed.length offset :=
    Machine.run_inv_free (fun _ e h => h.next e) (books_attached server offset)
  constructor
  · exact fun h => h.movesPast.mono fun _ _ => movesPast_iff.mp
  · intro h
    have hpast : (pollTask limit chatId).Along (MovesPast limit chatId) (attached server offset)
        events := h.mono fun _ _ => movesPast_iff.mpr
    refine ⟨?_, ?_, hpast, ?_⟩
    · exact (Machine.always_iff _ _ _).mpr fun pre _ => (hbooks pre).ordered
    · exact (Machine.always_iff _ _ _).mpr fun pre _ => (hbooks pre).noneSkipped
    · rintro pre mid ⟨suf, rfl⟩
      have hmid := ((Machine.along_append _ _ _ _).mp
        ((Machine.along_append _ _ _ _).mp hpast).1).2
      exact reaches_run hlimit (hbooks pre).polling hmid

/-- Photos of the chat 7, and a text behind them. -/
def photosFirst (photos : ℕ) : List Update :=
  (List.range photos).map (fun n => ⟨n, some ⟨none, none, 7, none⟩⟩) ++
    [⟨photos, some ⟨some "stop", none, 7, none⟩⟩]

theorem pollLaw_photosFirst :
    PollLaw 100 7 (attached ⟨[], photosFirst 3, by decide +kernel⟩ 0)
      [.getUpdates .answered fun _ => none] :=
  (pollLaw_iff 100 7 _ 0 _ (by decide)).mpr
    ⟨fun _ last hlast => by
      have hpage : (Server.answer ⟨[], photosFirst 3, by decide +kernel⟩ 100 0).getLast? =
          some ⟨3, some ⟨some "stop", none, 7, none⟩⟩ := by decide +kernel
      rw [← Option.some.inj (hpage.symm.trans hlast)]
      rfl, trivial⟩

/-- A page full of photos is asked for again and again. -/
theorem photos_holdOffset :
    ¬ ∀ (limit : ℕ) (chatId : ℤ) (server : Server) (offset : ℤ) (events : List PollEvent),
      0 < limit → PollLaw limit chatId (attached server offset) events := by
  intro h
  have hlaw := h 100 7 ⟨[], photosFirst 100, by decide +kernel⟩ 0
    (List.replicate 101 (.getUpdates .answered fun _ => none)) (by decide)
  have hreach := hlaw.reaches [] _ (List.prefix_refl _)
    ⟨100, some ⟨some "stop", none, 7, none⟩⟩ (by decide +kernel) (by decide)
    ⟨⟨100, .text "stop", "Unknown", 7⟩, "stop"⟩ ⟨rfl, rfl, rfl⟩ (by decide +kernel)
  revert hreach
  decide +kernel

end Bridge

end AgentsCommander.Telegram
