import AgentsCommander.Telegram.Polling

/-! The updates that were pending at the attach, and the call that skips them. -/
namespace AgentsCommander.Telegram
open Foundation

/-- What `deliver_updates` would look at further than its chat. -/
def Update.Addressed (chatId : ℤ) (update : Update) : Prop :=
  ∃ parsed, update.parse = some parsed ∧ parsed.chatId = chatId

namespace Bridge

def NotReplayed (backlog : List Update) (bridge : Bridge) : Prop :=
  ∀ d ∈ bridge.delivered, ∀ u ∈ backlog, u.updateId ≠ d.update.updateId

/-- When the backlog is skipped, the call is answered with a page that reaches a text or a voice
at or behind every text and voice that the backlog holds for the chat. -/
def SkipReaches (limit : ℕ) (chatId : ℤ) (backlog : List Update) (bridge : Bridge) :
    PollEvent → Prop
  | .skipOldMessages call => bridge.phase = .attaching →
    ∀ u ∈ backlog, u.Addressed chatId →
      call = .answered ∧ ∃ last ∈ bridge.updates limit, u.updateId ≤ last.updateId
  | _ => True

/-- The backlog is on the server, and once it is skipped the offset is behind it. -/
structure Behind (chatId : ℤ) (backlog : List Update) (bridge : Bridge) : Prop where
  logged : ∀ u ∈ backlog, u ∈ bridge.server.log
  passed : bridge.phase = .polling → ∀ u ∈ backlog, u.Addressed chatId →
    u.updateId < bridge.offset
  clean : bridge.NotReplayed backlog

variable {limit : ℕ} {chatId : ℤ} {backlog : List Update} {bridge : Bridge}

theorem log_seen (seen : Bool) (offset : ℤ) :
    (if seen then bridge.server.confirm offset else bridge.server).log = bridge.server.log := by
  split_ifs
  · exact Server.log_confirm offset
  · rfl

theorem Behind.skipOldMessages (h : bridge.Behind chatId backlog) {call : Call}
    (hskip : ∀ u ∈ backlog, u.Addressed chatId →
      call = .answered ∧ ∃ last ∈ bridge.updates limit, u.updateId ≤ last.updateId) :
    (bridge.skipOldMessages limit call).Behind chatId backlog := by
  cases call with
  | answered =>
    rw [skipOldMessages_answered]
    constructor
    · intro u hu
      rw [Server.log_confirm]
      exact h.logged u hu
    · intro _ u hu haddressed
      obtain ⟨-, last, hlast, hle⟩ := hskip u hu haddressed
      exact hle.trans_lt (lt_passed pairwise_updates hlast)
    · exact h.clean
  | unanswered seen =>
    constructor
    · intro u hu
      exact (log_seen seen bridge.offset).symm ▸ h.logged u hu
    · intro _ u hu haddressed
      exact nomatch (hskip u hu haddressed).1
    · exact h.clean

theorem Behind.getUpdates (h : bridge.Behind chatId backlog) (hphase : bridge.phase = .polling)
    (call : Call) (transcribe : String → Option String) :
    (bridge.getUpdates limit chatId call transcribe).Behind chatId backlog := by
  cases call with
  | answered =>
    rw [getUpdates_answered]
    constructor
    · intro u hu
      rw [Server.log_confirm]
      exact h.logged u hu
    · intro _ u hu haddressed
      exact (h.passed hphase u hu haddressed).trans_le offset_le_passed
    · intro d hd u hu heq
      rcases List.mem_append.mp hd with hd | hd
      · exact h.clean d hd u hu heq
      · obtain ⟨v, hv, hparse, hchat, hoffset⟩ := inject_updates hd
        rw [Update.updateId_parse hparse] at heq
        have huv : u = v :=
          Server.eq_of_updateId (h.logged u hu) (List.mem_append_right _ hv) heq
        have hlt := h.passed hphase u hu (huv ▸ ⟨d.update, hparse, hchat⟩)
        omega
  | unanswered seen =>
    constructor
    · intro u hu
      exact (log_seen seen bridge.offset).symm ▸ h.logged u hu
    · exact h.passed
    · exact h.clean

theorem Behind.next (h : bridge.Behind chatId backlog) {event : PollEvent}
    (hskip : bridge.SkipReaches limit chatId backlog event) :
    ((pollTask limit chatId).next bridge event).Behind chatId backlog := by
  cases event with
  | arrive update =>
    constructor
    · exact fun u hu => Server.mem_receive (h.logged u hu)
    · exact h.passed
    · exact h.clean
  | skipOldMessages call =>
    show (if bridge.phase = .attaching then bridge.skipOldMessages limit call
      else bridge).Behind chatId backlog
    split_ifs with hphase
    · exact h.skipOldMessages (hskip hphase)
    · exact h
  | getUpdates call transcribe =>
    show (if bridge.phase = .polling then bridge.getUpdates limit chatId call transcribe
      else bridge).Behind chatId backlog
    split_ifs with hphase
    · exact h.getUpdates hphase call transcribe
    · exact h
  | cancel => exact ⟨h.logged, nofun, h.clean⟩

/-- In a run whose skip reaches the end of its backlog, none of the backlog is delivered. -/
theorem notReplayed_always (limit : ℕ) (chatId : ℤ) (server : Server) (events : List PollEvent)
    (h : (pollTask limit chatId).Along (SkipReaches limit chatId server.pending) (new server)
      events) :
    (pollTask limit chatId).Always (NotReplayed server.pending) (new server) events := by
  have hnew : (new server).Behind chatId server.pending :=
    ⟨fun u hu => List.mem_append_right _ hu, nofun, nofun⟩
  rw [Machine.always_iff]
  rintro pre ⟨suf, rfl⟩
  have hpre := ((Machine.along_append _ _ _ _).mp h).1
  exact (Machine.run_inv (fun _ _ hb hskip => hb.next hskip) hnew hpre).clean

/-- One text of the chat 7. -/
def oneText : Server := ⟨[], [⟨5, some ⟨some "rm -rf build", none, 7, none⟩⟩], by decide⟩

theorem notReplayed_oneText :
    (pollTask 100 7).Always (NotReplayed oneText.pending) (new oneText)
      [.skipOldMessages .answered, .getUpdates .answered fun _ => none] := by
  refine notReplayed_always 100 7 oneText _ ⟨fun _ u hu _ => ⟨rfl, ?_⟩, trivial, trivial⟩
  rw [List.mem_singleton.mp hu]
  exact ⟨⟨5, .text "rm -rf build", "Unknown", 7⟩, by decide +kernel, le_rfl⟩

/-- The first call fails, and the next one brings the backlog. -/
theorem replays_afterFailedSkip :
    ¬ ∀ (limit : ℕ) (chatId : ℤ) (server : Server) (events : List PollEvent),
      (pollTask limit chatId).Always (NotReplayed server.pending) (new server) events := by
  intro h
  have hnot := (h 100 7 oneText
    [.skipOldMessages (.unanswered false), .getUpdates .answered fun _ => none]).2.2
  refine hnot ⟨⟨5, .text "rm -rf build", "Unknown", 7⟩, "rm -rf build"⟩ ?_
    ⟨5, some ⟨some "rm -rf build", none, 7, none⟩⟩ (List.mem_singleton_self _) rfl
  decide +kernel

end Bridge

end AgentsCommander.Telegram
