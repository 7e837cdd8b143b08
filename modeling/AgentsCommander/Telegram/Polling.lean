import AgentsCommander.Foundation.Machine
import Mathlib.Tactic.Common
import Mathlib.Data.Int.Order.Basic
import Mathlib.Data.List.Nodup

/-! The poll task of a Telegram bridge, against a server that pages over its updates: what one call
is answered, and how far it moves the offset. -/
namespace AgentsCommander.Telegram
open Foundation

structure Message where
  text : Option String
  /-- The file of the voice. -/
  voice : Option String
  chat : ℤ
  sender : Option String
  deriving DecidableEq, Repr

structure Update where
  updateId : ℤ
  message : Option Message
  deriving DecidableEq, Repr

inductive TelegramContent where
  | text (text : String)
  | voice (fileId : String)
  deriving DecidableEq, Repr

structure TelegramUpdate where
  updateId : ℤ
  content : TelegramContent
  fromName : String
  chatId : ℤ
  deriving DecidableEq, Repr

/-- The filter of `get_updates`. -/
def Update.parse (update : Update) : Option TelegramUpdate :=
  update.message.bind fun message =>
    match message.text, message.voice with
    | some text, _ =>
      some ⟨update.updateId, .text text, message.sender.getD "Unknown", message.chat⟩
    | none, some fileId =>
      some ⟨update.updateId, .voice fileId, message.sender.getD "Unknown", message.chat⟩
    | none, none => none

/-- The updates of a bot in the order in which they arrived: the confirmed ones, and the rest. -/
structure Server where
  confirmed : List Update
  pending : List Update
  increasing : (confirmed ++ pending).Pairwise fun u v => u.updateId < v.updateId

namespace Server
variable (server : Server)

def log : List Update := server.confirmed ++ server.pending

def receive (update : Update) : Server :=
  if h : ∀ u ∈ server.confirmed ++ server.pending, u.updateId < update.updateId then
    { server with
      pending := server.pending ++ [update]
      increasing := by
        rw [← List.append_assoc]
        exact List.pairwise_append.mpr ⟨server.increasing, List.pairwise_singleton ..,
          fun u hu v hv => by rw [List.mem_singleton.mp hv]; exact h u hu⟩ }
  else server

def confirm (offset : ℤ) : Server where
  confirmed := server.confirmed ++ server.pending.takeWhile fun u => u.updateId < offset
  pending := server.pending.dropWhile fun u => u.updateId < offset
  increasing := by
    rw [List.append_assoc, List.takeWhile_append_dropWhile]
    exact server.increasing

/-- The page that answers a call with this offset. -/
def answer (limit : ℕ) (offset : ℤ) : List Update := (server.confirm offset).pending.take limit

end Server

/-- A text that was passed to `deliver_text`, with the update that it came from. -/
structure DeliveredText where
  update : TelegramUpdate
  text : String
  deriving DecidableEq, Repr

inductive PollPhase where
  | attaching | polling | stopped
  deriving DecidableEq, Repr

structure Bridge where
  server : Server
  phase : PollPhase
  offset : ℤ
  delivered : List DeliveredText

/-- `unanswered`: the call failed, and the server may have seen it. -/
inductive Call where
  | answered
  | unanswered (seen : Bool)
  deriving DecidableEq, Repr

inductive PollEvent where
  | arrive (update : Update)
  | skipOldMessages (call : Call)
  /-- `transcribe`: what becomes of the voices of the page. -/
  | getUpdates (call : Call) (transcribe : String → Option String)
  | cancel

namespace Bridge
variable (limit : ℕ) (chatId : ℤ) (bridge : Bridge)

def new (server : Server) : Bridge := ⟨server, .attaching, 0, []⟩

/-- What `get_updates` returns. -/
def updates : List TelegramUpdate :=
  (bridge.server.answer limit bridge.offset).filterMap Update.parse

def skipOldMessages (call : Call) : Bridge :=
  match call with
  | .answered =>
    let offset := match (bridge.updates limit).getLast? with
      | some last => last.updateId + 1
      | none => bridge.offset
    { bridge with
      server := bridge.server.confirm bridge.offset
      phase := .polling
      offset := offset }
  | .unanswered seen =>
    { bridge with
      server := if seen then bridge.server.confirm bridge.offset else bridge.server
      phase := .polling }

def injectText (transcribe : String → Option String) (content : TelegramContent) : Option String :=
  match content with
  | .text text => some text
  | .voice fileId => transcribe fileId

/-- One round of `deliver_updates`. -/
def deliverUpdate (transcribe : String → Option String) (bridge : Bridge)
    (update : TelegramUpdate) : Bridge :=
  let passed := { bridge with offset := update.updateId + 1 }
  if update.chatId ≠ chatId then passed
  else match injectText transcribe update.content with
    | some text => { passed with delivered := bridge.delivered ++ [⟨update, text⟩] }
    | none => passed

def getUpdates (call : Call) (transcribe : String → Option String) : Bridge :=
  match call with
  | .answered =>
    let asked := { bridge with server := bridge.server.confirm bridge.offset }
    (bridge.updates limit).foldl (deliverUpdate chatId transcribe) asked
  | .unanswered seen =>
    { bridge with
      server := if seen then bridge.server.confirm bridge.offset else bridge.server }

def step : PollEvent → Bridge × Unit
  | .arrive update => ({ bridge with server := bridge.server.receive update }, ())
  | .skipOldMessages call =>
    (if bridge.phase = .attaching then bridge.skipOldMessages limit call else bridge, ())
  | .getUpdates call transcribe =>
    (if bridge.phase = .polling then bridge.getUpdates limit chatId call transcribe else bridge, ())
  | .cancel => ({ bridge with phase := .stopped }, ())

end Bridge

/-- `limit`: the page size of the server. -/
def pollTask (limit : ℕ) (chatId : ℤ) : Machine Bridge PollEvent Unit :=
  ⟨Bridge.step limit chatId⟩

theorem Update.updateId_parse {update : Update} {parsed : TelegramUpdate}
    (h : update.parse = some parsed) : parsed.updateId = update.updateId := by
  obtain ⟨message, -, hmessage⟩ := Option.bind_eq_some_iff.mp h
  split at hmessage
  · exact (congrArg TelegramUpdate.updateId (Option.some.inj hmessage)).symm
  · exact (congrArg TelegramUpdate.updateId (Option.some.inj hmessage)).symm
  · cases hmessage

namespace Server
variable {server : Server}

theorem log_confirm (offset : ℤ) : (server.confirm offset).log = server.log := by
  show server.confirmed ++ server.pending.takeWhile _ ++ server.pending.dropWhile _ = _
  rw [List.append_assoc, List.takeWhile_append_dropWhile]
  rfl

theorem eq_of_updateId {u v : Update} (hu : u ∈ server.log) (hv : v ∈ server.log)
    (h : u.updateId = v.updateId) : u = v := by
  have hnodup : (server.log.map Update.updateId).Nodup :=
    List.pairwise_map.mpr (server.increasing.imp fun hlt => hlt.ne)
  exact List.inj_on_of_nodup_map hnodup hu hv h

theorem pairwise_pending : server.pending.Pairwise fun u v => u.updateId < v.updateId :=
  (List.pairwise_append.mp server.increasing).2.1

theorem confirmed_lt {u v : Update} (hu : u ∈ server.confirmed) (hv : v ∈ server.pending) :
    u.updateId < v.updateId := (List.pairwise_append.mp server.increasing).2.2 u hu v hv

/-- What is pending behind an offset. -/
theorem mem_pending_confirm {offset : ℤ} {u : Update} :
    u ∈ (server.confirm offset).pending ↔ u ∈ server.pending ∧ offset ≤ u.updateId := by
  show u ∈ server.pending.dropWhile _ ↔ _
  have hsorted := server.pairwise_pending
  generalize server.pending = pending at hsorted
  induction pending with
  | nil => exact ⟨nofun, fun h => h.1⟩
  | cons first rest ih =>
    obtain ⟨hfirst, hrest⟩ := List.pairwise_cons.mp hsorted
    rw [List.dropWhile_cons]
    split_ifs with hlt
    · refine (ih hrest).trans ?_
      rw [List.mem_cons]
      have hlt := of_decide_eq_true hlt
      constructor
      · exact fun h => ⟨Or.inr h.1, h.2⟩
      · rintro ⟨rfl | h, hle⟩
        · omega
        · exact ⟨h, hle⟩
    · have hle : offset ≤ first.updateId := by
        rw [decide_eq_true_iff] at hlt
        omega
      refine ⟨fun h => ⟨h, ?_⟩, fun h => h.1⟩
      rcases List.mem_cons.mp h with rfl | h
      · exact hle
      · exact hle.trans (hfirst u h).le

theorem mem_answer {limit : ℕ} {offset : ℤ} {u : Update} (h : u ∈ server.answer limit offset) :
    u ∈ server.pending ∧ offset ≤ u.updateId :=
  mem_pending_confirm.mp (List.mem_of_mem_take h)

theorem pairwise_answer (limit : ℕ) (offset : ℤ) :
    (server.answer limit offset).Pairwise fun u v => u.updateId < v.updateId :=
  (server.confirm offset).pairwise_pending.sublist (List.take_sublist ..)

/-- A page has no gaps. -/
theorem mem_answer_of_le {limit : ℕ} {offset : ℤ} {u v : Update}
    (hv : v ∈ server.answer limit offset) (hu : u ∈ (server.confirm offset).pending)
    (h : u.updateId ≤ v.updateId) : u ∈ server.answer limit offset := by
  unfold answer at hv ⊢
  have hsorted := (server.confirm offset).pairwise_pending
  rw [← List.take_append_drop limit (server.confirm offset).pending] at hu hsorted
  rcases List.mem_append.mp hu with hu | hu
  · exact hu
  · exact absurd ((List.pairwise_append.mp hsorted).2.2 v hv u hu) h.not_gt

theorem mem_receive {update u : Update} (h : u ∈ server.log) : u ∈ (server.receive update).log := by
  unfold receive
  split_ifs
  · show u ∈ server.confirmed ++ (server.pending ++ [update])
    rw [← List.append_assoc]
    exact List.mem_append_left _ h
  · exact h

end Server

namespace Bridge
variable {limit : ℕ} {chatId : ℤ} {bridge : Bridge}

theorem mem_updates {parsed : TelegramUpdate} :
    parsed ∈ bridge.updates limit ↔
      ∃ u ∈ bridge.server.answer limit bridge.offset, u.parse = some parsed :=
  List.mem_filterMap

theorem pairwise_updates : (bridge.updates limit).Pairwise fun u v => u.updateId < v.updateId := by
  refine List.pairwise_filterMap.mpr ((bridge.server.pairwise_answer limit bridge.offset).imp ?_)
  intro u v hlt parsed hp parsed' hp'
  rw [Update.updateId_parse hp, Update.updateId_parse hp']
  exact hlt

theorem le_getLast {α : Type*} {f : α → ℤ} {us : List α}
    (hus : us.Pairwise fun u v => f u < f v) {last u : α}
    (hlast : us.getLast? = some last) (hu : u ∈ us) : f u ≤ f last := by
  obtain ⟨init, rfl⟩ := List.getLast?_eq_some_iff.mp hlast
  rcases List.mem_append.mp hu with hu | hu
  · exact ((List.pairwise_append.mp hus).2.2 u hu last (List.mem_singleton_self _)).le
  · rw [List.mem_singleton.mp hu]

/-- Where the offset ends behind these updates. -/
def passed (offset : ℤ) (us : List TelegramUpdate) : ℤ :=
  us.getLast?.elim offset (·.updateId + 1)

/-- What `deliver_updates` passes on of an update. -/
def inject (chatId : ℤ) (transcribe : String → Option String) (update : TelegramUpdate) :
    Option DeliveredText :=
  if update.chatId ≠ chatId then none
  else (injectText transcribe update.content).map fun text => ⟨update, text⟩

theorem inject_update {transcribe : String → Option String} {update : TelegramUpdate}
    {d : DeliveredText} (h : inject chatId transcribe update = some d) :
    d.update = update ∧ update.chatId = chatId := by
  unfold inject at h
  split_ifs at h with hchat
  obtain ⟨text, -, rfl⟩ := Option.map_eq_some_iff.mp h
  exact ⟨rfl, not_not.mp hchat⟩

theorem inject_text {transcribe : String → Option String} {update : TelegramUpdate} {text : String}
    (hchat : update.chatId = chatId) (htext : update.content = .text text) :
    inject chatId transcribe update = some ⟨update, text⟩ := by
  rw [inject, if_neg (not_not_intro hchat), htext]
  rfl

theorem deliverUpdate_eq (transcribe : String → Option String) (update : TelegramUpdate) :
    deliverUpdate chatId transcribe bridge update =
      { bridge with
        offset := update.updateId + 1
        delivered := bridge.delivered ++ (inject chatId transcribe update).toList } := by
  unfold deliverUpdate inject
  dsimp only
  split_ifs
  · rw [Option.toList_none, List.append_nil]
  · cases injectText transcribe update.content with
    | none =>
      rw [Option.map_none, Option.toList_none, List.append_nil]
    | some text => rfl

theorem foldl_deliverUpdate (transcribe : String → Option String) (us : List TelegramUpdate) :
    us.foldl (deliverUpdate chatId transcribe) bridge =
      { bridge with
        offset := passed bridge.offset us
        delivered := bridge.delivered ++ us.filterMap (inject chatId transcribe) } := by
  induction us generalizing bridge with
  | nil =>
    rw [List.filterMap_nil, List.append_nil]
    rfl
  | cons update rest ih =>
    have hpassed : passed (update.updateId + 1) rest = passed bridge.offset (update :: rest) := by
      unfold passed
      rw [List.getLast?_cons]
      cases rest.getLast? <;> rfl
    rw [List.foldl_cons, ih, deliverUpdate_eq, hpassed, List.append_assoc]
    cases hd : inject chatId transcribe update with
    | none => rw [List.filterMap_cons_none hd, Option.toList_none, List.nil_append]
    | some d => rw [List.filterMap_cons_some hd, Option.toList_some, List.singleton_append]

theorem getUpdates_answered (transcribe : String → Option String) :
    bridge.getUpdates limit chatId .answered transcribe =
      { bridge with
        server := bridge.server.confirm bridge.offset
        offset := passed bridge.offset (bridge.updates limit)
        delivered := bridge.delivered ++
          (bridge.updates limit).filterMap (inject chatId transcribe) } :=
  foldl_deliverUpdate transcribe (bridge.updates limit)

theorem skipOldMessages_answered :
    bridge.skipOldMessages limit .answered =
      { bridge with
        server := bridge.server.confirm bridge.offset
        phase := .polling
        offset := passed bridge.offset (bridge.updates limit) } := by
  unfold skipOldMessages passed
  cases (bridge.updates limit).getLast? <;> rfl

theorem lt_passed {offset : ℤ} {us : List TelegramUpdate}
    (hus : us.Pairwise fun u v => u.updateId < v.updateId) {u : TelegramUpdate} (hu : u ∈ us) :
    u.updateId < passed offset us := by
  unfold passed
  cases hlast : us.getLast? with
  | none => rw [List.getLast?_eq_none_iff.mp hlast] at hu; cases hu
  | some last => exact Int.lt_add_one_of_le (le_getLast hus hlast hu)

theorem offset_le_passed : bridge.offset ≤ passed bridge.offset (bridge.updates limit) := by
  unfold passed
  cases hlast : (bridge.updates limit).getLast? with
  | none => exact le_rfl
  | some last =>
    obtain ⟨u, hu, hparse⟩ := mem_updates.mp (List.mem_of_getLast? hlast)
    have := (Server.mem_answer hu).2
    rw [Option.elim_some, Update.updateId_parse hparse]
    omega

/-- A poll ends behind an update of the page that it could read, or where it began. -/
theorem passed_updates :
    passed bridge.offset (bridge.updates limit) = bridge.offset ∨
      ∃ v ∈ bridge.server.answer limit bridge.offset, v.parse.isSome ∧
        passed bridge.offset (bridge.updates limit) = v.updateId + 1 := by
  unfold passed
  cases hlast : (bridge.updates limit).getLast? with
  | none => exact Or.inl rfl
  | some last =>
    obtain ⟨v, hv, hparse⟩ := mem_updates.mp (List.mem_of_getLast? hlast)
    refine Or.inr ⟨v, hv, Option.isSome_of_eq_some hparse, ?_⟩
    rw [Option.elim_some, Update.updateId_parse hparse]

/-- What a page brings is at or behind the offset. -/
theorem inject_updates {transcribe : String → Option String} {d : DeliveredText}
    (hd : d ∈ (bridge.updates limit).filterMap (inject chatId transcribe)) :
    ∃ v ∈ bridge.server.pending, v.parse = some d.update ∧ d.update.chatId = chatId ∧
      bridge.offset ≤ v.updateId := by
  obtain ⟨parsed, hparsed, hinject⟩ := List.mem_filterMap.mp hd
  obtain ⟨rfl, hchat⟩ := inject_update hinject
  obtain ⟨v, hv, hparse⟩ := mem_updates.mp hparsed
  obtain ⟨hpending, hoffset⟩ := Server.mem_answer hv
  exact ⟨v, hpending, hparse, hchat, hoffset⟩

end Bridge

end AgentsCommander.Telegram
