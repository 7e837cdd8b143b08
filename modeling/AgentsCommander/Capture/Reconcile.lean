import Mathlib.Order.WithBot
import AgentsCommander.Foundation.Merge
import AgentsCommander.Capture.Recent

/-! What merging `state.json` into a room keeps. Watermarks and budget are maxima; the recent
sets go through a bounded window, so whether the newest key stays and a second merge changes
nothing depends on what falls out. -/
namespace AgentsCommander.Capture
open Foundation

/-- Every recent set is one that a room keeps: no key twice, and no more than fit. -/
def PersistedRoomState.Windowed (p : PersistedRoomState) : Prop :=
  ∀ session, (p.recentOf session).Nodup ∧ (p.recentOf session).length ≤ recentCapacity

/-- No watermark is below every watermark. -/
def watermark (marks : String → Option ℕ) (path : String) : WithBot ℕ := marks path

namespace RoomState

theorem recent_reconcile (m : RoomState) (disk : PersistedRoomState) (session : String) :
    (m.reconcile disk).recent session = mergeRecent (m.recent session) (disk.recent session) := by
  unfold reconcile
  split_ifs <;> rfl

theorem watermarks_reconcile (m : RoomState) (disk : PersistedRoomState) (path : String) :
    (m.reconcile disk).watermarks path = mergeMark (m.watermarks path) (disk.watermarks path) := by
  unfold reconcile
  split_ifs <;> rfl

theorem mergeRecent_eq (recent disk : Option (List ConsumptionKey)) :
    (mergeRecent recent disk).getD [] =
      Window.absorb recentCapacity (recent.getD []) (disk.getD []) := by
  unfold mergeRecent
  cases disk with
  | none => rfl
  | some keys => cases keys <;> rfl

/-- The window of every session, after the merge. -/
theorem recentOf_reconcile_eq (m : RoomState) (disk : PersistedRoomState) (session : String) :
    (m.reconcile disk).recentOf session =
      Window.absorb recentCapacity (m.recentOf session) (disk.recentOf session) := by
  unfold recentOf
  rw [recent_reconcile]
  exact mergeRecent_eq _ _

theorem watermark_reconcile (m : RoomState) (disk : PersistedRoomState) (path : String) :
    watermark (m.reconcile disk).watermarks path =
      max (watermark m.watermarks path) (watermark disk.watermarks path) := by
  unfold watermark
  rw [watermarks_reconcile]
  unfold mergeMark
  cases disk.watermarks path with
  | none => exact (max_bot_right _).symm
  | some d =>
    cases m.watermarks path with
    | none => exact (max_bot_left _).symm
    | some mark => exact WithBot.coe_max mark d

theorem mergeMark_mergeMark (mark disk : Option ℕ) :
    mergeMark (mergeMark mark disk) disk = mergeMark mark disk := by
  cases disk with
  | none => rfl
  | some d =>
    cases mark with
    | none => simp [mergeMark]
    | some m => simp [mergeMark]

theorem mergeRecent_mergeRecent_iff (recent disk : Option (List ConsumptionKey)) :
    mergeRecent (mergeRecent recent disk) disk = mergeRecent recent disk ↔
      Window.absorb recentCapacity ((mergeRecent recent disk).getD []) (disk.getD []) =
        (mergeRecent recent disk).getD [] := by
  cases disk with
  | none => simp [mergeRecent, Window.absorb]
  | some keys =>
    cases keys with
    | nil => simp [mergeRecent, Window.absorb]
    | cons k keys => simp [mergeRecent]

/-- A merge, field by field. -/
theorem reconcile_eq (m : RoomState) (disk : PersistedRoomState) :
    m.reconcile disk =
      { m with
        watermarks := fun path => mergeMark (m.watermarks path) (disk.watermarks path)
        recent := fun session => mergeRecent (m.recent session) (disk.recent session)
        rechargeStamp := (ofLex (max m.rank disk.rank)).1
        spendsSinceRecharge := (ofLex (max m.rank disk.rank)).2 } := by
  rw [← rank_reconcile]
  unfold reconcile
  split_ifs <;> rfl

/-- A second merge repeats the first exactly when it does in every session. -/
theorem reconcile_reconcile_iff (m : RoomState) (disk : PersistedRoomState) :
    (m.reconcile disk).reconcile disk = m.reconcile disk ↔ ∀ session,
      Window.absorb recentCapacity ((m.reconcile disk).recentOf session) (disk.recentOf session) =
        (m.reconcile disk).recentOf session := by
  have hsession : ∀ session, mergeRecent ((m.reconcile disk).recent session)
        (disk.recent session) = (m.reconcile disk).recent session ↔
      Window.absorb recentCapacity ((m.reconcile disk).recentOf session)
        (disk.recentOf session) = (m.reconcile disk).recentOf session := by
    intro session
    unfold recentOf
    rw [recent_reconcile]
    exact mergeRecent_mergeRecent_iff _ _
  have hmarks : ∀ path, mergeMark ((m.reconcile disk).watermarks path) (disk.watermarks path) =
      (m.reconcile disk).watermarks path := by
    intro path
    rw [watermarks_reconcile]
    exact mergeMark_mergeMark _ _
  have hrank : max (m.reconcile disk).rank disk.rank = (m.reconcile disk).rank := by
    rw [rank_reconcile, max_assoc, max_self]
  constructor
  · intro h session
    rw [← recentOf_reconcile_eq, h]
  · intro h
    rw [reconcile_eq (m.reconcile disk), hrank]
    simp only [hmarks, fun session => (hsession session).mpr (h session)]
    rfl

/-- What a merge is meant to do: the newest key of every session stays, watermarks and budget
are maxima, and merging the same file again changes nothing. -/
structure Keeps (room : RoomState) (disk : PersistedRoomState) : Prop where
  newest : ∀ session key, (room.recentOf session).getLast? = some key →
    key ∈ (room.reconcile disk).recentOf session
  watermarks : ∀ path, watermark (room.reconcile disk).watermarks path =
    max (watermark room.watermarks path) (watermark disk.watermarks path)
  rank : (room.reconcile disk).rank = max room.rank disk.rank
  idempotent : (room.reconcile disk).reconcile disk = room.reconcile disk

/-- Exactly the oldest keys of a session fall out, not all of them, and none of those was met
in the file while it was still there. -/
def Sheds (memory disk : List ConsumptionKey) : Prop :=
  ∃ o, Window.Yields recentCapacity memory disk o ∧ (memory ≠ [] → o < memory.length)

/-- A merge does what it is meant to exactly when every session sheds only old keys that the
file does not give back. -/
theorem keeps_iff_sheds (room : RoomState) (disk : PersistedRoomState) (hdisk : disk.Windowed) :
    Keeps room disk ↔ ∀ session, Sheds (room.recentOf session) (disk.recentOf session) := by
  have hsession : ∀ session, Sheds (room.recentOf session) (disk.recentOf session) ↔
      (∀ key, (room.recentOf session).getLast? = some key →
        key ∈ (room.reconcile disk).recentOf session) ∧
      Window.absorb recentCapacity ((room.reconcile disk).recentOf session)
        (disk.recentOf session) = (room.reconcile disk).recentOf session := by
    intro session
    rw [recentOf_reconcile_eq]
    exact (Window.merge_iff (by decide) (hdisk session).1 (hdisk session).2).symm
  constructor
  · intro h session
    refine (hsession session).mpr ⟨h.newest session, ?_⟩
    exact (reconcile_reconcile_iff room disk).mp h.idempotent session
  · intro h
    exact ⟨fun session => ((hsession session).mp (h session)).1, room.watermark_reconcile disk,
      room.rank_reconcile disk,
      (reconcile_reconcile_iff room disk).mpr fun session => ((hsession session).mp (h session)).2⟩

theorem windowed_reconcile {m : RoomState} (h : m.toPersisted.Windowed)
    (disk : PersistedRoomState) : (m.reconcile disk).toPersisted.Windowed := by
  intro session
  change ((m.reconcile disk).recentOf session).Nodup ∧
    ((m.reconcile disk).recentOf session).length ≤ recentCapacity
  rw [recentOf_reconcile_eq]
  exact ⟨Window.nodup_absorb (h session).1, Window.length_absorb_le (by decide) (h session).2⟩

theorem windowed_mark {m : RoomState} (h : m.toPersisted.Windowed) (sessionId : String)
    (key : ConsumptionKey) (routable : Bool) (hnew : m.wasConsumed sessionId key = false) :
    (m.mark sessionId key routable).toPersisted.Windowed := by
  intro session
  change ((m.mark sessionId key routable).recentOf session).Nodup ∧
    ((m.mark sessionId key routable).recentOf session).length ≤ recentCapacity
  have hkey : key ∉ m.recentOf sessionId := by simpa [wasConsumed] using hnew
  obtain ⟨hnodup, hle⟩ := h sessionId
  rw [recentOf_mark]
  split_ifs
  · refine ⟨Window.nodup_push hnodup hkey, ?_⟩
    have hold : (m.recentOf sessionId).length ≤ recentCapacity := hle
    rw [Window.length_push (by decide)]
    split_ifs <;> omega
  · exact h session

theorem windowed_reserve {m : RoomState} (h : m.toPersisted.Windowed) (disk : PersistedRoomState)
    (sessionId : String) (key : ConsumptionKey) (kind : EffectKind) (routable : Bool) :
    (m.reserve disk sessionId key kind routable).1.toPersisted.Windowed := by
  rcases m.reserve_cases disk sessionId key kind routable with ⟨reason, he⟩ | ⟨he, hnew, -⟩
  · rw [he]
    exact windowed_reconcile h disk
  · rw [he]
    exact windowed_mark (windowed_reconcile h disk) sessionId key routable hnew

/-- The keys of one session, told apart by where their records start. -/
def keyAt (start : ℕ) : ConsumptionKey := ⟨"t", 0, some start, Vector.replicate 32 0⟩

def recentAt (starts : List ℕ) (session : String) : Option (List ConsumptionKey) :=
  if session = "s" then some (starts.map keyAt) else none

def roomAt (starts : List ℕ) : RoomState :=
  load { PersistedRoomState.default with recent := recentAt starts }

def fileAt (starts : List ℕ) : PersistedRoomState :=
  { PersistedRoomState.default with recent := recentAt starts }

theorem keyAt_injective : Function.Injective keyAt := fun _ _ h =>
  Option.some.inj (congrArg ConsumptionKey.recordStart h)

theorem recentOf_roomAt (starts : List ℕ) : (roomAt starts).recentOf "s" = starts.map keyAt := rfl

theorem windowed_fileAt {starts : List ℕ} (hnodup : starts.Nodup)
    (hle : starts.length ≤ recentCapacity) : (fileAt starts).Windowed := by
  intro session
  unfold PersistedRoomState.recentOf fileAt recentAt
  dsimp only
  split_ifs
  · exact ⟨hnodup.map keyAt_injective, (@List.length_map _ _ starts keyAt).trans_le hle⟩
  · exact ⟨List.nodup_nil, Nat.zero_le _⟩

theorem recentOf_reconcile_at (memory disk : List ℕ) :
    ((roomAt memory).reconcile (fileAt disk)).recentOf "s" =
      (Window.absorb recentCapacity memory disk).map keyAt := by
  rw [recentOf_reconcile_eq]
  exact Window.absorb_map keyAt_injective memory disk

/-- A full window that meets one of its keys and then a new one gives up the key it met; and
64 new keys push out the newest. -/
theorem not_keeps_full :
    (fileAt [0, 64]).Windowed ∧ ¬ Keeps (roomAt (List.range 64)) (fileAt [0, 64]) ∧
      (fileAt (List.range' 64 64)).Windowed ∧
      ¬ Keeps (roomAt (List.range 64)) (fileAt (List.range' 64 64)) := by
  refine ⟨windowed_fileAt (by decide) (by decide), fun h => ?_,
    windowed_fileAt List.nodup_range' (by decide), fun h => ?_⟩
  · have hagain := (reconcile_reconcile_iff _ _).mp h.idempotent "s"
    rw [recentOf_reconcile_at] at hagain
    have hmap : Window.absorb recentCapacity _ _ = _ := Window.absorb_map keyAt_injective
      (Window.absorb recentCapacity (List.range 64) [0, 64]) [0, 64]
    have hsame := List.map_injective_iff.mpr keyAt_injective (hmap.symm.trans hagain)
    revert hsame
    decide
  · have hnewest := h.newest "s" (keyAt 63) (by decide)
    rw [recentOf_reconcile_at, List.mem_map_of_injective keyAt_injective] at hnewest
    revert hnewest
    decide +kernel

/-- One key in memory, another in the file. -/
theorem keeps_one : Keeps (roomAt [0]) (fileAt [1]) := by
  refine (keeps_iff_sheds _ _ (windowed_fileAt (by decide) (by decide))).mpr fun session => ?_
  by_cases hs : session = "s"
  · subst hs
    refine ⟨0, ⟨by decide, fun pre k post hks hk => ?_⟩, fun _ => by decide⟩
    rcases pre with _ | ⟨p, pre⟩
    · obtain ⟨rfl, rfl⟩ := List.cons.inj hks
      revert hk
      decide
    · have hlen := congrArg List.length hks
      simp [PersistedRoomState.recentOf, fileAt, recentAt] at hlen
  · have hnone : (fileAt [1]).recentOf session = [] := by
      simp [PersistedRoomState.recentOf, fileAt, recentAt, hs]
    have hempty : (roomAt [0]).recentOf session = [] := by
      simp [recentOf, roomAt, load, recentAt, hs]
    rw [hnone, hempty]
    exact ⟨0, ⟨by decide, fun pre k post hks => by simp at hks⟩, fun hne => absurd rfl hne⟩

end RoomState

namespace Room
variable {s : Room} {e : RoomEvent}

/-- Memory, the file and what is on its way there. -/
structure Windowed (s : Room) : Prop where
  wellLocked : s.WellLocked
  memory : s.memory.toPersisted.Windowed
  file : s.file.Windowed
  carried : ∀ p, s.Carries p → p.Windowed

theorem Windowed.next (h : s.Windowed) : (room.next s e).Windowed where
  wellLocked := wellLocked_next h.wellLocked
  memory := by
    rcases memory_next (s := s) (e := e) with hm | ⟨path, observation, -, hm⟩ | ⟨-, hm⟩ |
      ⟨now, slot, normalisePath, -, call, routable, -, -, hm⟩ | ⟨-, hm⟩
    · rw [hm]
      exact h.memory
    · rw [hm]
      intro session
      rw [RoomState.recentOf_toPersisted, RoomState.recentOf_observe]
      exact h.memory session
    · rw [hm]
      exact h.memory
    · rw [hm]
      exact RoomState.windowed_reserve h.memory _ _ _ _ _
    · rw [hm]
      exact h.file
  file := by
    rcases carries_of_file_next (s := s) (e := e) with hf | hf
    · rw [hf]
      exact h.file
    · exact h.carried _ hf
  carried := by
    intro p hp
    rcases carries_next h.wellLocked hp with hp | rfl
    · exact h.carried p hp
    · exact h.memory

/-- A room that starts from such a file writes no other. -/
theorem windowed_always {file : PersistedRoomState} (hfile : file.Windowed)
    (es : List RoomEvent) : room.Always Windowed (.start file) es := by
  have hstart : (Room.start file).Windowed :=
    ⟨wellLocked_start file, hfile, hfile, fun _ hp => absurd hp not_carries_start⟩
  have hstep : ∀ (r : Room) (e : RoomEvent), r.Windowed → True → (room.next r e).Windowed :=
    fun _ _ h _ => h.next
  exact Machine.always_of_along hstep hstart (Machine.along_true _ es)

theorem windowed_default : PersistedRoomState.default.Windowed := fun _ =>
  ⟨List.nodup_nil, Nat.zero_le _⟩

end Room

end AgentsCommander.Capture
