import AgentsCommander.Capture.Epochs

/-! Epochs over the runs of a room, with its flushes, commits and restarts, and over the calls
of a reader's observer. -/
namespace AgentsCommander.Capture
open Foundation
open Transcript (Bytes)

theorem sightings_cons (path : String) (e : RoomEvent) (es : List RoomEvent) :
    sightings path (e :: es) = sightings path [e] ++ sightings path es :=
  List.filterMap_append (l := [e])

theorem watched_append (entry : Option EpochEntry) (a b : List FileObservation) :
    watched entry (a ++ b) = watched (watched entry a) b := List.foldl_append

namespace Room
variable {s : Room} {e : RoomEvent} {path : String}

theorem sightings_observe_self (o : FileObservation) :
    sightings path [.observe path o] = [o] := by
  simp [sightings]

theorem sightings_observe_of_ne {p : String} (h : p ≠ path) (o : FileObservation) :
    sightings path [.observe p o] = [] := by
  simp [sightings, h]

theorem epochs_observe_next (p : String) (o : FileObservation) :
    (room.next s (.observe p o)).memory.epochs =
      Function.update s.memory.epochs p (some (sighted (s.memory.epochs p) o)) :=
  s.memory.epochs_observe p o

/-- Nothing but an observation and a restart touches the epochs. -/
theorem epochs_next (hobs : ∀ p o, e ≠ .observe p o) (hres : e ≠ .restart) :
    (room.next s e).memory.epochs = s.memory.epochs := by
  rcases memory_next (s := s) (e := e) with h | ⟨p, o, he, -⟩ | ⟨-, h⟩ |
    ⟨now, slot, normalisePath, -, call, routable, -, -, h⟩ | ⟨he, -⟩
  · exact congrArg PersistedRoomState.epochs h
  · exact absurd he (hobs p o)
  · rw [h]
    rfl
  · rw [h]
    exact s.memory.epochs_reserve _ _ _ _ _
  · exact absurd he hres

theorem epochs_next_eq_watched (hres : e ≠ .restart) :
    (room.next s e).memory.epochs path = watched (s.memory.epochs path) (sightings path [e]) := by
  by_cases hobs : ∃ p o, e = .observe p o
  · obtain ⟨p, o, rfl⟩ := hobs
    rw [epochs_observe_next]
    by_cases hp : p = path
    · subst hp
      rw [Function.update_self, sightings_observe_self]
      rfl
    · rw [Function.update_of_ne (Ne.symm hp), sightings_observe_of_ne hp]
      rfl
  · have hnone : ∀ p o, e ≠ .observe p o := fun p o he => hobs ⟨p, o, he⟩
    have hnil : sightings path [e] = [] := by
      cases e with
      | observe p o => exact absurd rfl (hnone p o)
      | _ => rfl
    rw [epochs_next hnone hres, hnil]
    rfl

/-- Between two restarts the room's entry is what the observations made of it. -/
theorem epochs_run {es : List RoomEvent} (hres : .restart ∉ es) :
    (room.run s es).memory.epochs path = watched (s.memory.epochs path) (sightings path es) := by
  induction es generalizing s with
  | nil => rfl
  | cons e es ih =>
    rw [sightings_cons, watched_append, ← epochs_next_eq_watched (s := s)
      fun he => hres (he ▸ List.mem_cons_self)]
    exact ih fun h => hres (List.mem_cons_of_mem e h)

/-- Memory, the file and what is on its way there agree on the epoch of the path. -/
structure Steadily (s : Room) (path : String) (text : Bytes) (epoch bound : ℕ) : Prop where
  wellLocked : s.WellLocked
  memory : Steady text epoch bound (s.memory.epochs path)
  file : Steady text epoch bound (s.file.epochs path)
  carried : ∀ p, s.Carries p → Steady text epoch bound (p.epochs path)

variable {text : Bytes} {epoch bound : ℕ}

/-- A step whose entry in memory is steady. -/
theorem Steadily.next (h : s.Steadily path text epoch bound) {bound' : ℕ} (hle : bound ≤ bound')
    (hmem : Steady text epoch bound' ((room.next s e).memory.epochs path)) :
    (room.next s e).Steadily path text epoch bound' where
  wellLocked := wellLocked_next h.wellLocked
  memory := hmem
  file := by
    rcases carries_of_file_next (s := s) (e := e) with hfile | hfile
    · rw [hfile]
      exact h.file.mono hle
    · exact (h.carried _ hfile).mono hle
  carried := by
    intro p hp
    rcases carries_next h.wellLocked hp with hp | rfl
    · exact (h.carried p hp).mono hle
    · exact h.memory.mono hle

theorem Steadily.sighted (h : s.Steadily path text epoch bound) {o : FileObservation}
    (ho : o.Of text) (hle : bound ≤ o.len) :
    (room.next s (.observe path o)).Steadily path text epoch o.len := by
  refine h.next hle ?_
  rw [epochs_observe_next, Function.update_self]
  exact h.memory.sighted ho hle

theorem Steadily.other (h : s.Steadily path text epoch bound) (hnone : sightings path [e] = []) :
    (room.next s e).Steadily path text epoch bound := by
  refine h.next le_rfl ?_
  by_cases hres : e = .restart
  · subst hres
    exact h.file
  · rw [epochs_next_eq_watched hres, hnone]
    exact h.memory

theorem sightings_singleton (path : String) (e : RoomEvent) :
    sightings path [e] = [] ∨ ∃ o, e = .observe path o := by
  cases e with
  | observe p o =>
    by_cases hp : p = path
    · subst hp
      exact Or.inr ⟨o, rfl⟩
    · exact Or.inl (sightings_observe_of_ne hp o)
  | _ => exact Or.inl rfl

theorem Steadily.always {es : List RoomEvent} (h : s.Steadily path text epoch bound)
    (hof : ∀ o ∈ sightings path es, o.Of text)
    (hordered : (sightings path es).Pairwise (·.len ≤ ·.len))
    (hbound : ∀ o ∈ sightings path es, bound ≤ o.len) :
    room.Always (fun s => epochOf (s.memory.epochs path) = epoch) s es := by
  induction es generalizing s bound with
  | nil => exact h.memory.epochOf_eq
  | cons e es ih =>
    refine ⟨h.memory.epochOf_eq, ?_⟩
    rw [sightings_cons] at hof hordered hbound
    rcases sightings_singleton path e with hnone | ⟨o, rfl⟩
    · rw [hnone, List.nil_append] at hof hordered hbound
      exact ih (h.other hnone) hof hordered hbound
    · rw [sightings_observe_self] at hof hordered hbound
      obtain ⟨hfirst, hrest⟩ := List.pairwise_cons.mp hordered
      exact ih (h.sighted (hof o List.mem_cons_self) (hbound o List.mem_cons_self))
        (fun p hp => hof p (List.mem_cons_of_mem o hp)) hrest hfirst

end Room

namespace ReaderObservations

/-- A reader's entry is what its calls made of it. -/
theorem entry_run (r : ReaderObservations) (path : String) (calls : List ReaderCall) :
    (reader.run r calls).entry path = watched (r.entry path) (callSightings path calls) := by
  induction calls generalizing r with
  | nil => rfl
  | cons call calls ih =>
    rw [Machine.run_cons, ih]
    change watched ((r.observe call.path call.len call.head).1.entry path) _ = _
    rw [entry_observe]
    by_cases hp : call.path = path
    · have hcons : callSightings path (call :: calls) =
          .new call.len call.head :: callSightings path calls := by
        simp [callSightings, hp]
      rw [hcons, ← hp, Function.update_self]
      rfl
    · have hsame : callSightings path (call :: calls) = callSightings path calls := by
        simp [callSightings, hp]
      rw [hsame, Function.update_of_ne (Ne.symm hp)]

end ReaderObservations

/-- What is recorded of a file already. -/
def recorded (entry : Option EpochEntry) : List FileObservation :=
  (entry.map (·.observation)).toList

theorem steady_of_inOrder {transcript : Bytes} {entry : Option EpochEntry}
    {seen : List FileObservation} (h : InOrder transcript (recorded entry ++ seen)) :
    ∃ bound, Steady (headOf transcript) (epochOf entry) bound entry ∧
      ∀ o ∈ seen, bound ≤ o.len := by
  cases entry with
  | none => exact ⟨0, rfl, fun o _ => Nat.zero_le _⟩
  | some entry =>
    have hof := (h.sees entry.observation List.mem_cons_self).of
    exact ⟨entry.observation.len, ⟨rfl, hof, le_rfl⟩, (List.pairwise_cons.mp h.ordered).1⟩

theorem InOrder.right {transcript : Bytes} {a b : List FileObservation}
    (h : InOrder transcript (a ++ b)) : InOrder transcript b :=
  ⟨fun o ho => h.sees o (List.mem_append_right a ho), (List.pairwise_append.mp h.ordered).2.1⟩

/-- Any prefix of what was observed in order was. -/
theorem InOrder.of_prefix {transcript : Bytes} {a b : List FileObservation} (hab : a <+: b)
    (h : InOrder transcript b) : InOrder transcript a :=
  ⟨fun o ho => h.sees o (hab.subset ho), h.ordered.sublist hab.sublist⟩

theorem epochOf_watched_of_inOrder {transcript : Bytes} {entry : Option EpochEntry}
    {seen : List FileObservation} (h : InOrder transcript (recorded entry ++ seen)) :
    epochOf (watched entry seen) = epochOf entry := by
  obtain ⟨bound, hsteady, hbound⟩ := steady_of_inOrder h
  obtain ⟨bound', hlast⟩ := hsteady.watched (fun o ho => (h.right.sees o ho).of)
    h.right.ordered hbound
  exact hlast.epochOf_eq

theorem epochOf_watched_replaced {transcript replacement : Bytes} {epoch : ℕ}
    {old : FileObservation} {seen : List FileObservation} (hold : Sees transcript old)
    (h : InOrder replacement seen) : epochOf (watched (some ⟨epoch, old⟩) seen) =
      epoch + (seen.any fun o => (classifyObservation old o).advancesEpoch).toNat :=
  epochOf_watched_since hold.of.whole hold.of.covered ⟨rfl, rfl, le_rfl⟩
    (fun o ho => (h.sees o ho).of) h.ordered (Or.inl rfl)

/-- A growing file keeps its epoch, in the room and in every reader; no epoch ever decreases;
and a replacement advances it once, however many observations show it. -/
theorem epochs_stable (transcript replacement : Bytes) (path : String) :
    (∀ file es, InOrder transcript (recorded (file.epochs path) ++ sightings path es) →
      room.Always (fun s => epochOf (s.memory.epochs path) = epochOf (file.epochs path))
        (.start file) es) ∧
    (∀ r calls, InOrder transcript (recorded (r.entry path) ++ callSightings path calls) →
      reader.Always (fun now => epochOf (now.entry path) = epochOf (r.entry path)) r calls) ∧
    (∀ (s : Room) es, .restart ∉ es →
      epochOf (s.memory.epochs path) ≤ epochOf ((room.run s es).memory.epochs path)) ∧
    (∀ (r : ReaderObservations) calls,
      epochOf (r.entry path) ≤ epochOf ((reader.run r calls).entry path)) ∧
    (∀ (s : Room) es epoch old, s.memory.epochs path = some ⟨epoch, old⟩ → Sees transcript old →
      .restart ∉ es → InOrder replacement (sightings path es) →
      epochOf ((room.run s es).memory.epochs path) = epoch +
        ((sightings path es).any fun o => (classifyObservation old o).advancesEpoch).toNat) ∧
    ∀ (r : ReaderObservations) calls epoch old, r.entry path = some ⟨epoch, old⟩ →
      Sees transcript old → InOrder replacement (callSightings path calls) →
      epochOf ((reader.run r calls).entry path) = epoch +
        ((callSightings path calls).any fun o =>
          (classifyObservation old o).advancesEpoch).toNat := by
  refine ⟨fun file es h => ?_, fun r calls h => ?_, fun s es hres => ?_, fun r calls => ?_,
    fun s es epoch old hentry hold hres h => ?_, fun r calls epoch old hentry hold h => ?_⟩
  · obtain ⟨bound, hsteady, hbound⟩ := steady_of_inOrder h
    have hstart : (Room.start file).Steadily path (headOf transcript)
        (epochOf (file.epochs path)) bound :=
      ⟨Room.wellLocked_start file, hsteady, hsteady, fun _ hp => absurd hp Room.not_carries_start⟩
    exact hstart.always (fun o ho => (h.right.sees o ho).of) h.right.ordered hbound
  · refine (Machine.always_iff _ r calls).mpr fun pre hpre => ?_
    have hcalls : callSightings path pre <+: callSightings path calls := hpre.filterMap _
    rw [r.entry_run path pre]
    exact epochOf_watched_of_inOrder (h.of_prefix ((List.prefix_append_right_inj _).mpr hcalls))
  · rw [Room.epochs_run hres]
    exact epochOf_le_watched _ _
  · rw [r.entry_run path calls]
    exact epochOf_le_watched _ _
  · rw [Room.epochs_run hres, hentry]
    exact epochOf_watched_replaced hold h
  · rw [r.entry_run path calls, hentry]
    exact epochOf_watched_replaced hold h

/-- Two lines, and the one line of the file that takes their place. -/
def twoLines : Bytes := [123, 125, 10, 91, 93, 10]

def otherLine : Bytes := [91, 93, 10]

def readOf (content : Bytes) (start size : ℕ) : FileRead :=
  ⟨start, [], content.take size, content.take size⟩

theorem readOf_of (content : Bytes) (start size : ℕ) : (readOf content start size).Of content :=
  ⟨List.prefix_refl _, List.take_prefix _ _, fun _ => rfl⟩

theorem inOrder_twoLines : InOrder twoLines [⟨3, [123, 125, 10], 3⟩, ⟨6, [], 0⟩] := by
  refine ⟨fun o ho => ?_, by decide⟩
  rcases List.mem_cons.mp ho with rfl | ho
  · exact .read (readOf twoLines 0 3) (readOf_of _ _ _) _ (by decide)
  · obtain rfl := List.mem_singleton.mp ho
    exact .read (readOf twoLines 3 6) (readOf_of _ _ _) _ (by decide)

theorem inOrder_otherLine : InOrder otherLine [⟨3, [91, 93, 10], 3⟩, ⟨3, [], 0⟩] := by
  refine ⟨fun o ho => ?_, by decide⟩
  rcases List.mem_cons.mp ho with rfl | ho
  · exact .read (readOf otherLine 0 3) (readOf_of _ _ _) _ (by decide)
  · obtain rfl := List.mem_singleton.mp ho
    exact .scanned otherLine (List.prefix_refl _)

/-- Two reads of the two lines, then two observers of the other file. -/
theorem epochs_stable_replaced :
    room.Always (fun s => epochOf (s.memory.epochs "t") = 0) (.start .default)
      [.observe "t" ⟨3, [123, 125, 10], 3⟩, .restart, .observe "t" ⟨6, [], 0⟩] ∧
    epochOf ((room.run (room.next (.start .default) (.observe "t" ⟨6, [], 0⟩))
      [.observe "t" ⟨3, [91, 93, 10], 3⟩, .recharge, .observe "t" ⟨3, [], 0⟩]).memory.epochs "t") =
      1 := by
  obtain ⟨hroom, -, -, -, honce, -⟩ := epochs_stable twoLines otherLine "t"
  refine ⟨hroom .default _ inOrder_twoLines, ?_⟩
  have hold : Sees twoLines ⟨6, [], 0⟩ := inOrder_twoLines.sees _ (by decide)
  refine (honce _ [.observe "t" ⟨3, [91, 93, 10], 3⟩, .recharge, .observe "t" ⟨3, [], 0⟩] 0
    ⟨6, [], 0⟩ (by simp [Room.epochs_observe_next, Room.start, RoomState.load, PersistedRoomState.default,
      sighted]) hold (by simp) ?_).trans ?_
  · exact inOrder_otherLine
  · decide

end AgentsCommander.Capture
