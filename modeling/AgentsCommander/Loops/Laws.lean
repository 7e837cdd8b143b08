import AgentsCommander.Loops.Runs
import Mathlib.Logic.Equiv.List
import Mathlib.Tactic.DeriveEncodable

/-! The two laws of a Loop: its commits, and its deliveries. -/
namespace AgentsCommander.Loops
open Foundation Program Protocol

/-- Before any thread has started: whatever is on disk, but for the audit log. -/
structure Initial (s : System) : Prop where
  history : s.trace.history = []
  commit : ∀ t, s.trace.commit t = none
  outstanding : s.trace.outstanding = []
  scanLock : s.world.scanLock = none
  ioLock : s.world.ioLock = none
  loopLock : s.world.loopLock = none
  rows : s.world.rows = []

section
variable {crates : Crates} {place : Place} {s : System}

theorem Initial.commitInv (h : Initial s) : CommitInv s := by
  constructor
  · constructor <;> simp [h.history, h.rows]
  · exact fun n => ⟨by simp [h.scanLock], by simp [h.ioLock]⟩
  · simp [h.history]
  · simp [h.history]
  · simp [h.history]

theorem Initial.deliveryInv (h : Initial s) : DeliveryInv crates s :=
  ⟨fun d hd => by simp [h.history] at hd, fun d hd => by simp [h.outstanding] at hd⟩

theorem Initial.atRest (h : Initial s) (t : Thread) : AtRest t s :=
  ⟨by simp [h.scanLock], by simp [h.ioLock], by simp [h.loopLock], h.commit t⟩

/-- The agreement holds in every configuration an interleaving reaches. -/
theorem loopInv_run {strict : Prop} (hreads : strict → crates.ReadsBack) (hs : Initial s)
    {c : (loopPlatform crates place).Conf}
    (h : Platform.Reaches (environment crates place strict) (Platform.quiet s) c) :
    CommitInv c.shared ∧ (strict → DeliveryInv crates c.shared) :=
  inv_of_reaches (G := loopProtocol crates place strict) (fun _ _ hp => safely_starts hreads hp)
    ⟨hs.commitInv, fun _ => hs.deliveryInv⟩ hs.atRest h

/-- In every interleaving of scans, manual runs, commands and the CLI, with crashes. -/
theorem commitLaw_run (crates : Crates) (place : Place) (hs : Initial s)
    {c : (loopPlatform crates place).Conf}
    (h : Platform.Reaches Platform.anything (Platform.quiet s) c) : CommitLaw c.shared := by
  have hfree : Platform.Reaches (environment crates place False) (Platform.quiet s) c :=
    Platform.reaches_mono (fun _ _ _ _ _ hf => hf.elim) h
  exact (loopInv_run (fun hf => hf.elim) hs hfree).1.toCommitLaw

end

/-- The checks of `Undisturbed`, as the run can make them. -/
def undisturbed (crates : Crates) (t : Thread) (o : Act) (x : Choice) (s : System) : Bool :=
  match s.trace.underway t, o with
  | some ⟨.scan, _, _, _, .delivered⟩, .readDocument .config =>
    s.trace.prepared t ≠ none ||
      ((s.world.readDocument .config x).bind fun content =>
        (parseLoopConfig crates content).mapError fun _ => .other).toBool
  | some ⟨.scan, config, _, due, .delivered⟩, .now =>
    s.trace.prepared t ≠ none || match x with
      | .time now => due ≤ now && (nextDueAfter crates config.trigger.expr now).toBool
      | _ => false
  | some ⟨.scan, _, _, _, .delivered⟩, .note (.reportApplied config generation raw true) =>
    s.world.generation = generation && (s.world.raw == raw || s.world.raw == s.trace.prepared t) &&
      (s.world.config.map (parseLoopConfig crates)).all fun r =>
        r.toOption.all fun current => loopDeliveryConfigMatches current config
  | _, _ => true

theorem toBool_iff {ε α : Type} {r : Except ε α} : r.toBool = true ↔ ∃ a, r = .ok a := by
  cases r <;> simp [Except.toBool]

theorem undisturbed_of_check {crates : Crates} {t : Thread} {o : Act} {x : Choice} {s : System}
    (h : undisturbed crates t o x s = true) : Undisturbed crates t o x s where
  config u hu ho := by
    obtain ⟨hu, horigin, hkind, hp⟩ := hu
    obtain ⟨origin, config, run, due, kind⟩ := u
    subst ho horigin hkind
    simp only [undisturbed, hu, hp, ne_eq, not_true_eq_false, decide_false, Bool.false_or,
      toBool_iff] at h
    obtain ⟨config, h⟩ := h
    cases hr : s.world.readDocument .config x with
    | error e => rw [hr] at h; cases h
    | ok content =>
      rw [hr] at h
      cases hc : parseLoopConfig crates content with
      | error e => simp [Except.bind, Except.mapError, hc] at h
      | ok c => exact ⟨content, c, rfl, hc⟩
  clock u hu ho := by
    obtain ⟨hu, horigin, hkind, hp⟩ := hu
    obtain ⟨origin, config, run, due, kind⟩ := u
    subst ho horigin hkind
    simp only [undisturbed, hu, hp, ne_eq, not_true_eq_false, decide_false, Bool.false_or] at h
    cases x with
    | time now =>
      simp only [Bool.and_eq_true, decide_eq_true_eq, toBool_iff] at h
      obtain ⟨hle, next, hn⟩ := h
      exact ⟨now, next, rfl, hle, hn⟩
    | _ => cases h
  report u config generation raw hu horigin hkind ho := by
    obtain ⟨origin, config', run, due, kind⟩ := u
    subst ho horigin hkind
    simp only [undisturbed, hu, Bool.and_eq_true, decide_eq_true_eq, Bool.or_eq_true,
      beq_iff_eq] at h
    refine ⟨h.1.1, h.1.2, fun current hlive => ?_⟩
    obtain ⟨content, hw, hp, -⟩ := hlive
    have h := h.2
    simp only [hw, hp, Option.map_some, Option.all_some, Except.toOption] at h
    exact h

instance encodableString : Encodable String :=
  Encodable.ofLeftInverse (fun s => s.toList.map Char.toNat)
    (fun codes => String.ofList (codes.map Char.ofNat)) fun s => by
      simp [List.map_map, Function.comp_def]

deriving instance Encodable for LoopLastResult
deriving instance Encodable for LoopState

/-- The bytes of a text. -/
def bytesOf (text : String) : Bytes := text.toByteArray.data.toList

def textOf (bytes : Bytes) : Option String :=
  if h : ByteArray.IsValidUTF8 ⟨bytes.toArray⟩ then some (.ofByteArray ⟨bytes.toArray⟩ h) else none

theorem textOf_bytesOf (text : String) : textOf (bytesOf text) = some text := by
  have h : ByteArray.IsValidUTF8 ⟨(bytesOf text).toArray⟩ := text.isValidUTF8
  exact dif_pos h

def minute : DateTime := 60000000000

/-- A Loop due every minute. -/
def dailyConfig : LoopConfigToml where
  loopDef := { id := "daily", name := "Daily", enabled := true }
  trigger := { kind := .cron, expr := "* * * * *", timezone := "local" }
  target := { kind := .workgroupCoordinator, workgroup := "wg-1-dev-team" }
  prompt := { body := "Send status" }
  policy := {}

def dailyConfigText : String :=
  "[loop]\nid=\"daily\"\nname=\"Daily\"\nenabled=true\n[trigger]\nkind=\"cron\"\n" ++
  "expr=\"* * * * *\"\ntimezone=\"local\"\n[target]\nkind=\"workgroupCoordinator\"\n" ++
  "workgroup=\"wg-1-dev-team\"\n[prompt]\nbody=\"Send status\"\n[policy]\n"

/-- A run left pending by an earlier scan. -/
def pendingState : LoopState :=
  { lastCheckedAt := some minute, lastDueAt := some minute, pendingDueAt := some minute,
    pendingRunId := some 7, nextDueAt := some (2 * minute) }

@[irreducible] def pendingText : String :=
  "\x7b\"lastCheckedAt\":\"1970-01-01T00:01:00Z\",\"lastDueAt\":\"1970-01-01T00:01:00Z\"," ++
  "\"pendingDueAt\":\"1970-01-01T00:01:00Z\"," ++
  "\"pendingRunId\":\"00000000-0000-0000-0000-000000000007\"," ++
  "\"nextDueAt\":\"1970-01-01T00:02:00Z\"\x7d"

/-- The same run, delivered. -/
def deliveredState : LoopState :=
  { lastCheckedAt := some (minute + 30), lastDueAt := some minute,
    lastDeliveredAt := some (minute + 30),
    lastResult := some { kind := "delivered", message := "Delivered" },
    nextDueAt := some (2 * minute) }

@[irreducible] def deliveredText : String :=
  "\x7b\n  \"lastCheckedAt\": \"1970-01-01T00:01:00.000000030Z\",\n" ++
  "  \"lastDueAt\": \"1970-01-01T00:01:00Z\",\n" ++
  "  \"lastDeliveredAt\": \"1970-01-01T00:01:00.000000030Z\",\n" ++
  "  \"lastResult\": \x7b\n    \"kind\": \"delivered\",\n    \"message\": \"Delivered\"\n  \x7d,\n" ++
  "  \"pendingDueAt\": null,\n  \"pendingRunId\": null,\n" ++
  "  \"lastMissedClosedAt\": null,\n  \"nextDueAt\": \"1970-01-01T00:02:00Z\"\n\x7d"

/-- The bytes of a state: the two above as they are on disk, the others by number. -/
def stateBytes (state : LoopState) : Bytes :=
  if state = pendingState then bytesOf pendingText
  else if state = deliveredState then bytesOf deliveredText
  else bytesOf (String.ofList (List.replicate (Encodable.encode state) '1'))

def stateOfBytes (bytes : Bytes) : Option LoopState :=
  if bytes = bytesOf pendingText then some pendingState
  else if bytes = bytesOf deliveredText then some deliveredState
  else (textOf bytes).bind fun text => Encodable.decode text.toList.length

theorem valid_bytesOf (text : String) :
    ByteArray.validateUTF8 ⟨(bytesOf text).toArray⟩ = true :=
  ByteArray.validateUTF8_eq_true_iff.mpr text.isValidUTF8

theorem valid_stateBytes (state : LoopState) :
    ByteArray.validateUTF8 ⟨(stateBytes state).toArray⟩ = true := by
  have h : ∃ text, stateBytes state = bytesOf text := by
    unfold stateBytes
    split_ifs <;> exact ⟨_, rfl⟩
  obtain ⟨text, h⟩ := h
  rw [h]
  exact valid_bytesOf text

theorem digits_bytesOf {n : ℕ} {b : UInt8}
    (h : b ∈ bytesOf (String.ofList (List.replicate n '1'))) : b = 49 := by
  rw [bytesOf, String.toByteArray_ofList, List.utf8Encode, List.toList_data_toByteArray] at h
  obtain ⟨c, hc, hb⟩ := List.mem_flatMap.mp h
  rw [List.eq_of_mem_replicate hc] at hb
  exact List.mem_singleton.mp hb

theorem stateOfBytes_stateBytes (state : LoopState) :
    stateOfBytes (stateBytes state) = some state := by
  have hne : bytesOf deliveredText ≠ bytesOf pendingText := by decide +kernel
  have hbrace : ∀ text, (123 : UInt8) ∈ bytesOf text →
      bytesOf (String.ofList (List.replicate (Encodable.encode state) '1')) ≠ bytesOf text :=
    fun text hm h => absurd (digits_bytesOf (h.symm ▸ hm)) (by decide)
  have hpending := hbrace pendingText (by decide +kernel)
  have hdelivered := hbrace deliveredText (by decide +kernel)
  unfold stateBytes stateOfBytes
  generalize bytesOf pendingText = pending at hne hpending ⊢
  generalize bytesOf deliveredText = delivered at hne hdelivered ⊢
  by_cases hp : state = pendingState
  · rw [if_pos hp, if_pos rfl, hp]
  by_cases hd : state = deliveredState
  · rw [if_neg hp, if_pos hd, if_neg hne, if_pos rfl, hd]
  · rw [if_neg hp, if_neg hd, if_neg hpending, if_neg hdelivered, textOf_bytesOf,
      Option.bind_some, String.toList_ofList, List.length_replicate, Encodable.encodek]

/-- Crates that act as the real ones do on a Loop due every minute. -/
def minuteCrates : Crates where
  tomlFromStr bytes := if bytes = bytesOf dailyConfigText then .ok dailyConfig else .error "toml"
  tomlToString _ := .error "toml"
  jsonFromStr bytes := (stateOfBytes bytes).elim (.error "json") .ok
  jsonToString state := .ok (stateBytes state)
  parseCron expr := if expr = "* * * * *" then .ok () else .error "cron"
  findNextOccurrence _ now := .ok ((now / minute + 1) * minute)
  findPreviousOccurrence _ now := .ok (now / minute * minute)

theorem minuteCrates_readsBack : minuteCrates.ReadsBack where
  state s := ⟨_, rfl, valid_stateBytes s, by
    simp only [minuteCrates, stateOfBytes_stateBytes, Option.elim_some]⟩

def dailyPlace : Place := ⟨"daily", "/project"⟩

def dailyReport : LoopDeliveryReport where
  kind := .delivered
  message := "Delivered"
  target := some "dev-team/lead"
  sessionId := none
  error := none
  promptSnapshot := some "Send status"
  completedAt := some (minute + 30)

/-- The Loop on disk, with its run pending. -/
def pendingSystem : System where
  world := { disk := some { config := some (bytesOf dailyConfigText),
                            state := some (bytesOf pendingText) } }

theorem pendingSystem_initial : Initial pendingSystem :=
  ⟨rfl, fun _ => rfl, rfl, rfl, rfl, rfl, rfl⟩




/-- A scan up to the report of its delivery. -/
def scanChoices : List Choice := List.replicate 19 .ok ++ [.time (minute + 20), .report dailyReport]

/-- One scan of the Loop, with what the environment decides. -/
def scanRun (check : Thread → Act → Choice → System → Bool) (choices : List Choice) (s : System) :
    Option System :=
  (loopPlatform minuteCrates dailyPlace).run check (.app 0)
    (scanOnce minuteCrates dailyPlace false false) choices s

theorem reaches_scanRun {ok : (loopPlatform minuteCrates dailyPlace).Guard}
    {check : Thread → Act → Choice → System → Bool}
    (hcheck : ∀ t o x s, check t o x s = true → ok t o x s) {choices : List Choice}
    {s s' : System} (h : scanRun check choices s = some s') :
    Platform.Reaches ok (Platform.quiet s) (Platform.quiet s') :=
  Platform.reaches_run hcheck (Starts.scanOnce 0 false false) h

/-- A scan that delivers, and then cannot have the Loop lock for its commit. -/
def failedScan : Option System :=
  scanRun (undisturbed minuteCrates)
    (scanChoices ++ [.ok, .ok, .ok, .ok, .time (minute + 30), .ok, .ok, .fault, .ok, .ok, .ok, .ok])
    pendingSystem

/-- The scan after it, which makes up for the commit. -/
def replayingScan (s : System) : Option System :=
  scanRun (undisturbed minuteCrates) (List.replicate 44 .ok) s

theorem reaches_replayingScan : ∃ s, Platform.Reaches (Undisturbed minuteCrates)
    (Platform.quiet (P := loopPlatform minuteCrates dailyPlace) pendingSystem) (Platform.quiet s) ∧
      s.world.rows.length = 1 := by
  have hrun : (failedScan.bind replayingScan).any (fun s => s.world.rows.length == 1) = true := by
    decide +kernel
  have hcheck : ∀ t o x s, undisturbed minuteCrates t o x s = true →
      Undisturbed minuteCrates t o x s := fun _ _ _ _ => undisturbed_of_check
  cases hf : failedScan with
  | none =>
    rw [hf] at hrun
    cases hrun
  | some failed =>
    rw [hf, Option.bind_some] at hrun
    cases hr : replayingScan failed with
    | none =>
      rw [hr] at hrun
      cases hrun
    | some s =>
      rw [hr] at hrun
      have hrows : s.world.rows.length = 1 := by simpa using hrun
      exact ⟨s, (reaches_scanRun hcheck hf).trans (reaches_scanRun hcheck hr), hrows⟩

/-- A delivered run is committed by the scan after the failed one, in one row. -/
theorem commitLaw_run_replay : ∃ s : System, s.world.rows.length = 1 ∧ CommitLaw s := by
  obtain ⟨s, hs, hrows⟩ := reaches_replayingScan
  exact ⟨s, hrows, commitLaw_run minuteCrates dailyPlace pendingSystem_initial
    (Platform.reaches_mono (fun _ _ _ _ _ => trivial) hs)⟩

/-- A scan whose `config.toml` cannot be read once it has delivered. -/
def lostScan (s : System) : Option System :=
  scanRun (fun _ _ _ _ => true) (scanChoices ++ [.ok, .ok, .ok, .fault, .ok, .ok, .ok]) s

def Event.isRedelivery : Event → Bool
  | .redelivered _ => true
  | _ => false

end AgentsCommander.Loops
