import AgentsCommander.Watchers.Dedupe

/-! An occurrence watcher over one session: what a tick emits, and the state it leaves. The regex
crate is a parameter. What deduplication suppresses was shown, as long as the keys of a tick fit its
budget. -/
namespace AgentsCommander.Watchers
open Foundation

inductive WatcherDedupe where
  | row
  | capture
  | none
  deriving DecidableEq, Repr

/-- A compiled pattern. -/
structure WatcherPattern where
  isMatch : String → Bool
  capturesOf : String → List (Option String)

structure ResolvedWatcher where
  pattern : String
  dedupe : WatcherDedupe
  dedupeWindowMs : ℕ
  deriving DecidableEq, Repr

def ResolvedWatcher.window (w : ResolvedWatcher) : Duration := w.dedupeWindowMs * 10 ^ 6

def maxRowBytes : ℕ := 256
def matchesPerWatcherPerTick : ℕ := 8
def matchesPerSessionPerTick : ℕ := 16
def degradedTicksBeforeSuspension : ℕ := 25
def suspension : Duration := 5 * 10 ^ 9

/-- The characters that fit into so many bytes. -/
def takeBytes : ℕ → List Char → List Char
  | _, [] => []
  | room, c :: cs => if c.utf8Size ≤ room then c :: takeBytes (room - c.utf8Size) cs else []

def truncateRow (text : String) : String × Bool :=
  if text.utf8ByteSize ≤ maxRowBytes then (text, false)
  else (String.ofList (takeBytes maxRowBytes text.toList), true)

structure Found where
  captures : List (Option String)
  row : String
  rowTruncated : Bool
  deriving DecidableEq, Repr

/-- The key a match is deduplicated under. -/
def dedupeKey (dedupe : WatcherDedupe) (text : String) (captures : List (Option String)) :
    Option String :=
  match dedupe with
  | .none => none
  | .row => some text
  | .capture => some ("\x1f".intercalate (captures.map (·.getD "\x00")))

/-- A match without a key is always let through. -/
def DedupeKeys.admitMatch (d : DedupeKeys) (key : Option String) (now : Instant)
    (window : Duration) : Bool × DedupeKeys :=
  match key with
  | none => (true, d)
  | some key => d.admitKey key now window

section evaluation
variable (watcher : ResolvedWatcher) (compiled : WatcherPattern) (now : Instant) (budget : ℕ)

/-- The loop of `evaluate_occurrence`, with what has been found so far. -/
def evaluateFrom (keys : DedupeKeys) (found : List Found) :
    List String → (List Found × Bool) × DedupeKeys
  | [] => ((found, false), keys)
  | text :: selected =>
    if !compiled.isMatch text then evaluateFrom keys found selected
    else
      let captures := compiled.capturesOf text
      let admitted := keys.admitMatch (dedupeKey watcher.dedupe text captures) now watcher.window
      if !admitted.1 then evaluateFrom admitted.2 found selected
      else if found.length ≥ budget then ((found, true), admitted.2)
      else
        let row := truncateRow text
        evaluateFrom admitted.2 (found ++ [⟨captures, row.1, row.2⟩]) selected

def evaluateOccurrence (keys : DedupeKeys) (selected : List String) :
    (List Found × Bool) × DedupeKeys := evaluateFrom watcher compiled now budget keys [] selected

end evaluation

/-- What an occurrence watcher uses of the state of its pair. The signature is the pattern. -/
structure WatcherSessionState where
  signature : Option String := none
  keys : DedupeKeys := .default
  degraded : Bool := false
  degradedTicks : ℕ := 0
  degradedLogged : Bool := false
  suspendedUntil : Option Instant := none
  count : ℕ := 0

namespace WatcherSessionState

def updateSaturation (s : WatcherSessionState) (now : Instant) (capped : Bool) :
    WatcherSessionState :=
  if capped then
    { s with
      degraded := true
      degradedLogged := true
      degradedTicks := s.degradedTicks + 1
      suspendedUntil := if s.degradedTicks + 1 ≥ degradedTicksBeforeSuspension then
        some (now + suspension) else s.suspendedUntil }
  else { s with degraded := false, degradedTicks := 0, degradedLogged := false }

/-- An edited watcher starts again. -/
def sign (s : WatcherSessionState) (pattern : String) : WatcherSessionState :=
  if s.signature = some pattern then s else { signature := some pattern, count := s.count }

/-- The pair is skipped while it is suspended. -/
def isSuspended (s : WatcherSessionState) (now : Instant) : Bool := s.suspendedUntil.any (now < ·)

/-- The end of a suspension. -/
def resume (s : WatcherSessionState) : WatcherSessionState :=
  if s.suspendedUntil.isSome then { s with suspendedUntil := none, degradedTicks := 0 } else s

end WatcherSessionState

/-- What a tick brings to the pair: the rows the diff selected, and how many matches the session
has already used up. -/
structure Tick where
  elapsed : Duration
  watcher : ResolvedWatcher
  selected : List String
  usedBySession : ℕ
  deriving DecidableEq, Repr

def Tick.budget (t : Tick) : ℕ :=
  min matchesPerWatcherPerTick (matchesPerSessionPerTick - t.usedBySession)

namespace WatcherSessionState
variable (patterns : String → Option WatcherPattern)

/-- `evaluate_watchers` for one occurrence watcher. -/
def evaluate (s : WatcherSessionState) (now : Instant) (t : Tick) :
    WatcherSessionState × List Found :=
  match patterns t.watcher.pattern with
  | none => (s, [])
  | some compiled =>
    let signed := s.sign t.watcher.pattern
    if signed.isSuspended now then (signed, [])
    else
      let ready := signed.resume
      let outcome := evaluateOccurrence t.watcher compiled now t.budget ready.keys t.selected
      let counted := { ready with
        keys := outcome.2.prune now t.watcher.window
        count := ready.count + outcome.1.1.length }
      (counted.updateSaturation now outcome.1.2, outcome.1.1)

/-- The pair and the clock of its last tick. The answer is what the tick emits. -/
def ticks : Machine (WatcherSessionState × Instant) Tick (List Found) where
  step s t :=
    let evaluated := s.1.evaluate patterns (s.2 + t.elapsed) t
    ((evaluated.1, s.2 + t.elapsed), evaluated.2)

end WatcherSessionState

/-- What becomes of a match. -/
inductive Fate where
  | emitted
  | suppressed
  | dropped
  deriving DecidableEq, Repr

/-- The keys that were emitted, with their times. -/
abbrev Emissions := List (String × Instant)

/-- Every key that is held was emitted when the set says. -/
def DedupeKeys.Backed (d : DedupeKeys) (log : Emissions) : Prop :=
  ∀ key time, d.seen.lookup key = some time → (key, time) ∈ log

theorem DedupeKeys.backed_default (log : Emissions) : default.Backed log := fun _ _ h => nomatch h

theorem DedupeKeys.Backed.mono {d : DedupeKeys} {log more : Emissions} (h : d.Backed log)
    (hmore : ∀ e ∈ log, e ∈ more) : d.Backed more := fun key time hk => hmore _ (h key time hk)

theorem DedupeKeys.Backed.prune {d : DedupeKeys} {log : Emissions} (h : d.Backed log)
    (now : Instant) (window : Duration) : (d.prune now window).Backed log := by
  intro key time hk
  rw [DedupeKeys.lookup_prune] at hk
  exact h key time (Option.filter_eq_some_iff.mp hk).1

theorem lookup_evict {seen : AList fun _ : String => Instant} {order : List String} {key : String}
    {time : Instant} (h : (DedupeKeys.evict seen order).seen.lookup key = some time) :
    seen.lookup key = some time := by
  induction order generalizing seen with
  | nil => exact h
  | cons first order ih =>
    rw [DedupeKeys.evict] at h
    split_ifs at h
    · have hk := ih h
      rw [Assoc.lookup_erase_eq] at hk
      split_ifs at hk
      exact hk
    · exact h

/-- A suppressed key is held and its window is not over. -/
theorem DedupeKeys.admit_suppressed {d : DedupeKeys} {key : String} {now : Instant}
    {window : Duration} (h : (d.admitKey key now window).1 = false) :
    (∃ time, d.seen.lookup key = some time ∧ now - time < window) ∧
      (d.admitKey key now window).2 = d := by
  unfold DedupeKeys.admitKey at h ⊢
  cases hk : d.seen.lookup key with
  | none => rw [hk] at h; exact nomatch h
  | some time =>
    rw [hk] at h
    dsimp only at h ⊢
    split_ifs at h ⊢ with hlive
    exact ⟨⟨time, rfl, hlive⟩, rfl⟩

/-- What is held after an admission was held before it, or is the key admitted. -/
theorem DedupeKeys.lookup_admit {d : DedupeKeys} {key other : String} {now time : Instant}
    {window : Duration} (h : (d.admitKey key now window).2.seen.lookup other = some time) :
    d.seen.lookup other = some time ∨ (other, time) = (key, now) := by
  unfold DedupeKeys.admitKey at h
  cases hk : d.seen.lookup key with
  | none =>
    rw [hk] at h
    dsimp only at h
    rw [Assoc.lookup_insert_eq] at h
    split_ifs at h with ho
    · exact .inr (by rw [ho, Option.some.inj h])
    · exact .inl (lookup_evict h)
  | some admitted =>
    rw [hk] at h
    dsimp only at h
    split_ifs at h with hlive
    · exact .inl h
    · dsimp only at h
      rw [Assoc.lookup_insert_eq] at h
      split_ifs at h with ho
      · exact .inr (by rw [ho, Option.some.inj h])
      · exact .inl h

theorem DedupeKeys.Backed.admitKey {d : DedupeKeys} {log : Emissions} (h : d.Backed log)
    (key : String) (now : Instant) (window : Duration) :
    (d.admitKey key now window).2.Backed ((key, now) :: log) := by
  intro other time hk
  rcases DedupeKeys.lookup_admit hk with hold | hnew
  · exact List.mem_cons_of_mem _ (h other time hold)
  · exact hnew ▸ List.mem_cons_self

/-- How many of the keys the set lets through, one after the other. -/
def DedupeKeys.letThrough (d : DedupeKeys) (now : Instant) (window : Duration) : List String → ℕ
  | [] => 0
  | key :: keys =>
    (d.admitKey key now window).1.toNat + (d.admitKey key now window).2.letThrough now window keys

section evaluation
variable (watcher : ResolvedWatcher) (compiled : WatcherPattern) (now : Instant) (budget : ℕ)

def keyOf (text : String) : Option String :=
  dedupeKey watcher.dedupe text (compiled.capturesOf text)

/-- The keys of the matching rows. -/
def matchKeys (selected : List String) : List String :=
  (selected.filter compiled.isMatch).filterMap (keyOf watcher compiled)

def foundOf (text : String) : Found :=
  ⟨compiled.capturesOf text, (truncateRow text).1, (truncateRow text).2⟩

/-- The matches the loop of `evaluate_occurrence` looks at, each with its fate, when so many have
been found. -/
def fatesFrom (keys : DedupeKeys) (found : ℕ) : List String → List (String × Fate)
  | [] => []
  | text :: selected =>
    if !compiled.isMatch text then fatesFrom keys found selected
    else
      let admitted := keys.admitMatch (keyOf watcher compiled text) now watcher.window
      if !admitted.1 then (text, .suppressed) :: fatesFrom admitted.2 found selected
      else if found ≥ budget then [(text, .dropped)]
      else (text, .emitted) :: fatesFrom admitted.2 (found + 1) selected

def fates (keys : DedupeKeys) (selected : List String) : List (String × Fate) :=
  fatesFrom watcher compiled now budget keys 0 selected

/-- The rows with a fate, in order. -/
def ofFate (fate : Fate) (fated : List (String × Fate)) : List String :=
  (fated.filter (·.2 = fate)).map (·.1)

/-- The key a match shows when it is emitted, if it has one. -/
def shown (text : String) : Emissions := ((keyOf watcher compiled text).map (·, now)).toList

/-- The emissions once the matches have met their fates. -/
def showing (log : Emissions) : List (String × Fate) → Emissions
  | [] => log
  | (text, .emitted) :: fated => showing (shown watcher compiled now text ++ log) fated
  | (_, .suppressed) :: fated => showing log fated
  | (_, .dropped) :: fated => showing log fated

/-- Every match that is suppressed repeats a key emitted less than one window earlier. -/
def Justified (log : Emissions) : List (String × Fate) → Prop
  | [] => True
  | (text, .emitted) :: fated => Justified (shown watcher compiled now text ++ log) fated
  | (text, .suppressed) :: fated =>
    (∃ key time, keyOf watcher compiled text = some key ∧ (key, time) ∈ log ∧
      now - time < watcher.window) ∧ Justified log fated
  | (_, .dropped) :: fated => Justified log fated

variable {watcher compiled now budget}

section row
variable {text : String} {keys keys' : DedupeKeys}

theorem fatesFrom_of_not_match (h : compiled.isMatch text = false) (found : ℕ)
    (selected : List String) :
    fatesFrom watcher compiled now budget keys found (text :: selected) =
      fatesFrom watcher compiled now budget keys found selected := by
  rw [fatesFrom, h]
  rfl

theorem evaluateFrom_of_not_match (h : compiled.isMatch text = false) (found : List Found)
    (selected : List String) :
    evaluateFrom watcher compiled now budget keys found (text :: selected) =
      evaluateFrom watcher compiled now budget keys found selected := by
  rw [evaluateFrom, h]
  rfl

theorem fatesFrom_of_suppressed (h : compiled.isMatch text = true)
    (hentry : keys.admitMatch (keyOf watcher compiled text) now watcher.window = (false, keys'))
    (found : ℕ) (selected : List String) :
    fatesFrom watcher compiled now budget keys found (text :: selected) =
      (text, .suppressed) :: fatesFrom watcher compiled now budget keys' found selected := by
  rw [fatesFrom, h, hentry]
  rfl

theorem evaluateFrom_of_suppressed (h : compiled.isMatch text = true)
    (hentry : keys.admitMatch (keyOf watcher compiled text) now watcher.window = (false, keys'))
    (found : List Found) (selected : List String) :
    evaluateFrom watcher compiled now budget keys found (text :: selected) =
      evaluateFrom watcher compiled now budget keys' found selected := by
  unfold keyOf at hentry
  rw [evaluateFrom, h]
  simp only [hentry]
  rfl

theorem fatesFrom_of_dropped (h : compiled.isMatch text = true)
    (hentry : keys.admitMatch (keyOf watcher compiled text) now watcher.window = (true, keys'))
    {found : ℕ} (hfull : budget ≤ found) (selected : List String) :
    fatesFrom watcher compiled now budget keys found (text :: selected) = [(text, .dropped)] := by
  rw [fatesFrom, h, hentry]
  exact if_pos hfull

theorem evaluateFrom_of_dropped (h : compiled.isMatch text = true)
    (hentry : keys.admitMatch (keyOf watcher compiled text) now watcher.window = (true, keys'))
    {found : List Found} (hfull : budget ≤ found.length) (selected : List String) :
    evaluateFrom watcher compiled now budget keys found (text :: selected) =
      ((found, true), keys') := by
  unfold keyOf at hentry
  rw [evaluateFrom, h]
  simp only [hentry]
  exact if_pos hfull

theorem fatesFrom_of_emitted (h : compiled.isMatch text = true)
    (hentry : keys.admitMatch (keyOf watcher compiled text) now watcher.window = (true, keys'))
    {found : ℕ} (hroom : ¬ budget ≤ found) (selected : List String) :
    fatesFrom watcher compiled now budget keys found (text :: selected) =
      (text, .emitted) :: fatesFrom watcher compiled now budget keys' (found + 1) selected := by
  rw [fatesFrom, h, hentry]
  exact if_neg hroom

theorem evaluateFrom_of_emitted (h : compiled.isMatch text = true)
    (hentry : keys.admitMatch (keyOf watcher compiled text) now watcher.window = (true, keys'))
    {found : List Found} (hroom : ¬ budget ≤ found.length) (selected : List String) :
    evaluateFrom watcher compiled now budget keys found (text :: selected) =
      evaluateFrom watcher compiled now budget keys' (found ++ [foundOf compiled text])
        selected := by
  unfold keyOf at hentry
  rw [evaluateFrom, h]
  simp only [hentry]
  exact if_neg hroom

end row

variable (watcher compiled now budget) in
/-- The loop emits the matches whose fate it is, and is cut short by a match that is dropped. -/
theorem evaluateFrom_eq (keys : DedupeKeys) (found : List Found) (selected : List String) :
    (evaluateFrom watcher compiled now budget keys found selected).1 =
      (found ++ (ofFate .emitted (fatesFrom watcher compiled now budget keys found.length
          selected)).map (foundOf compiled),
        (fatesFrom watcher compiled now budget keys found.length selected).any
          (·.2 = .dropped)) := by
  induction selected generalizing keys found with
  | nil => simp [evaluateFrom, fatesFrom, ofFate]
  | cons text selected ih =>
    cases hmatch : compiled.isMatch text with
    | false =>
      rw [fatesFrom_of_not_match hmatch, evaluateFrom_of_not_match hmatch, ih]
    | true =>
      cases hentry : keys.admitMatch (keyOf watcher compiled text) now watcher.window with
      | mk admitted keys' =>
        cases admitted with
        | false =>
          rw [fatesFrom_of_suppressed hmatch hentry, evaluateFrom_of_suppressed hmatch hentry, ih]
          simp [ofFate]
        | true =>
          by_cases hfull : budget ≤ found.length
          · rw [fatesFrom_of_dropped hmatch hentry hfull,
              evaluateFrom_of_dropped hmatch hentry hfull]
            simp [ofFate]
          · rw [fatesFrom_of_emitted hmatch hentry hfull,
              evaluateFrom_of_emitted hmatch hentry hfull, ih]
            simp [ofFate]

theorem matchKeys_cons {text : String} (h : compiled.isMatch text = true)
    (selected : List String) : matchKeys watcher compiled (text :: selected) =
      (keyOf watcher compiled text).toList ++ matchKeys watcher compiled selected := by
  unfold matchKeys
  rw [List.filter_cons_of_pos h, List.filterMap_cons]
  cases keyOf watcher compiled text <;> rfl

theorem matchKeys_cons_of_not {text : String} (h : compiled.isMatch text = false)
    (selected : List String) : matchKeys watcher compiled (text :: selected) =
      matchKeys watcher compiled selected := by
  unfold matchKeys
  rw [List.filter_cons_of_neg (h ▸ Bool.false_ne_true)]

/-- Without deduplication no match has a key. -/
theorem matchKeys_eq_nil {text : String} (h : keyOf watcher compiled text = none)
    (selected : List String) : matchKeys watcher compiled selected = [] := by
  have hnone : watcher.dedupe = .none := by
    unfold keyOf dedupeKey at h
    split at h
    · assumption
    · exact nomatch h
    · exact nomatch h
  refine List.filterMap_eq_nil_iff.mpr fun other _ => ?_
  rw [keyOf, hnone]
  rfl

variable (watcher compiled now budget) in
/-- What is suppressed in a tick is justified, and what is held after it was emitted, when the keys
it lets through fit the budget. -/
theorem justified_evaluateFrom {keys : DedupeKeys} {log : Emissions} (hbacked : keys.Backed log)
    (found : List Found) (selected : List String)
    (hfits : found.length +
      keys.letThrough now watcher.window (matchKeys watcher compiled selected) ≤ budget) :
    Justified watcher compiled now log
        (fatesFrom watcher compiled now budget keys found.length selected) ∧
      (evaluateFrom watcher compiled now budget keys found selected).2.Backed
        (showing watcher compiled now log
          (fatesFrom watcher compiled now budget keys found.length selected)) := by
  induction selected generalizing keys log found with
  | nil => exact ⟨trivial, hbacked⟩
  | cons text selected ih =>
    cases hmatch : compiled.isMatch text with
    | false =>
      rw [fatesFrom_of_not_match hmatch, evaluateFrom_of_not_match hmatch]
      exact ih hbacked found (matchKeys_cons_of_not hmatch selected ▸ hfits)
    | true =>
      rw [matchKeys_cons hmatch] at hfits
      cases hkey : keyOf watcher compiled text with
      | none =>
        have hentry : keys.admitMatch (keyOf watcher compiled text) now watcher.window =
            (true, keys) := by rw [hkey]; rfl
        rw [hkey] at hfits
        by_cases hfull : budget ≤ found.length
        · rw [fatesFrom_of_dropped hmatch hentry hfull, evaluateFrom_of_dropped hmatch hentry hfull]
          exact ⟨trivial, hbacked⟩
        · rw [fatesFrom_of_emitted hmatch hentry hfull, evaluateFrom_of_emitted hmatch hentry hfull]
          have hshown : shown watcher compiled now text = [] := by rw [shown, hkey]; rfl
          rw [Justified, showing, hshown, List.nil_append]
          have hrest := ih hbacked (found ++ [foundOf compiled text]) (by
            rw [matchKeys_eq_nil hkey, List.length_append, List.length_singleton]
            exact Nat.lt_of_not_le hfull)
          rwa [List.length_append, List.length_singleton] at hrest
      | some key =>
        rw [hkey] at hfits
        change found.length + ((keys.admitKey key now watcher.window).1.toNat +
          (keys.admitKey key now watcher.window).2.letThrough now watcher.window
            (matchKeys watcher compiled selected)) ≤ budget at hfits
        have hentry : keys.admitMatch (keyOf watcher compiled text) now watcher.window =
            keys.admitKey key now watcher.window := by rw [hkey]; rfl
        cases hanswer : (keys.admitKey key now watcher.window).1 with
        | false =>
          obtain ⟨⟨time, hheld, hlive⟩, hsame⟩ := DedupeKeys.admit_suppressed hanswer
          have hpair : keys.admitMatch (keyOf watcher compiled text) now watcher.window =
              (false, keys) := by rw [hentry]; exact Prod.ext hanswer hsame
          rw [hanswer, hsame, Bool.toNat_false, Nat.zero_add] at hfits
          rw [fatesFrom_of_suppressed hmatch hpair, evaluateFrom_of_suppressed hmatch hpair]
          have hrest := ih hbacked found hfits
          exact ⟨⟨⟨key, time, hkey, hbacked key time hheld, hlive⟩, hrest.1⟩, hrest.2⟩
        | true =>
          have hpair : keys.admitMatch (keyOf watcher compiled text) now watcher.window =
              (true, (keys.admitKey key now watcher.window).2) := by
            rw [hentry]; exact Prod.ext hanswer rfl
          rw [hanswer, Bool.toNat_true] at hfits
          have hroom : ¬ budget ≤ found.length := by omega
          have hshown : shown watcher compiled now text = [(key, now)] := by rw [shown, hkey]; rfl
          rw [fatesFrom_of_emitted hmatch hpair hroom, evaluateFrom_of_emitted hmatch hpair hroom,
            Justified, showing, hshown, List.singleton_append]
          have hrest := ih (hbacked.admitKey key now watcher.window)
            (found ++ [foundOf compiled text]) (by rw [List.length_append, List.length_singleton]; omega)
          rwa [List.length_append, List.length_singleton] at hrest

end evaluation

namespace WatcherSessionState

@[simp] theorem keys_updateSaturation (s : WatcherSessionState) (now : Instant) (capped : Bool) :
    (s.updateSaturation now capped).keys = s.keys := by
  unfold updateSaturation
  split_ifs <;> rfl

@[simp] theorem keys_resume (s : WatcherSessionState) : s.resume.keys = s.keys := by
  unfold resume
  split_ifs <;> rfl

theorem backed_sign {s : WatcherSessionState} {log : Emissions} (h : s.keys.Backed log)
    (pattern : String) : (s.sign pattern).keys.Backed log := by
  unfold sign
  split_ifs
  · exact h
  · exact DedupeKeys.backed_default log

variable (patterns : String → Option WatcherPattern)

/-- The keys among the matches of a tick that the set lets through fit its budget. -/
def Fits (s : WatcherSessionState) (now : Instant) (t : Tick) : Prop :=
  ∀ compiled, patterns t.watcher.pattern = some compiled →
    (s.sign t.watcher.pattern).isSuspended now = false →
      (s.sign t.watcher.pattern).keys.letThrough now t.watcher.window
        (matchKeys t.watcher compiled t.selected) ≤ t.budget

/-- The matches a tick looks at, each with its fate. -/
def tickFates (s : WatcherSessionState) (now : Instant) (t : Tick) : List (String × Fate) :=
  match patterns t.watcher.pattern with
  | none => []
  | some compiled =>
    if (s.sign t.watcher.pattern).isSuspended now then []
    else fates t.watcher compiled now t.budget (s.sign t.watcher.pattern).keys t.selected

/-- The emissions of the pair after a tick. -/
def shownAfter (log : Emissions) (s : WatcherSessionState) (now : Instant) (t : Tick) : Emissions :=
  match patterns t.watcher.pattern with
  | none => log
  | some compiled => showing t.watcher compiled now log (s.tickFates patterns now t)

/-- A tick emits the matches whose fate it is, and suppresses only keys that were emitted less
than one window earlier. -/
def Sound (log : Emissions) (s : WatcherSessionState) (now : Instant) (t : Tick) : Prop :=
  ∀ compiled, patterns t.watcher.pattern = some compiled →
    (s.evaluate patterns now t).2 =
        (ofFate .emitted (s.tickFates patterns now t)).map (foundOf compiled) ∧
      Justified t.watcher compiled now log (s.tickFates patterns now t)

variable {patterns}

/-- A tick that fits is sound, and leaves the set backed by what has been emitted. -/
theorem sound_of_fits {s : WatcherSessionState} {log : Emissions} (hbacked : s.keys.Backed log)
    {now : Instant} {t : Tick} (hfits : s.Fits patterns now t) :
    s.Sound patterns log now t ∧
      (s.evaluate patterns now t).1.keys.Backed (s.shownAfter patterns log now t) := by
  unfold Sound shownAfter tickFates evaluate
  cases hpattern : patterns t.watcher.pattern with
  | none => exact ⟨nofun, hbacked⟩
  | some compiled =>
    dsimp only
    have hsigned := backed_sign hbacked t.watcher.pattern
    cases hsuspended : (s.sign t.watcher.pattern).isSuspended now with
    | true =>
      refine ⟨fun other _ => ⟨rfl, trivial⟩, hsigned⟩
    | false =>
      have hjust := justified_evaluateFrom t.watcher compiled now t.budget hsigned [] t.selected
        ((Nat.zero_add _).trans_le (hfits compiled hpattern hsuspended))
      have heq := evaluateFrom_eq t.watcher compiled now t.budget
        (s.sign t.watcher.pattern).keys [] t.selected
      rw [if_neg Bool.false_ne_true, if_neg Bool.false_ne_true]
      refine ⟨fun other hother => ?_, ?_⟩
      · obtain rfl := Option.some.inj hother
        exact ⟨by rw [keys_resume, evaluateOccurrence, heq]; rfl, hjust.1⟩
      · rw [keys_updateSaturation, keys_resume]
        exact hjust.2.prune now t.watcher.window

variable (patterns) in
/-- The pair with what it has emitted kept beside it. -/
def ledger : Machine ((WatcherSessionState × Instant) × Emissions) Tick (List Found) :=
  (ticks patterns).trace fun log s t _ => s.1.shownAfter patterns log (s.2 + t.elapsed) t

/-- In a run whose ticks all fit, every match suppressed repeats a key that was emitted less than
one window earlier. -/
theorem suppression_sound {events : List Tick}
    (hfits : (ledger patterns).Along (fun s t => s.1.1.Fits patterns (s.1.2 + t.elapsed) t)
      (({}, 0), []) events) :
    (ledger patterns).Along (fun s t => s.1.1.Sound patterns s.2 (s.1.2 + t.elapsed) t)
      (({}, 0), []) events := by
  have hinv := hfits.and_inv (P := fun s => s.1.1.keys.Backed s.2)
    (fun s t hbacked hfit => (sound_of_fits hbacked hfit).2) (DedupeKeys.backed_default [])
  exact hinv.mono fun s t h => (sound_of_fits h.1 h.2).1

/-- A pattern that matches every row and captures nothing. -/
def everyRow (_ : String) : Option WatcherPattern := some ⟨fun _ => true, fun _ => []⟩

def readWatcher : ResolvedWatcher := ⟨"", .row, 2000⟩

/-- A row shown once, and suppressed when it comes again. -/
theorem suppression_sound_repeat :
    (ledger everyRow).Along (fun s t => s.1.1.Sound everyRow s.2 (s.1.2 + t.elapsed) t)
      (({}, 0), []) [⟨0, readWatcher, ["a", "b"], 0⟩, ⟨200 * 10 ^ 6, readWatcher, ["a"], 0⟩] := by
  refine suppression_sound ⟨fun compiled hcompiled _ => ?_, fun compiled hcompiled _ => ?_, trivial⟩
  · obtain rfl := Option.some.inj hcompiled
    decide +kernel
  · obtain rfl := Option.some.inj hcompiled
    decide +kernel

def nineRows : Tick := ⟨0, readWatcher, ["a", "b", "c", "d", "e", "f", "g", "h", "i"], 0⟩

def ninthRow : Tick := ⟨200 * 10 ^ 6, readWatcher, ["i"], 0⟩

/-- The ninth row of a tick is dropped, and suppressed on the next tick. -/
theorem suppressed_unseen : ¬ ∀ patterns events,
    (ledger patterns).Along (fun s t => s.1.1.Sound patterns s.2 (s.1.2 + t.elapsed) t)
      (({}, 0), []) events := by
  intro h
  have hjust := ((h everyRow [nineRows, ninthRow]).2.1 _ rfl).2
  have hfates : ((ledger everyRow).next (({}, 0), []) nineRows).1.1.tickFates everyRow
      (200 * 10 ^ 6) ninthRow = [("i", .suppressed)] := by decide +kernel
  have hlog : ((ledger everyRow).next (({}, 0), []) nineRows).2 =
      ["h", "g", "f", "e", "d", "c", "b", "a"].map (·, 0) := by decide +kernel
  change Justified _ _ _ _ (tickFates _ _ (200 * 10 ^ 6) _) at hjust
  rw [hfates, hlog] at hjust
  obtain ⟨⟨key, time, hkey, hmem, -⟩, -⟩ := hjust
  obtain rfl : "i" = key := Option.some.inj hkey
  exact absurd hmem (by simp)

end WatcherSessionState
end AgentsCommander.Watchers
