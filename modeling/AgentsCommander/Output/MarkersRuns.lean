import AgentsCommander.Output.Markers

/-! Chunks that can be read leave one response for each request, and other chunks may lose it. -/
namespace AgentsCommander.Output
open Foundation Transcript

section
variable {rid output previous text next : Text} {dir : String} {watcher : ResponseWatcher}

theorem Stage.responseDir (h : Stage rid output previous dir (some watcher)) :
    watcher.responseDir = dir := by
  cases h <;> assumption

theorem Stage.scanned (h : Stage rid output previous dir (some watcher))
    (hout : output = previous ++ (text ++ next))
    (hcut : Uncut rid output (previous ++ text).length) :
    Scanned rid output previous text dir (watch rid text watcher) := by
  cases h with
  | waiting hdir hcapturing hahead => exact scanned_waiting hout hcut hdir hcapturing hahead
  | capturing hdir hcapturing hbuffer hmarked hsplit hahead =>
    exact scanned_capturing hout hcut hdir hcapturing hbuffer hmarked hsplit hahead
  | endless hdir hcapturing hmarked hstart =>
    exact scanned_endless hout hdir hcapturing hmarked hstart

theorem Stage.past (h : Stage rid output previous dir none) :
    Stage rid output (previous ++ text) dir none := by
  cases h with
  | done hmarked hpast =>
    exact .done hmarked (hpast.trans (by rw [List.length_append]; exact Nat.le_add_right _ _))

end

section
variable {text : Text} {key : WatcherKey} {keys : List WatcherKey} {watchers : ResponseWatchers}
  {watcher : ResponseWatcher}

theorem scanKeys_absent (h : watchers.lookup key = none) :
    scanKeys text (key :: keys) watchers = scanKeys text keys watchers := by
  rw [scanKeys, h]

theorem scanKeys_completed {content : Text} (h : watchers.lookup key = some watcher)
    (hwatch : (watch key.2 text watcher).2 = some content) :
    scanKeys text (key :: keys) watchers =
      (watchers.erase key, some ⟨watcher.responseDir, key.1, key.2, content⟩) := by
  rw [scanKeys, h]
  dsimp only
  generalize watch key.2 text watcher = result at hwatch ⊢
  obtain ⟨next, completed⟩ := result
  cases hwatch
  rfl

theorem scanKeys_passed (h : watchers.lookup key = some watcher)
    (hwatch : (watch key.2 text watcher).2 = none) :
    scanKeys text (key :: keys) watchers =
      scanKeys text keys (watchers.insert key (watch key.2 text watcher).1) := by
  rw [scanKeys, h]
  dsimp only
  generalize watch key.2 text watcher = result at hwatch ⊢
  obtain ⟨next, completed⟩ := result
  cases hwatch
  rfl

end

/-- What the loop leaves under the keys it has passed. -/
def passed (text : Text) (keys : List WatcherKey) (watchers : ResponseWatchers) (key : WatcherKey) :
    Option ResponseWatcher :=
  if key ∈ keys then (watchers.lookup key).map fun w => (watch key.2 text w).1
  else watchers.lookup key

theorem passed_cons {text : Text} {key : WatcherKey} {keys : List WatcherKey}
    {watchers : ResponseWatchers} {watcher : ResponseWatcher} (hnot : key ∉ keys)
    (h : watchers.lookup key = some watcher) (k : WatcherKey) :
    passed text keys (watchers.insert key (watch key.2 text watcher).1) k =
      passed text (key :: keys) watchers k := by
  unfold passed
  by_cases hk : k = key
  · subst hk
    rw [if_neg hnot, if_pos List.mem_cons_self, AList.lookup_insert, h]
    rfl
  · rw [AList.lookup_insert_ne hk]
    simp only [List.mem_cons, hk, false_or]

theorem passed_absent {text : Text} {key : WatcherKey} {keys : List WatcherKey}
    {watchers : ResponseWatchers} (h : watchers.lookup key = none) (k : WatcherKey) :
    passed text keys watchers k = passed text (key :: keys) watchers k := by
  unfold passed
  by_cases hk : k = key
  · subst hk
    rw [h]
    simp
  · simp only [List.mem_cons, hk, false_or]

/-- No key here completes. -/
def Silent (text : Text) (keys : List WatcherKey) (watchers : ResponseWatchers) : Prop :=
  ∀ key ∈ keys, ∀ watcher, watchers.lookup key = some watcher →
    (watch key.2 text watcher).2 = none

theorem Silent.cons {text : Text} {key : WatcherKey} {keys : List WatcherKey}
    {watchers : ResponseWatchers}
    (hkey : ∀ watcher, watchers.lookup key = some watcher → (watch key.2 text watcher).2 = none)
    (hkeys : Silent text keys watchers) : Silent text (key :: keys) watchers :=
  List.forall_mem_cons.mpr ⟨hkey, hkeys⟩

theorem Silent.of_insert {text : Text} {key : WatcherKey} {keys : List WatcherKey}
    {watchers : ResponseWatchers} {watcher : ResponseWatcher} (hnot : key ∉ keys)
    (h : Silent text keys (watchers.insert key watcher)) : Silent text keys watchers := by
  intro k hk w hw
  have hne : k ≠ key := fun he => hnot (he ▸ hk)
  exact h k hk w ((AList.lookup_insert_ne hne).trans hw)

/-- The loop ends with the first key that completes, or passes all of them. -/
theorem scanKeys_cases {text : Text} {keys : List WatcherKey} (hkeys : keys.Nodup)
    (watchers : ResponseWatchers) :
    ((scanKeys text keys watchers).2 = none ∧ Silent text keys watchers ∧
      ∀ key, (scanKeys text keys watchers).1.lookup key = passed text keys watchers key) ∨
    ∃ first key rest watcher content, keys = first ++ key :: rest ∧
      watchers.lookup key = some watcher ∧ (watch key.2 text watcher).2 = some content ∧
      (scanKeys text keys watchers).2 = some ⟨watcher.responseDir, key.1, key.2, content⟩ ∧
      Silent text first watchers ∧
      ∀ k, (scanKeys text keys watchers).1.lookup k =
        if k = key then none else passed text first watchers k := by
  induction keys generalizing watchers with
  | nil => exact Or.inl ⟨rfl, fun _ h => absurd h List.not_mem_nil, fun _ => rfl⟩
  | cons key keys ih =>
    obtain ⟨hnot, hkeys⟩ := List.nodup_cons.mp hkeys
    cases hlookup : watchers.lookup key with
    | none =>
      have habsent : ∀ w, watchers.lookup key = some w → (watch key.2 text w).2 = none :=
        fun w hw => absurd (hlookup.symm.trans hw) (Option.some_ne_none w).symm
      rw [scanKeys_absent hlookup]
      obtain ⟨hresult, hsilent, hkept⟩ |
        ⟨first, k, rest, w, content, rfl, hw, hwatch, hresult, hsilent, hkept⟩ := ih hkeys watchers
      · refine Or.inl ⟨hresult, hsilent.cons habsent, fun k => ?_⟩
        rw [hkept, passed_absent hlookup]
      · refine Or.inr ⟨key :: first, k, rest, w, content, rfl, hw, hwatch, hresult,
          hsilent.cons habsent, fun k' => ?_⟩
        rw [hkept, passed_absent hlookup]
    | some watcher =>
      cases hwatch : (watch key.2 text watcher).2 with
      | some content =>
        rw [scanKeys_completed hlookup hwatch]
        refine Or.inr ⟨[], key, keys, watcher, content, rfl, hlookup, hwatch, rfl,
          fun _ h => absurd h List.not_mem_nil, fun k => ?_⟩
        by_cases hk : k = key
        · subst hk
          rw [if_pos rfl]
          exact AList.lookup_erase k watchers
        · rw [if_neg hk]
          exact AList.lookup_erase_ne hk
      | none =>
        have hpassed : ∀ w, watchers.lookup key = some w → (watch key.2 text w).2 = none := by
          intro w hw
          obtain rfl := Option.some.inj (hlookup.symm.trans hw)
          exact hwatch
        rw [scanKeys_passed hlookup hwatch]
        obtain ⟨hresult, hsilent, hkept⟩ |
          ⟨first, k, rest, w, content, rfl, hw, hcompletes, hresult, hsilent, hkept⟩ := ih hkeys
            (watchers.insert key (watch key.2 text watcher).1)
        · refine Or.inl ⟨hresult, (hsilent.of_insert hnot).cons hpassed, fun k => ?_⟩
          rw [hkept, passed_cons hnot hlookup]
        · have hnotFirst : key ∉ first := fun h => hnot (List.mem_append_left _ h)
          have hne : k ≠ key := by
            rintro rfl
            exact hnot (List.mem_append_right _ List.mem_cons_self)
          rw [AList.lookup_insert_ne hne] at hw
          refine Or.inr ⟨key :: first, k, rest, w, content, rfl, hw, hcompletes, hresult,
            (hsilent.of_insert hnotFirst).cons hpassed, fun k' => ?_⟩
          rw [hkept, passed_cons hnotFirst hlookup]

/-- Before each chunk the map's keys are met in the order given for it. -/
def AllLists (sessionId : ℕ) : List ScannedChunk → ResponseWatchers → Prop
  | [], _ => True
  | chunk :: chunks, watchers =>
    chunk.order.Perm watchers.keys ∧
      AllLists sessionId chunks
        (scanResponseMarkers sessionId chunk.text chunk.order watchers).1

def textOf (chunks : List ScannedChunk) : Text :=
  chunks.flatMap (·.text)

/-- The chunk between two places of the output cuts no marker, and no response is completed in it
before one that needs it is looked at. -/
structure Readable (sessionId : ℕ) (registered : ResponseWatchers) (output : Text) (lo hi : ℕ)
    (order : List WatcherKey) : Prop where
  uncut : ∀ key watcher, key.1 = sessionId → registered.lookup key = some watcher →
    Uncut key.2 output hi
  ordered : ∀ key later, key.1 = sessionId → later.1 = sessionId → [key, later].Sublist order →
    EndsIn key.2 output lo hi → ¬ Needs later.2 output lo hi

def AllReadable (sessionId : ℕ) (registered : ResponseWatchers) (chunks : List ScannedChunk) :
    Prop :=
  ∀ before chunk after, chunks = before ++ chunk :: after →
    Readable sessionId registered (textOf chunks) (textOf before).length
      (textOf (before ++ [chunk])).length chunk.order

def filesOf (key : WatcherKey) (files : List ResponseFile) : List ResponseFile :=
  files.filter fun file => (file.sessionId, file.requestId) = key

/-- The response that a registered request is still to get. -/
def expected (output : Text) (watchers : ResponseWatchers) (key : WatcherKey) :
    Option ResponseFile :=
  (watchers.lookup key).bind fun watcher =>
    (marked key.2 output).map fun cut => ⟨watcher.responseDir, key.1, key.2, trim cut.2⟩

/-- Where every request of the session stands. -/
def Staged (sessionId : ℕ) (output previous : Text) (dirs : WatcherKey → String)
    (watchers : ResponseWatchers) : Prop :=
  ∀ key watcher, key.1 = sessionId → watchers.lookup key = some watcher →
    Stage key.2 output previous (dirs key) (some watcher)

section
variable {sessionId : ℕ} {registered watchers : ResponseWatchers} {output previous next : Text}
  {chunk : ScannedChunk} {dirs : WatcherKey → String} {key : WatcherKey} {watcher : ResponseWatcher}

theorem textOf_append (before after : List ScannedChunk) :
    textOf (before ++ after) = textOf before ++ textOf after :=
  List.flatMap_append

theorem mem_filter_order (h : chunk.order.Perm watchers.keys) (hkey : key.1 = sessionId)
    (hlookup : watchers.lookup key = some watcher) :
    key ∈ chunk.order.filter (·.1 = sessionId) := by
  have hmem : key ∈ watchers := AList.lookup_isSome.mp (by rw [hlookup]; rfl)
  exact List.mem_filter.mpr ⟨h.mem_iff.mpr (AList.mem_keys.mp hmem), decide_eq_true hkey⟩

/-- Nothing is written once a request has come to the end of the output. -/
theorem Stage.expected_eq_none (h : Stage key.2 output output (dirs key) (some watcher)) :
    marked key.2 output = none := by
  cases hmarked : marked key.2 output with
  | none => rfl
  | some cut =>
    obtain ⟨before, content⟩ := cut
    obtain ⟨rest, after, hstart, hstop⟩ := marked_eq_some hmarked
    have hlen := congrArg List.length (cutAt_eq hstart)
    rw [cutAt_eq hstop] at hlen
    simp only [List.length_append] at hlen
    have hpos := length_startMarker_pos key.2
    have hpos' := length_endMarker_pos key.2
    cases h with
    | waiting _ _ hahead =>
      have hle := hahead _ hmarked
      dsimp only at hle
      omega
    | capturing _ _ _ hsame _ hahead =>
      obtain ⟨rfl, rfl⟩ := Prod.mk.inj (Option.some.inj (hmarked.symm.trans hsame))
      unfold endAt at hahead
      dsimp only at hahead
      omega
    | endless _ _ hnone _ => exact hmarked.symm.trans hnone

theorem Staged.scanned (h : Staged sessionId output previous dirs watchers)
    (hout : output = previous ++ (chunk.text ++ next))
    (huncut : Uncut key.2 output (previous ++ chunk.text).length) (hkey : key.1 = sessionId)
    (hlookup : watchers.lookup key = some watcher) :
    Scanned key.2 output previous chunk.text (dirs key) (watch key.2 chunk.text watcher) :=
  (h key watcher hkey hlookup).scanned hout huncut

theorem scanned_none (h : Scanned key.2 output previous chunk.text (dirs key)
    (watch key.2 chunk.text watcher)) (hnone : (watch key.2 chunk.text watcher).2 = none) :
    Stage key.2 output (previous ++ chunk.text) (dirs key)
      (some (watch key.2 chunk.text watcher).1) := by
  unfold Scanned at h
  rwa [hnone] at h

theorem scanned_some {content : Text}
    (h : Scanned key.2 output previous chunk.text (dirs key) (watch key.2 chunk.text watcher))
    (hsome : (watch key.2 chunk.text watcher).2 = some content) :
    ∃ cut, marked key.2 output = some cut ∧ content = trim cut.2 ∧
      EndsIn key.2 output previous.length (previous ++ chunk.text).length := by
  unfold Scanned at h
  rw [hsome] at h
  obtain ⟨cut, hmarked, hcontent, hlo, hhi⟩ := h
  have hpos := length_endMarker_pos key.2
  exact ⟨cut, hmarked, hcontent, cut, hmarked, hlo, by omega⟩

theorem passed_eq_some {text : Text} {keys : List WatcherKey} {next : ResponseWatcher}
    (h : passed text keys watchers key = some next) :
    ∃ watcher, watchers.lookup key = some watcher ∧
      (key ∈ keys ∧ next = (watch key.2 text watcher).1 ∨ key ∉ keys ∧ next = watcher) := by
  unfold passed at h
  split_ifs at h with hkey
  · obtain ⟨watcher, hlookup, h⟩ := Option.map_eq_some_iff.mp h
    exact ⟨watcher, hlookup, Or.inl ⟨hkey, h.symm⟩⟩
  · exact ⟨next, h, Or.inr ⟨hkey, rfl⟩⟩

theorem passed_isSome {text : Text} {keys : List WatcherKey}
    (h : watchers.lookup key = some watcher) :
    ∃ next, passed text keys watchers key = some next := by
  unfold passed
  split_ifs
  · exact ⟨_, by rw [h]; rfl⟩
  · exact ⟨watcher, h⟩

theorem expected_congr {after : ResponseWatchers} {dir : String} {later : ResponseWatcher}
    (hlookup : watchers.lookup key = some watcher) (hafter : after.lookup key = some later)
    (hdir : watcher.responseDir = dir) (hdir' : later.responseDir = dir) :
    expected output after key = expected output watchers key := by
  unfold expected
  rw [hlookup, hafter, Option.bind_some, Option.bind_some, hdir, hdir']

theorem expected_absent (h : watchers.lookup key = none) : expected output watchers key = none := by
  unfold expected
  rw [h]
  rfl

/-- What a chunk that can be read does: the requests move on, and the response it completes is the
one expected. -/
structure Stepped (sessionId : ℕ) (output text previous : Text) (dirs : WatcherKey → String)
    (watchers : ResponseWatchers) (result : ResponseWatchers × Option ResponseFile) : Prop where
  staged : Staged sessionId output (previous ++ text) dirs result.1
  kept : ∀ key watcher, result.1.lookup key = some watcher → ∃ w, watchers.lookup key = some w
  written : ∀ key, key.1 = sessionId →
    filesOf key result.2.toList ++ (expected output result.1 key).toList =
      (expected output watchers key).toList

/-- A request that a chunk completes has left the map, and the others have moved on. -/
theorem Stepped.of_moved {text : Text} {result : ResponseWatchers × Option ResponseFile}
    (hstaged : Staged sessionId output previous dirs watchers)
    (hkept : ∀ key watcher, result.1.lookup key = some watcher →
      ∃ w, watchers.lookup key = some w)
    (hother : ∀ key, watchers.lookup key = none → filesOf key result.2.toList = [])
    (hmoved : ∀ key watcher, key.1 = sessionId → watchers.lookup key = some watcher →
      (filesOf key result.2.toList = [] ∧ ∃ next, result.1.lookup key = some next ∧
        Stage key.2 output (previous ++ text) (dirs key) (some next)) ∨
      (result.1.lookup key = none ∧ ∃ cut, marked key.2 output = some cut ∧
        filesOf key result.2.toList = [⟨watcher.responseDir, key.1, key.2, trim cut.2⟩])) :
    Stepped sessionId output text previous dirs watchers result := by
  refine ⟨fun key next hkey hnext => ?_, hkept, fun key hkey => ?_⟩
  · obtain ⟨watcher, hlookup⟩ := hkept key next hnext
    obtain ⟨-, next', hnext', hstage⟩ | ⟨hnone, -⟩ := hmoved key watcher hkey hlookup
    · obtain rfl := Option.some.inj (hnext.symm.trans hnext')
      exact hstage
    · exact absurd (hnone.symm.trans hnext) (Option.some_ne_none next).symm
  · cases hlookup : watchers.lookup key with
    | none =>
      have hnone : result.1.lookup key = none := by
        by_contra hsome
        obtain ⟨next, hnext⟩ := Option.ne_none_iff_exists'.mp hsome
        obtain ⟨w, hw⟩ := hkept key next hnext
        cases hlookup.symm.trans hw
      rw [hother key hlookup, expected_absent hlookup, expected_absent hnone]
      rfl
    | some watcher =>
      obtain ⟨hfiles, next, hnext, hstage⟩ | ⟨hnone, cut, hmarked, hfiles⟩ :=
        hmoved key watcher hkey hlookup
      · rw [hfiles, expected_congr hlookup hnext (hstaged key watcher hkey hlookup).responseDir
          hstage.responseDir]
        rfl
      · rw [hfiles, expected_absent hnone]
        unfold expected
        rw [hlookup, Option.bind_some, hmarked]
        rfl

theorem filesOf_other {file : ResponseFile} (h : (file.sessionId, file.requestId) ≠ key) :
    filesOf key (some file).toList = [] := by
  unfold filesOf
  rw [Option.toList_some, List.filter_cons_of_neg (by rwa [decide_eq_true_eq]), List.filter_nil]

theorem filesOf_same {file : ResponseFile} (h : (file.sessionId, file.requestId) = key) :
    filesOf key (some file).toList = [file] := by
  unfold filesOf
  rw [Option.toList_some, List.filter_cons_of_pos (by rwa [decide_eq_true_eq]), List.filter_nil]

/-- The loop over keys that can all be read takes the step. -/
theorem stepped_scanKeys {keys : List WatcherKey} (hkeys : keys.Nodup)
    (hstaged : Staged sessionId output previous dirs watchers)
    (hsession : ∀ key ∈ keys, key.1 = sessionId)
    (hlisted : ∀ key watcher, key.1 = sessionId → watchers.lookup key = some watcher → key ∈ keys)
    (hscanned : ∀ key watcher, key.1 = sessionId → watchers.lookup key = some watcher →
      Scanned key.2 output previous chunk.text (dirs key) (watch key.2 chunk.text watcher))
    (hordered : ∀ key later, [key, later].Sublist keys →
      EndsIn key.2 output previous.length (previous ++ chunk.text).length →
        ¬ Needs later.2 output previous.length (previous ++ chunk.text).length) :
    Stepped sessionId output chunk.text previous dirs watchers
      (scanKeys chunk.text keys watchers) := by
  obtain ⟨hresult, hsilent, hkept⟩ |
    ⟨first, key, rest, watcher, content, rfl, hlookup, hcontent, hresult, hsilent, hkept⟩ :=
      @scanKeys_cases chunk.text _ hkeys watchers
  · refine .of_moved hstaged (fun k next hnext => ?_) (fun k _ => by rw [hresult]; rfl)
      fun k w hk hw => Or.inl ⟨by rw [hresult]; rfl, (watch k.2 chunk.text w).1, ?_, ?_⟩
    · obtain ⟨w, hw, -⟩ := passed_eq_some ((hkept k).symm.trans hnext)
      exact ⟨w, hw⟩
    · rw [hkept, passed, if_pos (hlisted k w hk hw), hw]
      rfl
    · exact scanned_none (hscanned k w hk hw) (hsilent k (hlisted k w hk hw) w hw)
  · have hkey := hsession key (List.mem_append_right _ List.mem_cons_self)
    obtain ⟨cut, hmarked, rfl, hends⟩ := scanned_some (hscanned key watcher hkey hlookup) hcontent
    refine .of_moved hstaged (fun k next hnext => ?_) (fun k hnone => ?_) fun k w hk hw => ?_
    · rw [hkept] at hnext
      split_ifs at hnext with hsame
      obtain ⟨w, hw, -⟩ := passed_eq_some hnext
      exact ⟨w, hw⟩
    · rw [hresult]
      refine filesOf_other fun hsame => ?_
      obtain rfl : key = k := hsame
      cases hlookup.symm.trans hnone
    · by_cases hsame : k = key
      · subst hsame
        obtain rfl := Option.some.inj (hlookup.symm.trans hw)
        refine Or.inr ⟨by rw [hkept, if_pos rfl], cut, hmarked, ?_⟩
        rw [hresult]
        exact filesOf_same rfl
      · have hfiles : filesOf k (scanKeys chunk.text (first ++ key :: rest) watchers).2.toList =
            [] := by
          rw [hresult]
          exact filesOf_other (Ne.symm hsame)
        refine Or.inl ⟨hfiles, ?_⟩
        rw [hkept, if_neg hsame, passed]
        by_cases hfirst : k ∈ first
        · rw [if_pos hfirst, hw]
          exact ⟨_, rfl, scanned_none (hscanned k w hk hw) (hsilent k hfirst w hw)⟩
        · have hrest : k ∈ rest := by
            obtain h | h := List.mem_append.mp (hlisted k w hk hw)
            · exact absurd h hfirst
            · exact (List.mem_cons.mp h).resolve_left hsame
          rw [if_neg hfirst]
          refine ⟨w, hw, (hstaged k w hk hw).unseen (hordered key k ?_ hends)⟩
          exact ((List.singleton_sublist.mpr hrest).cons_cons key).trans
            (List.sublist_append_right first _)

end

section
variable {sessionId : ℕ} {registered watchers : ResponseWatchers} {output previous next : Text}
  {chunk : ScannedChunk} {dirs : WatcherKey → String} {key : WatcherKey} {watcher : ResponseWatcher}

theorem capturing_registeredAll (requests : List (WatcherKey × String))
    (h : (registeredAll requests).lookup key = some watcher) : watcher.capturing = false := by
  induction requests with
  | nil => cases h
  | cons request requests ih =>
    rw [registeredAll, registerResponseWatcher] at h
    by_cases hkey : key = request.1
    · rw [hkey] at h
      obtain rfl := Option.some.inj ((AList.lookup_insert (registeredAll requests)).symm.trans h)
      rfl
    · exact ih ((AList.lookup_insert_ne hkey).symm.trans h)

theorem staged_of_waiting
    (h : ∀ key watcher, watchers.lookup key = some watcher → watcher.capturing = false) :
    Staged sessionId output [] (fun key => ((watchers.lookup key).map (·.responseDir)).getD "")
      watchers := by
  intro key watcher _ hlookup
  refine .waiting ?_ (h key watcher hlookup) fun _ _ => Nat.zero_le _
  dsimp only
  rw [hlookup]
  rfl

theorem stepped_scanResponseMarkers (hout : output = previous ++ (chunk.text ++ next))
    (hstaged : Staged sessionId output previous dirs watchers)
    (hkept : ∀ key watcher, watchers.lookup key = some watcher →
      ∃ w, registered.lookup key = some w)
    (hlists : chunk.order.Perm watchers.keys)
    (hreadable : Readable sessionId registered output previous.length
      (previous ++ chunk.text).length chunk.order) :
    Stepped sessionId output chunk.text previous dirs watchers
      (scanResponseMarkers sessionId chunk.text chunk.order watchers) := by
  refine stepped_scanKeys ((hlists.nodup_iff.mpr watchers.keys_nodup).filter _) hstaged
    (fun key hmem => of_decide_eq_true (List.mem_filter.mp hmem).2)
    (fun key watcher hkey hlookup => mem_filter_order hlists hkey hlookup)
    (fun key watcher hkey hlookup => ?_) (fun key later hsub hends => ?_)
  · obtain ⟨w, hw⟩ := hkept key watcher hlookup
    exact hstaged.scanned hout (hreadable.uncut key w hkey hw) hkey hlookup
  · have hmem : ∀ k ∈ [key, later], k.1 = sessionId := fun k hk =>
      of_decide_eq_true (List.mem_filter.mp (hsub.subset hk)).2
    exact hreadable.ordered key later (hmem key (by simp)) (hmem later (by simp))
      (hsub.trans List.filter_sublist) hends

theorem filesOf_append (key : WatcherKey) (files more : List ResponseFile) :
    filesOf key (files ++ more) = filesOf key files ++ filesOf key more :=
  List.filter_append files more

/-- What the rest of a run writes for a request. -/
theorem filesOf_scanChunks {all before chunks : List ScannedChunk} (hall : all = before ++ chunks)
    (hstaged : Staged sessionId (textOf all) (textOf before) dirs watchers)
    (hkept : ∀ key watcher, watchers.lookup key = some watcher →
      ∃ w, registered.lookup key = some w)
    (hlists : AllLists sessionId chunks watchers) (hreadable : AllReadable sessionId registered all)
    (hkey : key.1 = sessionId) :
    filesOf key (scanChunks sessionId chunks watchers).2 =
      (expected (textOf all) watchers key).toList := by
  induction chunks generalizing before watchers with
  | nil =>
    obtain rfl : all = before := hall.trans (List.append_nil before)
    change [] = _
    cases hlookup : watchers.lookup key with
    | none =>
      rw [expected_absent hlookup]
      rfl
    | some watcher =>
      have hnone := (hstaged key watcher hkey hlookup).expected_eq_none
      unfold expected
      rw [hlookup, hnone]
      rfl
  | cons chunk chunks ih =>
    have htext : textOf (before ++ [chunk]) = textOf before ++ chunk.text := by
      rw [textOf_append]
      exact congrArg _ (List.append_nil chunk.text)
    have hread := hreadable before chunk chunks hall
    rw [htext] at hread
    have hout : textOf all = textOf before ++ (chunk.text ++ textOf chunks) := by
      rw [hall, textOf_append]
      rfl
    have hstep := stepped_scanResponseMarkers hout hstaged hkept hlists.1 hread
    have hrest := @ih (scanResponseMarkers sessionId chunk.text chunk.order watchers).1
      (before ++ [chunk]) (by rw [hall, List.append_assoc]; rfl) (htext ▸ hstep.staged)
      (fun k w hw => by
        obtain ⟨w', hw'⟩ := hstep.kept k w hw
        exact hkept k w' hw') hlists.2
    rw [scanChunks, filesOf_append, hrest, hstep.written key hkey]

end

/-- A request whose response stands between its markers gets that response once, where no chunk
ends inside its markers and none completes another response before one that needs it is looked
at. -/
theorem responses_captured (sessionId : ℕ) (requests : List (WatcherKey × String))
    (chunks : List ScannedChunk) (hlists : AllLists sessionId chunks (registeredAll requests))
    (hreadable : AllReadable sessionId (registeredAll requests) chunks) (key : WatcherKey)
    (watcher : ResponseWatcher) (before content : Text) (hkey : key.1 = sessionId)
    (hlookup : (registeredAll requests).lookup key = some watcher)
    (hmarked : marked key.2 (textOf chunks) = some (before, content)) :
    filesOf key (scanChunks sessionId chunks (registeredAll requests)).2 =
      [⟨watcher.responseDir, sessionId, key.2, trim content⟩] := by
  have hstaged := @staged_of_waiting sessionId (registeredAll requests) (textOf chunks)
    fun _ _ h => capturing_registeredAll requests h
  rw [@filesOf_scanChunks sessionId (registeredAll requests) _ _ key chunks [] chunks rfl hstaged
    (fun _ w h => ⟨w, h⟩) hlists hreadable hkey]
  unfold expected
  rw [hlookup, Option.bind_some, hmarked, hkey]
  rfl

/-- One response, cut into two chunks at a place. -/
def cutChunks (place : ℕ) : List ScannedChunk :=
  let output := startMarker ['r'] ++ (['h', 'i'] ++ endMarker ['r'])
  [⟨output.take place, [(0, ['r'])]⟩, ⟨output.drop place, [(0, ['r'])]⟩]

theorem readable_cutChunks {lo hi : ℕ} (h : hi = 26 ∨ hi = 50) :
    Readable 0 (registeredAll [((0, ['r']), "dir")]) (textOf (cutChunks 26)) lo hi
      [(0, ['r'])] := by
  have hmarked : marked ['r'] (textOf (cutChunks 26)) = some ([], ['h', 'i']) := by decide
  refine ⟨fun key watcher _ hlookup => ?_, fun key later _ _ hsub => ?_⟩
  · obtain rfl : key = (0, ['r']) := by
      by_contra hne
      cases (AList.lookup_insert_ne hne).symm.trans hlookup
    intro cut hcut
    obtain rfl := Option.some.inj (hmarked.symm.trans hcut)
    obtain rfl | rfl := h <;> decide
  · exact absurd hsub.length_le (by simp)

theorem responses_captured_cut :
    filesOf (0, ['r']) (scanChunks 0 (cutChunks 26) (registeredAll [((0, ['r']), "dir")])).2 =
      [⟨"dir", 0, ['r'], trim ['h', 'i']⟩] := by
  have hmarked : marked ['r'] (textOf (cutChunks 26)) = some ([], ['h', 'i']) := by decide
  refine responses_captured 0 [((0, ['r']), "dir")] (cutChunks 26) ?_ ?_ (0, ['r'])
    ⟨"dir", none, false⟩ [] ['h', 'i'] rfl (by decide) hmarked
  · exact ⟨by decide, by decide, trivial⟩
  · intro before chunk after hsplit
    cases before with
    | nil =>
      cases hsplit
      exact readable_cutChunks (Or.inl (by decide))
    | cons first before =>
      cases before with
      | nil =>
        cases hsplit
        exact readable_cutChunks (Or.inr (by decide))
      | cons second before =>
        exact absurd (congrArg List.length hsplit) (by simp [cutChunks])

def twoResponses : List ScannedChunk :=
  [⟨startMarker ['q'] ++ (endMarker ['q'] ++ (startMarker ['r'] ++ endMarker ['r'])),
    [(0, ['q']), (0, ['r'])]⟩]

/-- A start marker cut into two chunks is not found, and of two responses in one chunk one is
lost. -/
theorem responses_lost :
    (marked ['r'] (textOf (cutChunks 22)) = some ([], ['h', 'i']) ∧
      AllLists 0 (cutChunks 22) (registeredAll [((0, ['r']), "dir")]) ∧
      (scanChunks 0 (cutChunks 22) (registeredAll [((0, ['r']), "dir")])).2 = []) ∧
    (marked ['r'] (textOf twoResponses) =
        some (startMarker ['q'] ++ endMarker ['q'], []) ∧
      AllLists 0 twoResponses (registeredAll [((0, ['q']), "dir"), ((0, ['r']), "dir")]) ∧
      filesOf (0, ['r']) (scanChunks 0 twoResponses
        (registeredAll [((0, ['q']), "dir"), ((0, ['r']), "dir")])).2 = []) := by
  refine ⟨⟨by decide, ⟨by decide, by decide, trivial⟩, by decide⟩, by decide, ⟨?_, trivial⟩, ?_⟩
  · decide
  · decide

end AgentsCommander.Output
