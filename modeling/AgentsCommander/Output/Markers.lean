import AgentsCommander.Foundation.Occurrence
import AgentsCommander.Transcript.Text
import Mathlib.Data.List.AList

/-! Responses captured between markers in a session's output, chunk by chunk. A response is captured
when no chunk ends inside its markers and no other response is completed in a chunk that it needs. -/
namespace AgentsCommander.Output
open Foundation Transcript

structure ResponseWatcher where
  responseDir : String
  buffer : Option Text
  capturing : Bool
  deriving DecidableEq

/-- A session and the id of a request. -/
abbrev WatcherKey := ℕ × Text

abbrev ResponseWatchers := AList fun _ : WatcherKey => ResponseWatcher

/-- A response file that is written. -/
structure ResponseFile where
  responseDir : String
  sessionId : ℕ
  requestId : Text
  content : Text
  deriving DecidableEq

def markerHead : Text :=
  ['%', '%', 'A', 'C', '_', 'R', 'E', 'S', 'P', 'O', 'N', 'S', 'E', ':', ':']

def startMarker (rid : Text) : Text :=
  markerHead ++ (rid ++ [':', ':', 'S', 'T', 'A', 'R', 'T', '%', '%'])

def endMarker (rid : Text) : Text := markerHead ++ (rid ++ [':', ':', 'E', 'N', 'D', '%', '%'])

/-- What one watcher does with a chunk: its next state, and the content it completes. -/
def watch (rid text : Text) (watcher : ResponseWatcher) : ResponseWatcher × Option Text :=
  if watcher.capturing then
    match cutAt (endMarker rid) text with
    | some (before, _) =>
      ({ watcher with buffer := none }, some (trim ((watcher.buffer.map (· ++ before)).getD [])))
    | none => ({ watcher with buffer := watcher.buffer.map (· ++ text) }, none)
  else
    match cutAt (startMarker rid) text with
    | some (_, afterStart) =>
      match cutAt (endMarker rid) afterStart with
      | some (content, _) => ({ watcher with capturing := true }, some (trim content))
      | none => ({ watcher with capturing := true, buffer := some afterStart }, none)
    | none => (watcher, none)

/-- The loop over the keys, left when one completes. -/
def scanKeys (text : Text) : List WatcherKey → ResponseWatchers →
    ResponseWatchers × Option ResponseFile
  | [], watchers => (watchers, none)
  | key :: keys, watchers =>
    match watchers.lookup key with
    | none => scanKeys text keys watchers
    | some watcher =>
      match watch key.2 text watcher with
      | (_, some content) =>
        (watchers.erase key, some ⟨watcher.responseDir, key.1, key.2, content⟩)
      | (next, none) => scanKeys text keys (watchers.insert key next)

/-- The order is the one in which the map's keys are met. -/
def scanResponseMarkers (sessionId : ℕ) (text : Text) (order : List WatcherKey)
    (watchers : ResponseWatchers) : ResponseWatchers × Option ResponseFile :=
  scanKeys text (order.filter (·.1 = sessionId)) watchers

def registerResponseWatcher (sessionId : ℕ) (requestId : Text) (responseDir : String)
    (watchers : ResponseWatchers) : ResponseWatchers :=
  watchers.insert (sessionId, requestId) ⟨responseDir, none, false⟩

/-- The map after these registrations. -/
def registeredAll : List (WatcherKey × String) → ResponseWatchers
  | [] => ∅
  | request :: requests =>
    registerResponseWatcher request.1.1 request.1.2 request.2 (registeredAll requests)

/-- A chunk of the session's output, and the order of the keys when it is scanned. -/
structure ScannedChunk where
  text : Text
  order : List WatcherKey

def scanChunks (sessionId : ℕ) : List ScannedChunk → ResponseWatchers →
    ResponseWatchers × List ResponseFile
  | [], watchers => (watchers, [])
  | chunk :: chunks, watchers =>
    let (watchers, completed) := scanResponseMarkers sessionId chunk.text chunk.order watchers
    let (watchers, more) := scanChunks sessionId chunks watchers
    (watchers, completed.toList ++ more)

/-- What stands before the first start marker, and between it and the end marker that follows. -/
def marked (rid output : Text) : Option (Text × Text) :=
  (cutAt (startMarker rid) output).bind fun start =>
    (cutAt (endMarker rid) start.2).map fun stop => (start.1, stop.1)

/-- Where the end marker begins. -/
def endAt (rid : Text) (cut : Text × Text) : ℕ :=
  cut.1.length + (startMarker rid).length + cut.2.length

theorem marked_eq_some {rid output before content : Text}
    (h : marked rid output = some (before, content)) :
    ∃ rest after, cutAt (startMarker rid) output = some (before, rest) ∧
      cutAt (endMarker rid) rest = some (content, after) := by
  obtain ⟨⟨before', rest⟩, hstart, h⟩ := Option.bind_eq_some_iff.mp h
  obtain ⟨⟨content', after⟩, hstop, h⟩ := Option.map_eq_some_iff.mp h
  cases h
  exact ⟨rest, after, hstart, hstop⟩

/-- A start marker with an end marker anywhere behind it. -/
theorem marked_ne_none {rid output before between after : Text}
    (h : output = before ++ (startMarker rid ++ (between ++ (endMarker rid ++ after)))) :
    marked rid output ≠ none := by
  obtain ⟨first, rest, hstart⟩ := cutAt_isSome h
  have hle := length_le_of_cutAt hstart h
  have heq := (cutAt_eq hstart).symm.trans h
  rw [← List.append_assoc, ← List.append_assoc] at heq
  obtain ⟨middle, hmiddle⟩ : ∃ middle, rest = middle ++ (between ++ (endMarker rid ++ after)) := by
    have hsuffix : between ++ (endMarker rid ++ after) <:+ rest := by
      have hrest : rest <:+ before ++ startMarker rid ++ (between ++ (endMarker rid ++ after)) :=
        ⟨first ++ startMarker rid, heq⟩
      refine List.suffix_of_suffix_length_le (List.suffix_append _ _) hrest ?_
      have hlen := congrArg List.length heq
      simp only [List.length_append] at hlen ⊢
      omega
    exact hsuffix.imp fun _ h => h.symm
  rw [← List.append_assoc] at hmiddle
  obtain ⟨content, last, hstop⟩ := cutAt_isSome hmiddle
  unfold marked
  rw [hstart, Option.bind_some, hstop]
  exact Option.some_ne_none _

/-- How far a request has come in the output so far. -/
inductive Stage (rid output previous : Text) (dir : String) : Option ResponseWatcher → Prop
  | waiting {watcher : ResponseWatcher} (hdir : watcher.responseDir = dir)
      (hcapturing : watcher.capturing = false)
      (hahead : ∀ cut, marked rid output = some cut → previous.length ≤ cut.1.length) :
      Stage rid output previous dir (some watcher)
  | capturing {watcher : ResponseWatcher} {before content buffer : Text}
      (hdir : watcher.responseDir = dir) (hcapturing : watcher.capturing = true)
      (hbuffer : watcher.buffer = some buffer)
      (hmarked : marked rid output = some (before, content))
      (hsplit : previous = before ++ (startMarker rid ++ buffer))
      (hahead : previous.length ≤ endAt rid (before, content)) :
      Stage rid output previous dir (some watcher)
  | endless {watcher : ResponseWatcher} (hdir : watcher.responseDir = dir)
      (hcapturing : watcher.capturing = true) (hmarked : marked rid output = none)
      (hstart : startMarker rid <:+: previous) : Stage rid output previous dir (some watcher)
  | done {cut : Text × Text} (hmarked : marked rid output = some cut)
      (hpast : endAt rid cut + (endMarker rid).length ≤ previous.length) :
      Stage rid output previous dir none

/-- No boundary here falls inside one of the two markers. -/
def Uncut (rid output : Text) (boundary : ℕ) : Prop :=
  ∀ cut, marked rid output = some cut →
    ¬ (cut.1.length < boundary ∧ boundary < cut.1.length + (startMarker rid).length) ∧
      ¬ (endAt rid cut < boundary ∧ boundary < endAt rid cut + (endMarker rid).length)

/-- The end marker begins in the chunk. -/
def EndsIn (rid output : Text) (lo hi : ℕ) : Prop :=
  ∃ cut, marked rid output = some cut ∧ lo ≤ endAt rid cut ∧ endAt rid cut < hi

/-- Part of the response stands in the chunk. -/
def Needs (rid output : Text) (lo hi : ℕ) : Prop :=
  ∃ cut, marked rid output = some cut ∧ cut.1.length < hi ∧ lo ≤ endAt rid cut

section
variable {rid output previous text next : Text} {dir : String} {watcher : ResponseWatcher}

theorem length_startMarker_pos (rid : Text) : 0 < (startMarker rid).length := by
  rw [startMarker, List.length_append]
  exact Nat.add_pos_left (by decide) _

/-- A chunk that is not scanned for the request is not missed when no part of it is there. -/
theorem Stage.unseen {entry : Option ResponseWatcher} (h : Stage rid output previous dir entry)
    (hneeds : ¬ Needs rid output previous.length (previous ++ text).length) :
    Stage rid output (previous ++ text) dir entry := by
  cases h with
  | waiting hdir hcapturing hahead =>
    refine .waiting hdir hcapturing fun cut hcut => ?_
    by_contra hlt
    refine hneeds ⟨cut, hcut, Nat.lt_of_not_le hlt, ?_⟩
    exact (hahead cut hcut).trans (by unfold endAt; omega)
  | @capturing _ before _ _ hdir hcapturing hbuffer hmarked hsplit hahead =>
    refine absurd ⟨_, hmarked, ?_, hahead⟩ hneeds
    have hpos := length_startMarker_pos rid
    change before.length < _
    rw [List.length_append, hsplit, List.length_append, List.length_append]
    omega
  | endless hdir hcapturing hmarked hstart =>
    exact .endless hdir hcapturing hmarked (hstart.trans (List.prefix_append _ _).isInfix)
  | done hmarked hpast =>
    exact .done hmarked (hpast.trans (by rw [List.length_append]; exact Nat.le_add_right _ _))

/-- What scanning a chunk comes to: the response is completed, or further on. -/
def Scanned (rid output previous text : Text) (dir : String)
    (result : ResponseWatcher × Option Text) : Prop :=
  match result.2 with
  | none => Stage rid output (previous ++ text) dir (some result.1)
  | some content => ∃ cut, marked rid output = some cut ∧ content = trim cut.2 ∧
      previous.length ≤ endAt rid cut ∧
      endAt rid cut + (endMarker rid).length ≤ (previous ++ text).length

theorem length_endMarker_pos (rid : Text) : 0 < (endMarker rid).length := by
  rw [endMarker, List.length_append]
  exact Nat.add_pos_left (by decide) _

theorem scanned_waiting (hout : output = previous ++ (text ++ next))
    (hcut : Uncut rid output (previous ++ text).length) (hdir : watcher.responseDir = dir)
    (hcapturing : watcher.capturing = false)
    (hahead : ∀ cut, marked rid output = some cut → previous.length ≤ cut.1.length) :
    Scanned rid output previous text dir (watch rid text watcher) := by
  unfold watch
  rw [if_neg (by rw [hcapturing]; exact Bool.false_ne_true)]
  cases hstart : cutAt (startMarker rid) text with
  | none =>
    refine .waiting hdir hcapturing fun cut hmarked => ?_
    obtain ⟨rest, after, hfirst, -⟩ := marked_eq_some hmarked
    rw [hout] at hfirst
    have hlo := hahead cut hmarked
    have huncut := (hcut cut hmarked).1
    rw [List.length_append] at huncut ⊢
    by_contra hpast
    obtain ⟨x, y, -, -, hpart⟩ := cutAt_part hfirst hlo (by omega)
    cases hstart.symm.trans hpart
  | some start =>
    obtain ⟨x, y⟩ := start
    have htext := cutAt_eq hstart
    have hsize := congrArg List.length htext
    rw [List.length_append, List.length_append] at hsize
    dsimp only
    cases hmarked : marked rid output with
    | none =>
      cases hfound : cutAt (endMarker rid) y with
      | none => exact .endless hdir rfl hmarked ⟨previous ++ x, y, by
          rw [htext, List.append_assoc, List.append_assoc]⟩
      | some found =>
        refine absurd hmarked (@marked_ne_none rid output (previous ++ x) found.1
          (found.2 ++ next) ?_)
        rw [hout, htext, cutAt_eq hfound]
        simp only [List.append_assoc]
    | some cut =>
      obtain ⟨before, content⟩ := cut
      obtain ⟨rest, after, hfirst, hstop⟩ := marked_eq_some hmarked
      rw [hout] at hfirst
      have hle := length_le_part hfirst hstart
      obtain ⟨x', y', hbefore, hrest, hpart⟩ := cutAt_part hfirst (hahead _ hmarked) (by omega)
      obtain ⟨rfl, rfl⟩ : x = x' ∧ y = y' := Prod.mk.inj (Option.some.inj (hstart.symm.trans hpart))
      have hlen : before.length = previous.length + x.length := by
        rw [hbefore, List.length_append]
      have hstop' : cutAt (endMarker rid) ([] ++ (y ++ next)) = some (content, after) :=
        hrest ▸ hstop
      cases hfound : cutAt (endMarker rid) y with
      | none =>
        refine .capturing hdir rfl rfl hmarked ?_ ?_
        · rw [hbefore, htext, List.append_assoc]
        · have huncut := (hcut _ hmarked).2
          unfold endAt at huncut ⊢
          dsimp only at huncut ⊢
          rw [List.length_append] at huncut ⊢
          by_contra hpast
          obtain ⟨z, w, -, -, hpart⟩ := cutAt_part hstop' (Nat.zero_le _) (by
            rw [List.length_nil]
            omega)
          cases hfound.symm.trans hpart
      | some found =>
        obtain ⟨z, w⟩ := found
        have hle := length_le_part hstop' hfound
        have hwithin := congrArg List.length (cutAt_eq hfound)
        rw [List.length_append, List.length_append] at hwithin
        rw [List.length_nil] at hle
        obtain ⟨z', w', hcontent, -, hpart⟩ := cutAt_part hstop' (Nat.zero_le _) (by
          rw [List.length_nil]
          omega)
        obtain ⟨rfl, rfl⟩ : z = z' ∧ w = w' :=
          Prod.mk.inj (Option.some.inj (hfound.symm.trans hpart))
        rw [List.nil_append] at hcontent
        refine ⟨(before, content), hmarked, ?_, ?_, ?_⟩
        · rw [hcontent]
        · unfold endAt
          dsimp only
          omega
        · unfold endAt
          dsimp only
          rw [hcontent, List.length_append]
          omega

theorem scanned_capturing {before content buffer : Text}
    (hout : output = previous ++ (text ++ next))
    (hcut : Uncut rid output (previous ++ text).length) (hdir : watcher.responseDir = dir)
    (hcapturing : watcher.capturing = true) (hbuffer : watcher.buffer = some buffer)
    (hmarked : marked rid output = some (before, content))
    (hsplit : previous = before ++ (startMarker rid ++ buffer))
    (hahead : previous.length ≤ endAt rid (before, content)) :
    Scanned rid output previous text dir (watch rid text watcher) := by
  obtain ⟨rest, after, hstart, hstop⟩ := marked_eq_some hmarked
  have hrest : rest = buffer ++ (text ++ next) := by
    have heq := (cutAt_eq hstart).symm.trans hout
    rw [hsplit, List.append_assoc, List.append_assoc] at heq
    exact List.append_cancel_left (List.append_cancel_left heq)
  have hlen : previous.length = before.length + (startMarker rid).length + buffer.length := by
    rw [hsplit, List.length_append, List.length_append, Nat.add_assoc]
  rw [hrest] at hstop
  unfold endAt at hahead
  dsimp only at hahead
  have hlo : buffer.length ≤ content.length := by omega
  unfold watch
  rw [if_pos hcapturing, hbuffer]
  cases hfound : cutAt (endMarker rid) text with
  | none =>
    refine .capturing hdir hcapturing rfl hmarked ?_ ?_
    · rw [hsplit, List.append_assoc, List.append_assoc]
    · by_contra hpast
      have huncut := (hcut _ hmarked).2
      unfold endAt at hpast huncut
      dsimp only at hpast huncut
      rw [List.length_append] at hpast huncut
      obtain ⟨x, y, -, -, hpart⟩ := cutAt_part hstop hlo (by omega)
      cases hfound.symm.trans hpart
  | some found =>
    obtain ⟨x, y⟩ := found
    have hle := length_le_part hstop hfound
    have hwithin := congrArg List.length (cutAt_eq hfound)
    rw [List.length_append, List.length_append] at hwithin
    obtain ⟨x', y', hcontent, -, hpart⟩ := cutAt_part hstop hlo (by omega)
    obtain ⟨rfl, rfl⟩ : x = x' ∧ y = y' := Prod.mk.inj (Option.some.inj (hfound.symm.trans hpart))
    refine ⟨(before, content), hmarked, ?_, ?_, ?_⟩
    · rw [hcontent]
      rfl
    · exact hahead
    · unfold endAt
      dsimp only
      rw [hcontent, List.length_append, List.length_append, hlen]
      omega

theorem scanned_endless (hout : output = previous ++ (text ++ next))
    (hdir : watcher.responseDir = dir) (hcapturing : watcher.capturing = true)
    (hmarked : marked rid output = none) (hstart : startMarker rid <:+: previous) :
    Scanned rid output previous text dir (watch rid text watcher) := by
  obtain ⟨b, buffer, hprevious⟩ := hstart
  unfold watch
  rw [if_pos hcapturing]
  cases hfound : cutAt (endMarker rid) text with
  | none => exact .endless hdir hcapturing hmarked ⟨b, buffer ++ text, by
      rw [← hprevious, List.append_assoc, List.append_assoc, List.append_assoc]⟩
  | some found =>
    obtain ⟨x, y⟩ := found
    refine absurd hmarked (@marked_ne_none rid output b (buffer ++ x) (y ++ next) ?_)
    rw [hout, ← hprevious, cutAt_eq hfound]
    simp only [List.append_assoc]

end
end AgentsCommander.Output
