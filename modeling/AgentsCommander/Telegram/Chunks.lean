import AgentsCommander.Transcript.Utf8

/-! A text cut into chunks of at most so many bytes, at a newline where there is one. -/
namespace AgentsCommander.Telegram
open Transcript

/-- `str::is_char_boundary`. -/
def isCharBoundary (text : Text) (i : ℕ) : Bool := (sliceFrom text i).isSome

/-- The text between two bytes. A slice that cuts a character would panic. -/
def slice (text : Text) (start finish : ℕ) : Option Text :=
  if start ≤ finish then do
    let rest ← sliceFrom text start
    let after ← sliceFrom text finish
    some (rest.take (rest.length - after.length))
  else none

/-- The byte where the last of these characters stands. -/
def rfind (c : Char) : Text → Option ℕ
  | [] => none
  | d :: text =>
    match rfind c text with
    | some i => some (d.utf8Size + i)
    | none => if d = c then some 0 else none

/-- Back to the nearest character boundary, but not before the start. -/
def snap (text : Text) (start : ℕ) : ℕ → ℕ
  | 0 => 0
  | i + 1 => if start < i + 1 && !isCharBoundary text (i + 1) then snap text start i else i + 1

/-- The next chunk, and where it ends. -/
def chunkStep (text : Text) (maxLen start : ℕ) : Option (Text × ℕ) := do
  let finish := snap text start (min (start + maxLen) (encode text).length)
  let actualEnd ←
    if finish < (encode text).length then do
      let window ← slice text start finish
      some ((rfind '\n' window).elim finish fun i => start + i + 1)
    else some finish
  let chunk ← slice text start actualEnd
  some (chunk, actualEnd)

/-- The loop, for so many turns at most. -/
def chunkFrom (text : Text) (maxLen : ℕ) : ℕ → ℕ → List Text → Option (List Text)
  | 0, _, _ => none
  | turns + 1, start, chunks =>
    if start < (encode text).length then do
      let (chunk, actualEnd) ← chunkStep text maxLen start
      chunkFrom text maxLen turns actualEnd (chunks ++ [chunk])
    else some chunks

def chunkText (turns : ℕ) (text : Text) (maxLen : ℕ) : Option (List Text) :=
  if (encode text).length ≤ maxLen then some [text] else chunkFrom text maxLen turns 0 []

theorem isCharBoundary_iff {text : Text} {i : ℕ} : isCharBoundary text i = true ↔
    ∃ before rest, text = before ++ rest ∧ (encode before).length = i := by
  unfold isCharBoundary
  rw [Option.isSome_iff_exists]
  constructor
  · rintro ⟨rest, h⟩
    obtain ⟨before, hsplit, hlength⟩ := sliceFrom_eq_some.mp h
    exact ⟨before, rest, hsplit, hlength⟩
  · rintro ⟨before, rest, hsplit, hlength⟩
    exact ⟨rest, sliceFrom_eq_some.mpr ⟨before, hsplit, hlength⟩⟩

theorem length_encode_append (a b : Text) :
    (encode (a ++ b)).length = (encode a).length + (encode b).length := by
  rw [encode_append, List.length_append]

theorem slice_append (before chunk rest : Text) :
    slice (before ++ (chunk ++ rest)) (encode before).length
      ((encode before).length + (encode chunk).length) = some chunk := by
  have hstart : sliceFrom (before ++ (chunk ++ rest)) (encode before).length =
      some (chunk ++ rest) := sliceFrom_eq_some.mpr ⟨before, rfl, rfl⟩
  have hfinish : sliceFrom (before ++ (chunk ++ rest))
      ((encode before).length + (encode chunk).length) = some rest :=
    sliceFrom_eq_some.mpr ⟨before ++ chunk, (List.append_assoc _ _ _).symm,
      length_encode_append before chunk⟩
  unfold slice
  rw [if_pos (Nat.le_add_right _ _), hstart, hfinish, Option.bind_eq_bind, Option.bind_some,
    Option.bind_some, List.length_append, Nat.add_sub_cancel, List.take_left]

theorem rfind_eq_some {c : Char} {text : Text} {i : ℕ} (h : rfind c text = some i) :
    ∃ before after, text = before ++ c :: after ∧ (encode before).length = i := by
  induction text generalizing i with
  | nil => cases h
  | cons d text ih =>
    rw [rfind] at h
    cases hrest : rfind c text with
    | some j =>
      rw [hrest] at h
      obtain ⟨before, after, rfl, rfl⟩ := ih hrest
      cases h
      exact ⟨d :: before, after, rfl, length_encode_cons d before⟩
    | none =>
      rw [hrest] at h
      dsimp only at h
      split_ifs at h with hd
      cases h
      exact ⟨[], text, congrArg (· :: text) hd, rfl⟩

/-- The last boundary up to a position. -/
theorem snap_spec {text : Text} {start : ℕ} (hstart : isCharBoundary text start = true) {i : ℕ}
    (hi : start ≤ i) :
    start ≤ snap text start i ∧ snap text start i ≤ i ∧
      isCharBoundary text (snap text start i) = true ∧
      ∀ j, isCharBoundary text j = true → j ≤ i → j ≤ snap text start i := by
  induction i with
  | zero =>
    obtain rfl := Nat.le_zero.mp hi
    exact ⟨le_rfl, le_rfl, hstart, fun j _ hj => hj⟩
  | succ i ih =>
    rw [snap]
    split_ifs with hback
    · rw [Bool.and_eq_true, decide_eq_true_eq, Bool.not_eq_true'] at hback
      obtain ⟨hlow, hhigh, hboundary, hlast⟩ := ih (Nat.le_of_lt_succ hback.1)
      refine ⟨hlow, Nat.le_succ_of_le hhigh, hboundary, fun j hj hji => hlast j hj ?_⟩
      have hne : j ≠ i + 1 := fun heq => by
        rw [heq, hback.2] at hj
        cases hj
      omega
    · refine ⟨hi, le_rfl, ?_, fun j _ hj => hj⟩
      rcases Nat.lt_or_ge start (i + 1) with hlt | hge
      · rw [decide_eq_true hlt, Bool.true_and, Bool.not_eq_true', Bool.not_eq_false] at hback
        exact hback
      · rwa [← le_antisymm hi hge]

/-- A chunk, and the text that follows it. -/
structure Cut (maxLen : ℕ) (chunk rest : Text) : Prop where
  nonempty : chunk ≠ []
  fits : (encode chunk).length ≤ maxLen
  full : ∀ c, rest.head? = some c →
    chunk.getLast? = some '\n' ∨ maxLen < (encode (chunk ++ [c])).length

inductive Chunked (maxLen : ℕ) : Text → List Text → Prop where
  | nil : Chunked maxLen [] []
  | cons {chunk rest : Text} {chunks : List Text} : Cut maxLen chunk rest →
    Chunked maxLen rest chunks → Chunked maxLen (chunk ++ rest) (chunk :: chunks)

section
variable {maxLen : ℕ} {before rest : Text}

theorem length_encode_singleton (c : Char) : (encode [c]).length = c.utf8Size := by
  rw [length_encode_cons, encode_nil, List.length_nil, Nat.add_zero]

theorem length_encode_pos {text : Text} (h : text ≠ []) : 0 < (encode text).length := by
  obtain ⟨c, text, rfl⟩ := List.exists_cons_of_ne_nil h
  rw [length_encode_cons]
  exact Nat.add_pos_left c.utf8Size_pos _

/-- Two cuts of a text: between them stands what the later one cuts off more. -/
theorem exists_between {before rest whole after : Text} (h : before ++ rest = whole ++ after)
    (hle : (encode before).length ≤ (encode whole).length) :
    ∃ window, whole = before ++ window ∧ rest = window ++ after := by
  rcases List.append_eq_append_iff.mp h with hlater | ⟨window, rfl, rfl⟩
  · exact hlater
  · have hlength := length_encode_append whole window
    have hempty : window = [] := by
      by_contra hne
      have hpos := length_encode_pos hne
      omega
    subst hempty
    exact ⟨[], by simp, rfl⟩

/-- Where the window of a chunk ends: no character more fits into it. -/
theorem snap_window (hmax : 4 ≤ maxLen) (hrest : rest ≠ []) :
    ∃ window after, rest = window ++ after ∧ window ≠ [] ∧ (encode window).length ≤ maxLen ∧
      snap (before ++ rest) (encode before).length
        (min ((encode before).length + maxLen) (encode (before ++ rest)).length) =
          (encode before).length + (encode window).length ∧
      ∀ c, after.head? = some c → maxLen < (encode (window ++ [c])).length := by
  have htotal := length_encode_append before rest
  have hstart : isCharBoundary (before ++ rest) (encode before).length = true :=
    isCharBoundary_iff.mpr ⟨before, rest, rfl, rfl⟩
  obtain ⟨hlow, hhigh, hboundary, hlast⟩ := @snap_spec (before ++ rest) _ hstart
    (min ((encode before).length + maxLen) (encode (before ++ rest)).length) (by omega)
  generalize snap (before ++ rest) (encode before).length
    (min ((encode before).length + maxLen) (encode (before ++ rest)).length) = finish at *
  obtain ⟨whole, after, hsplit, rfl⟩ := isCharBoundary_iff.mp hboundary
  obtain ⟨window, rfl, rfl⟩ := exists_between hsplit hlow
  have hwhole := length_encode_append before window
  have hfull : ∀ c, after.head? = some c → maxLen < (encode (window ++ [c])).length := by
    intro c hc
    obtain ⟨more, rfl⟩ := List.head?_eq_some_iff.mp hc
    have hnext : isCharBoundary (before ++ (window ++ c :: more))
        (encode (before ++ (window ++ [c]))).length = true :=
      isCharBoundary_iff.mpr ⟨before ++ (window ++ [c]), more, by simp, rfl⟩
    have hlength := length_encode_append before (window ++ [c])
    have hlonger := length_encode_append window [c]
    have hpast := length_encode_append window (c :: more)
    have hsize := length_encode_cons c more
    rw [length_encode_singleton] at hlonger
    have hpos := c.utf8Size_pos
    by_contra hle
    have hback := hlast _ hnext (by omega)
    omega
  refine ⟨window, after, rfl, ?_, by omega, hwhole, hfull⟩
  rintro rfl
  obtain ⟨c, more, rfl⟩ := List.exists_cons_of_ne_nil hrest
  have hlong := hfull c rfl
  rw [List.nil_append, length_encode_singleton] at hlong
  have hsize := c.utf8Size_le_four
  omega

/-- Up to its last newline, or whole: what the window gives is a chunk. -/
theorem cut_window {window after : Text} (hwindow : window ≠ [])
    (hfits : (encode window).length ≤ maxLen)
    (hfull : ∀ c, after.head? = some c → maxLen < (encode (window ++ [c])).length) (start : ℕ) :
    ∃ chunk more, window ++ after = chunk ++ more ∧ Cut maxLen chunk more ∧
      (rfind '\n' window).elim (start + (encode window).length) (fun i => start + i + 1) =
        start + (encode chunk).length := by
  cases hnewline : rfind '\n' window with
  | none =>
    exact ⟨window, after, rfl, ⟨hwindow, hfits, fun c hc => Or.inr (hfull c hc)⟩, rfl⟩
  | some i =>
    obtain ⟨line, more, rfl, rfl⟩ := rfind_eq_some hnewline
    have hline := length_encode_append line ['\n']
    have hlonger := length_encode_append line ('\n' :: more)
    have hmore := length_encode_cons '\n' more
    have hone : (encode ['\n']).length = 1 := rfl
    have hsize : '\n'.utf8Size = 1 := rfl
    refine ⟨line ++ ['\n'], more ++ after, by simp, ⟨by simp, by omega, fun c _ => ?_⟩, ?_⟩
    · exact Or.inl List.getLast?_concat
    · show start + (encode line).length + 1 = _
      omega

/-- One turn of the loop. -/
theorem chunkStep_eq (hmax : 4 ≤ maxLen) (hrest : rest ≠ []) :
    ∃ chunk after, rest = chunk ++ after ∧ Cut maxLen chunk after ∧
      chunkStep (before ++ rest) maxLen (encode before).length =
        some (chunk, (encode (before ++ chunk)).length) := by
  obtain ⟨window, after, rfl, hwindow, hfits, hsnap, hfull⟩ :=
    @snap_window maxLen before rest hmax hrest
  have htotal := length_encode_append before (window ++ after)
  have hwhole := length_encode_append window after
  unfold chunkStep
  rw [hsnap]
  dsimp only
  split_ifs with hlast
  · obtain ⟨chunk, more, hsplit, hcut, hend⟩ :=
      cut_window hwindow hfits hfull (encode before).length
    refine ⟨chunk, more, hsplit, hcut, ?_⟩
    simp only [slice_append, Option.bind_eq_bind, Option.bind_some]
    rw [hend, hsplit, slice_append, Option.bind_some, length_encode_append]
  · have hafter : after = [] := by
      by_contra hne
      have hpos := length_encode_pos hne
      omega
    subst hafter
    refine ⟨window, [], rfl, ⟨hwindow, hfits, fun c hc => Or.inr (hfull c hc)⟩, ?_⟩
    simp only [slice_append, Option.bind_eq_bind, Option.bind_some]
    rw [length_encode_append]

/-- The loop ends with the rest of the text in chunks, in as many turns as it has bytes and one. -/
theorem chunkFrom_eq (hmax : 4 ≤ maxLen) : ∃ more, Chunked maxLen rest more ∧
    ∀ turns chunks, (encode rest).length < turns →
      chunkFrom (before ++ rest) maxLen turns (encode before).length chunks =
        some (chunks ++ more) := by
  induction hn : (encode rest).length using Nat.strong_induction_on generalizing before rest with
  | _ n ih =>
    have htotal := length_encode_append before rest
    by_cases hrest : rest = []
    · subst hrest
      refine ⟨[], .nil, fun turns chunks hturns => ?_⟩
      obtain ⟨turns, rfl⟩ := Nat.exists_eq_add_one_of_ne_zero (Nat.ne_zero_of_lt hturns)
      rw [chunkFrom, List.append_nil, List.append_nil, if_neg (lt_irrefl _)]
    · have hpos := length_encode_pos hrest
      obtain ⟨chunk, after, rfl, hcut, hstep⟩ := @chunkStep_eq maxLen before rest hmax hrest
      have hsplit := length_encode_append chunk after
      have hchunk := length_encode_pos hcut.nonempty
      obtain ⟨more, hmore, hloop⟩ :=
        @ih (encode after).length (by omega) (before ++ chunk) after rfl
      refine ⟨chunk :: more, .cons hcut hmore, fun turns chunks hturns => ?_⟩
      obtain ⟨turns, rfl⟩ := Nat.exists_eq_add_one_of_ne_zero (Nat.ne_zero_of_lt hturns)
      have hrun := hloop turns (chunks ++ [chunk]) (by omega)
      rw [List.append_assoc, List.append_assoc, List.singleton_append] at hrun
      rw [chunkFrom, if_pos (by omega), hstep, Option.bind_eq_bind, Option.bind_some]
      exact hrun

theorem Chunked.flatten {chunks : List Text} (h : Chunked maxLen rest chunks) :
    chunks.flatten = rest := by
  induction h with
  | nil => rfl
  | cons _ _ ih => rw [List.flatten_cons, ih]

theorem Chunked.cut {chunks : List Text} (h : Chunked maxLen rest chunks) {pre post : List Text}
    {chunk : Text} (hchunks : chunks = pre ++ chunk :: post) : Cut maxLen chunk post.flatten := by
  induction h generalizing pre with
  | nil => cases pre <;> cases hchunks
  | cons hcut hrest ih =>
    cases pre with
    | nil =>
      obtain ⟨rfl, rfl⟩ := List.cons.inj hchunks
      rwa [hrest.flatten]
    | cons _ pre => exact ih (List.cons.inj hchunks).2

end

/-- Every text is cut without a loss and without a panic, in chunks that are not empty, that fit,
and that end with a newline or could not hold the next character. -/
theorem chunk_text (text : Text) (maxLen : ℕ) (hmax : 4 ≤ maxLen) :
    ∃ chunks, (∀ turns, (encode text).length < turns → chunkText turns text maxLen = some chunks) ∧
      chunks.flatten = text ∧
      (∀ chunk ∈ chunks, (encode chunk).length ≤ maxLen ∧ (text ≠ [] → chunk ≠ [])) ∧
      ∀ pre chunk next post, chunks = pre ++ chunk :: next :: post →
        chunk.getLast? = some '\n' ∨
          ∃ c more, next = c :: more ∧ maxLen < (encode (chunk ++ [c])).length := by
  by_cases hshort : (encode text).length ≤ maxLen
  · refine ⟨[text], fun turns _ => if_pos hshort, List.append_nil text, ?_, ?_⟩
    · intro chunk hchunk
      rw [List.mem_singleton.mp hchunk]
      exact ⟨hshort, id⟩
    · intro pre chunk next post hchunks
      have hlength := congrArg List.length hchunks
      simp only [List.length_append, List.length_cons, List.length_nil] at hlength
      omega
  · obtain ⟨chunks, hchunked, hloop⟩ := @chunkFrom_eq maxLen [] text hmax
    refine ⟨chunks, fun turns hturns => ?_, hchunked.flatten, fun chunk hchunk => ?_, ?_⟩
    · rw [chunkText, if_neg hshort]
      exact hloop turns [] hturns
    · obtain ⟨pre, post, hchunks⟩ := List.append_of_mem hchunk
      have hcut := hchunked.cut hchunks
      exact ⟨hcut.fits, fun _ => hcut.nonempty⟩
    · intro pre chunk next post hchunks
      have hcut := hchunked.cut hchunks
      have hnext : Cut maxLen next post.flatten :=
        hchunked.cut (hchunks.trans (List.append_cons pre chunk (next :: post)))
      obtain ⟨c, more, rfl⟩ := List.exists_cons_of_ne_nil hnext.nonempty
      exact (hcut.full c rfl).imp_right fun hfull => ⟨c, more, rfl, hfull⟩

/-- Two bytes, three bytes, and a newline in a window. -/
theorem chunk_text_wide :
    (chunkText 12 ['a', '\n', 'b', 'é', '€', 'c'] 4).map List.flatten =
      some ['a', '\n', 'b', 'é', '€', 'c'] := by
  obtain ⟨chunks, hrun, hflatten, -⟩ := chunk_text ['a', '\n', 'b', 'é', '€', 'c'] 4 le_rfl
  rw [hrun 12 (by decide), Option.map_some, hflatten]

example : chunkText 12 ['a', '\n', 'b', 'é', '€', 'c'] 4 =
    some [['a', '\n'], ['b', 'é'], ['€', 'c']] := by decide +kernel

end AgentsCommander.Telegram
