import AgentsCommander.Transcript.Lines
import Mathlib.Algebra.Order.Ring.Nat
import Mathlib.Data.List.TakeWhile

/-! Text written back to bytes: what is decoded without a fault is no longer than the bytes it
was read from, and a newline never stands inside a character. Byte positions in a text: where it may
be cut, and how its ASCII characters are found among its bytes. -/
namespace AgentsCommander.Transcript

def encode (text : Text) : Bytes := text.flatMap String.utf8EncodeChar

@[simp] theorem encode_nil : encode [] = [] := rfl

theorem encode_cons (c : Char) (text : Text) :
    encode (c :: text) = String.utf8EncodeChar c ++ encode text := rfl

theorem length_encode_cons (c : Char) (text : Text) :
    (encode (c :: text)).length = c.utf8Size + (encode text).length := by
  rw [encode_cons, List.length_append, String.length_utf8EncodeChar]

theorem length_encode_le_of_sublist {a b : Text} (h : a.Sublist b) :
    (encode a).length ≤ (encode b).length := by
  induction h with
  | slnil => exact le_rfl
  | cons c _ ih =>
    rw [length_encode_cons]
    exact ih.trans (Nat.le_add_left _ _)
  | cons_cons c _ ih =>
    rw [length_encode_cons, length_encode_cons]
    exact Nat.add_le_add_left ih _

theorem trim_sublist (text : Text) : (trim text).Sublist text := by
  unfold trim
  rw [← List.reverse_sublist, List.reverse_reverse]
  refine (List.dropWhile_sublist _).trans ?_
  exact (List.reverse_sublist.mpr (List.dropWhile_sublist _))

theorem toNat_ofNat_le (n : ℕ) : (Char.ofNat n).toNat ≤ n := by
  unfold Char.ofNat
  by_cases h : n.isValidChar
  · rw [dif_pos h]
    exact le_rfl
  · rw [dif_neg h]
    exact Nat.zero_le n

theorem utf8Size_le {c : Char} {n : ℕ} (h : c.toNat ≤ n) :
    c.utf8Size ≤ if n ≤ 0x7F then 1 else if n ≤ 0x7FF then 2 else if n ≤ 0xFFFF then 3 else 4 := by
  have hval : c.val.toNat ≤ n := h
  unfold Char.utf8Size
  simp only [UInt32.le_iff_toNat_le, UInt32.toNat_ofNatLT]
  split_ifs <;> omega

theorem foldl_code_lt {m : ℕ} (tail : Bytes) (n : ℕ) (h : n < m) :
    tail.foldl (fun n c => n * 64 + c.toNat % 64) n < m * 64 ^ tail.length := by
  induction tail generalizing n m with
  | nil => simpa using h
  | cons c tail ih =>
    rw [List.foldl_cons, List.length_cons, pow_succ', ← mul_assoc]
    exact ih _ (by omega)

theorem decodeFuel_eq {n m : ℕ} {bytes : Bytes} (hn : bytes.length ≤ n) (hm : bytes.length ≤ m) :
    decodeFuel n bytes = decodeFuel m bytes := by
  induction n generalizing m bytes with
  | zero =>
    rw [List.eq_nil_of_length_eq_zero (Nat.le_zero.mp hn)]
    cases m <;> rfl
  | succ n ih =>
    cases bytes with
    | nil => cases m <;> rfl
    | cons b rest =>
      cases m with
      | zero => cases hm
      | succ m =>
        have hdrop : (rest.drop ((decodeOne b rest).2 - 1)).length ≤ rest.length :=
          List.length_drop.trans_le (Nat.sub_le _ _)
        exact congrArg (_ :: ·) (ih (hdrop.trans (Nat.le_of_succ_le_succ hn))
          (hdrop.trans (Nat.le_of_succ_le_succ hm)))

theorem decode_cons (b : UInt8) (rest : Bytes) :
    decode (b :: rest) =
      (decodeOne b rest).1 :: decode (rest.drop ((decodeOne b rest).2 - 1)) := by
  refine congrArg (_ :: ·) (decodeFuel_eq ?_ le_rfl)
  exact List.length_drop.trans_le (Nat.sub_le _ _)

theorem isUtf8_cons (b : UInt8) (rest : Bytes) :
    isUtf8 (b :: rest) = true ↔ (decodeOne b rest).1.isSome = true ∧
      isUtf8 (rest.drop ((decodeOne b rest).2 - 1)) = true := by
  unfold isUtf8
  rw [decode_cons, List.all_cons, Bool.and_eq_true]

theorem low_of_leadByte {b low high : UInt8} {width : ℕ}
    (h : leadByte b = some (width, low, high)) : 0x80 ≤ low ∧ 2 ≤ width ∧ width ≤ 4 := by
  unfold leadByte at h
  split_ifs at h <;> cases h <;> decide

theorem continuation_append {w : ℕ} {line rest : Bytes}
    (h : continuation w (line ++ newline :: rest) = w) :
    w ≤ line.length ∧ continuation w line = w := by
  have hle : w ≤ line.length := by
    by_contra hlt
    rw [Nat.not_le] at hlt
    have hall : ∀ b ∈ (line ++ newline :: rest).take w, decide (0x80 ≤ b ∧ b ≤ 0xBF) = true := by
      have hsub := List.takeWhile_sublist (fun b : UInt8 => decide (0x80 ≤ b ∧ b ≤ 0xBF))
        (l := (line ++ newline :: rest).take w)
      have htake := List.length_take_le w (line ++ newline :: rest)
      have heq := hsub.eq_of_length_le (htake.trans (le_of_eq h.symm))
      exact List.takeWhile_eq_self_iff.mp heq
    have hmem : newline ∈ (line ++ newline :: rest).take w := by
      rw [List.take_append, List.mem_append]
      refine Or.inr ?_
      obtain ⟨k, hk⟩ : ∃ k, w - line.length = k + 1 := ⟨w - line.length - 1, by omega⟩
      rw [hk, List.take_succ_cons]
      exact List.mem_cons_self
    exact absurd (hall _ hmem) (by decide)
  refine ⟨hle, ?_⟩
  unfold continuation at h ⊢
  rwa [List.take_append_of_le_length hle] at h

/-- A sequence of several bytes is complete. -/
structure Continues (b d : UInt8) (tail : Bytes) (width : ℕ) (low high : UInt8) : Prop where
  wide : ¬ b < 0x80
  lead : leadByte b = some (width, low, high)
  second : low ≤ d ∧ d ≤ high
  others : continuation (width - 2) tail = width - 2

theorem Continues.decodeOne {b d low high : UInt8} {tail : Bytes} {width : ℕ}
    (h : Continues b d tail width low high) :
    decodeOne b (d :: tail) =
      (some (Char.ofNat (codePoint b ((d :: tail).take (width - 1)))), width) := by
  obtain ⟨-, hwidth, -⟩ := low_of_leadByte h.lead
  have hfound : 1 + continuation (width - 2) tail = width - 1 := by
    rw [h.others]
    omega
  unfold Transcript.decodeOne
  rw [if_neg h.wide, h.lead]
  simp [h.second, hfound]

/-- A character is read from one byte, or from a complete sequence of several. -/
theorem decodeOne_cases {b : UInt8} {rest : Bytes} {c : Char}
    (h : (decodeOne b rest).1 = some c) :
    b < 0x80 ∨ ∃ d tail width low high, rest = d :: tail ∧ Continues b d tail width low high := by
  by_cases hb : b < 0x80
  · exact Or.inl hb
  refine Or.inr ?_
  unfold decodeOne at h
  rw [if_neg hb] at h
  cases hlead : leadByte b with
  | none => simp [hlead] at h
  | some lead =>
    obtain ⟨width, low, high⟩ := lead
    obtain ⟨-, hwidth, -⟩ := low_of_leadByte hlead
    cases rest with
    | nil => simp [hlead] at h
    | cons d tail =>
      by_cases hd : low ≤ d ∧ d ≤ high
      · refine ⟨d, tail, width, low, high, rfl, hb, hlead, hd, ?_⟩
        by_contra hfound
        have hne : ¬ (1 + continuation (width - 2) tail = width - 1) := by omega
        simp [hlead, hd, hne] at h
      · simp [hlead, hd] at h

theorem decodeOne_ascii {b : UInt8} (h : b < 0x80) (rest : Bytes) :
    decodeOne b rest = (some (Char.ofNat b.toNat), 1) := if_pos h

/-- A character read before a newline is read without it, and needs no more bytes. -/
theorem decodeOne_append {b : UInt8} {line rest : Bytes} {c : Char}
    (h : (decodeOne b (line ++ newline :: rest)).1 = some c) :
    decodeOne b line = decodeOne b (line ++ newline :: rest) ∧
      (decodeOne b line).2 - 1 ≤ line.length := by
  rcases decodeOne_cases h with hb | ⟨d, tail, width, low, high, hrest, hc⟩
  · rw [decodeOne_ascii hb, decodeOne_ascii hb]
    exact ⟨rfl, Nat.zero_le _⟩
  obtain ⟨hlow, hwidth, -⟩ := low_of_leadByte hc.lead
  cases line with
  | nil =>
    obtain ⟨rfl, rfl⟩ := List.cons.inj hrest
    exact absurd (UInt8.le_trans hlow hc.second.1) (by decide)
  | cons e line =>
    obtain ⟨rfl, rfl⟩ := List.cons.inj hrest
    replace hc : Continues b e (line ++ newline :: rest) width low high := hc
    obtain ⟨hle, hsame⟩ := continuation_append hc.others
    have hshort : Continues b e line width low high := ⟨hc.wide, hc.lead, hc.second, hsame⟩
    obtain ⟨k, hk⟩ : ∃ k, width - 1 = k + 1 := ⟨width - 2, by omega⟩
    rw [hshort.decodeOne, List.cons_append, hc.decodeOne, hk, List.take_succ_cons,
      List.take_succ_cons, List.take_append_of_le_length (by omega : k ≤ line.length)]
    refine ⟨rfl, ?_⟩
    rw [List.length_cons]
    omega

/-- A character takes no more bytes written than it was read from. -/
theorem utf8Size_decodeOne {b : UInt8} {rest : Bytes} {c : Char}
    (h : (decodeOne b rest).1 = some c) :
    c.utf8Size ≤ (decodeOne b rest).2 ∧ (decodeOne b rest).2 - 1 ≤ rest.length := by
  rcases decodeOne_cases h with hb | ⟨d, tail, width, low, high, rfl, hc⟩
  · rw [decodeOne_ascii hb] at h ⊢
    cases h
    have hlt : b.toNat < 128 := hb
    have hsize := utf8Size_le (toNat_ofNat_le b.toNat)
    rw [if_pos (Nat.le_of_lt_succ hlt)] at hsize
    exact ⟨hsize, Nat.zero_le _⟩
  obtain ⟨-, hlo, hhi⟩ := low_of_leadByte hc.lead
  rw [hc.decodeOne] at h ⊢
  cases h
  have hlen : width - 2 ≤ tail.length := by
    rw [← hc.others]
    unfold continuation
    exact ((List.takeWhile_sublist _).trans (List.take_sublist _ _)).length_le
  have htake : ((d :: tail).take (width - 1)).length = width - 1 := by
    refine List.length_take_of_le ?_
    rw [List.length_cons]
    omega
  refine ⟨?_, by rw [List.length_cons]; omega⟩
  have hcode : ∀ m n, n < m → List.foldl (fun n c => n * 64 + c.toNat % 64) n
      ((d :: tail).take (width - 1)) < m * 64 ^ (width - 1) := by
    intro m n hn
    have := foldl_code_lt ((d :: tail).take (width - 1)) n hn
    rwa [htake] at this
  refine (utf8Size_le (toNat_ofNat_le _)).trans ?_
  unfold codePoint
  rw [htake]
  obtain rfl | rfl | rfl : width = 2 ∨ width = 3 ∨ width = 4 := by omega
  · have := hcode 32 (b.toNat % 32) (Nat.mod_lt _ (by decide))
    dsimp only
    split_ifs <;> omega
  · have := hcode 16 (b.toNat % 16) (Nat.mod_lt _ (by decide))
    dsimp only
    split_ifs <;> omega
  · split_ifs <;> omega

theorem fromUtf8Lossy_cons (b : UInt8) (rest : Bytes) :
    fromUtf8Lossy (b :: rest) = (decodeOne b rest).1.getD (Char.ofNat 0xFFFD) ::
      fromUtf8Lossy (rest.drop ((decodeOne b rest).2 - 1)) := by
  unfold fromUtf8Lossy
  rw [decode_cons, List.map_cons]

theorem length_encode_fromUtf8Lossy {bytes : Bytes} (h : isUtf8 bytes = true) :
    (encode (fromUtf8Lossy bytes)).length ≤ bytes.length := by
  induction hn : bytes.length using Nat.strong_induction_on generalizing bytes with
  | _ n ih =>
    cases bytes with
    | nil => exact Nat.zero_le _
    | cons b rest =>
      obtain ⟨hc, hrest⟩ := (isUtf8_cons b rest).mp h
      obtain ⟨c, hc⟩ := Option.isSome_iff_exists.mp hc
      obtain ⟨hsize, hlen⟩ := utf8Size_decodeOne hc
      rw [List.length_cons] at hn
      have hdrop := List.length_drop (i := (decodeOne b rest).2 - 1) (l := rest)
      have := ih _ (by omega) hrest rfl
      rw [fromUtf8Lossy_cons, hc, Option.getD_some, length_encode_cons]
      omega

/-- Valid bytes stay valid when they are cut at a newline. -/
theorem isUtf8_append {line rest : Bytes} (h : isUtf8 (line ++ newline :: rest) = true) :
    isUtf8 line = true ∧ isUtf8 rest = true := by
  induction hn : line.length using Nat.strong_induction_on generalizing line with
  | _ n ih =>
    cases line with
    | nil =>
      have hascii := decodeOne_ascii (by decide : newline < 0x80) rest
      have hrest := ((isUtf8_cons newline rest).mp h).2
      rw [hascii] at hrest
      exact ⟨rfl, hrest⟩
    | cons b line =>
      rw [List.cons_append, isUtf8_cons] at h
      obtain ⟨c, hc⟩ := Option.isSome_iff_exists.mp h.1
      obtain ⟨hsame, hle⟩ := decodeOne_append hc
      rw [← hsame, List.drop_append_of_le_length hle] at h
      rw [List.length_cons] at hn
      have hdrop := List.length_drop (i := (decodeOne b line).2 - 1) (l := line)
      obtain ⟨hline, hrest⟩ := ih _ (by omega) h.2 rfl
      exact ⟨(isUtf8_cons b line).mpr ⟨h.1, hline⟩, hrest⟩

/-- The text of a line, where it is not blank. -/
def acceptLine (line : ℕ × Bytes) : Option (ℕ × Text) :=
  let trimmed := trim (fromUtf8Lossy line.2)
  if trimmed = [] then none else some (line.1, trimmed)

/-- The lines a reader takes from the start of these bytes. -/
def acceptedLines (content : Bytes) : List (ℕ × Text) :=
  (linesFrom 0 [] content).1.filterMap acceptLine

/-- Every line with one newline behind it. -/
def joinLines (lines : List (ℕ × Text)) : Bytes :=
  lines.flatMap fun line => encode line.2 ++ [newline]

theorem length_joinLines_acceptLine {line : ℕ × Bytes} (h : isUtf8 line.2 = true) :
    (joinLines (acceptLine line).toList).length ≤ line.2.length + 1 := by
  unfold acceptLine joinLines
  dsimp only
  split_ifs
  · exact Nat.zero_le _
  · simp only [Option.toList_some, List.flatMap_cons, List.flatMap_nil, List.append_nil,
      List.length_append, List.length_singleton]
    exact Nat.succ_le_succ ((length_encode_le_of_sublist (trim_sublist _)).trans
      (length_encode_fromUtf8Lossy h))

theorem length_joinLines_le (start : ℕ) (line bytes : Bytes)
    (h : isUtf8 (line ++ bytes) = true) :
    (joinLines ((linesFrom start line bytes).1.filterMap acceptLine)).length ≤
      (line ++ bytes).length := by
  induction bytes generalizing start line with
  | nil => exact Nat.zero_le _
  | cons b rest ih =>
    rw [linesFrom]
    split_ifs with hb
    · subst hb
      obtain ⟨hline, hrest⟩ := isUtf8_append h
      have hfirst : (joinLines (acceptLine (start, line)).toList).length ≤ line.length + 1 :=
        length_joinLines_acceptLine hline
      have hothers := ih (start + line.length + 1) [] hrest
      have hcons : joinLines ((((start, line)) ::
            (linesFrom (start + line.length + 1) [] rest).1).filterMap acceptLine) =
          joinLines (acceptLine (start, line)).toList ++
            joinLines ((linesFrom (start + line.length + 1) [] rest).1.filterMap acceptLine) := by
        rw [List.filterMap_cons]
        cases acceptLine (start, line) with
        | none => rfl
        | some l => simp [joinLines]
      dsimp only at hfirst ⊢
      rw [hcons]
      simp only [List.length_append, List.nil_append, List.length_cons] at hothers ⊢
      omega
    · have := ih start (line ++ [b]) (by rwa [List.append_assoc])
      rwa [List.append_assoc] at this

/-- Bytes that are there already keep their lines when more follow. -/
theorem prefix_linesFrom {a b : Bytes} (h : a <+: b) (start : ℕ) (line : Bytes) :
    (linesFrom start line a).1 <+: (linesFrom start line b).1 := by
  induction a generalizing b start line with
  | nil => exact List.nil_prefix
  | cons c a ih =>
    obtain ⟨b, rfl⟩ : ∃ b', b = c :: b' := by
      obtain ⟨more, rfl⟩ := h
      exact ⟨a ++ more, rfl⟩
    have hab := (List.cons_prefix_cons.mp h).2
    rw [linesFrom, linesFrom]
    split_ifs
    · exact List.cons_prefix_cons.mpr ⟨rfl, ih hab _ _⟩
    · exact ih hab _ _

theorem acceptedLines_prefix {a b : Bytes} (h : a <+: b) :
    acceptedLines a <+: acceptedLines b := (prefix_linesFrom h 0 []).filterMap acceptLine

/-- The text from this byte on, where that is the start of a character or the end. -/
def sliceFrom : Text → ℕ → Option Text
  | text, 0 => some text
  | [], _ + 1 => none
  | c :: text, i + 1 => if c.utf8Size ≤ i + 1 then sliceFrom text (i + 1 - c.utf8Size) else none

@[simp] theorem sliceFrom_zero (text : Text) : sliceFrom text 0 = some text := by
  cases text <;> rfl

theorem sliceFrom_cons (c : Char) (text : Text) (i : ℕ) :
    sliceFrom (c :: text) (c.utf8Size + i) = sliceFrom text i := by
  have hpos := Char.utf8Size_pos c
  obtain ⟨n, hn⟩ : ∃ n, c.utf8Size + i = n + 1 := ⟨c.utf8Size + i - 1, by omega⟩
  rw [hn, sliceFrom, if_pos (by omega), ← hn, Nat.add_sub_cancel_left]

theorem sliceFrom_append (a text : Text) (i : ℕ) :
    sliceFrom (a ++ text) ((encode a).length + i) = sliceFrom text i := by
  induction a with
  | nil => rw [encode_nil, List.nil_append, List.length_nil, Nat.zero_add]
  | cons c a ih => rw [List.cons_append, length_encode_cons, Nat.add_assoc, sliceFrom_cons, ih]

theorem encode_append (a b : Text) : encode (a ++ b) = encode a ++ encode b := List.flatMap_append

/-- Where a text may be cut, it is the end of what stands before. -/
theorem sliceFrom_eq_some {text rest : Text} {i : ℕ} :
    sliceFrom text i = some rest ↔ ∃ before, text = before ++ rest ∧ (encode before).length = i := by
  constructor
  · intro h
    induction text generalizing i with
    | nil =>
      cases i with
      | zero => exact ⟨[], (Option.some.inj h), rfl⟩
      | succ i => cases h
    | cons c text ih =>
      cases i with
      | zero => exact ⟨[], (Option.some.inj h), rfl⟩
      | succ i =>
        rw [sliceFrom] at h
        split_ifs at h with hsize
        obtain ⟨before, rfl, hlen⟩ := ih h
        exact ⟨c :: before, rfl, by rw [length_encode_cons]; omega⟩
  · rintro ⟨before, rfl, rfl⟩
    have := sliceFrom_append before rest 0
    rwa [Nat.add_zero, sliceFrom_zero] at this

theorem toNat_ofNat_ascii {n : ℕ} (h : n < 128) : (UInt8.ofNat n).toNat = n :=
  UInt8.toNat_ofNat_of_lt' (h.trans (by decide))

theorem encode_ascii {c : Char} (h : c.toNat < 128) (text : Text) :
    encode (c :: text) = UInt8.ofNat c.toNat :: encode text := by
  have hle : c.val.toNat ≤ 0x7f := Nat.le_of_lt_succ h
  rw [encode_cons, String.utf8EncodeChar]
  rw [if_pos hle]
  rfl

theorem encode_wide {c : Char} (h : ¬ c.toNat < 128) (text : Text) :
    ∃ b more, encode (c :: text) = b :: more ∧ 0x80 ≤ b := by
  have hle : ¬ c.val.toNat ≤ 0x7f := fun hle => h (Nat.lt_succ_of_le hle)
  have hhigh : ∀ n : ℕ, 0x80 ≤ n → n < 256 → (0x80 : UInt8) ≤ UInt8.ofNat n := by
    intro n hlo hhi
    rw [UInt8.le_iff_toNat_le, UInt8.toNat_ofNat_of_lt' hhi]
    exact hlo
  rw [encode_cons, String.utf8EncodeChar]
  rw [if_neg hle]
  split_ifs
  all_goals exact ⟨_, _, rfl, hhigh _ (by omega) (by omega)⟩

/-- The character is the ASCII one whose byte satisfies this. -/
def ascii (p : UInt8 → Bool) (c : Char) : Bool := c.toNat < 128 && p (UInt8.ofNat c.toNat)

theorem length_encode_ascii {text : Text} (h : ∀ c ∈ text, c.toNat < 128) :
    (encode text).length = text.length := by
  induction text with
  | nil => rfl
  | cons c text ih =>
    rw [encode_ascii (h c List.mem_cons_self), List.length_cons, List.length_cons,
      ih fun d hd => h d (List.mem_cons_of_mem c hd)]

/-- A run of ASCII bytes is a run of ASCII characters. -/
theorem length_takeWhile_encode {p : UInt8 → Bool} (hp : ∀ b, 0x80 ≤ b → p b = false)
    (text : Text) :
    ((encode text).takeWhile p).length = (text.takeWhile (ascii p)).length := by
  induction text with
  | nil => rfl
  | cons c text ih =>
    by_cases hc : c.toNat < 128
    · rw [encode_ascii hc, List.takeWhile_cons, List.takeWhile_cons]
      unfold ascii at ih ⊢
      rw [decide_eq_true hc, Bool.true_and]
      split_ifs
      · rw [List.length_cons, List.length_cons, ih]
      · rfl
    · obtain ⟨b, more, henc, hb⟩ := encode_wide hc text
      rw [henc, List.takeWhile_cons, List.takeWhile_cons, hp b hb]
      unfold ascii
      rw [decide_eq_false hc]
      rfl

theorem encode_prefix_iff {literal : Text} (h : ∀ c ∈ literal, c.toNat < 128) (text : Text) :
    encode literal <+: encode text ↔ literal <+: text := by
  induction literal generalizing text with
  | nil => simp
  | cons c literal ih =>
    have hc := h c List.mem_cons_self
    rw [encode_ascii hc]
    cases text with
    | nil => simp
    | cons d text =>
      by_cases hd : d.toNat < 128
      · have hsame : UInt8.ofNat c.toNat = UInt8.ofNat d.toNat ↔ c = d := by
          constructor
          · intro heq
            have := congrArg UInt8.toNat heq
            rw [toNat_ofNat_ascii hc, toNat_ofNat_ascii hd] at this
            exact Char.toNat_inj.mp this
          · rintro rfl
            rfl
        rw [encode_ascii hd, List.cons_prefix_cons, List.cons_prefix_cons, hsame,
          ih fun e he => h e (List.mem_cons_of_mem c he)]
      · obtain ⟨b, more, henc, hb⟩ := encode_wide hd text
        rw [henc, List.cons_prefix_cons, List.cons_prefix_cons]
        constructor
        · rintro ⟨rfl, -⟩
          rw [UInt8.le_iff_toNat_le, toNat_ofNat_ascii hc] at hb
          exact absurd (Nat.lt_of_lt_of_le hc hb) (lt_irrefl _)
        · rintro ⟨rfl, -⟩
          exact absurd hc hd

theorem val_ofNat {n : ℕ} (h : n.isValidChar) : (Char.ofNat n).val.toNat = n := by
  unfold Char.ofNat
  rw [dif_pos h]
  rfl

theorem eq_ofNat {b : UInt8} {n : ℕ} (h : n = b.toNat) : UInt8.ofNat n = b := by
  rw [h, UInt8.ofNat_toNat]

theorem encodeChar_one {b : UInt8} (hb : b.toNat < 128) :
    String.utf8EncodeChar (Char.ofNat b.toNat) = [b] := by
  have hvalid : b.toNat.isValidChar := Or.inl (by omega)
  have hval := val_ofNat hvalid
  rw [String.utf8EncodeChar]
  simp only [hval]
  rw [if_pos (by omega), UInt8.ofNat_toNat]

theorem encodeChar_two {b d : UInt8} (hb : 194 ≤ b.toNat ∧ b.toNat ≤ 223)
    (hd : 128 ≤ d.toNat ∧ d.toNat ≤ 191) :
    String.utf8EncodeChar (Char.ofNat (codePoint b [d])) = [b, d] := by
  have hcode : codePoint b [d] = b.toNat % 32 * 64 + d.toNat % 64 := rfl
  have hvalid : (codePoint b [d]).isValidChar := Or.inl (by omega)
  have hval := val_ofNat hvalid
  rw [String.utf8EncodeChar]
  simp only [hval]
  rw [if_neg (by omega), if_pos (by omega), eq_ofNat (b := b) (by omega),
    eq_ofNat (b := d) (by omega)]

theorem encodeChar_three {b d e : UInt8} (hb : 224 ≤ b.toNat ∧ b.toNat ≤ 239)
    (hd : 128 ≤ d.toNat ∧ d.toNat ≤ 191) (he : 128 ≤ e.toNat ∧ e.toNat ≤ 191)
    (hlow : b.toNat = 224 → 160 ≤ d.toNat) (hhigh : b.toNat = 237 → d.toNat ≤ 159) :
    String.utf8EncodeChar (Char.ofNat (codePoint b [d, e])) = [b, d, e] := by
  have hcode : codePoint b [d, e] = (b.toNat % 16 * 64 + d.toNat % 64) * 64 + e.toNat % 64 := rfl
  have hvalid : (codePoint b [d, e]).isValidChar := by
    unfold Nat.isValidChar
    omega
  have hval := val_ofNat hvalid
  rw [String.utf8EncodeChar]
  simp only [hval]
  rw [if_neg (by omega), if_neg (by omega), if_pos (by omega), eq_ofNat (b := b) (by omega),
    eq_ofNat (b := d) (by omega), eq_ofNat (b := e) (by omega)]

theorem encodeChar_four {b d e f : UInt8} (hb : 240 ≤ b.toNat ∧ b.toNat ≤ 244)
    (hd : 128 ≤ d.toNat ∧ d.toNat ≤ 191) (he : 128 ≤ e.toNat ∧ e.toNat ≤ 191)
    (hf : 128 ≤ f.toNat ∧ f.toNat ≤ 191) (hlow : b.toNat = 240 → 144 ≤ d.toNat)
    (hhigh : b.toNat = 244 → d.toNat ≤ 143) :
    String.utf8EncodeChar (Char.ofNat (codePoint b [d, e, f])) = [b, d, e, f] := by
  have hcode : codePoint b [d, e, f] =
      ((b.toNat % 8 * 64 + d.toNat % 64) * 64 + e.toNat % 64) * 64 + f.toNat % 64 := rfl
  have hvalid : (codePoint b [d, e, f]).isValidChar := by
    unfold Nat.isValidChar
    omega
  have hval := val_ofNat hvalid
  rw [String.utf8EncodeChar]
  simp only [hval]
  rw [if_neg (by omega), if_neg (by omega), if_neg (by omega), eq_ofNat (b := b) (by omega),
    eq_ofNat (b := d) (by omega), eq_ofNat (b := e) (by omega), eq_ofNat (b := f) (by omega)]

/-- What the first byte of a sequence promises about it. -/
theorem leadByte_bounds {b low high : UInt8} {width : ℕ}
    (h : leadByte b = some (width, low, high)) :
    (width = 2 ∧ 194 ≤ b.toNat ∧ b.toNat ≤ 223 ∧ low.toNat = 128 ∧ high.toNat = 191) ∨
    (width = 3 ∧ 224 ≤ b.toNat ∧ b.toNat ≤ 239 ∧ 128 ≤ low.toNat ∧ high.toNat ≤ 191 ∧
      (b.toNat = 224 → low.toNat = 160) ∧ (b.toNat = 237 → high.toNat = 159)) ∨
    (width = 4 ∧ 240 ≤ b.toNat ∧ b.toNat ≤ 244 ∧ 128 ≤ low.toNat ∧ high.toNat ≤ 191 ∧
      (b.toNat = 240 → low.toNat = 144) ∧ (b.toNat = 244 → high.toNat = 143)) := by
  unfold leadByte at h
  simp only [UInt8.le_iff_toNat_le, ← UInt8.toNat_inj] at h
  split_ifs at h <;> cases h <;> simp at * <;> omega

theorem continuation_mem {w : ℕ} {tail : Bytes} (h : continuation w tail = w) :
    (tail.take w).length = w ∧ ∀ c ∈ tail.take w, 128 ≤ c.toNat ∧ c.toNat ≤ 191 := by
  have htake := List.length_take_le w tail
  have hsub := List.takeWhile_sublist (fun c : UInt8 => decide (0x80 ≤ c ∧ c ≤ 0xBF))
    (l := tail.take w)
  unfold continuation at h
  have heq := hsub.eq_of_length_le (htake.trans (le_of_eq h.symm))
  refine ⟨?_, fun c hc => ?_⟩
  · rw [← heq]
    exact h
  · have hall := List.takeWhile_eq_self_iff.mp heq c hc
    simpa [UInt8.le_iff_toNat_le] using hall

/-- A character that was read is written as the bytes it was read from. -/
theorem encodeChar_decodeOne {b : UInt8} {rest : Bytes} {c : Char}
    (h : (decodeOne b rest).1 = some c) :
    String.utf8EncodeChar c = b :: rest.take ((decodeOne b rest).2 - 1) := by
  rcases decodeOne_cases h with hb | ⟨d, tail, width, low, high, rfl, hc⟩
  · rw [decodeOne_ascii hb] at h ⊢
    cases h
    exact encodeChar_one hb
  rw [hc.decodeOne] at h ⊢
  cases h
  obtain ⟨hlength, hmem⟩ := continuation_mem hc.others
  have hsecond := hc.second
  rw [UInt8.le_iff_toNat_le, UInt8.le_iff_toNat_le] at hsecond
  rcases leadByte_bounds hc.lead with ⟨rfl, hb⟩ | ⟨rfl, hb⟩ | ⟨rfl, hb⟩
  · exact encodeChar_two (by omega) (by omega)
  · obtain ⟨e, htail⟩ : ∃ e, tail.take 1 = [e] := List.length_eq_one_iff.mp hlength
    have he := hmem e (by rw [htail]; exact List.mem_singleton_self e)
    have hbytes : (d :: tail).take (3 - 1) = [d, e] := by rw [List.take_succ_cons, htail]
    rw [hbytes]
    exact encodeChar_three (by omega) (by omega) he (by omega) (by omega)
  · obtain ⟨e, f, htail⟩ : ∃ e f, tail.take 2 = [e, f] := List.length_eq_two.mp hlength
    have he := hmem e (by rw [htail]; simp)
    have hf := hmem f (by rw [htail]; simp)
    have hbytes : (d :: tail).take (4 - 1) = [d, e, f] := by rw [List.take_succ_cons, htail]
    rw [hbytes]
    exact encodeChar_four (by omega) (by omega) he hf (by omega) (by omega)

/-- Valid bytes are what the text read from them is written as. -/
theorem encode_fromUtf8Lossy {bytes : Bytes} (h : isUtf8 bytes = true) :
    encode (fromUtf8Lossy bytes) = bytes := by
  induction hn : bytes.length using Nat.strong_induction_on generalizing bytes with
  | _ n ih =>
    cases bytes with
    | nil => rfl
    | cons b rest =>
      obtain ⟨hc, hrest⟩ := (isUtf8_cons b rest).mp h
      obtain ⟨c, hc⟩ := Option.isSome_iff_exists.mp hc
      rw [List.length_cons] at hn
      have hdrop := List.length_drop (i := (decodeOne b rest).2 - 1) (l := rest)
      have hsame := ih _ (by omega) hrest rfl
      rw [fromUtf8Lossy_cons, hc, Option.getD_some, encode_cons, hsame, encodeChar_decodeOne hc,
        List.cons_append, List.take_append_drop]

end AgentsCommander.Transcript
