import AgentsCommander.Transcript.Utf8

/-! Secrets masked out of a text: the scanner over its bytes, and what it is to do. The scanner over
the bytes does what is said of the characters, at every position where one starts, and stands at no
other. -/
namespace AgentsCommander.Telegram
open Transcript

def isAsciiDigit (b : UInt8) : Bool := 0x30 ≤ b && b ≤ 0x39

def isTokenChar (b : UInt8) : Bool :=
  isAsciiDigit b || (0x41 ≤ b && b ≤ 0x5a) || (0x61 ≤ b && b ≤ 0x7a) || b = 0x5f || b = 0x2d

def scanWhile (bytes : Bytes) (start : ℕ) (pred : UInt8 → Bool) : ℕ :=
  start + ((bytes.drop start).takeWhile pred).length

def slashBot : Text := ['/', 'b', 'o', 't']

def keyEquals : Text := ['k', 'e', 'y', '=']

def mask : Text := ['*', '*', '*']

/-- Where a bot token at this position ends. -/
def botEnd (bytes : Bytes) (i : ℕ) : Option ℕ :=
  if i + 4 ≤ bytes.length ∧ (bytes.drop i).take 4 = encode slashBot then
    let afterPrefix := i + 4
    let digitsEnd := scanWhile bytes afterPrefix isAsciiDigit
    if afterPrefix < digitsEnd ∧ bytes[digitsEnd]? = some 0x3a then
      let charsStart := digitsEnd + 1
      let charsEnd := scanWhile bytes charsStart isTokenChar
      if 10 ≤ charsEnd - charsStart then some charsEnd else none
    else none
  else none

/-- Where the value of a key in a query at this position ends. -/
def keyEnd (bytes : Bytes) (i : ℕ) : Option ℕ :=
  if i + 5 ≤ bytes.length ∧ (bytes[i]? = some 0x3f ∨ bytes[i]? = some 0x26) ∧
      (bytes.drop (i + 1)).take 4 = encode keyEquals then
    let valStart := i + 5
    let valEnd := scanWhile bytes valStart isTokenChar
    if valStart < valEnd then some valEnd else none
  else none

/-- What is pushed at this position, and where the scan goes on. A position inside a character
would panic. -/
def redactStep (input : Text) (hasBot hasKey : Bool) (i : ℕ) : Option (Text × ℕ) :=
  let bytes := encode input
  match if hasBot then botEnd bytes i else none with
  | some charsEnd => some (slashBot ++ mask, charsEnd)
  | none =>
    match if hasKey then keyEnd bytes i else none with
    | some valEnd => some (Char.ofNat (bytes.getD i 0).toNat :: keyEquals ++ mask, valEnd)
    | none => do
      let rest ← sliceFrom input i
      let ch ← rest.head?
      some ([ch], i + ch.utf8Size)

/-- The loop, for so many turns at most. -/
def redactFrom (input : Text) (hasBot hasKey : Bool) : ℕ → ℕ → Text → Option Text
  | 0, _, _ => none
  | turns + 1, i, out =>
    if i < (encode input).length then do
      let (piece, next) ← redactStep input hasBot hasKey i
      redactFrom input hasBot hasKey turns next (out ++ piece)
    else some out

/-- Every turn passes a byte, so the bytes bound the turns. -/
def redact (input : Text) : Option Text :=
  let hasBot := contains input slashBot
  let hasKey := contains input keyEquals
  if !hasBot && !hasKey then some input
  else redactFrom input hasBot hasKey ((encode input).length + 1) 0 []

/-! The same on characters. -/

def isDigit : Char → Bool := ascii isAsciiDigit

def isToken : Char → Bool := ascii isTokenChar

/-- `/bot`, digits, a colon, and at least ten characters of a token. -/
inductive BotToken : Text → Prop
  | intro (digits token : Text) (hdigits : digits ≠ []) (hdigit : ∀ c ∈ digits, isDigit c = true)
      (hlong : 10 ≤ token.length) (htoken : ∀ c ∈ token, isToken c = true) :
      BotToken (slashBot ++ digits ++ ':' :: token)

/-- `key=` in a query, and a value. -/
inductive QueryKey : Text → Prop
  | intro (c : Char) (value : Text) (hc : c = '?' ∨ c = '&') (hvalue : value ≠ [])
      (htoken : ∀ c ∈ value, isToken c = true) : QueryKey (c :: keyEquals ++ value)

/-- A secret stands somewhere in the text. -/
def Leaks (text : Text) : Prop := ∃ secret, secret <:+: text ∧ (BotToken secret ∨ QueryKey secret)

/-- What follows a bot token at the head of the text, taken as long as it is. -/
def afterBot (text : Text) : Option Text :=
  let digits := (text.drop 4).takeWhile isDigit
  let tail := (text.drop 4).dropWhile isDigit
  if slashBot <+: text ∧ digits ≠ [] ∧ tail.head? = some ':' ∧
      10 ≤ ((tail.drop 1).takeWhile isToken).length then
    some ((tail.drop 1).dropWhile isToken)
  else none

/-- What follows the value of a key at the head of the text. -/
def afterKey (text : Text) : Option Text :=
  if (text.head? = some '?' ∨ text.head? = some '&') ∧ keyEquals <+: text.drop 1 ∧
      (text.drop 5).takeWhile isToken ≠ [] then
    some ((text.drop 5).dropWhile isToken)
  else none

theorem length_afterBot {text rest : Text} (h : afterBot text = some rest) :
    rest.length < text.length := by
  unfold afterBot at h
  dsimp only at h
  split_ifs at h with hbot
  cases h
  have hstarts := hbot.1.length_le
  have hlen : slashBot.length = 4 := rfl
  have h1 := (List.dropWhile_sublist isToken
    (l := ((text.drop 4).dropWhile isDigit).drop 1)).length_le
  have h2 := (List.drop_sublist 1 ((text.drop 4).dropWhile isDigit)).length_le
  have h3 := (List.dropWhile_sublist isDigit (l := text.drop 4)).length_le
  rw [List.length_drop] at h3
  omega

theorem length_afterKey {text rest : Text} (h : afterKey text = some rest) :
    rest.length < text.length := by
  unfold afterKey at h
  split_ifs at h with hkey
  cases h
  have hstarts := hkey.2.1.length_le
  have hlen : keyEquals.length = 4 := rfl
  have h1 := (List.dropWhile_sublist isToken (l := text.drop 5)).length_le
  rw [List.length_drop] at h1 hstarts
  omega

/-- The text scanned from left to right, every secret masked. -/
def masked : Text → Text
  | [] => []
  | c :: text =>
    match _hbot : afterBot (c :: text) with
    | some rest => slashBot ++ mask ++ masked rest
    | none =>
      match _hkey : afterKey (c :: text) with
      | some rest => c :: keyEquals ++ mask ++ masked rest
      | none => c :: masked text
termination_by text => text.length
decreasing_by
  · exact length_afterBot _hbot
  · exact length_afterKey _hkey
  · exact Nat.lt_succ_self _

theorem isAsciiDigit_wide {b : UInt8} (h : 0x80 ≤ b) : isAsciiDigit b = false := by
  unfold isAsciiDigit
  simp only [Bool.and_eq_false_iff, decide_eq_false_iff_not, UInt8.not_le]
  exact Or.inr (UInt8.lt_of_lt_of_le (by decide) h)

theorem isTokenChar_wide {b : UInt8} (h : 0x80 ≤ b) : isTokenChar b = false := by
  have hlt : ∀ c : UInt8, c < 0x80 → ¬ b ≤ c := fun c hc =>
    UInt8.not_le.mpr (UInt8.lt_of_lt_of_le hc h)
  have hne : ∀ c : UInt8, c < 0x80 → b ≠ c := fun c hc he =>
    hlt c hc (he ▸ UInt8.le_refl b)
  unfold isTokenChar
  simp [isAsciiDigit_wide h, hlt 0x5a (by decide), hlt 0x7a (by decide), hne 0x5f (by decide),
    hne 0x2d (by decide)]

theorem ascii_of_ascii {p : UInt8 → Bool} {c : Char} (h : ascii p c = true) : c.toNat < 128 := by
  unfold ascii at h
  rw [Bool.and_eq_true, decide_eq_true_eq] at h
  exact h.1

theorem all_ascii {a : Text} (h : (a.all fun c => decide (c.toNat < 128)) = true) :
    ∀ c ∈ a, c.toNat < 128 :=
  fun c hc => of_decide_eq_true (List.all_eq_true.mp h c hc)

theorem ascii_slashBot : ∀ c ∈ slashBot, c.toNat < 128 := all_ascii (by decide)

theorem ascii_keyEquals : ∀ c ∈ keyEquals, c.toNat < 128 := all_ascii (by decide)

theorem singleton_prefix_iff {α : Type*} {a : α} {l : List α} : [a] <+: l ↔ l.head? = some a := by
  cases l with
  | nil => simp
  | cons b l => simp [eq_comm]

/-! The bytes from a position on are those of a text. -/

section
variable {bytes : Bytes} {i : ℕ} {text : Text}

theorem scanWhile_of_drop (h : bytes.drop i = encode text) {p : UInt8 → Bool}
    (hp : ∀ b, 0x80 ≤ b → p b = false) :
    scanWhile bytes i p = i + (text.takeWhile (ascii p)).length := by
  unfold scanWhile
  rw [h, length_takeWhile_encode hp]

theorem drop_of_drop {a : Text} (h : bytes.drop i = encode (a ++ text))
    (ha : ∀ c ∈ a, c.toNat < 128) : bytes.drop (i + a.length) = encode text := by
  rw [← List.drop_drop, h, encode_append, ← length_encode_ascii ha, List.drop_left]

theorem take_of_drop (h : bytes.drop i = encode text) {literal : Text} (hne : literal ≠ [])
    (hl : ∀ c ∈ literal, c.toNat < 128) :
    i + literal.length ≤ bytes.length ∧ (bytes.drop i).take literal.length = encode literal ↔
      literal <+: text := by
  have hlen := length_encode_ascii hl
  rw [← encode_prefix_iff hl, h, List.prefix_iff_eq_take, hlen]
  constructor
  · exact fun hand => hand.2.symm
  · intro heq
    refine ⟨?_, heq.symm⟩
    have h1 := congrArg List.length heq
    have h2 := congrArg List.length h
    rw [hlen, List.length_take] at h1
    rw [List.length_drop] at h2
    have hpos := List.length_pos_of_ne_nil hne
    omega

theorem getElem?_of_drop (h : bytes.drop i = encode text) {c : Char} (hc : c.toNat < 128) :
    bytes[i]? = some (UInt8.ofNat c.toNat) ↔ text.head? = some c := by
  have hliteral : ∀ d ∈ [c], d.toNat < 128 := fun d hd => List.mem_singleton.mp hd ▸ hc
  have hstarts := encode_prefix_iff hliteral text
  rw [encode_ascii hc, encode_nil, ← h, singleton_prefix_iff, singleton_prefix_iff,
    List.head?_drop] at hstarts
  exact hstarts

theorem ascii_takeWhile {p : UInt8 → Bool} : ∀ c ∈ text.takeWhile (ascii p), c.toNat < 128 :=
  fun _ hc => ascii_of_ascii (List.mem_takeWhile_imp hc)

/-- A bot token is found among the bytes where it is among the characters. -/
theorem botEnd_eq (h : bytes.drop i = encode text) :
    botEnd bytes i = (afterBot text).map fun rest => i + (text.length - rest.length) := by
  have hbot : i + 4 ≤ bytes.length ∧ (bytes.drop i).take 4 = encode slashBot ↔ slashBot <+: text :=
    take_of_drop h (by decide) ascii_slashBot
  unfold botEnd afterBot
  dsimp only
  simp only [hbot]
  by_cases hslash : slashBot <+: text
  · obtain ⟨t, rfl⟩ := hslash
    have hdrop4 : (slashBot ++ t).drop 4 = t := rfl
    have hfour : bytes.drop (i + 4) = encode t := drop_of_drop h ascii_slashBot
    have hscan : scanWhile bytes (i + 4) isAsciiDigit = i + 4 + (t.takeWhile isDigit).length :=
      scanWhile_of_drop hfour fun _ => isAsciiDigit_wide
    have hdigits : bytes.drop (scanWhile bytes (i + 4) isAsciiDigit) =
        encode (t.dropWhile isDigit) := by
      rw [hscan]
      refine drop_of_drop ?_ ascii_takeWhile
      rw [hfour]
      exact congrArg encode List.takeWhile_append_dropWhile.symm
    have hcolon : bytes[scanWhile bytes (i + 4) isAsciiDigit]? = some 0x3a ↔
        (t.dropWhile isDigit).head? = some ':' :=
      @getElem?_of_drop _ _ _ hdigits ':' (by decide)
    have hsome : i + 4 < scanWhile bytes (i + 4) isAsciiDigit ↔ t.takeWhile isDigit ≠ [] := by
      rw [hscan, ← List.length_pos_iff]
      exact Nat.lt_add_right_iff_pos
    simp only [hsome, hcolon, hdrop4, List.prefix_append, true_and, if_true]
    by_cases hhead : t.takeWhile isDigit ≠ [] ∧ (t.dropWhile isDigit).head? = some ':'
    · obtain ⟨tail, htail⟩ := List.head?_eq_some_iff.mp hhead.2
      have hafter : bytes.drop (scanWhile bytes (i + 4) isAsciiDigit + 1) = encode tail := by
        rw [htail] at hdigits
        exact drop_of_drop (a := [':']) hdigits (all_ascii (by decide))
      have htoken : scanWhile bytes (scanWhile bytes (i + 4) isAsciiDigit + 1) isTokenChar =
          scanWhile bytes (i + 4) isAsciiDigit + 1 + (tail.takeWhile isToken).length :=
        scanWhile_of_drop hafter fun _ => isTokenChar_wide
      have hlen := congrArg List.length
        (List.takeWhile_append_dropWhile (p := isDigit) (l := t))
      have hlen' := congrArg List.length
        (List.takeWhile_append_dropWhile (p := isToken) (l := tail))
      rw [List.length_append, htail, List.length_cons] at hlen
      rw [List.length_append] at hlen'
      simp only [hhead.1, htail, htoken, Nat.add_sub_cancel_left, List.drop_succ_cons,
        List.drop_zero, List.head?_cons, ne_eq, not_false_eq_true, true_and, if_true]
      by_cases hlong : 10 ≤ (tail.takeWhile isToken).length
      · rw [if_pos hlong, if_pos hlong, hscan]
        refine congrArg some ?_
        have hfull : (slashBot ++ t).length = 4 + t.length := List.length_append
        beta_reduce
        rw [hfull]
        omega
      · rw [if_neg hlong, if_neg hlong]
        rfl
    · rw [if_neg hhead, if_neg fun hand => hhead ⟨hand.1, hand.2.1⟩]
      rfl
  · simp only [hslash, if_false, false_and]
    rfl

/-- And the value of a key. -/
theorem keyEnd_eq (h : bytes.drop i = encode text) :
    keyEnd bytes i = (afterKey text).map fun rest => i + (text.length - rest.length) := by
  have hquery : bytes[i]? = some 0x3f ∨ bytes[i]? = some 0x26 ↔
      text.head? = some '?' ∨ text.head? = some '&' :=
    or_congr (@getElem?_of_drop _ _ _ h '?' (by decide))
      (@getElem?_of_drop _ _ _ h '&' (by decide))
  unfold keyEnd afterKey
  dsimp only
  simp only [hquery]
  by_cases hhead : text.head? = some '?' ∨ text.head? = some '&'
  · obtain ⟨c, t, rfl, hc⟩ : ∃ c t, text = c :: t ∧ c.toNat < 128 := by
      obtain hhead | hhead := hhead <;> obtain ⟨t, rfl⟩ := List.head?_eq_some_iff.mp hhead
      · exact ⟨_, t, rfl, by decide⟩
      · exact ⟨_, t, rfl, by decide⟩
    have hone : bytes.drop (i + 1) = encode t :=
      drop_of_drop (a := [c]) h fun d hd => List.mem_singleton.mp hd ▸ hc
    have hkey : i + 1 + 4 ≤ bytes.length ∧ (bytes.drop (i + 1)).take 4 = encode keyEquals ↔
        keyEquals <+: t := take_of_drop hone (by decide) ascii_keyEquals
    rw [Nat.add_assoc] at hkey
    have hdrop1 : (c :: t).drop 1 = t := rfl
    have hdrop5 : (c :: t).drop 5 = t.drop 4 := rfl
    simp only [hhead, hdrop1, hdrop5, true_and]
    by_cases hstarts : keyEquals <+: t
    · obtain ⟨t, rfl⟩ := hstarts
      have hdrop4 : (keyEquals ++ t).drop 4 = t := rfl
      have hfive : bytes.drop (i + 1 + 4) = encode t := drop_of_drop hone ascii_keyEquals
      have htoken : scanWhile bytes (i + 5) isTokenChar = i + 5 + (t.takeWhile isToken).length :=
        scanWhile_of_drop hfive fun _ => isTokenChar_wide
      have hsome : i + 5 < i + 5 + (t.takeWhile isToken).length ↔ t.takeWhile isToken ≠ [] := by
        rw [← List.length_pos_iff]
        exact Nat.lt_add_right_iff_pos
      rw [if_pos (hkey.mpr (List.prefix_append _ _)), htoken]
      simp only [hdrop4, hsome, List.prefix_append, true_and]
      by_cases hvalue : t.takeWhile isToken = []
      · rw [if_neg (not_not_intro hvalue), if_neg (not_not_intro hvalue)]
        rfl
      · rw [if_pos hvalue, if_pos hvalue]
        refine congrArg some ?_
        have hlen := congrArg List.length
          (List.takeWhile_append_dropWhile (p := isToken) (l := t))
        have hfull : (c :: (keyEquals ++ t)).length = 5 + t.length := by
          rw [List.length_cons, List.length_append, Nat.add_comm, ← Nat.add_assoc]
          rfl
        rw [List.length_append] at hlen
        beta_reduce
        rw [hfull]
        omega
    · rw [if_neg fun hand => hstarts (hkey.mp hand), if_neg fun hand => hstarts hand.1]
      rfl
  · simp only [hhead, false_and, and_false, if_false]
    rfl

end

theorem ascii_append {a b : Text} (ha : ∀ c ∈ a, c.toNat < 128) (hb : ∀ c ∈ b, c.toNat < 128) :
    ∀ c ∈ a ++ b, c.toNat < 128 := by
  intro c hc
  obtain hc | hc := List.mem_append.mp hc
  · exact ha c hc
  · exact hb c hc

theorem BotToken.ascii {secret : Text} (h : BotToken secret) : ∀ c ∈ secret, c.toNat < 128 := by
  obtain ⟨digits, token, -, hdigit, -, htoken⟩ := h
  refine ascii_append (ascii_append ascii_slashBot fun c hc => ascii_of_ascii (hdigit c hc)) ?_
  exact List.forall_mem_cons.mpr ⟨by decide, fun c hc => ascii_of_ascii (htoken c hc)⟩

theorem QueryKey.ascii {secret : Text} (h : QueryKey secret) : ∀ c ∈ secret, c.toNat < 128 := by
  obtain ⟨c, value, hc, -, htoken⟩ := h
  refine ascii_append (List.forall_mem_cons.mpr ⟨?_, ascii_keyEquals⟩)
    fun c hc => ascii_of_ascii (htoken c hc)
  obtain rfl | rfl := hc
  · decide
  · decide

theorem BotToken.slashBot {secret : Text} (h : BotToken secret) : slashBot <+: secret := by
  obtain ⟨digits, token, -, -, -, -⟩ := h
  rw [List.append_assoc]
  exact List.prefix_append _ _

theorem QueryKey.keyEquals {secret : Text} (h : QueryKey secret) : keyEquals <:+: secret := by
  obtain ⟨c, value, -, -, -⟩ := h
  exact ⟨[c], value, rfl⟩

/-- A bot token stands before what follows it. -/
theorem botToken_of_afterBot {text rest : Text} (h : afterBot text = some rest) :
    ∃ secret, text = secret ++ rest ∧ BotToken secret := by
  unfold afterBot at h
  dsimp only at h
  split_ifs at h with hbot
  cases h
  obtain ⟨⟨t, rfl⟩, hdigits, hcolon, hlong⟩ := hbot
  have hdrop4 : (slashBot ++ t).drop 4 = t := rfl
  rw [hdrop4] at hdigits hcolon hlong
  obtain ⟨tail, htail⟩ := List.head?_eq_some_iff.mp hcolon
  rw [hdrop4, htail]
  rw [htail] at hlong
  refine ⟨_, ?_, .intro (t.takeWhile isDigit) (tail.takeWhile isToken) hdigits
    (fun c hc => List.mem_takeWhile_imp hc) hlong fun c hc => List.mem_takeWhile_imp hc⟩
  have htoken : tail.takeWhile isToken ++ tail.dropWhile isToken = tail :=
    List.takeWhile_append_dropWhile
  have hdigit : t.takeWhile isDigit ++ t.dropWhile isDigit = t := List.takeWhile_append_dropWhile
  rw [List.append_assoc, List.append_assoc, List.cons_append, List.drop_one, List.tail_cons, htoken,
    ← htail, hdigit]

/-- And a key with its value before what follows that. -/
theorem queryKey_of_afterKey {text rest : Text} (h : afterKey text = some rest) :
    ∃ c secret, text = c :: secret ++ rest ∧ QueryKey (c :: secret) := by
  unfold afterKey at h
  split_ifs at h with hkey
  cases h
  obtain ⟨hhead, hstarts, hvalue⟩ := hkey
  obtain ⟨c, t, rfl, hc⟩ : ∃ c t, text = c :: t ∧ (c = '?' ∨ c = '&') := by
    obtain hhead | hhead := hhead
    · obtain ⟨t, rfl⟩ := List.head?_eq_some_iff.mp hhead
      exact ⟨_, t, rfl, Or.inl rfl⟩
    · obtain ⟨t, rfl⟩ := List.head?_eq_some_iff.mp hhead
      exact ⟨_, t, rfl, Or.inr rfl⟩
  rw [List.drop_one, List.tail_cons] at hstarts
  obtain ⟨t, rfl⟩ := hstarts
  refine ⟨c, keyEquals ++ t.takeWhile isToken, ?_,
    .intro c (t.takeWhile isToken) hc hvalue fun c hc => List.mem_takeWhile_imp hc⟩
  have htoken : t.takeWhile isToken ++ t.dropWhile isToken = t := List.takeWhile_append_dropWhile
  rw [List.cons_append, List.append_assoc]
  exact congrArg (fun t => c :: (keyEquals ++ t)) htoken.symm

theorem afterBot_nil : afterBot [] = none := rfl

theorem masked_bot {text rest : Text} (h : afterBot text = some rest) :
    masked text = slashBot ++ mask ++ masked rest := by
  cases text with
  | nil => cases h
  | cons c text =>
    rw [masked]
    split
    · next rest' h' => rw [Option.some.inj (h.symm.trans h')]
    · next h' => cases h.symm.trans h'

theorem masked_key {c : Char} {text rest : Text} (hbot : afterBot (c :: text) = none)
    (h : afterKey (c :: text) = some rest) :
    masked (c :: text) = c :: keyEquals ++ mask ++ masked rest := by
  rw [masked]
  split
  · next h' => cases hbot.symm.trans h'
  · split
    · next rest' h' => rw [Option.some.inj (h.symm.trans h')]
    · next h' => cases h.symm.trans h'

theorem masked_char {c : Char} {text : Text} (hbot : afterBot (c :: text) = none)
    (hkey : afterKey (c :: text) = none) : masked (c :: text) = c :: masked text := by
  rw [masked]
  split
  · next h' => cases hbot.symm.trans h'
  · split
    · next h' => cases hkey.symm.trans h'
    · rfl

theorem contains_of_infix {a b c : Text} (h : a <:+: b) (hbc : b <:+: c) : contains c a = true :=
  decide_eq_true (h.trans hbc)

theorem ofNat_toNat_ascii {c : Char} (h : c.toNat < 128) :
    Char.ofNat (UInt8.ofNat c.toNat).toNat = c := by
  rw [toNat_ofNat_ascii h, Char.ofNat_toNat]

/-- One turn, where a character starts: it pushes what is to be pushed and goes on where the next
character starts. -/
theorem redactStep_eq (before : Text) (c : Char) (text : Text) :
    ∃ piece passed rest, c :: text = passed ++ rest ∧ passed ≠ [] ∧
      masked (c :: text) = piece ++ masked rest ∧
      redactStep (before ++ c :: text) (contains (before ++ c :: text) slashBot)
          (contains (before ++ c :: text) keyEquals) (encode before).length =
        some (piece, (encode (before ++ passed)).length) := by
  have hbytes : (encode (before ++ c :: text)).drop (encode before).length = encode (c :: text) := by
    rw [encode_append, List.drop_left]
  have hstop : ∀ passed rest : Text, (∀ c ∈ passed, c.toNat < 128) → c :: text = passed ++ rest →
      (encode before).length + ((c :: text).length - rest.length) =
        (encode (before ++ passed)).length := by
    intro passed rest hascii heq
    rw [heq, encode_append, List.length_append, List.length_append, Nat.add_sub_cancel,
      length_encode_ascii hascii]
  have hsub : ∀ passed rest : Text, c :: text = passed ++ rest → passed <:+: before ++ c :: text :=
    fun passed rest heq => ⟨before, rest, by rw [heq, List.append_assoc]⟩
  have hnone : ∀ b : Bool, (if b then none else none : Option ℕ) = none := fun b => ite_self _
  unfold redactStep
  dsimp only
  rw [botEnd_eq hbytes, keyEnd_eq hbytes]
  cases hbot : afterBot (c :: text) with
  | some rest =>
    obtain ⟨secret, heq, hsecret⟩ := botToken_of_afterBot hbot
    have hhas := contains_of_infix hsecret.slashBot.isInfix (hsub secret rest heq)
    refine ⟨slashBot ++ mask, secret, rest, heq, ?_, masked_bot hbot, ?_⟩
    · rintro rfl
      cases hsecret
    · rw [hhas, if_pos rfl, Option.map_some, hstop secret rest hsecret.ascii heq]
  | none =>
    rw [Option.map_none, hnone]
    cases hkey : afterKey (c :: text) with
    | some rest =>
      obtain ⟨d, secret, heq, hsecret⟩ := queryKey_of_afterKey hkey
      have hhas := contains_of_infix hsecret.keyEquals (hsub (d :: secret) rest heq)
      have hd : c = d := (List.cons.inj heq).1
      have hc : c.toNat < 128 := hd ▸ hsecret.ascii d List.mem_cons_self
      refine ⟨c :: keyEquals ++ mask, d :: secret, rest, heq, List.cons_ne_nil _ _,
        masked_key hbot hkey, ?_⟩
      rw [hhas, if_pos rfl, Option.map_some, hstop (d :: secret) rest hsecret.ascii heq]
      dsimp only
      have hbyte := (getElem?_of_drop hbytes hc).mpr rfl
      rw [List.getD_eq_getElem?_getD, hbyte, Option.getD_some, ofNat_toNat_ascii hc]
    | none =>
      rw [Option.map_none, hnone]
      refine ⟨[c], [c], text, rfl, List.cons_ne_nil _ _, masked_char hbot hkey, ?_⟩
      have hslice : sliceFrom (before ++ c :: text) (encode before).length = some (c :: text) :=
        sliceFrom_eq_some.mpr ⟨before, rfl, rfl⟩
      have hsize : (encode (before ++ [c])).length = (encode before).length + c.utf8Size := by
        rw [encode_append, List.length_append, length_encode_cons, encode_nil, List.length_nil,
          Nat.add_zero]
      rw [hsize]
      change (sliceFrom (before ++ c :: text) (encode before).length).bind _ = _
      rw [hslice]
      rfl

/-- The loop pushes the rest of the text masked, and stands at a character every turn. -/
theorem redactFrom_eq {input : Text} {turns : ℕ} :
    ∀ {before text out : Text}, input = before ++ text → (encode text).length < turns →
      redactFrom input (contains input slashBot) (contains input keyEquals) turns
        (encode before).length out = some (out ++ masked text) := by
  induction turns with
  | zero => exact fun _ hturns => absurd hturns (Nat.not_lt_zero _)
  | succ turns ih =>
    rintro before text out rfl hturns
    unfold redactFrom
    cases text with
    | nil =>
      rw [List.append_nil, if_neg (lt_irrefl _), masked, List.append_nil]
    | cons c text =>
      obtain ⟨piece, passed, rest, heq, hpassed, hmasked, hstep⟩ := redactStep_eq before c text
      have hlt : (encode before).length < (encode (before ++ c :: text)).length := by
        have hpos := Char.utf8Size_pos c
        rw [encode_append, List.length_append, length_encode_cons]
        omega
      have hfewer : (encode rest).length < turns := by
        have hlen := congrArg (fun t => (encode t).length) heq
        obtain ⟨d, passed, rfl⟩ := List.exists_cons_of_ne_nil hpassed
        have hpos := Char.utf8Size_pos d
        rw [encode_append, List.length_append, length_encode_cons d] at hlen
        omega
      rw [if_pos hlt, hstep]
      change redactFrom _ _ _ turns (encode (before ++ passed)).length (out ++ piece) = _
      rw [ih (by rw [heq, List.append_assoc]) hfewer, hmasked, List.append_assoc]

/-- Where nothing that a secret has to hold is there, nothing is masked. -/
theorem masked_of_not_contains {text : Text} (hbot : contains text slashBot = false)
    (hkey : contains text keyEquals = false) : masked text = text := by
  induction text with
  | nil => rw [masked]
  | cons c text ih =>
    have hsub : ∀ passed rest : Text, c :: text = passed ++ rest → passed <:+: c :: text :=
      fun passed rest heq => ⟨[], rest, heq.symm⟩
    have hnone : afterBot (c :: text) = none := by
      rw [Option.eq_none_iff_forall_ne_some]
      intro rest h
      obtain ⟨secret, heq, hsecret⟩ := botToken_of_afterBot h
      have hhas := contains_of_infix hsecret.slashBot.isInfix (hsub secret rest heq)
      exact Bool.false_ne_true (hbot.symm.trans hhas)
    have hnone' : afterKey (c :: text) = none := by
      rw [Option.eq_none_iff_forall_ne_some]
      intro rest h
      obtain ⟨d, secret, heq, hsecret⟩ := queryKey_of_afterKey h
      have hhas := contains_of_infix hsecret.keyEquals (hsub (d :: secret) rest heq)
      exact Bool.false_ne_true (hkey.symm.trans hhas)
    have hless : ∀ needle, contains (c :: text) needle = false → contains text needle = false :=
      fun needle h => decide_eq_false fun hsub =>
        of_decide_eq_false h (hsub.trans (List.infix_cons (List.infix_refl text)))
    rw [masked_char hnone hnone', ih (hless _ hbot) (hless _ hkey)]

theorem redact_eq (input : Text) : redact input = some (masked input) := by
  unfold redact
  dsimp only
  split_ifs with hfast
  · rw [Bool.and_eq_true, Bool.not_eq_true', Bool.not_eq_true'] at hfast
    rw [masked_of_not_contains hfast.1 hfast.2]
  · have hrun := @redactFrom_eq input _ [] input [] rfl (Nat.lt_succ_self _)
    rwa [List.nil_append] at hrun

end AgentsCommander.Telegram
