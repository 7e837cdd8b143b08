import Mathlib.Data.List.TakeWhile
import Mathlib.Tactic

/-! Standard padded base64 over bytes: the encoder, a strict decoder, and the texts that are
encodings, told from their length, their padding and their last symbol. -/
namespace AgentsCommander.Foundation.Base64

abbrev Byte := UInt8

/-- The padding byte `=`. -/
def pad : Byte := 0x3d

/-- The symbol of a sextet. -/
def symbol (v : ℕ) : Byte :=
  if v < 26 then UInt8.ofNat (v + 65)
  else if v < 52 then UInt8.ofNat (v + 71)
  else if v < 62 then UInt8.ofNat (v - 4)
  else if v < 63 then 0x2b
  else 0x2f

/-- The sextet of a symbol. -/
def value (c : Byte) : Option ℕ :=
  if 65 ≤ c.toNat ∧ c.toNat ≤ 90 then some (c.toNat - 65)
  else if 97 ≤ c.toNat ∧ c.toNat ≤ 122 then some (c.toNat - 71)
  else if 48 ≤ c.toNat ∧ c.toNat ≤ 57 then some (c.toNat + 4)
  else if c.toNat = 43 then some 62
  else if c.toNat = 47 then some 63
  else none

/-- The four bytes a block of three is written as; a short block is filled with zeros. -/
def firstSymbol (a : Byte) : Byte := symbol (a.toNat / 4)

def secondSymbol (a b : Byte) : Byte := symbol (a.toNat % 4 * 16 + b.toNat / 16)

def thirdSymbol (b c : Byte) : Byte := symbol (b.toNat % 16 * 4 + c.toNat / 64)

def fourthSymbol (c : Byte) : Byte := symbol (c.toNat % 64)

def encode : List Byte → List Byte
  | [] => []
  | [a] => [firstSymbol a, secondSymbol a 0, pad, pad]
  | [a, b] => [firstSymbol a, secondSymbol a b, thirdSymbol b 0, pad]
  | a :: b :: c :: rest =>
    firstSymbol a :: secondSymbol a b :: thirdSymbol b c :: fourthSymbol c :: encode rest

/-- The bytes four sextets carry. -/
def firstByte (x y : ℕ) : Byte := UInt8.ofNat (x * 4 + y / 16)

def secondByte (y z : ℕ) : Byte := UInt8.ofNat (y % 16 * 16 + z / 4)

def thirdByte (z w : ℕ) : Byte := UInt8.ofNat (z % 4 * 64 + w)

/-- Only canonical texts are decoded: the bits no byte carries must be zero. -/
def decode : List Byte → Option (List Byte)
  | [] => some []
  | p :: q :: r :: s :: rest =>
    if rest = [] ∧ s = pad then
      if r = pad then do
        let x ← value p
        let y ← value q
        if y % 16 = 0 then some [firstByte x y] else none
      else do
        let x ← value p
        let y ← value q
        let z ← value r
        if z % 4 = 0 then some [firstByte x y, secondByte y z] else none
    else do
      let x ← value p
      let y ← value q
      let z ← value r
      let w ← value s
      let bytes ← decode rest
      some (firstByte x y :: secondByte y z :: thirdByte z w :: bytes)
  | _ => none

theorem value_symbol {v : ℕ} (h : v < 64) : value (symbol v) = some v := by
  have hall : ∀ v : Fin 64, value (symbol v) = some v.val := by decide
  exact hall ⟨v, h⟩

theorem value_lt {c : Byte} {v : ℕ} (h : value c = some v) : v < 64 := by
  unfold value at h
  split_ifs at h <;> simp only [Option.some.injEq] at h <;> omega

theorem symbol_value {c : Byte} {v : ℕ} (h : value c = some v) : symbol v = c := by
  have hall : ∀ c : Fin 256, ∀ v : Fin 64,
      value (UInt8.ofNat c) = some v.val → symbol v = UInt8.ofNat c := by decide +kernel
  have hc : UInt8.ofNat c.toNat = c := UInt8.ofNat_toNat
  have hat := hall ⟨c.toNat, c.toNat_lt⟩ ⟨v, value_lt h⟩
  simp only [hc] at hat
  exact hat h

theorem symbol_ascii (v : ℕ) : (symbol v).toNat < 128 := by
  unfold symbol
  split_ifs
  · rw [UInt8.toNat_ofNat']
    omega
  · rw [UInt8.toNat_ofNat']
    omega
  · rw [UInt8.toNat_ofNat']
    omega
  · decide
  · decide

theorem value_pad : value pad = none := by decide

theorem symbol_ne_pad {v : ℕ} (h : v < 64) : symbol v ≠ pad := by
  intro he
  have hv := value_symbol h
  rw [he, value_pad] at hv
  exact nomatch hv

theorem ne_pad_of_value {c : Byte} (h : (value c).isSome) : c ≠ pad := by
  rintro rfl
  rw [value_pad] at h
  exact nomatch h

private theorem first_lt (a : Byte) : a.toNat / 4 < 64 := by
  have := a.toNat_lt
  omega

private theorem second_lt (a b : Byte) : a.toNat % 4 * 16 + b.toNat / 16 < 64 := by
  have := b.toNat_lt
  omega

private theorem third_lt (b c : Byte) : b.toNat % 16 * 4 + c.toNat / 64 < 64 := by
  have := c.toNat_lt
  omega

private theorem fourth_lt (c : Byte) : c.toNat % 64 < 64 := Nat.mod_lt _ (by omega)

theorem value_firstSymbol (a : Byte) : value (firstSymbol a) = some (a.toNat / 4) :=
  value_symbol (first_lt a)

theorem value_secondSymbol (a b : Byte) :
    value (secondSymbol a b) = some (a.toNat % 4 * 16 + b.toNat / 16) :=
  value_symbol (second_lt a b)

theorem value_thirdSymbol (b c : Byte) :
    value (thirdSymbol b c) = some (b.toNat % 16 * 4 + c.toNat / 64) :=
  value_symbol (third_lt b c)

theorem value_fourthSymbol (c : Byte) : value (fourthSymbol c) = some (c.toNat % 64) :=
  value_symbol (fourth_lt c)

theorem firstByte_symbols (a b : Byte) :
    firstByte (a.toNat / 4) (a.toNat % 4 * 16 + b.toNat / 16) = a := by
  have hb := b.toNat_lt
  unfold firstByte
  rw [show a.toNat / 4 * 4 + (a.toNat % 4 * 16 + b.toNat / 16) / 16 = a.toNat by omega]
  exact UInt8.ofNat_toNat

theorem secondByte_symbols (a b c : Byte) :
    secondByte (a.toNat % 4 * 16 + b.toNat / 16) (b.toNat % 16 * 4 + c.toNat / 64) = b := by
  have hb := b.toNat_lt
  have hc := c.toNat_lt
  unfold secondByte
  rw [show (a.toNat % 4 * 16 + b.toNat / 16) % 16 * 16 +
    (b.toNat % 16 * 4 + c.toNat / 64) / 4 = b.toNat by omega]
  exact UInt8.ofNat_toNat

theorem thirdByte_symbols (b c : Byte) :
    thirdByte (b.toNat % 16 * 4 + c.toNat / 64) (c.toNat % 64) = c := by
  have hc := c.toNat_lt
  unfold thirdByte
  rw [show (b.toNat % 16 * 4 + c.toNat / 64) % 4 * 64 + c.toNat % 64 = c.toNat by omega]
  exact UInt8.ofNat_toNat

theorem decode_encode (bytes : List Byte) : decode (encode bytes) = some bytes := by
  induction bytes using encode.induct with
  | case1 => rfl
  | case2 a =>
    have ha := firstByte_symbols a 0
    have hbits : (a.toNat % 4 * 16 + (0 : Byte).toNat / 16) % 16 = 0 := by
      rw [UInt8.toNat_zero]
      omega
    simp only [encode, decode, and_self, if_true, value_firstSymbol, value_secondSymbol, hbits, ha,
      Option.bind_eq_bind, Option.bind_some]
  | case3 a b =>
    have ha := firstByte_symbols a b
    have hb := secondByte_symbols a b 0
    have hr : thirdSymbol b 0 ≠ pad := symbol_ne_pad (third_lt b 0)
    have hbits : (b.toNat % 16 * 4 + (0 : Byte).toNat / 64) % 4 = 0 := by
      rw [UInt8.toNat_zero]
      omega
    simp only [encode, decode, and_self, if_true, if_neg hr, value_firstSymbol, value_secondSymbol,
      value_thirdSymbol, hbits, ha, hb, Option.bind_eq_bind, Option.bind_some]
  | case4 a b c rest ih =>
    have hs : ¬(encode rest = [] ∧ fourthSymbol c = pad) := fun h =>
      symbol_ne_pad (fourth_lt c) h.2
    simp only [encode, decode, if_neg hs, value_firstSymbol, value_secondSymbol, value_thirdSymbol,
      value_fourthSymbol, ih, firstByte_symbols, secondByte_symbols, thirdByte_symbols,
      Option.bind_eq_bind, Option.bind_some]

theorem encode_injective : Function.Injective encode := by
  intro bytes bytes' h
  have hdecoded := decode_encode bytes
  rw [h, decode_encode] at hdecoded
  exact (Option.some.inj hdecoded).symm

theorem length_encode (bytes : List Byte) :
    (encode bytes).length = (bytes.length + 2) / 3 * 4 := by
  induction bytes using encode.induct with
  | case1 => rfl
  | case2 a => simp only [encode, List.length_cons, List.length_nil]
  | case3 a b => simp only [encode, List.length_cons, List.length_nil]
  | case4 a b c rest ih =>
    simp only [encode, List.length_cons, ih]
    omega

theorem encode_ascii (bytes : List Byte) : ∀ c ∈ encode bytes, c.toNat < 128 := by
  have hpad : pad.toNat < 128 := by decide
  induction bytes using encode.induct with
  | case1 => exact fun c hc => absurd hc List.not_mem_nil
  | case2 a => simp [encode, firstSymbol, secondSymbol, symbol_ascii, hpad]
  | case3 a b => simp [encode, firstSymbol, secondSymbol, thirdSymbol, symbol_ascii, hpad]
  | case4 a b c rest ih =>
    simpa [encode, firstSymbol, secondSymbol, thirdSymbol, fourthSymbol, symbol_ascii] using ih

/-- How many padding bytes a text ends in. -/
def padding (text : List Byte) : ℕ := (text.reverse.takeWhile (· = pad)).length

/-- The text before its padding. -/
def body (text : List Byte) : List Byte := text.take (text.length - padding text)

theorem padding_le_length (text : List Byte) : padding text ≤ text.length := by
  have h : padding text ≤ text.reverse.length := (List.takeWhile_prefix _).length_le
  rwa [List.length_reverse] at h

theorem eq_pad_of_mem_padding {text : List Byte} {c : Byte}
    (h : c ∈ text.drop (text.length - padding text)) : c = pad := by
  have htake : text.reverse.takeWhile (· = pad) = text.reverse.take (padding text) :=
    List.prefix_iff_eq_take.mp (List.takeWhile_prefix _)
  rw [← List.mem_reverse, ← List.take_reverse, ← htake] at h
  have hpad := List.mem_takeWhile_imp (p := fun b : Byte => decide (b = pad)) h
  exact of_decide_eq_true hpad

theorem getLast?_body {text : List Byte} (h : padding text < text.length) :
    (body text).getLast? = text[text.length - padding text - 1]? := by
  have hlen : (body text).length = text.length - padding text := by
    rw [body, List.length_take]
    omega
  rw [List.getLast?_eq_getElem?, hlen, body, List.getElem?_take_of_lt (by omega)]

/-- Whole blocks of symbols, padded at the end only, with no bits left over. -/
structure Canonical (text : List Byte) : Prop where
  blocks : text.length % 4 = 0
  padded : padding text ≤ 2
  symbols : ∀ c ∈ body text, (value c).isSome
  leftover : ∀ c ∈ (body text).getLast?, ∀ v ∈ value c, v % 4 ^ padding text = 0

theorem padding_append (front rest : List Byte) : padding (front ++ rest) =
    if padding rest = rest.length then rest.length + padding front else padding rest := by
  unfold padding
  rw [List.reverse_append, List.takeWhile_append, List.length_reverse]
  split_ifs with h
  · rw [List.length_append, List.length_reverse]
  · rfl

theorem body_append {front rest : List Byte} (h : padding (front ++ rest) = padding rest)
    (hle : padding rest ≤ rest.length) : body (front ++ rest) = front ++ body rest := by
  unfold body
  rw [h, List.length_append, Nat.add_sub_assoc hle, List.take_length_add_append]

private theorem four_le {rest : List Byte} (h : rest.length % 4 = 0) (hne : rest ≠ []) :
    4 ≤ rest.length := by
  have := List.length_pos_iff.mpr hne
  omega

/-- What comes before a padded rest does not change the rest's padding. -/
theorem padding_front {front rest : List Byte} (h : rest.length % 4 = 0) (hne : rest ≠ [])
    (hpad : padding rest ≤ 2) : padding (front ++ rest) = padding rest := by
  rw [padding_append, if_neg]
  have := four_le h hne
  omega

theorem padding_rest {front rest : List Byte} (h : rest.length % 4 = 0) (hne : rest ≠ [])
    (hpad : padding (front ++ rest) ≤ 2) : padding rest ≤ 2 := by
  have := four_le h hne
  rw [padding_append] at hpad
  split_ifs at hpad <;> omega

theorem body_ne_nil {rest : List Byte} (h : rest.length % 4 = 0) (hne : rest ≠ [])
    (hpad : padding rest ≤ 2) : body rest ≠ [] := by
  have := four_le h hne
  rw [← List.length_pos_iff, body, List.length_take]
  omega

theorem Canonical.rest {front rest : List Byte} (h : Canonical (front ++ rest))
    (hblocks : rest.length % 4 = 0) (hne : rest ≠ []) :
    Canonical rest ∧ ∀ c ∈ front, (value c).isSome := by
  have hpad := padding_rest hblocks hne h.padded
  have heq := @padding_front front rest hblocks hne hpad
  have hbody := body_append heq (padding_le_length rest)
  refine ⟨⟨hblocks, hpad, fun c hc => ?_, fun c hc => ?_⟩, fun c hc => ?_⟩
  · exact h.symbols c (hbody ▸ List.mem_append_right _ hc)
  · rw [← heq]
    refine h.leftover c ?_
    rwa [hbody, List.getLast?_append_of_ne_nil _ (body_ne_nil hblocks hne hpad)]
  · exact h.symbols c (hbody ▸ List.mem_append_left _ hc)

theorem Canonical.front {front rest : List Byte} (h : Canonical rest) (hne : rest ≠ [])
    (hfront : front.length % 4 = 0) (hsymbols : ∀ c ∈ front, (value c).isSome) :
    Canonical (front ++ rest) := by
  have heq := @padding_front front rest h.blocks hne h.padded
  have hbody := body_append heq (padding_le_length rest)
  refine ⟨?_, heq ▸ h.padded, fun c hc => ?_, fun c hc => ?_⟩
  · rw [List.length_append, Nat.add_mod, hfront, h.blocks]
  · rw [hbody] at hc
    exact (List.mem_append.mp hc).elim (hsymbols c) (h.symbols c)
  · rw [heq]
    rw [hbody, List.getLast?_append_of_ne_nil _ (body_ne_nil h.blocks hne h.padded)] at hc
    exact h.leftover c hc

theorem firstByte_toNat {x y : ℕ} (hx : x < 64) (hy : y < 64) :
    (firstByte x y).toNat = x * 4 + y / 16 := by
  rw [firstByte, UInt8.toNat_ofNat']
  omega

theorem secondByte_toNat {y z : ℕ} (hz : z < 64) :
    (secondByte y z).toNat = y % 16 * 16 + z / 4 := by
  rw [secondByte, UInt8.toNat_ofNat']
  omega

theorem thirdByte_toNat {z w : ℕ} (hw : w < 64) : (thirdByte z w).toNat = z % 4 * 64 + w := by
  rw [thirdByte, UInt8.toNat_ofNat']
  omega

theorem firstSymbol_firstByte {x y : ℕ} (hx : x < 64) (hy : y < 64) :
    firstSymbol (firstByte x y) = symbol x := by
  rw [firstSymbol, firstByte_toNat hx hy]
  congr 1
  omega

theorem secondSymbol_bytes {x y z : ℕ} (hx : x < 64) (hy : y < 64) (hz : z < 64) :
    secondSymbol (firstByte x y) (secondByte y z) = symbol y := by
  rw [secondSymbol, firstByte_toNat hx hy, secondByte_toNat hz]
  congr 1
  omega

theorem secondSymbol_zero {x y : ℕ} (hx : x < 64) (hy : y < 64) (hbits : y % 16 = 0) :
    secondSymbol (firstByte x y) 0 = symbol y := by
  rw [secondSymbol, firstByte_toNat hx hy, UInt8.toNat_zero]
  congr 1
  omega

theorem thirdSymbol_bytes {y z w : ℕ} (hz : z < 64) (hw : w < 64) :
    thirdSymbol (secondByte y z) (thirdByte z w) = symbol z := by
  rw [thirdSymbol, secondByte_toNat hz, thirdByte_toNat hw]
  congr 1
  omega

theorem thirdSymbol_zero {y z : ℕ} (hz : z < 64) (hbits : z % 4 = 0) :
    thirdSymbol (secondByte y z) 0 = symbol z := by
  rw [thirdSymbol, secondByte_toNat hz, UInt8.toNat_zero]
  congr 1
  omega

theorem fourthSymbol_thirdByte {z w : ℕ} (hw : w < 64) :
    fourthSymbol (thirdByte z w) = symbol w := by
  rw [fourthSymbol, thirdByte_toNat hw]
  congr 1
  omega

/-- A block of four symbols is what its three bytes are written as. -/
theorem encode_block {p q r s : Byte} {x y z w : ℕ} (hx : value p = some x)
    (hy : value q = some y) (hz : value r = some z) (hw : value s = some w) (bytes : List Byte) :
    encode (firstByte x y :: secondByte y z :: thirdByte z w :: bytes) =
      p :: q :: r :: s :: encode bytes := by
  rw [encode, firstSymbol_firstByte (value_lt hx) (value_lt hy),
    secondSymbol_bytes (value_lt hx) (value_lt hy) (value_lt hz),
    thirdSymbol_bytes (value_lt hz) (value_lt hw), fourthSymbol_thirdByte (value_lt hw),
    symbol_value hx, symbol_value hy, symbol_value hz, symbol_value hw]

theorem encode_two {p q r : Byte} {x y z : ℕ} (hx : value p = some x) (hy : value q = some y)
    (hz : value r = some z) (hbits : z % 4 = 0) :
    encode [firstByte x y, secondByte y z] = [p, q, r, pad] := by
  rw [encode, firstSymbol_firstByte (value_lt hx) (value_lt hy),
    secondSymbol_bytes (value_lt hx) (value_lt hy) (value_lt hz),
    thirdSymbol_zero (value_lt hz) hbits, symbol_value hx, symbol_value hy, symbol_value hz]

theorem encode_one {p q : Byte} {x y : ℕ} (hx : value p = some x) (hy : value q = some y)
    (hbits : y % 16 = 0) : encode [firstByte x y] = [p, q, pad, pad] := by
  rw [encode, firstSymbol_firstByte (value_lt hx) (value_lt hy),
    secondSymbol_zero (value_lt hx) (value_lt hy) hbits, symbol_value hx, symbol_value hy]

theorem padding_zero {p q r s : Byte} (hs : s ≠ pad) : padding [p, q, r, s] = 0 := by
  simp [padding, hs]

theorem padding_one {p q r : Byte} (hr : r ≠ pad) : padding [p, q, r, pad] = 1 := by
  simp [padding, hr]

theorem padding_two {p q : Byte} (hq : q ≠ pad) : padding [p, q, pad, pad] = 2 := by
  simp [padding, hq]

theorem three_le_padding (p : Byte) : 3 ≤ padding [p, pad, pad, pad] := by
  simp [padding, List.takeWhile_cons]

/-- The last block, by its padding. -/
theorem encoded_last {p q r s : Byte} (h : Canonical [p, q, r, s]) :
    ∃ bytes, [p, q, r, s] = encode bytes := by
  have hsymbols := h.symbols
  have hleftover := h.leftover
  by_cases hs : s = pad
  · subst hs
    by_cases hr : r = pad
    · subst hr
      have hq : q ≠ pad := by
        rintro rfl
        exact absurd h.padded (Nat.not_le.mpr (three_le_padding p))
      simp only [body, padding_two hq, List.length_cons, List.length_nil, List.take_succ_cons,
        List.take_zero, List.forall_mem_cons, List.getLast?_cons_cons] at hsymbols hleftover
      obtain ⟨x, hx⟩ := Option.isSome_iff_exists.mp hsymbols.1
      obtain ⟨y, hy⟩ := Option.isSome_iff_exists.mp hsymbols.2.1
      exact ⟨_, (encode_one hx hy (hleftover q rfl y hy)).symm⟩
    · simp only [body, padding_one hr, List.length_cons, List.length_nil, List.take_succ_cons,
        List.take_zero, List.forall_mem_cons, List.getLast?_cons_cons] at hsymbols hleftover
      obtain ⟨x, hx⟩ := Option.isSome_iff_exists.mp hsymbols.1
      obtain ⟨y, hy⟩ := Option.isSome_iff_exists.mp hsymbols.2.1
      obtain ⟨z, hz⟩ := Option.isSome_iff_exists.mp hsymbols.2.2.1
      exact ⟨_, (encode_two hx hy hz (hleftover r rfl z hz)).symm⟩
  · simp only [body, padding_zero hs, List.length_cons, List.length_nil, List.take_succ_cons,
      List.take_zero, List.forall_mem_cons] at hsymbols
    obtain ⟨x, hx⟩ := Option.isSome_iff_exists.mp hsymbols.1
    obtain ⟨y, hy⟩ := Option.isSome_iff_exists.mp hsymbols.2.1
    obtain ⟨z, hz⟩ := Option.isSome_iff_exists.mp hsymbols.2.2.1
    obtain ⟨w, hw⟩ := Option.isSome_iff_exists.mp hsymbols.2.2.2.1
    exact ⟨_, (encode_block hx hy hz hw []).symm⟩

theorem Canonical.encoded : ∀ {text : List Byte}, Canonical text → ∃ bytes, text = encode bytes
  | [], _ => ⟨[], rfl⟩
  | [_], h => nomatch h.blocks
  | [_, _], h => nomatch h.blocks
  | [_, _, _], h => nomatch h.blocks
  | p :: q :: r :: s :: rest, h => by
    by_cases hne : rest = []
    · subst hne
      exact encoded_last h
    · have hblocks : rest.length % 4 = 0 := by
        have := h.blocks
        simp only [List.length_cons] at this
        omega
      have hwhole : Canonical ([p, q, r, s] ++ rest) := h
      obtain ⟨hrest, hfront⟩ := hwhole.rest hblocks hne
      obtain ⟨bytes, hbytes⟩ := Canonical.encoded hrest
      obtain ⟨x, hx⟩ := Option.isSome_iff_exists.mp (hfront p (by simp))
      obtain ⟨y, hy⟩ := Option.isSome_iff_exists.mp (hfront q (by simp))
      obtain ⟨z, hz⟩ := Option.isSome_iff_exists.mp (hfront r (by simp))
      obtain ⟨w, hw⟩ := Option.isSome_iff_exists.mp (hfront s (by simp))
      exact ⟨_, (hbytes ▸ encode_block hx hy hz hw bytes).symm⟩

private theorem isSome_first (a : Byte) : (value (firstSymbol a)).isSome :=
  Option.isSome_iff_exists.mpr ⟨_, value_firstSymbol a⟩

private theorem isSome_second (a b : Byte) : (value (secondSymbol a b)).isSome :=
  Option.isSome_iff_exists.mpr ⟨_, value_secondSymbol a b⟩

private theorem isSome_third (b c : Byte) : (value (thirdSymbol b c)).isSome :=
  Option.isSome_iff_exists.mpr ⟨_, value_thirdSymbol b c⟩

private theorem isSome_fourth (c : Byte) : (value (fourthSymbol c)).isSome :=
  Option.isSome_iff_exists.mpr ⟨_, value_fourthSymbol c⟩

theorem canonical_encode (bytes : List Byte) : Canonical (encode bytes) := by
  have hblocks : (encode bytes).length % 4 = 0 := by
    rw [length_encode]
    omega
  induction bytes using encode.induct with
  | case1 =>
    exact ⟨hblocks, Nat.zero_le _, fun c hc => absurd hc List.not_mem_nil,
      fun c hc => absurd hc (Option.not_mem_none c)⟩
  | case2 a =>
    have hp : padding (encode [a]) = 2 := padding_two (ne_pad_of_value (isSome_second a 0))
    have hbody : body (encode [a]) = [firstSymbol a, secondSymbol a 0] := by
      rw [body, hp]
      rfl
    refine ⟨hblocks, hp.le, ?_, ?_⟩
    · rw [hbody]
      simp [isSome_first, isSome_second]
    · rw [hbody, hp]
      rintro c ⟨⟩ v hv
      have hlast : value (secondSymbol a 0) = some v := hv
      rw [value_secondSymbol, UInt8.toNat_zero] at hlast
      obtain rfl := Option.some.inj hlast
      omega
  | case3 a b =>
    have hp : padding (encode [a, b]) = 1 := padding_one (ne_pad_of_value (isSome_third b 0))
    have hbody : body (encode [a, b]) = [firstSymbol a, secondSymbol a b, thirdSymbol b 0] := by
      rw [body, hp]
      rfl
    refine ⟨hblocks, hp.le.trans (by omega), ?_, ?_⟩
    · rw [hbody]
      simp [isSome_first, isSome_second, isSome_third]
    · rw [hbody, hp]
      rintro c ⟨⟩ v hv
      have hlast : value (thirdSymbol b 0) = some v := hv
      rw [value_thirdSymbol, UInt8.toNat_zero] at hlast
      obtain rfl := Option.some.inj hlast
      omega
  | case4 a b c rest ih =>
    have hfront : ∀ d ∈ [firstSymbol a, secondSymbol a b, thirdSymbol b c, fourthSymbol c],
        (value d).isSome := by
      simp [isSome_first, isSome_second, isSome_third, isSome_fourth]
    by_cases hne : rest = []
    · subst hne
      have hp : padding (encode [a, b, c]) = 0 := padding_zero (ne_pad_of_value (isSome_fourth c))
      have hbody : body (encode [a, b, c]) = encode [a, b, c] := by
        rw [body, hp, Nat.sub_zero, List.take_length]
      refine ⟨hblocks, hp.le.trans (Nat.zero_le 2), ?_, ?_⟩
      · rw [hbody]
        exact hfront
      · intro d _ v _
        rw [hp, pow_zero, Nat.mod_one]
    · have hlen : (encode rest).length = (rest.length + 2) / 3 * 4 := length_encode rest
      have hpos := List.length_pos_iff.mpr hne
      have hne' : encode rest ≠ [] := List.length_pos_iff.mp (by omega)
      exact (ih (by omega)).front hne' (by simp) hfront

/-- Every padding byte stands for a byte its block lacks. -/
theorem length_add_padding (bytes : List Byte) :
    bytes.length + padding (encode bytes) = (encode bytes).length / 4 * 3 := by
  induction bytes using encode.induct with
  | case1 => rfl
  | case2 a =>
    rw [length_encode, encode, padding_two (ne_pad_of_value (isSome_second a 0))]
    simp only [List.length_cons, List.length_nil]
  | case3 a b =>
    rw [length_encode, encode, padding_one (ne_pad_of_value (isSome_third b 0))]
    simp only [List.length_cons, List.length_nil]
  | case4 a b c rest ih =>
    have hlen := length_encode rest
    by_cases hne : rest = []
    · subst hne
      rw [length_encode, encode, encode, padding_zero (ne_pad_of_value (isSome_fourth c))]
      simp only [List.length_cons, List.length_nil]
    · have hrest := canonical_encode rest
      have hpos := List.length_pos_iff.mpr hne
      have hpad : padding (encode (a :: b :: c :: rest)) = padding (encode rest) :=
        @padding_front [_, _, _, _] _ hrest.blocks (List.length_pos_iff.mp (by omega)) hrest.padded
      rw [hpad, length_encode, List.length_cons, List.length_cons, List.length_cons]
      rw [length_encode] at ih
      omega

theorem canonical_iff {text : List Byte} : Canonical text ↔ ∃ bytes, text = encode bytes :=
  ⟨Canonical.encoded, fun ⟨bytes, h⟩ => h ▸ canonical_encode bytes⟩

end AgentsCommander.Foundation.Base64
