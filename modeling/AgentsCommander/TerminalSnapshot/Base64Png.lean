import AgentsCommander.Foundation.Base64

/-! The base64 text of a snapshot's PNG: the canonical checks and the strict read of the decoder.
The base64 engine is a parameter, a text the list of its UTF-8 bytes. -/
namespace AgentsCommander.TerminalSnapshot
open Foundation

abbrev Byte := UInt8

inductive ProtocolError where
  | invalid
  | tooLarge
  | invalidPng
  | serialization
  deriving DecidableEq, Repr

def maxPngBytes : ℕ := 16 * 1024 * 1024

def maxBase64TextBytes : ℕ := 22369624

def asBytes (text : String) : List Byte := text.toByteArray.data.toList

/-- A reader over an encoded text: what one read puts into a buffer of the given length. -/
structure DecoderReader (σ : Type*) where
  new : List Byte → σ
  read : ℕ → σ → Except Unit (List Byte × σ)

variable {σ : Type*}

/-- Reads until the buffer is full. A read of no bytes is the end of the text. -/
def DecoderReader.readExact (reader : DecoderReader σ) (want : ℕ) (decoder : σ) :
    Except Unit (List Byte × σ) :=
  if _hw : want = 0 then .ok ([], decoder)
  else
    match reader.read want decoder with
    | .error e => .error e
    | .ok ([], _) => .error ()
    | .ok (byte :: bytes, decoder) =>
      match reader.readExact (want - (bytes.length + 1)) decoder with
      | .error e => .error e
      | .ok (rest, decoder) => .ok (byte :: bytes ++ rest, decoder)
termination_by want

def base64Sextet (byte : Byte) : Option Byte :=
  if 0x41 ≤ byte ∧ byte ≤ 0x5a then some (byte - 0x41)
  else if 0x61 ≤ byte ∧ byte ≤ 0x7a then some (byte - 0x61 + 26)
  else if 0x30 ≤ byte ∧ byte ≤ 0x39 then some (byte - 0x30 + 52)
  else if byte = 0x2b then some 62
  else if byte = 0x2f then some 63
  else none

/-- The last symbol before the padding carries bits that no byte uses. -/
def trailingBits (padding : ℕ) (last : Option Byte) : Bool :=
  match padding with
  | 1 => last.all fun value => value &&& 0x03 ≠ 0
  | 2 => last.all fun value => value &&& 0x0f ≠ 0
  | _ => false

/-- The length of the image the text stands for, if it is within bounds. -/
def decodedLen (length padding : ℕ) : Option ℕ :=
  (if padding ≤ length / 4 * 3 then some (length / 4 * 3 - padding) else none).filter
    fun length => 0 < length ∧ length ≤ maxPngBytes

/-- Exactly the given number of bytes, and none after them. -/
def DecoderReader.decode (reader : DecoderReader σ) (bytes : List Byte) (length : ℕ) :
    Except ProtocolError (List Byte) :=
  match reader.readExact length (reader.new bytes) with
  | .error _ => .error .invalid
  | .ok (decoded, decoder) =>
    match reader.read 1 decoder with
    | .error _ => .error .invalid
    | .ok (trailing, _) => if trailing.length ≠ 0 then .error .invalid else .ok decoded

def decodeCanonicalBase64Png (reader : DecoderReader σ) (text : String) :
    Except ProtocolError (List Byte) :=
  let bytes := asBytes text
  let padding := (bytes.reverse.takeWhile (· = 0x3d)).length
  let bodyEnd := bytes.length - padding
  if bytes = [] then .error .invalid
  else if maxBase64TextBytes < bytes.length then .error .tooLarge
  else if bytes.length % 4 ≠ 0 then .error .invalid
  else if 2 < padding then .error .invalid
  else if (bytes.take bodyEnd).any (fun byte => (base64Sextet byte).isNone) ||
      (bytes.drop bodyEnd).any (fun byte => byte ≠ 0x3d) then .error .invalid
  else if trailingBits padding (bytes[bodyEnd - 1]?.bind base64Sextet) then .error .invalid
  else
    match decodedLen bytes.length padding with
    | none => .error .tooLarge
    | some length => reader.decode bytes length

/-- A reader of a correct engine: `holds` says what a reader's state has still to give. -/
structure DecoderReader.Decodes (reader : DecoderReader σ) (holds : σ → List Byte → Prop) :
    Prop where
  starts : ∀ bytes, holds (reader.new (Base64.encode bytes)) bytes
  reads : ∀ decoder rest want, holds decoder rest → ∃ count next,
    reader.read want decoder = .ok (rest.take count, next) ∧ count ≤ want ∧
      (0 < want → rest ≠ [] → 0 < count) ∧ holds next (rest.drop count)

theorem base64Sextet_eq (byte : Byte) :
    base64Sextet byte = (Base64.value byte).map UInt8.ofNat := by
  have hall : ∀ byte : Fin 256, base64Sextet (UInt8.ofNat byte) =
      (Base64.value (UInt8.ofNat byte)).map UInt8.ofNat := by decide +kernel
  have hbyte : UInt8.ofNat byte.toNat = byte := UInt8.ofNat_toNat
  have hat := hall ⟨byte.toNat, byte.toNat_lt⟩
  simp only [hbyte] at hat
  exact hat

theorem isNone_base64Sextet (byte : Byte) :
    (base64Sextet byte).isNone = (Base64.value byte).isNone := by
  rw [base64Sextet_eq, Option.isNone_map]

theorem loose_two {v : ℕ} (h : v < 64) : UInt8.ofNat v &&& 0x03 ≠ 0 ↔ v % 4 ≠ 0 := by
  have hall : ∀ v : Fin 64, UInt8.ofNat v &&& 0x03 ≠ 0 ↔ v.val % 4 ≠ 0 := by decide
  exact hall ⟨v, h⟩

theorem loose_four {v : ℕ} (h : v < 64) : UInt8.ofNat v &&& 0x0f ≠ 0 ↔ v % 16 ≠ 0 := by
  have hall : ∀ v : Fin 64, UInt8.ofNat v &&& 0x0f ≠ 0 ↔ v.val % 16 ≠ 0 := by decide
  exact hall ⟨v, h⟩

/-- The trailing-bit check, read on the sextet of the last symbol. -/
theorem trailingBits_eq_false {padding v : ℕ} {last : Byte} (hpadding : padding ≤ 2)
    (h : Base64.value last = some v) :
    trailingBits padding (base64Sextet last) = false ↔ v % 4 ^ padding = 0 := by
  have hv := Base64.value_lt h
  have hlast : base64Sextet last = some (UInt8.ofNat v) := by rw [base64Sextet_eq, h]; rfl
  rw [hlast]
  match padding, hpadding with
  | 0, _ => exact iff_of_true rfl (Nat.mod_one v)
  | 1, _ => simpa [trailingBits] using (loose_two hv).not
  | 2, _ => simpa [trailingBits] using (loose_four hv).not

theorem DecoderReader.Decodes.readExact {reader : DecoderReader σ} {holds : σ → List Byte → Prop}
    (h : reader.Decodes holds) {want : ℕ} {decoder : σ} {rest : List Byte}
    (hholds : holds decoder rest) (hwant : want ≤ rest.length) :
    ∃ next, reader.readExact want decoder = .ok (rest.take want, next) ∧
      holds next (rest.drop want) := by
  induction want using Nat.strong_induction_on generalizing decoder rest with
  | _ want ih =>
    by_cases hzero : want = 0
    · subst hzero
      exact ⟨decoder, by rw [DecoderReader.readExact, dif_pos rfl, List.take_zero],
        by rwa [List.drop_zero]⟩
    · have hne : rest ≠ [] := List.length_pos_iff.mp (by omega)
      obtain ⟨count, next, hread, hcount, hpos, hnext⟩ := h.reads decoder rest want hholds
      have hcount' := hpos (Nat.pos_of_ne_zero hzero) hne
      obtain ⟨byte, bytes, hchunk⟩ : ∃ byte bytes, rest.take count = byte :: bytes :=
        List.exists_cons_of_ne_nil (by simp [hne]; omega)
      have hlen : bytes.length + 1 = count := by
        rw [← List.length_cons, ← hchunk, List.length_take]
        omega
      obtain ⟨last, hrest, hlast⟩ := ih (want - count) (by omega) hnext
        (by rw [List.length_drop]; omega)
      refine ⟨last, ?_, ?_⟩
      · rw [DecoderReader.readExact, dif_neg hzero, hread, hchunk]
        simp only [hlen, hrest]
        rw [← hchunk, ← List.take_add, Nat.add_sub_cancel' hcount]
      · rwa [List.drop_drop, Nat.add_sub_cancel' hcount] at hlast

/-- The reader gives back the bytes of a canonical text. -/
theorem DecoderReader.Decodes.decode {reader : DecoderReader σ} {holds : σ → List Byte → Prop}
    (h : reader.Decodes holds) (bytes : List Byte) :
    reader.decode (Base64.encode bytes) bytes.length = .ok bytes := by
  obtain ⟨next, hread, hnext⟩ := h.readExact (h.starts bytes) le_rfl
  obtain ⟨count, last, hlast, -⟩ := h.reads next _ 1 hnext
  rw [DecoderReader.decode, hread]
  simp only [hlast, List.drop_length, List.take_nil, List.length_nil, ne_eq, not_true_eq_false,
    if_false, List.take_length]

theorem trailingBits_body {bytes : List Byte} (hne : bytes ≠ []) (hblocks : bytes.length % 4 = 0)
    (hpadded : Base64.padding bytes ≤ 2)
    (hsymbols : ∀ c ∈ Base64.body bytes, (Base64.value c).isSome) :
    trailingBits (Base64.padding bytes)
        (bytes[bytes.length - Base64.padding bytes - 1]?.bind base64Sextet) = false ↔
      ∀ c ∈ (Base64.body bytes).getLast?, ∀ v ∈ Base64.value c,
        v % 4 ^ Base64.padding bytes = 0 := by
  have hpos := List.length_pos_iff.mpr hne
  obtain ⟨last, hlast⟩ : ∃ last, (Base64.body bytes).getLast? = some last :=
    Option.isSome_iff_exists.mp (List.getLast?_isSome.mpr (Base64.body_ne_nil hblocks hne hpadded))
  obtain ⟨v, hv⟩ := Option.isSome_iff_exists.mp (hsymbols last (List.mem_of_getLast? hlast))
  rw [← Base64.getLast?_body (by omega), hlast, Option.bind_some,
    trailingBits_eq_false hpadded hv]
  refine ⟨fun h c hc w hw => ?_, fun h => h last rfl v hv⟩
  obtain rfl := Option.some.inj hc
  obtain rfl := Option.some.inj (hv.symm.trans hw)
  exact h

/-- The checks before the read pass exactly on canonical texts. -/
theorem canonical_checks {bytes : List Byte} (hne : bytes ≠ []) :
    Base64.Canonical bytes ↔ bytes.length % 4 = 0 ∧ Base64.padding bytes ≤ 2 ∧
      ((Base64.body bytes).any (fun byte => (base64Sextet byte).isNone) ||
        (bytes.drop (bytes.length - Base64.padding bytes)).any fun byte => byte ≠ 0x3d) = false ∧
      trailingBits (Base64.padding bytes)
        (bytes[bytes.length - Base64.padding bytes - 1]?.bind base64Sextet) = false := by
  have hpads : (bytes.drop (bytes.length - Base64.padding bytes)).any (fun byte => byte ≠ 0x3d) =
      false := by
    rw [List.any_eq_false]
    intro byte hbyte
    rw [Base64.eq_pad_of_mem_padding hbyte]
    decide
  have hsymbol : ∀ byte, ¬(base64Sextet byte).isNone ↔ (Base64.value byte).isSome := fun byte => by
    rw [isNone_base64Sextet, ← Option.isNone_eq_false_iff, Bool.not_eq_true]
  rw [hpads, Bool.or_false, List.any_eq_false]
  simp only [hsymbol]
  constructor
  · rintro ⟨hblocks, hpadded, hsymbols, hleftover⟩
    exact ⟨hblocks, hpadded, hsymbols,
      (trailingBits_body hne hblocks hpadded hsymbols).mpr hleftover⟩
  · rintro ⟨hblocks, hpadded, hsymbols, hbits⟩
    exact ⟨hblocks, hpadded, hsymbols, (trailingBits_body hne hblocks hpadded hsymbols).mp hbits⟩

theorem decodeCanonicalBase64Png_canonical (reader : DecoderReader σ) {text : String}
    (hne : asBytes text ≠ []) (h : Base64.Canonical (asBytes text)) :
    decodeCanonicalBase64Png reader text =
      if maxBase64TextBytes < (asBytes text).length then .error .tooLarge
      else
        match decodedLen (asBytes text).length (Base64.padding (asBytes text)) with
        | none => .error .tooLarge
        | some length => reader.decode (asBytes text) length := by
  obtain ⟨hblocks, hpadded, hsymbols, hbits⟩ := (canonical_checks hne).mp h
  unfold Base64.padding Base64.pad at hpadded hsymbols hbits
  unfold Base64.body Base64.padding Base64.pad at hsymbols
  unfold decodeCanonicalBase64Png Base64.padding Base64.pad
  simp only [if_neg hne, hblocks, Nat.not_lt.mpr hpadded, hsymbols, hbits, ne_eq,
    not_true_eq_false, if_false, Bool.false_eq_true]

theorem decodeCanonicalBase64Png_ok {reader : DecoderReader σ} {text : String} {png : List Byte}
    (h : decodeCanonicalBase64Png reader text = .ok png) :
    Base64.Canonical (asBytes text) := by
  unfold decodeCanonicalBase64Png at h
  dsimp only at h
  split_ifs at h with hne hlarge hblocks hpadded hsymbols hbits
  exact (canonical_checks hne).mpr ⟨not_not.mp hblocks, Nat.not_lt.mp hpadded,
    Bool.eq_false_iff.mpr hsymbols, Bool.eq_false_iff.mpr hbits⟩

theorem decodedLen_encode {png : List Byte} (hne : png ≠ []) :
    decodedLen (Base64.encode png).length (Base64.padding (Base64.encode png)) =
      if maxPngBytes < png.length then none else some png.length := by
  have hlen := Base64.length_add_padding png
  have hpos := List.length_pos_iff.mpr hne
  rw [decodedLen, ← hlen, if_pos (Nat.le_add_left _ _), Nat.add_sub_cancel]
  split_ifs with hlarge
  · rw [Option.filter_some, if_neg]
    simpa using fun _ => hlarge
  · rw [Option.filter_some, if_pos]
    simpa using ⟨hpos, Nat.not_lt.mp hlarge⟩

/-- The decoder on an encoding: the bounds are those of the image. -/
theorem decodeCanonicalBase64Png_encode {reader : DecoderReader σ}
    {holds : σ → List Byte → Prop} (h : reader.Decodes holds) {text : String}
    {png : List Byte} (htext : asBytes text = Base64.encode png) (hne : png ≠ []) :
    decodeCanonicalBase64Png reader text =
      if maxPngBytes < png.length then .error .tooLarge else .ok png := by
  have hlen := Base64.length_encode png
  have hpos := List.length_pos_iff.mpr hne
  have htextne : asBytes text ≠ [] := by
    rw [htext, ← List.length_pos_iff]
    omega
  rw [decodeCanonicalBase64Png_canonical reader htextne (htext ▸ Base64.canonical_encode png),
    htext, decodedLen_encode hne]
  unfold maxBase64TextBytes maxPngBytes
  split_ifs with hlarge hbig
  · rfl
  · omega
  · rfl
  · exact h.decode png

theorem decodeCanonicalBase64Png_iff {reader : DecoderReader σ}
    {holds : σ → List Byte → Prop} (h : reader.Decodes holds) (text : String) (png : List Byte) :
    decodeCanonicalBase64Png reader text = .ok png ↔
      png ≠ [] ∧ png.length ≤ maxPngBytes ∧ asBytes text = Base64.encode png := by
  constructor
  · intro hok
    obtain ⟨bytes, hbytes⟩ := (decodeCanonicalBase64Png_ok hok).encoded
    have hne : bytes ≠ [] := by
      rintro rfl
      have hempty : asBytes text = [] := hbytes
      rw [decodeCanonicalBase64Png, if_pos hempty] at hok
      exact nomatch hok
    rw [decodeCanonicalBase64Png_encode h hbytes hne] at hok
    split_ifs at hok with hlarge
    obtain rfl := Except.ok.inj hok
    exact ⟨hne, Nat.not_lt.mp hlarge, hbytes⟩
  · rintro ⟨hne, hle, htext⟩
    rw [decodeCanonicalBase64Png_encode h htext hne, if_neg (Nat.not_lt.mpr hle)]

theorem asBytes_injective : Function.Injective asBytes := by
  intro text text' h
  exact String.toByteArray_inj.mp (ByteArray.ext (Array.toList_inj.mp h))

/-- A text of given ASCII bytes. -/
def asciiText (bytes : List Byte) : String :=
  String.ofList (bytes.map fun byte => Char.ofNat byte.toNat)

theorem utf8EncodeChar_ascii {byte : Byte} (h : byte.toNat < 128) :
    String.utf8EncodeChar (Char.ofNat byte.toNat) = [byte] := by
  have hall : ∀ n : Fin 128, String.utf8EncodeChar (Char.ofNat n) = [UInt8.ofNat n] := by
    decide +kernel
  have hat := hall ⟨byte.toNat, h⟩
  simp only [UInt8.ofNat_toNat] at hat
  exact hat

theorem asBytes_asciiText {bytes : List Byte} (h : ∀ byte ∈ bytes, byte.toNat < 128) :
    asBytes (asciiText bytes) = bytes := by
  rw [asBytes, asciiText, String.toByteArray_ofList, List.utf8Encode, List.toList_data_toByteArray]
  induction bytes with
  | nil => rfl
  | cons byte bytes ih =>
    rw [List.map_cons, List.flatMap_cons, utf8EncodeChar_ascii (h byte List.mem_cons_self),
      ih fun c hc => h c (List.mem_cons_of_mem _ hc), List.singleton_append]

end AgentsCommander.TerminalSnapshot
