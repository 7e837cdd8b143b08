import AgentsCommander.Foundation.Transaction
import AgentsCommander.TerminalSnapshot.Base64Png

/-! The writer of a snapshot payload. Serializers, the encoder and the checks of an image's chunks
are parameters; each serializer and the encoder is the list of the chunks it writes. -/
namespace AgentsCommander.TerminalSnapshot
open Foundation

def maxRgbBytes : ℕ := 24288768

def pngSignature : List Byte := [0x89, 0x50, 0x4e, 0x47, 0x0d, 0x0a, 0x1a, 0x0a]

structure TerminalPngInfo where
  bytes : ℕ
  pixelWidth : ℕ
  pixelHeight : ℕ

/-- The metadata of a PNG: what is said of its image, and the other fields. -/
structure TerminalSnapshotPngMetadata (α : Type*) where
  png : TerminalPngInfo
  fields : α

inductive TerminalSnapshotPayload (α β : Type*) where
  | json (snapshot : β)
  | png (metadata : TerminalSnapshotPngMetadata α) (png : List Byte)

/-- What the payload writer calls. -/
structure Renderer (α β : Type*) where
  validateSnapshot : β → Except ProtocolError Unit
  serializeSnapshot : β → List (List Byte)
  validateMetadata : TerminalSnapshotPngMetadata α → Except ProtocolError Unit
  serializeMetadata : TerminalSnapshotPngMetadata α → List (List Byte)
  validateChunks : List Byte → ℕ → ℕ → Except ProtocolError Unit
  decodeAndCheck : List Byte → ℕ → ℕ → ℕ → Except ProtocolError Unit
  encode : List Byte → List (List Byte)

structure CappedWriter where
  bytes : List Byte
  cap : ℕ
  exceeded : Bool
  fits : bytes.length ≤ cap

namespace CappedWriter

@[ext] theorem ext {w w' : CappedWriter} (hbytes : w.bytes = w'.bytes) (hcap : w.cap = w'.cap)
    (hexceeded : w.exceeded = w'.exceeded) : w = w' := by
  cases w
  cases w'
  cases hbytes
  cases hcap
  cases hexceeded
  rfl

/-- A chunk is written whole or not at all. -/
def writeAll (w : CappedWriter) (chunk : List Byte) : Except CappedWriter CappedWriter :=
  if h : w.bytes.length + chunk.length ≤ w.cap then
    .ok { w with bytes := w.bytes ++ chunk, fits := by rwa [List.length_append] }
  else .error { w with exceeded := true }

def writeChunks (w : CappedWriter) : List (List Byte) → Except CappedWriter CappedWriter
  | [] => .ok w
  | chunk :: chunks =>
    match w.writeAll chunk with
    | .error w => .error w
    | .ok w => w.writeChunks chunks

end CappedWriter

/-- A writer that fails is over its cap. -/
def tooLarge (r : Except CappedWriter CappedWriter) : Except ProtocolError CappedWriter :=
  match r with
  | .error _ => .error .tooLarge
  | .ok w => .ok w

/-- A serializer that fails may have been stopped by the cap. -/
def capped (r : Except CappedWriter CappedWriter) : Except ProtocolError CappedWriter :=
  match r with
  | .error w => .error (if w.exceeded then .tooLarge else .serialization)
  | .ok w => .ok w

variable {α β : Type*}

def validateGeneratedPng (renderer : Renderer α β) (bytes : List Byte) (width height : ℕ) :
    Except ProtocolError Unit := do
  ensure (bytes ≠ [] && bytes.length ≤ maxPngBytes && pngSignature.isPrefixOf bytes) .invalidPng
  ensure (width * height * 3 ≤ maxRgbBytes) .invalidPng
  renderer.validateChunks bytes width height
  renderer.decodeAndCheck bytes width height (width * height * 3)

def validatePngForMetadata (renderer : Renderer α β) (bytes : List Byte)
    (metadata : TerminalSnapshotPngMetadata α) : Except ProtocolError Unit := do
  renderer.validateMetadata metadata
  ensure (metadata.png.bytes = bytes.length) .invalidPng
  validateGeneratedPng renderer bytes metadata.png.pixelWidth metadata.png.pixelHeight

/-- The length the encoder must write. -/
def encodedLen (png : List Byte) : Except ProtocolError ℕ := do
  ensure ((png.length + 2) / 3 * 4 ≤ maxBase64TextBytes) .tooLarge
  return (png.length + 2) / 3 * 4

def jsonHead : List Byte := asBytes "\x7b\"format\":\"json\",\"snapshot\":"

def pngHead : List Byte := asBytes "\x7b\"format\":\"png\",\"metadata\":"

def pngText : List Byte := asBytes ",\"pngBase64\":\""

def pngTail : List Byte := asBytes "\"\x7d"

def writeSnapshotPayload (renderer : Renderer α β) (w : CappedWriter) :
    TerminalSnapshotPayload α β → Except ProtocolError CappedWriter
  | .json snapshot => do
    renderer.validateSnapshot snapshot
    let w ← tooLarge (w.writeAll jsonHead)
    let w ← capped (w.writeChunks (renderer.serializeSnapshot snapshot))
    tooLarge (w.writeAll (asBytes "\x7d"))
  | .png metadata png => do
    validatePngForMetadata renderer png metadata
    let length ← encodedLen png
    let w ← tooLarge (w.writeAll pngHead)
    let w ← capped (w.writeChunks (renderer.serializeMetadata metadata))
    let w ← tooLarge (w.writeAll pngText)
    let before := w.bytes.length
    let w ← capped (w.writeChunks (renderer.encode png))
    ensure (w.bytes.length - before = length) .serialization
    tooLarge (w.writeAll pngTail)

namespace CappedWriter

/-- The writer after these bytes. -/
structure Extends (w : CappedWriter) (bytes : List Byte) (w' : CappedWriter) : Prop where
  bytes : w'.bytes = w.bytes ++ bytes
  cap : w'.cap = w.cap
  exceeded : w'.exceeded = w.exceeded

theorem Extends.unique {w w' w'' : CappedWriter} {bytes : List Byte} (h : w.Extends bytes w')
    (h' : w.Extends bytes w'') : w' = w'' :=
  ext (h.bytes.trans h'.bytes.symm) (h.cap.trans h'.cap.symm) (h.exceeded.trans h'.exceeded.symm)

theorem extends_append {w w' : CappedWriter} {front rest : List Byte} :
    w.Extends (front ++ rest) w' ↔ ∃ m : CappedWriter, w.Extends front m ∧ m.Extends rest w' := by
  constructor
  · intro h
    have hle : (w.bytes ++ front).length ≤ w.cap := by
      have hfits := w'.fits
      rw [h.bytes, h.cap, ← List.append_assoc, List.length_append] at hfits
      exact (Nat.le_add_right _ _).trans hfits
    refine ⟨{ w with bytes := w.bytes ++ front, fits := hle }, ⟨rfl, rfl, rfl⟩, ?_, h.cap,
      h.exceeded⟩
    rw [h.bytes, List.append_assoc]
  · rintro ⟨m, hfront, hrest⟩
    refine ⟨?_, hrest.cap.trans hfront.cap, hrest.exceeded.trans hfront.exceeded⟩
    rw [hrest.bytes, hfront.bytes, List.append_assoc]

theorem extends_nil {w w' : CappedWriter} : w.Extends [] w' ↔ w = w' := by
  constructor
  · intro h
    exact ext (by rw [h.bytes, List.append_nil]) h.cap.symm h.exceeded.symm
  · rintro rfl
    exact ⟨(List.append_nil _).symm, rfl, rfl⟩

theorem writeAll_ok {w w' : CappedWriter} {chunk : List Byte} :
    w.writeAll chunk = .ok w' ↔ w.Extends chunk w' := by
  unfold writeAll
  split_ifs with hfits
  · constructor
    · intro h
      obtain rfl := Except.ok.inj h
      exact ⟨rfl, rfl, rfl⟩
    · intro h
      exact congrArg Except.ok (Extends.unique ⟨rfl, rfl, rfl⟩ h)
  · refine iff_of_false (nomatch ·) fun h => hfits ?_
    rw [← List.length_append, ← h.bytes, ← h.cap]
    exact w'.fits

/-- The chunks a writer takes are one text, wherever they are cut. -/
theorem writeChunks_ok {chunks : List (List Byte)} {w w' : CappedWriter} :
    w.writeChunks chunks = .ok w' ↔ w.Extends chunks.flatten w' := by
  induction chunks generalizing w with
  | nil =>
    rw [writeChunks, List.flatten_nil, extends_nil]
    exact Except.ok.injEq w w' ▸ Iff.rfl
  | cons chunk chunks ih =>
    rw [List.flatten_cons, extends_append]
    rw [writeChunks]
    cases hw : w.writeAll chunk with
    | error w =>
      exact iff_of_false (nomatch ·) fun ⟨m, hm, _⟩ => nomatch hw.symm.trans (writeAll_ok.mpr hm)
    | ok m =>
      have hm := writeAll_ok.mp hw
      constructor
      · intro h
        exact ⟨m, hm, ih.mp h⟩
      · rintro ⟨m', hm', h⟩
        exact ih.mpr (hm.unique hm' ▸ h)

end CappedWriter

theorem tooLarge_ok {r : Except CappedWriter CappedWriter} {w : CappedWriter} :
    tooLarge r = .ok w ↔ r = .ok w := by
  cases r with
  | error w => exact iff_of_false (nomatch ·) (nomatch ·)
  | ok w => rw [tooLarge, Except.ok.injEq, Except.ok.injEq]

theorem capped_ok {r : Except CappedWriter CappedWriter} {w : CappedWriter} :
    capped r = .ok w ↔ r = .ok w := by
  cases r with
  | error w => exact iff_of_false (nomatch ·) (nomatch ·)
  | ok w => rw [capped, Except.ok.injEq, Except.ok.injEq]

/-- An image that passes its checks is within the bounds of the text. -/
theorem bounds_of_validated {renderer : Renderer α β} {png : List Byte}
    {metadata : TerminalSnapshotPngMetadata α}
    (h : validatePngForMetadata renderer png metadata = .ok ()) :
    png ≠ [] ∧ png.length ≤ maxPngBytes := by
  obtain ⟨_, -, h⟩ := bind_eq_ok.mp h
  obtain ⟨_, -, h⟩ := bind_eq_ok.mp h
  obtain ⟨_, h, -⟩ := bind_eq_ok.mp h
  simp only [ensure_eq_ok, Bool.and_eq_true, decide_eq_true_eq] at h
  exact h.1

theorem encodedLen_ok {png : List Byte} (h : png.length ≤ maxPngBytes) :
    encodedLen png = .ok ((png.length + 2) / 3 * 4) := by
  have hle : (png.length + 2) / 3 * 4 ≤ maxBase64TextBytes := by
    unfold maxPngBytes at h
    unfold maxBase64TextBytes
    omega
  rw [encodedLen, decide_eq_true hle]
  rfl

/-- The payload of an image, around its text. -/
def pngPayload (renderer : Renderer α β) (metadata : TerminalSnapshotPngMetadata α)
    (text : List Byte) : List Byte :=
  pngHead ++ ((renderer.serializeMetadata metadata).flatten ++ (pngText ++ (text ++ pngTail)))

/-- A payload is written exactly when its image passes the checks and it fits, with the encoding
of the image as its text. -/
theorem writeSnapshotPayload_png {renderer : Renderer α β}
    (hencode : ∀ png, (renderer.encode png).flatten = Base64.encode png) {w w' : CappedWriter}
    {metadata : TerminalSnapshotPngMetadata α} {png : List Byte} :
    writeSnapshotPayload renderer w (.png metadata png) = .ok w' ↔
      validatePngForMetadata renderer png metadata = .ok () ∧
        w.Extends (pngPayload renderer metadata (Base64.encode png)) w' := by
  unfold pngPayload
  simp only [writeSnapshotPayload, bind_eq_ok, tooLarge_ok, capped_ok,
    CappedWriter.writeAll_ok, CappedWriter.writeChunks_ok, CappedWriter.extends_append, hencode,
    ensure_eq_ok, decide_eq_true_eq]
  constructor
  · rintro ⟨_, hvalid, length, -, m₁, h₁, m₂, h₂, m₃, h₃, m₄, h₄, _, -, h₅⟩
    exact ⟨hvalid, m₁, h₁, m₂, h₂, m₃, h₃, m₄, h₄, h₅⟩
  · rintro ⟨hvalid, m₁, h₁, m₂, h₂, m₃, h₃, m₄, h₄, h₅⟩
    refine ⟨(), hvalid, _, encodedLen_ok (bounds_of_validated hvalid).2, m₁, h₁, m₂, h₂, m₃, h₃,
      m₄, h₄, (), ?_, h₅⟩
    rw [h₄.bytes, List.length_append, Nat.add_sub_cancel_left, Base64.length_encode]

variable {σ : Type*}

/-- The decoder takes exactly the canonical texts of images within bounds, one text for each image,
and the text in a written payload is the one it takes for the image written. -/
theorem canonical_base64_png {reader : DecoderReader σ} {holds : σ → List Byte → Prop}
    (hdecoder : reader.Decodes holds) {renderer : Renderer α β}
    (hencoder : ∀ png, (renderer.encode png).flatten = Base64.encode png) :
    (∀ text png, decodeCanonicalBase64Png reader text = .ok png ↔
      png ≠ [] ∧ png.length ≤ maxPngBytes ∧ asBytes text = Base64.encode png) ∧
    (∀ text text' png, decodeCanonicalBase64Png reader text = .ok png →
      decodeCanonicalBase64Png reader text' = .ok png → text = text') ∧
    (∀ text png, decodeCanonicalBase64Png reader text = .ok png →
      (renderer.encode png).flatten = asBytes text) ∧
    ∀ w w' metadata png, writeSnapshotPayload renderer w (.png metadata png) = .ok w' →
      ∃ text, decodeCanonicalBase64Png reader text = .ok png ∧
        w'.bytes = w.bytes ++ pngPayload renderer metadata (asBytes text) := by
  have hiff := decodeCanonicalBase64Png_iff hdecoder
  refine ⟨hiff, fun text text' png h h' => ?_, fun text png h => ?_,
    fun w w' metadata png h => ?_⟩
  · obtain ⟨-, -, htext⟩ := (hiff text png).mp h
    obtain ⟨-, -, htext'⟩ := (hiff text' png).mp h'
    exact asBytes_injective (htext.trans htext'.symm)
  · obtain ⟨-, -, htext⟩ := (hiff text png).mp h
    exact (hencoder png).trans htext.symm
  · obtain ⟨hvalid, hextends⟩ := (writeSnapshotPayload_png hencoder).mp h
    obtain ⟨hne, hle⟩ := bounds_of_validated hvalid
    have htext : asBytes (asciiText (Base64.encode png)) = Base64.encode png :=
      asBytes_asciiText (Base64.encode_ascii png)
    refine ⟨asciiText (Base64.encode png), (hiff _ png).mpr ⟨hne, hle, htext⟩, ?_⟩
    rw [htext]
    exact hextends.bytes

/-- A reader that decodes at once and gives what is asked for. -/
def eagerReader : DecoderReader (List Byte) where
  new text := (Base64.decode text).getD []
  read want rest := .ok (rest.take want, rest.drop want)

theorem eagerReader_decodes : eagerReader.Decodes (fun decoder rest => decoder = rest) where
  starts bytes := congrArg (Option.getD · []) (Base64.decode_encode bytes)
  reads decoder _ want h := ⟨want, decoder.drop want, h ▸ rfl, le_rfl, fun hw _ => hw, h ▸ rfl⟩

/-- A renderer without metadata whose encoder writes five bytes first. -/
def bareRenderer : Renderer Unit Unit where
  validateSnapshot _ := .ok ()
  serializeSnapshot _ := []
  validateMetadata _ := .ok ()
  serializeMetadata _ := []
  validateChunks _ _ _ := .ok ()
  decodeAndCheck _ _ _ _ := .ok ()
  encode png := [(Base64.encode png).take 5, (Base64.encode png).drop 5]

theorem canonical_base64_png_signature :
    ∃ w' text, writeSnapshotPayload bareRenderer ⟨[], 100, false, Nat.zero_le 100⟩
        (.png ⟨⟨8, 1, 1⟩, ()⟩ pngSignature) = .ok w' ∧
      decodeCanonicalBase64Png eagerReader text = .ok pngSignature := by
  have hencoder : ∀ png, (bareRenderer.encode png).flatten = Base64.encode png := fun png => by
    simp only [bareRenderer, List.flatten_cons, List.flatten_nil, List.append_nil,
      List.take_append_drop]
  have hclaim := canonical_base64_png eagerReader_decodes hencoder
  obtain ⟨w', hw'⟩ : ∃ w', writeSnapshotPayload bareRenderer ⟨[], 100, false, Nat.zero_le 100⟩
      (.png ⟨⟨8, 1, 1⟩, ()⟩ pngSignature) = .ok w' := by
    refine ⟨⟨pngPayload bareRenderer ⟨⟨8, 1, 1⟩, ()⟩ (Base64.encode pngSignature), 100, false,
      by decide +kernel⟩, (writeSnapshotPayload_png hencoder).mpr ⟨by decide, rfl, rfl, rfl⟩⟩
  obtain ⟨text, htext, -⟩ := hclaim.2.2.2 _ _ _ _ hw'
  exact ⟨w', text, hw', htext⟩

end AgentsCommander.TerminalSnapshot
