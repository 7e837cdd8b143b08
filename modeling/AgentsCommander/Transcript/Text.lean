import Mathlib.Data.List.Infix

/-! The text of a transcript line, and the assistant record it holds. -/
namespace AgentsCommander.Transcript

abbrev Bytes := List UInt8
abbrev Text := List Char

/-- How a sequence of several bytes starts: its length and the range of its second byte. -/
def leadByte (b : UInt8) : Option (ℕ × UInt8 × UInt8) :=
  if 0xC2 ≤ b ∧ b ≤ 0xDF then some (2, 0x80, 0xBF)
  else if b = 0xE0 then some (3, 0xA0, 0xBF)
  else if b = 0xED then some (3, 0x80, 0x9F)
  else if 0xE1 ≤ b ∧ b ≤ 0xEF then some (3, 0x80, 0xBF)
  else if b = 0xF0 then some (4, 0x90, 0xBF)
  else if 0xF1 ≤ b ∧ b ≤ 0xF3 then some (4, 0x80, 0xBF)
  else if b = 0xF4 then some (4, 0x80, 0x8F)
  else none

/-- How many of the bytes continue the sequence, at most those it still wants. -/
def continuation (wanted : ℕ) (rest : Bytes) : ℕ :=
  ((rest.take wanted).takeWhile fun c => 0x80 ≤ c ∧ c ≤ 0xBF).length

def codePoint (b : UInt8) (tail : Bytes) : ℕ :=
  let lead := if tail.length = 1 then b.toNat % 32 else if tail.length = 2 then b.toNat % 16
    else b.toNat % 8
  tail.foldl (fun n c => n * 64 + c.toNat % 64) lead

/-- The character the bytes start with, or none for an ill-formed sequence, and its length. -/
def decodeOne (b : UInt8) (rest : Bytes) : Option Char × ℕ :=
  if b < 0x80 then (some (Char.ofNat b.toNat), 1)
  else match leadByte b with
    | none => (none, 1)
    | some (width, low, high) =>
      if rest.head?.any fun c => low ≤ c ∧ c ≤ high then
        let found := 1 + continuation (width - 2) rest.tail
        if found = width - 1 then (some (Char.ofNat (codePoint b (rest.take found))), width)
        else (none, 1 + found)
      else (none, 1)

def decodeFuel : ℕ → Bytes → List (Option Char)
  | _, [] => []
  | 0, _ => []
  | fuel + 1, b :: rest =>
    let (c, width) := decodeOne b rest
    c :: decodeFuel fuel (rest.drop (width - 1))

def decode (bytes : Bytes) : List (Option Char) := decodeFuel bytes.length bytes

/-- What `read_to_string` accepts. -/
def isUtf8 (bytes : Bytes) : Bool := (decode bytes).all (·.isSome)

def fromUtf8Lossy (bytes : Bytes) : Text := (decode bytes).map (·.getD (Char.ofNat 0xFFFD))

def isWhitespace (c : Char) : Bool :=
  let n := c.toNat
  (9 ≤ n && n ≤ 13) || n = 0x20 || n = 0x85 || n = 0xA0 || n = 0x1680 ||
    (0x2000 ≤ n && n ≤ 0x200A) || n = 0x2028 || n = 0x2029 || n = 0x202F || n = 0x205F || n = 0x3000

def trim (s : Text) : Text :=
  ((s.dropWhile isWhitespace).reverse.dropWhile isWhitespace).reverse

def contains (s needle : Text) : Bool := decide (needle <:+: s)

/-- A parsed JSON value. -/
inductive Value where
  | null
  | bool (b : Bool)
  | number (text : Text)
  | string (s : Text)
  | array (values : List Value)
  | object (fields : List (Text × Value))

namespace Value

def get (v : Value) (key : String) : Option Value :=
  match v with
  | .object fields => (fields.find? (·.1 = key.toList)).map (·.2)
  | _ => none

def asStr : Value → Option Text
  | .string s => some s
  | _ => none

end Value

/-- What is taken from other packages: JSON, and the timestamps in it. -/
structure Crates where
  fromStr : Text → Option Value
  parseFromRfc3339 : Text → Option ℤ

variable (crates : Crates)

/-- The text blocks of a message. -/
def textBlocks (blocks : List Value) : List Text :=
  blocks.filterMap fun block =>
    if (block.get "type").bind (·.asStr) = some "text".toList then
      match (block.get "text").bind (·.asStr) with
      | some text => if trim text = [] then none else some (trim text)
      | none => none
    else none

def contentText : Value → Option Text
  | .string s => if trim s = [] then none else some (trim s)
  | .array blocks =>
    let texts := textBlocks blocks
    if texts = [] then none else some ((texts.intersperse ['\n']).flatten)
  | _ => none

/-- The turn id is never there. -/
def extractAssistantTextWithTurn (line : Text) : Option (Text × Option Text) :=
  if !contains line "\"type\":\"assistant\"".toList &&
      !contains line "\"type\": \"assistant\"".toList then none
  else do
    let v ← crates.fromStr line
    let kind ← (← v.get "type").asStr
    if kind ≠ "assistant".toList then none
    else
      let content ← (← v.get "message").get "content"
      let text ← contentText content
      some (text, none)

def extractAssistantText (line : Text) : Option Text :=
  (extractAssistantTextWithTurn crates line).map (·.1)

def claudePreambleExtractor (line : Text) : Option (ℤ × Text) := do
  let body ← extractAssistantText crates line
  let v ← crates.fromStr line
  let stamp ← (← v.get "timestamp").asStr
  let ts ← crates.parseFromRfc3339 stamp
  some (ts, body)

end AgentsCommander.Transcript
