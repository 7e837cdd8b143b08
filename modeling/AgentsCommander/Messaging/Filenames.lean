import AgentsCommander.Transcript.Utf8

/-! The names of message files: how they are built from agents, a slug and a time, and what is
accepted as one. Sanitizing gives words joined by single dashes, and leaves them as they are. -/
namespace AgentsCommander.Messaging
open Transcript

def maxSlugLen : ℕ := 50

def maxCollisionSuffix : ℕ := 99

def roomDirPrefix : Text := ['r', 'o', 'o', 'm', '-']

def legacyWorkgroupDirPrefix : Text := ['w', 'g', '-']

def rootAgentShortName : Text := ['r', 'o', 'o', 't']

def separator : Text := ['t', 'o']

def extension : Text := ['.', 'm', 'd']

inductive MessagingError where
  | emptySlug
  | invalidFilename (filename : Text)
  | invalidShape (filename : Text)
  deriving DecidableEq

/-! Cutting a text. -/

/-- The text before and after the first such character. -/
def splitOnce (sep : Char) : Text → Option (Text × Text)
  | [] => none
  | c :: text =>
    if c = sep then some ([], text) else (splitOnce sep text).map fun cut => (c :: cut.1, cut.2)

/-- The text before and after the last such character. -/
def rsplitOnce (sep : Char) : Text → Option (Text × Text)
  | [] => none
  | c :: text =>
    match rsplitOnce sep text with
    | some cut => some (c :: cut.1, cut.2)
    | none => if c = sep then some ([], text) else none

def stripSuffix (suffix text : Text) : Option Text :=
  if suffix <:+ text then some (text.take (text.length - suffix.length)) else none

def trimDashes (text : Text) : Text :=
  ((text.dropWhile (· = '-')).reverse.dropWhile (· = '-')).reverse

/-- Where the last such element is. -/
def rposition {α : Type*} (p : α → Bool) (l : List α) : Option ℕ :=
  (l.reverse.findIdx? p).map fun i => l.length - 1 - i

/-! Names. -/

/-- What becomes of one character: a lowercase ASCII letter, a digit or a dash. -/
def sanitizeChar (c : Char) : Char :=
  let lowered := if c.toNat < 128 then c.toLower else '-'
  if lowered.isAlphanum then lowered else '-'

/-- One dash for each run of them. -/
def squash : Bool → Text → Text
  | _, [] => []
  | lastDash, c :: text =>
    if c = '-' then (if lastDash then squash true text else c :: squash true text)
    else c :: squash false text

def sanitize (s : Text) : Text := trimDashes (squash false (s.map sanitizeChar))

def sanitizeSlug (slug : Text) : Except MessagingError Text :=
  let trimmed := trimDashes ((sanitize slug).take maxSlugLen)
  if trimmed = [] then .error .emptySlug else .ok trimmed

def entityPrefixOf (name : Text) : Option Text :=
  if roomDirPrefix <+: name then some roomDirPrefix
  else if legacyWorkgroupDirPrefix <+: name then some legacyWorkgroupDirPrefix
  else none

def parseWgPrefix (pre : Text) : Option Text := do
  let matched ← entityPrefixOf pre
  let (digits, _) ← splitOnce '-' (pre.drop matched.length)
  if digits = [] ∨ ¬ digits.all (·.isDigit) then none
  else some ((matched.reverse.dropWhile (· = '-')).reverse ++ digits)

def agentShortName (fullName : Text) : Text :=
  match splitOnce '/' fullName with
  | some (pre, suffix) => (parseWgPrefix pre).getD (sanitize pre) ++ '-' :: sanitize suffix
  | none => sanitize fullName

/-- A time whose year has four digits. A second may be a leap second. -/
structure Timestamp where
  year : ℕ
  month : ℕ
  day : ℕ
  hour : ℕ
  minute : ℕ
  second : ℕ
  year_lt : year < 10000
  month_le : month ≤ 12
  day_le : day ≤ 31
  hour_lt : hour < 24
  minute_lt : minute < 60
  second_le : second ≤ 60

/-- The number on so many digits. -/
def padded : ℕ → ℕ → Text
  | 0, _ => []
  | width + 1, n => padded width (n / 10) ++ [Nat.digitChar (n % 10)]

def Timestamp.date (ts : Timestamp) : Text :=
  padded 4 ts.year ++ padded 2 ts.month ++ padded 2 ts.day

def Timestamp.time (ts : Timestamp) : Text :=
  padded 2 ts.hour ++ padded 2 ts.minute ++ padded 2 ts.second

/-- The name without its extension. -/
def buildStem (ts : Timestamp) (fromShort toShort slug : Text) : Text :=
  ts.date ++ '-' :: (ts.time ++ '-' :: (fromShort ++ '-' :: (separator ++ '-' ::
    (toShort ++ '-' :: slug))))

def buildFilename (ts : Timestamp) (fromShort toShort slug : Text) : Text :=
  buildStem ts fromShort toShort slug ++ extension

/-- The name tried after so many collisions. -/
def collisionFilename (baseFilename : Text) (n : ℕ) : Option Text :=
  (stripSuffix extension baseFilename).map fun stem =>
    if n = 0 then baseFilename else stem ++ '.' :: Nat.toDigits 10 n ++ extension

/-! What is accepted. -/

def parseDigits (digits : Text) : ℕ :=
  digits.foldl (fun n c => 10 * n + (c.toNat - '0'.toNat)) 0

/-- The stem without a collision suffix, which may not be zero. -/
def withoutCollision (stem : Text) : Option Text :=
  match rsplitOnce '.' stem with
  | some (before, suffix) =>
    if suffix ≠ [] ∧ (encode suffix).length ≤ 2 ∧ suffix.all (·.isDigit) then
      if parseDigits suffix = 0 then none else some before
    else some stem
  | none => some stem

def isPart (part : Text) : Bool := part ≠ [] && part.all fun c => c.isLower || c.isDigit

/-- Whether the parts of a stem are those of a message file. -/
def validParts (parts : List Text) : Bool :=
  if parts.length < 6 then false
  else if (encode (parts.getD 0 [])).length ≠ 8 ∨ ¬ (parts.getD 0 []).all (·.isDigit) then false
  else if (encode (parts.getD 1 [])).length ≠ 6 ∨ ¬ (parts.getD 1 []).all (·.isDigit) then false
  else if ¬ (parts.drop 2).all isPart then false
  else
    let searchEnd := parts.length - 2
    if searchEnd ≤ 3 then false
    else
      match (rposition (· = separator) ((parts.take searchEnd).drop 3)).map (· + 3) with
      | some toIdx => !(toIdx < 3 || parts.length - toIdx - 1 < 2)
      | none => false

def validateFilenameShape (name : Text) : Except MessagingError Unit :=
  match (stripSuffix extension name).bind withoutCollision with
  | some stem => if validParts (stem.splitOn '-') then .ok () else .error (.invalidShape name)
  | none => .error (.invalidShape name)

/-- A name without a separator has one component, which stands for another directory only when it
is one or two dots. -/
def validateFilenameOnly (filename : Text) : Except MessagingError Unit :=
  let hasNonNormalComponent := filename = ['.'] ∨ filename = ['.', '.']
  if '/' ∈ filename ∨ '\\' ∈ filename ∨ ':' ∈ filename ∨ hasNonNormalComponent then
    .error (.invalidFilename filename)
  else validateFilenameShape filename

def validateRootNotificationFilename (filename : Text) : Except MessagingError Unit := do
  validateFilenameOnly filename
  match (stripSuffix extension filename).bind withoutCollision with
  | some stem =>
    let parts := stem.splitOn '-'
    if parts[2]? = some rootAgentShortName ∧ parts[3]? = some separator then .ok ()
    else .error (.invalidShape filename)
  | none => .error (.invalidShape filename)

def isWordChar (c : Char) : Bool := c.isLower || c.isDigit

/-- Words of lowercase letters and digits with one dash between two of them. -/
inductive Kebab : Text → Prop
  | single {c : Char} (hc : isWordChar c = true) : Kebab [c]
  | char {c : Char} {text : Text} (hc : isWordChar c = true) (h : Kebab text) : Kebab (c :: text)
  | dash {c : Char} {text : Text} (hc : isWordChar c = true) (h : Kebab text) :
      Kebab (c :: '-' :: text)

theorem isWordChar_ne_dash {c : Char} (h : isWordChar c = true) : c ≠ '-' := by
  rintro rfl
  revert h
  decide

theorem not_isUpper_toLower (c : Char) : c.toLower.isUpper = false := by
  unfold Char.isUpper Char.toLower
  split <;> grind [UInt32.toNat_add, Char.toNat_val]

theorem toLower_of_isWordChar {c : Char} (h : isWordChar c = true) : c.toLower = c := by
  unfold isWordChar Char.isLower Char.isDigit at h
  unfold Char.toLower
  rw [dif_neg]
  simp_all [UInt32.le_iff_toNat_le]
  omega

theorem ascii_of_isWordChar {c : Char} (h : isWordChar c = true) : c.toNat < 128 := by
  unfold isWordChar Char.isLower Char.isDigit at h
  simp [UInt32.le_iff_toNat_le] at h
  omega

theorem sanitizeChar_eq (c : Char) : sanitizeChar c = '-' ∨ isWordChar (sanitizeChar c) = true := by
  unfold sanitizeChar
  dsimp only
  split_ifs with hascii halnum halnum
  · refine Or.inr ?_
    have hupper := not_isUpper_toLower c
    unfold Char.isAlphanum Char.isAlpha at halnum
    rw [hupper, Bool.false_or] at halnum
    exact halnum
  · exact Or.inl rfl
  · exact Or.inl rfl
  · exact Or.inl rfl

theorem sanitizeChar_of_isWordChar {c : Char} (h : isWordChar c = true) : sanitizeChar c = c := by
  have halnum : c.isAlphanum = true := by
    unfold isWordChar at h
    unfold Char.isAlphanum Char.isAlpha
    rw [Bool.or_assoc, h, Bool.or_true]
  unfold sanitizeChar
  rw [if_pos (ascii_of_isWordChar h), toLower_of_isWordChar h]
  exact if_pos halnum

namespace Kebab
variable {a b text : Text}

theorem ne_nil (h : Kebab text) : text ≠ [] := by
  cases h <;> exact List.cons_ne_nil _ _

theorem head?_ne (h : Kebab text) : text.head? ≠ some '-' := by
  cases h with
  | single hc => exact fun he => isWordChar_ne_dash hc (Option.some.inj he)
  | char hc => exact fun he => isWordChar_ne_dash hc (Option.some.inj he)
  | dash hc => exact fun he => isWordChar_ne_dash hc (Option.some.inj he)

theorem getLast?_ne (h : Kebab text) : text.getLast? ≠ some '-' := by
  induction h with
  | single hc => exact fun he => isWordChar_ne_dash hc (Option.some.inj he)
  | char hc h ih => rwa [List.getLast?_cons_of_ne_nil h.ne_nil]
  | dash hc h ih =>
    rwa [List.getLast?_cons_of_ne_nil (List.cons_ne_nil _ _), List.getLast?_cons_of_ne_nil h.ne_nil]

/-- Two of them joined by a dash. -/
theorem join (ha : Kebab a) (hb : Kebab b) : Kebab (a ++ '-' :: b) := by
  induction ha with
  | single hc => exact .dash hc hb
  | char hc _ ih => exact .char hc ih
  | dash hc _ ih => exact .dash hc ih

theorem append (ha : ∀ c ∈ a, isWordChar c = true) (hb : Kebab b) : Kebab (a ++ b) := by
  induction a with
  | nil => exact hb
  | cons c a ih =>
    exact .char (ha c List.mem_cons_self) (ih fun d hd => ha d (List.mem_cons_of_mem c hd))

theorem ofWord (ha : ∀ c ∈ a, isWordChar c = true) (hne : a ≠ []) : Kebab a := by
  induction a with
  | nil => exact absurd rfl hne
  | cons c a ih =>
    have hc := ha c List.mem_cons_self
    by_cases hnil : a = []
    · exact hnil ▸ .single hc
    · exact .char hc (ih (fun d hd => ha d (List.mem_cons_of_mem c hd)) hnil)

theorem mem (h : Kebab text) : ∀ c ∈ text, isWordChar c = true ∨ c = '-' := by
  induction h with
  | single hc => exact fun d hd => Or.inl (List.mem_singleton.mp hd ▸ hc)
  | char hc _ ih => exact List.forall_mem_cons.mpr ⟨Or.inl hc, ih⟩
  | dash hc _ ih =>
    exact List.forall_mem_cons.mpr ⟨Or.inl hc, List.forall_mem_cons.mpr ⟨Or.inr rfl, ih⟩⟩

theorem squash_eq (h : Kebab text) (lastDash : Bool) : squash lastDash text = text := by
  induction h generalizing lastDash with
  | single hc => rw [squash, if_neg (isWordChar_ne_dash hc), squash]
  | char hc _ ih => rw [squash, if_neg (isWordChar_ne_dash hc), ih]
  | dash hc _ ih =>
    rw [squash, if_neg (isWordChar_ne_dash hc), squash, if_pos rfl, if_neg Bool.false_ne_true, ih]

theorem map_sanitizeChar (h : Kebab text) : text.map sanitizeChar = text := by
  refine (List.map_congr_left fun c hc => ?_).trans (List.map_id text)
  obtain hword | rfl := h.mem c hc
  · exact sanitizeChar_of_isWordChar hword
  · rfl

end Kebab

theorem dropWhile_dash {text : Text} (h : text.head? ≠ some '-') :
    text.dropWhile (· = '-') = text := by
  cases text with
  | nil => rfl
  | cons c text =>
    exact List.dropWhile_cons_of_neg fun hc => h (congrArg some (of_decide_eq_true hc))

theorem dropWhile_dash_cons (text : Text) :
    ('-' :: text).dropWhile (· = '-') = text.dropWhile (· = '-') :=
  List.dropWhile_cons_of_pos (decide_eq_true rfl)

theorem Kebab.trimDashes_eq {text : Text} (h : Kebab text) : trimDashes text = text := by
  unfold trimDashes
  rw [dropWhile_dash h.head?_ne, dropWhile_dash (List.head?_reverse ▸ h.getLast?_ne),
    List.reverse_reverse]

/-- A dash may be left over at the end. -/
def Half (text : Text) : Prop := ∃ kebab, Kebab kebab ∧ (text = kebab ∨ text = kebab ++ ['-'])

theorem Half.char {c : Char} {text : Text} (hc : isWordChar c = true) (h : text = [] ∨ Half text) :
    Half (c :: text) := by
  obtain rfl | ⟨kebab, hkebab, rfl | rfl⟩ := h
  · exact ⟨[c], .single hc, Or.inl rfl⟩
  · exact ⟨c :: text, .char hc hkebab, Or.inl rfl⟩
  · exact ⟨c :: kebab, .char hc hkebab, Or.inr rfl⟩

theorem Half.dash {c : Char} {text : Text} (hc : isWordChar c = true)
    (h : text = [] ∨ Half text) : Half (c :: '-' :: text) := by
  obtain rfl | ⟨kebab, hkebab, rfl | rfl⟩ := h
  · exact ⟨[c], .single hc, Or.inr rfl⟩
  · exact ⟨c :: '-' :: text, .dash hc hkebab, Or.inl rfl⟩
  · exact ⟨c :: '-' :: kebab, .dash hc hkebab, Or.inr rfl⟩

theorem Half.kebab_trimDashes {text : Text} (h : Half text) : Kebab (trimDashes text) := by
  obtain ⟨kebab, hkebab, rfl | rfl⟩ := h
  · rwa [hkebab.trimDashes_eq]
  · have hhead : (kebab ++ ['-']).head? ≠ some '-' := by
      rw [List.head?_append_of_ne_nil _ hkebab.ne_nil]
      exact hkebab.head?_ne
    unfold trimDashes
    rw [dropWhile_dash hhead, List.reverse_append, List.reverse_singleton, List.singleton_append,
      dropWhile_dash_cons, dropWhile_dash (List.head?_reverse ▸ hkebab.getLast?_ne),
      List.reverse_reverse]
    exact hkebab

/-- Any part of the beginning of words is words, up to a dash. -/
theorem Kebab.take {text : Text} (h : Kebab text) (n : ℕ) :
    text.take n = [] ∨ Half (text.take n) := by
  induction h generalizing n with
  | single hc =>
    cases n with
    | zero => exact Or.inl rfl
    | succ n => exact Or.inr (.char hc (Or.inl List.take_nil))
  | char hc _ ih =>
    cases n with
    | zero => exact Or.inl rfl
    | succ n => exact Or.inr (.char hc (ih n))
  | dash hc _ ih =>
    match n with
    | 0 => exact Or.inl rfl
    | 1 => exact Or.inr (.char hc (Or.inl rfl))
    | n + 2 => exact Or.inr (.dash hc (ih n))

/-- What is squashed: after a letter, and after a dash. -/
theorem half_squash {text : Text} (h : ∀ c ∈ text, c = '-' ∨ isWordChar c = true) :
    (∀ c, isWordChar c = true → Half (c :: squash false text)) ∧
      (squash true text = [] ∨ Half (squash true text)) := by
  induction text with
  | nil => exact ⟨fun c hc => .char hc (Or.inl rfl), Or.inl rfl⟩
  | cons d text ih =>
    obtain ⟨hfalse, htrue⟩ := ih fun e he => h e (List.mem_cons_of_mem d he)
    rw [squash, squash]
    obtain rfl | hd := h d List.mem_cons_self
    · rw [if_pos rfl, if_pos rfl, if_pos rfl, if_neg Bool.false_ne_true]
      exact ⟨fun c hc => .dash hc htrue, htrue⟩
    · rw [if_neg (isWordChar_ne_dash hd), if_neg (isWordChar_ne_dash hd)]
      exact ⟨fun c hc => .char hc (Or.inr (hfalse d hd)), Or.inr (hfalse d hd)⟩

theorem trimDashes_dash (text : Text) : trimDashes ('-' :: text) = trimDashes text := by
  unfold trimDashes
  rw [dropWhile_dash_cons]

theorem sanitize_kebab (s : Text) : sanitize s = [] ∨ Kebab (sanitize s) := by
  have hmapped : ∀ c ∈ s.map sanitizeChar, c = '-' ∨ isWordChar c = true := by
    intro c hc
    obtain ⟨d, -, rfl⟩ := List.mem_map.mp hc
    exact sanitizeChar_eq d
  have htrim : ∀ text : Text, text = [] ∨ Half text →
      trimDashes text = [] ∨ Kebab (trimDashes text) := by
    rintro text (rfl | h)
    · exact Or.inl rfl
    · exact Or.inr h.kebab_trimDashes
  unfold sanitize
  cases hs : s.map sanitizeChar with
  | nil => exact Or.inl rfl
  | cons d text =>
    rw [hs] at hmapped
    obtain ⟨hfalse, htrue⟩ := half_squash fun e he => hmapped e (List.mem_cons_of_mem d he)
    rw [squash]
    obtain rfl | hd := hmapped d List.mem_cons_self
    · rw [if_pos rfl, if_neg Bool.false_ne_true, trimDashes_dash]
      exact htrim _ htrue
    · rw [if_neg (isWordChar_ne_dash hd)]
      exact htrim _ (Or.inr (hfalse d hd))

theorem Kebab.sanitize_eq {text : Text} (h : Kebab text) : sanitize text = text := by
  unfold sanitize
  rw [h.map_sanitizeChar, h.squash_eq, h.trimDashes_eq]

theorem sanitize_idempotent (s : Text) : sanitize (sanitize s) = sanitize s := by
  obtain h | h := sanitize_kebab s
  · rw [h]
    rfl
  · exact h.sanitize_eq

theorem trimDashes_sublist (text : Text) : (trimDashes text).Sublist text := by
  unfold trimDashes
  rw [← List.reverse_sublist, List.reverse_reverse]
  exact (List.dropWhile_sublist _).trans (List.reverse_sublist.mpr (List.dropWhile_sublist _))

theorem sanitizeSlug_ok {raw slug : Text} (h : sanitizeSlug raw = .ok slug) :
    Kebab slug ∧ slug.length ≤ maxSlugLen := by
  unfold sanitizeSlug at h
  dsimp only at h
  split_ifs at h with hnil
  cases h
  constructor
  · obtain hempty | hkebab := sanitize_kebab raw
    · rw [hempty] at hnil
      exact absurd rfl hnil
    · obtain hempty | hhalf := hkebab.take maxSlugLen
      · rw [hempty] at hnil
        exact absurd rfl hnil
      · exact hhalf.kebab_trimDashes
  · exact (trimDashes_sublist _).length_le.trans (List.length_take_le _ _)

theorem sanitizeSlug_idempotent {raw slug : Text} (h : sanitizeSlug raw = .ok slug) :
    sanitizeSlug slug = .ok slug := by
  obtain ⟨hkebab, hlen⟩ := sanitizeSlug_ok h
  unfold sanitizeSlug
  rw [hkebab.sanitize_eq, List.take_of_length_le hlen, hkebab.trimDashes_eq]
  exact if_neg hkebab.ne_nil

/-! The parts of words. -/

theorem isPart_singleton {c : Char} (hc : isWordChar c = true) : isPart [c] = true := by
  unfold isPart isWordChar at *
  simp [hc]

theorem isPart_cons {c : Char} {part : Text} (hc : isWordChar c = true) (h : isPart part = true) :
    isPart (c :: part) = true := by
  unfold isPart isWordChar at *
  simp only [Bool.and_eq_true, decide_eq_true_eq, List.all_cons] at *
  exact ⟨List.cons_ne_nil _ _, hc, h.2⟩

theorem splitOn_dash_cons (c : Char) (text : Text) (hc : c ≠ '-') :
    (c :: text).splitOn '-' = (text.splitOn '-').modifyHead (c :: ·) := by
  rw [List.splitOn_cons_eq_if_modifyHead, if_neg (by rwa [beq_iff_eq])]

theorem Kebab.isPart_splitOn {text : Text} (h : Kebab text) :
    ∀ part ∈ text.splitOn '-', isPart part = true := by
  induction h with
  | single hc =>
    rw [List.splitOn_eq_singleton fun hmem =>
      isWordChar_ne_dash hc (List.mem_singleton.mp hmem).symm]
    exact fun part hpart => List.mem_singleton.mp hpart ▸ isPart_singleton hc
  | @char c text hc _ ih =>
    rw [splitOn_dash_cons _ _ (isWordChar_ne_dash hc)]
    obtain ⟨part, parts, hparts⟩ := List.exists_cons_of_ne_nil (List.splitOn_ne_nil '-' text)
    rw [hparts] at ih ⊢
    obtain ⟨hpart, hrest⟩ := List.forall_mem_cons.mp ih
    exact List.forall_mem_cons.mpr ⟨isPart_cons hc hpart, hrest⟩
  | @dash c text hc _ ih =>
    have hnot : '-' ∉ [c] := fun hmem => isWordChar_ne_dash hc (List.mem_singleton.mp hmem).symm
    have hsplit : (c :: '-' :: text).splitOn '-' = [c] :: text.splitOn '-' :=
      List.splitOn_append_cons_self_of_not_mem hnot text
    rw [hsplit]
    exact List.forall_mem_cons.mpr ⟨isPart_singleton hc, ih⟩

end AgentsCommander.Messaging
