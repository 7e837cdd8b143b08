import AgentsCommander.Messaging.Filenames

/-! What is built is accepted as a message file, and as one of the root agent when `root-to` stands
right after the time. -/
namespace AgentsCommander.Messaging
open Transcript

def nameParts (fullName : Text) : List Text :=
  match splitOnce '/' fullName with
  | some (pre, suffix) => [pre, suffix]
  | none => [fullName]

/-- Something is left of every part of the name. -/
def Named (fullName : Text) : Prop := ∀ part ∈ nameParts fullName, sanitize part ≠ []

instance : DecidablePred Named := fun fullName =>
  inferInstanceAs (Decidable (∀ part ∈ nameParts fullName, sanitize part ≠ []))

theorem sanitize_kebab_of_ne {s : Text} (h : sanitize s ≠ []) : Kebab (sanitize s) :=
  (sanitize_kebab s).resolve_left h

theorem isWordChar_of_isDigit {c : Char} (h : c.isDigit = true) : isWordChar c = true := by
  unfold isWordChar
  rw [h, Bool.or_true]

theorem parseWgPrefix_kebab {pre short : Text} (h : parseWgPrefix pre = some short) :
    Kebab short := by
  unfold parseWgPrefix at h
  obtain ⟨matched, hmatched, h⟩ := Option.bind_eq_some_iff.mp h
  obtain ⟨⟨digits, rest⟩, -, h⟩ := Option.bind_eq_some_iff.mp h
  dsimp only at h
  split_ifs at h with hdigits
  cases h
  rw [not_or, not_not, List.all_eq_true] at hdigits
  have hword : ∀ c ∈ (matched.reverse.dropWhile (· = '-')).reverse, isWordChar c = true := by
    unfold entityPrefixOf at hmatched
    split_ifs at hmatched
    · cases hmatched
      exact List.all_eq_true.mp (by decide)
    · cases hmatched
      exact List.all_eq_true.mp (by decide)
  exact .append hword (.ofWord (fun c hc => isWordChar_of_isDigit (hdigits.2 c hc)) hdigits.1)

theorem agentShortName_kebab {fullName : Text} (h : Named fullName) :
    Kebab (agentShortName fullName) := by
  unfold Named nameParts at h
  unfold agentShortName
  cases hcut : splitOnce '/' fullName with
  | none =>
    rw [hcut] at h
    exact sanitize_kebab_of_ne (h fullName List.mem_cons_self)
  | some cut =>
    obtain ⟨pre, suffix⟩ := cut
    rw [hcut] at h
    dsimp only at h ⊢
    have hsuffix := h suffix (List.mem_cons_of_mem pre List.mem_cons_self)
    refine .join ?_ (sanitize_kebab_of_ne hsuffix)
    cases hwg : parseWgPrefix pre with
    | none => exact sanitize_kebab_of_ne (h pre List.mem_cons_self)
    | some short => exact parseWgPrefix_kebab hwg

theorem length_padded (width n : ℕ) : (padded width n).length = width := by
  induction width generalizing n with
  | zero => rfl
  | succ width ih => rw [padded, List.length_append, ih, List.length_singleton]

theorem isDigit_digitChar : ∀ n < 10, (Nat.digitChar n).isDigit = true := by decide

theorem isDigit_padded (width n : ℕ) : ∀ c ∈ padded width n, c.isDigit = true := by
  induction width generalizing n with
  | zero => exact fun c hc => absurd hc List.not_mem_nil
  | succ width ih =>
    intro c hc
    obtain hc | hc := List.mem_append.mp hc
    · exact ih _ c hc
    · rw [List.mem_singleton.mp hc]
      exact isDigit_digitChar _ (Nat.mod_lt n (by decide))

/-- So many digits. -/
def Digits (n : ℕ) (text : Text) : Prop := text.length = n ∧ ∀ c ∈ text, c.isDigit = true

theorem Digits.append {m n : ℕ} {a b : Text} (ha : Digits m a) (hb : Digits n b) :
    Digits (m + n) (a ++ b) := by
  refine ⟨by rw [List.length_append, ha.1, hb.1], fun c hc => ?_⟩
  obtain hc | hc := List.mem_append.mp hc
  · exact ha.2 c hc
  · exact hb.2 c hc

theorem digits_padded (width n : ℕ) : Digits width (padded width n) :=
  ⟨length_padded width n, isDigit_padded width n⟩

theorem Timestamp.date_digits (ts : Timestamp) : Digits 8 ts.date :=
  ((digits_padded 4 _).append (digits_padded 2 _)).append (digits_padded 2 _)

theorem Timestamp.time_digits (ts : Timestamp) : Digits 6 ts.time :=
  ((digits_padded 2 _).append (digits_padded 2 _)).append (digits_padded 2 _)

theorem Digits.kebab {n : ℕ} {text : Text} (h : Digits n text) (hn : n ≠ 0) : Kebab text := by
  refine .ofWord (fun c hc => isWordChar_of_isDigit (h.2 c hc)) ?_
  rintro rfl
  exact hn h.1.symm

theorem Digits.length_encode {n : ℕ} {text : Text} (h : Digits n text) :
    (encode text).length = n := by
  rw [length_encode_ascii fun c hc => ascii_of_isWordChar (isWordChar_of_isDigit (h.2 c hc)), h.1]

theorem Digits.splitOn {n : ℕ} {text : Text} (h : Digits n text) (rest : Text) :
    (text ++ '-' :: rest).splitOn '-' = text :: rest.splitOn '-' := by
  refine List.splitOn_append_cons_self_of_not_mem (fun hmem => ?_) rest
  exact isWordChar_ne_dash (isWordChar_of_isDigit (h.2 _ hmem)) rfl

/-! The stem. -/

section
variable (ts : Timestamp) {fromShort toShort slug : Text}

theorem buildStem_kebab (hfrom : Kebab fromShort) (hto : Kebab toShort) (hslug : Kebab slug) :
    Kebab (buildStem ts fromShort toShort slug) := by
  have hseparator : Kebab separator := .ofWord (List.all_eq_true.mp (by decide)) (by decide)
  exact (ts.date_digits.kebab (by decide)).join ((ts.time_digits.kebab (by decide)).join
    (hfrom.join (hseparator.join (hto.join hslug))))

theorem splitOn_buildStem (fromShort toShort slug : Text) :
    (buildStem ts fromShort toShort slug).splitOn '-' =
      ts.date :: ts.time :: (fromShort.splitOn '-' ++ separator ::
        (toShort.splitOn '-' ++ slug.splitOn '-')) := by
  have hnot : '-' ∉ separator := by decide
  unfold buildStem
  rw [ts.date_digits.splitOn, ts.time_digits.splitOn, List.splitOn_append_cons_self,
    List.splitOn_append_cons_self_of_not_mem hnot, List.splitOn_append_cons_self]

end

theorem rposition_lt {α : Type*} {p : α → Bool} {l : List α} {i : ℕ} (h : rposition p l = some i) :
    i < l.length := by
  obtain ⟨j, hj, rfl⟩ := Option.map_eq_some_iff.mp h
  have hlt := (List.findIdx?_eq_some_iff_findIdx_eq.mp hj).1
  rw [List.length_reverse] at hlt
  omega

theorem rposition_isSome {α : Type*} {p : α → Bool} {l : List α} {a : α} (ha : a ∈ l)
    (hp : p a = true) : ∃ i, rposition p l = some i := by
  unfold rposition
  have hsome : (l.reverse.findIdx? p).isSome = true := by
    rw [List.findIdx?_isSome, List.any_eq_true]
    exact ⟨a, List.mem_reverse.mpr ha, hp⟩
  obtain ⟨j, hj⟩ := Option.isSome_iff_exists.mp hsome
  exact ⟨_, congrArg (Option.map _) hj⟩

/-- Wherever the sender ends, a separator is found. -/
theorem validParts_of {date time : Text} {sender rest : List Text} (hdate : Digits 8 date)
    (htime : Digits 6 time) (hsender : sender ≠ []) (hrest : 2 ≤ rest.length)
    (hparts : ∀ part ∈ sender ++ separator :: rest, isPart part = true) :
    validParts (date :: time :: (sender ++ separator :: rest)) = true := by
  obtain ⟨part, sender, rfl⟩ := List.exists_cons_of_ne_nil hsender
  have hlen : (date :: time :: (part :: sender ++ separator :: rest)).length =
      sender.length + rest.length + 4 := by
    simp only [List.length_cons, List.length_append, List.cons_append]
    omega
  obtain ⟨hdigits, hdigits'⟩ : date.all (·.isDigit) = true ∧ time.all (·.isDigit) = true :=
    ⟨List.all_eq_true.mpr hdate.2, List.all_eq_true.mpr htime.2⟩
  have hall : ((date :: time :: (part :: sender ++ separator :: rest)).drop 2).all isPart = true :=
    List.all_eq_true.mpr hparts
  have hwindow : ((date :: time :: (part :: sender ++ separator :: rest)).take
      (sender.length + rest.length + 2)).drop 3 =
      (sender ++ separator :: rest).take (sender.length + rest.length - 1) := by
    rw [List.drop_take]
    rfl
  have hmem : separator ∈ (sender ++ separator :: rest).take (sender.length + rest.length - 1) := by
    refine List.mem_of_getElem? (i := sender.length) ?_
    rw [List.getElem?_take_of_lt (by omega), List.getElem?_append_right le_rfl, Nat.sub_self]
    rfl
  obtain ⟨i, hi⟩ := rposition_isSome (p := fun part : Text => decide (part = separator)) hmem
    (decide_eq_true rfl)
  have hlt := rposition_lt hi
  rw [List.length_take, List.length_append, List.length_cons] at hlt
  unfold validParts
  dsimp only
  rw [hlen, Nat.add_sub_assoc (by omega), hwindow, hi, List.getD_cons_zero, List.getD_cons_succ,
    List.getD_cons_zero, hdate.length_encode, htime.length_encode, hdigits, hdigits']
  rw [if_neg (by omega), if_neg (by simp), if_neg (by simp), if_neg (not_not_intro hall),
    if_neg (by omega)]
  dsimp only [Option.map_some]
  rw [Bool.not_eq_true', Bool.or_eq_false_iff, decide_eq_false_iff_not, decide_eq_false_iff_not]
  omega

/-! The filename. -/

theorem stripSuffix_append (text suffix : Text) :
    stripSuffix suffix (text ++ suffix) = some text := by
  unfold stripSuffix
  rw [if_pos (List.suffix_append text suffix), List.length_append, Nat.add_sub_cancel,
    List.take_left]

theorem rsplitOnce_none {sep : Char} {text : Text} (h : sep ∉ text) :
    rsplitOnce sep text = none := by
  induction text with
  | nil => rfl
  | cons c text ih =>
    rw [List.mem_cons, not_or] at h
    rw [rsplitOnce, ih h.2]
    exact if_neg (Ne.symm h.1)

theorem rsplitOnce_append {sep : Char} {after : Text} (h : sep ∉ after) (before : Text) :
    rsplitOnce sep (before ++ sep :: after) = some (before, after) := by
  induction before with
  | nil =>
    rw [List.nil_append, rsplitOnce, rsplitOnce_none h]
    exact if_pos rfl
  | cons c before ih => rw [List.cons_append, rsplitOnce, ih]

theorem withoutCollision_of_not_mem {stem : Text} (h : '.' ∉ stem) :
    withoutCollision stem = some stem := by
  unfold withoutCollision
  rw [rsplitOnce_none h]

theorem collision_digits : ∀ n < 100, (encode (Nat.toDigits 10 n)).length ≤ 2 ∧
    (Nat.toDigits 10 n).all (·.isDigit) = true ∧ parseDigits (Nat.toDigits 10 n) = n := by
  decide

theorem withoutCollision_append (stem : Text) {n : ℕ} (hpos : n ≠ 0) (hn : n ≤ maxCollisionSuffix) :
    withoutCollision (stem ++ '.' :: Nat.toDigits 10 n) = some stem := by
  obtain ⟨hlen, hdigit, hvalue⟩ := collision_digits n (Nat.lt_succ_of_le hn)
  have hdot : '.' ∉ Nat.toDigits 10 n := by
    intro hmem
    exact absurd (List.all_eq_true.mp hdigit _ hmem) (by decide)
  have hne : Nat.toDigits 10 n ≠ [] := by
    intro hnil
    rw [hnil] at hvalue
    exact hpos hvalue.symm
  unfold withoutCollision
  rw [rsplitOnce_append hdot]
  dsimp only
  rw [if_pos ⟨hne, hlen, hdigit⟩, hvalue, if_neg hpos]

/-- The name tried after some collisions has the same stem and no separator of a path. -/
theorem collisionFilename_stem {stem : Text} (h : Kebab stem) {n : ℕ}
    (hn : n ≤ maxCollisionSuffix) :
    ∃ filename, collisionFilename (stem ++ extension) n = some filename ∧
      (stripSuffix extension filename).bind withoutCollision = some stem ∧
      '/' ∉ filename ∧ '\\' ∉ filename ∧ ':' ∉ filename ∧ 3 ≤ filename.length := by
  have hnot : ∀ c : Char, c ≠ '-' → isWordChar c = false → c ∉ stem := by
    intro c hdash hword hmem
    obtain h | h := h.mem c hmem
    · exact Bool.false_ne_true (hword.symm.trans h)
    · exact hdash h
  have hlong : ∀ text : Text, 3 ≤ (text ++ extension).length := by
    intro text
    rw [List.length_append]
    exact Nat.le_add_left _ _
  unfold collisionFilename
  rw [stripSuffix_append]
  by_cases hpos : n = 0
  · subst hpos
    refine ⟨stem ++ extension, rfl, ?_, ?_, ?_, ?_, hlong _⟩
    · rw [stripSuffix_append]
      exact withoutCollision_of_not_mem (hnot _ (by decide) (by decide))
    all_goals
      rw [List.mem_append, not_or]
      exact ⟨hnot _ (by decide) (by decide), by decide⟩
  · refine ⟨stem ++ '.' :: Nat.toDigits 10 n ++ extension, congrArg some (if_neg hpos), ?_, ?_, ?_,
      ?_, hlong _⟩
    · rw [stripSuffix_append]
      exact withoutCollision_append stem hpos hn
    all_goals
      obtain ⟨-, hdigit, -⟩ := collision_digits n (Nat.lt_succ_of_le hn)
      rw [List.mem_append, List.mem_append, List.mem_cons, not_or, not_or, not_or]
      refine ⟨⟨hnot _ (by decide) (by decide), by decide, fun hmem => ?_⟩, by decide⟩
      exact absurd (List.all_eq_true.mp hdigit _ hmem) (by decide)

/-- What was built is accepted after any number of collisions; as a notification of the root agent
when the sender is it, or begins with `root-to`. -/
theorem filename_law (ts : Timestamp) {fromName toName raw slug : Text} (hfrom : Named fromName)
    (hto : Named toName) (hslug : sanitizeSlug raw = .ok slug) {n : ℕ}
    (hn : n ≤ maxCollisionSuffix) :
    (∃ filename, collisionFilename
        (buildFilename ts (agentShortName fromName) (agentShortName toName) slug) n =
          some filename ∧
      validateFilenameOnly filename = .ok () ∧
      (validateRootNotificationFilename filename = .ok () ↔
        agentShortName fromName = rootAgentShortName ∨
          [rootAgentShortName, separator] <+: (agentShortName fromName).splitOn '-')) ∧
    sanitizeSlug slug = .ok slug ∧ ∀ s, sanitize (sanitize s) = sanitize s := by
  refine ⟨?_, sanitizeSlug_idempotent hslug, sanitize_idempotent⟩
  have hsender := agentShortName_kebab hfrom
  have hreceiver := agentShortName_kebab hto
  have hkebab := (sanitizeSlug_ok hslug).1
  have hparts := splitOn_buildStem ts (agentShortName fromName) (agentShortName toName) slug
  obtain ⟨filename, hname, hstem, hslash, hbackslash, hcolon, hlong⟩ :=
    collisionFilename_stem (buildStem_kebab ts hsender hreceiver hkebab) hn
  have hvalid : validateFilenameOnly filename = .ok () := by
    have hdots : ¬ (filename = ['.'] ∨ filename = ['.', '.']) := by
      rintro (rfl | rfl) <;> exact absurd hlong (by decide)
    have hpart : ∀ part ∈ (agentShortName fromName).splitOn '-' ++ separator ::
        ((agentShortName toName).splitOn '-' ++ slug.splitOn '-'), isPart part = true := by
      intro part hpart
      rw [List.mem_append, List.mem_cons, List.mem_append] at hpart
      obtain hpart | rfl | hpart | hpart := hpart
      · exact hsender.isPart_splitOn part hpart
      · decide
      · exact hreceiver.isPart_splitOn part hpart
      · exact hkebab.isPart_splitOn part hpart
    have htwo : 2 ≤ ((agentShortName toName).splitOn '-' ++ slug.splitOn '-').length := by
      have h1 := List.length_pos_of_ne_nil (List.splitOn_ne_nil '-' (agentShortName toName))
      have h2 := List.length_pos_of_ne_nil (List.splitOn_ne_nil '-' slug)
      rw [List.length_append]
      omega
    unfold validateFilenameOnly validateFilenameShape
    dsimp only
    rw [if_neg (by simp only [hslash, hbackslash, hcolon, hdots, or_self, not_false_eq_true]),
      hstem]
    dsimp only
    rw [hparts, validParts_of ts.date_digits ts.time_digits (List.splitOn_ne_nil _ _) htwo hpart]
    exact if_pos rfl
  refine ⟨filename, hname, hvalid, ?_⟩
  have hroot : agentShortName fromName = rootAgentShortName ↔
      (agentShortName fromName).splitOn '-' = [rootAgentShortName] := by
    constructor
    · intro h
      rw [h]
      exact List.splitOn_eq_singleton (by decide)
    · intro h
      have hjoin : ['-'].intercalate ((agentShortName fromName).splitOn '-') =
          agentShortName fromName := List.intercalate_splitOn '-'
      rw [h] at hjoin
      exact hjoin.symm.trans (List.append_nil _)
  unfold validateRootNotificationFilename
  rw [hvalid, hstem, hroot]
  change (if _ then Except.ok () else Except.error (MessagingError.invalidShape filename)) =
    Except.ok () ↔ _
  rw [hparts]
  obtain ⟨part, sender, hsplit⟩ :=
    List.exists_cons_of_ne_nil (List.splitOn_ne_nil '-' (agentShortName fromName))
  rw [hsplit]
  have hok : ∀ p : Prop, [Decidable p] → ((if p then Except.ok () else
      Except.error (MessagingError.invalidShape filename)) = Except.ok () ↔ p) := by
    intro p _
    split_ifs with hp
    · exact iff_of_true rfl hp
    · exact iff_of_false nofun hp
  rw [hok]
  cases sender with
  | nil => simp
  | cons next sender => simp [eq_comm]

/-! An agent called `to-do` in a project called `root`. -/

def reviewTime : Timestamp where
  year := 2026
  month := 5
  day := 24
  hour := 4
  minute := 0
  second := 0
  year_lt := by decide
  month_le := by decide
  day_le := by decide
  hour_lt := by decide
  minute_lt := by decide
  second_le := by decide

def todoAgent : Text := ['r', 'o', 'o', 't', '/', 't', 'o', '-', 'd', 'o']

def leadAgent : Text := ['w', 'g', '-', '1', '-', 'd', 'e', 'v', '/', 'l', 'e', 'a', 'd']

def smokeSlug : Text := ['s', 'm', 'o', 'k', 'e']

theorem filename_law_collision :
    ∃ filename, collisionFilename (buildFilename reviewTime (agentShortName todoAgent)
      (agentShortName leadAgent) smokeSlug) 1 = some filename ∧
        validateFilenameOnly filename = .ok () := by
  obtain ⟨filename, hname, hvalid, -⟩ := (@filename_law reviewTime todoAgent leadAgent smokeSlug
    smokeSlug (by decide) (by decide) (by decide) 1 (by decide)).1
  exact ⟨filename, hname, hvalid⟩

theorem root_not_only_sender :
    ¬ ∀ (ts : Timestamp) (fromName toName raw slug : Text), Named fromName → Named toName →
      sanitizeSlug raw = .ok slug →
        (validateRootNotificationFilename
            (buildFilename ts (agentShortName fromName) (agentShortName toName) slug) = .ok () ↔
          agentShortName fromName = rootAgentShortName) := by
  intro h
  have hiff := h reviewTime todoAgent leadAgent smokeSlug smokeSlug (by decide) (by decide)
    (by decide)
  exact absurd (hiff.mp (by decide)) (by decide)

end AgentsCommander.Messaging
