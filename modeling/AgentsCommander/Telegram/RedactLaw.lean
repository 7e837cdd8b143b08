import AgentsCommander.Telegram.Redact

/-! Exactly the secrets are masked: what is given back holds none, and where none was nothing
changes. -/
namespace AgentsCommander.Telegram
open Transcript

theorem head?_of_afterBot {text rest : Text} (h : afterBot text = some rest) :
    text.head? = some '/' := by
  obtain ⟨secret, rfl, hsecret⟩ := botToken_of_afterBot h
  obtain ⟨more, rfl⟩ := hsecret.slashBot
  rfl

theorem head?_of_afterKey {text rest : Text} (h : afterKey text = some rest) :
    text.head? = some '?' ∨ text.head? = some '&' := by
  unfold afterKey at h
  split_ifs at h with hkey
  exact hkey.1

/-- The character starts no secret. -/
def Plain (c : Char) : Prop := c ≠ '/' ∧ c ≠ '?' ∧ c ≠ '&'

instance : DecidablePred Plain := fun _ => inferInstanceAs (Decidable (_ ∧ _ ∧ _))

theorem all_plain {a : Text} (h : (a.all fun c => decide (Plain c)) = true) : ∀ c ∈ a, Plain c :=
  fun c hc => of_decide_eq_true (List.all_eq_true.mp h c hc)

theorem afterBot_plain {c : Char} (hc : Plain c) (text : Text) : afterBot (c :: text) = none := by
  rw [Option.eq_none_iff_forall_ne_some]
  exact fun rest h => hc.1 (Option.some.inj (head?_of_afterBot h))

theorem afterKey_plain {c : Char} (hc : Plain c) (text : Text) : afterKey (c :: text) = none := by
  rw [Option.eq_none_iff_forall_ne_some]
  intro rest h
  obtain h | h := head?_of_afterKey h
  · exact hc.2.1 (Option.some.inj h)
  · exact hc.2.2 (Option.some.inj h)

theorem masked_nil : masked [] = [] := by rw [masked]

theorem masked_append_plain {a : Text} (ha : ∀ c ∈ a, Plain c) (text : Text) :
    masked (a ++ text) = a ++ masked text := by
  induction a with
  | nil => rfl
  | cons c a ih =>
    have hc := ha c List.mem_cons_self
    rw [List.cons_append, masked_char (afterBot_plain hc _) (afterKey_plain hc _),
      ih fun d hd => ha d (List.mem_cons_of_mem c hd), List.cons_append]

theorem head?_masked (text : Text) : (masked text).head? = text.head? := by
  cases text with
  | nil => rw [masked_nil]
  | cons c text =>
    cases hbot : afterBot (c :: text) with
    | some rest =>
      rw [masked_bot hbot, head?_of_afterBot hbot]
      rfl
    | none =>
      cases hkey : afterKey (c :: text) with
      | some rest =>
        rw [masked_key hbot hkey]
        rfl
      | none =>
        rw [masked_char hbot hkey]
        rfl

theorem takeWhile_eq_of_split {p : Char → Bool} {a b : Text} (ha : ∀ c ∈ a, p c = true)
    (hb : ∀ c, b.head? = some c → p c = false) :
    (a ++ b).takeWhile p = a ∧ (a ++ b).dropWhile p = b := by
  rw [List.takeWhile_append_of_pos ha, List.dropWhile_append_of_pos ha]
  cases b with
  | nil => exact ⟨List.append_nil a, rfl⟩
  | cons c b =>
    have hc : ¬ p c = true := (Bool.not_eq_true _).mpr (hb c rfl)
    rw [List.takeWhile_cons_of_neg hc, List.dropWhile_cons_of_neg hc]
    exact ⟨List.append_nil a, rfl⟩

theorem head?_dropWhile_false {p : Char → Bool} {text : Text} {c : Char}
    (h : (text.dropWhile p).head? = some c) : p c = false := by
  have hfalse := List.head?_dropWhile_not p text
  rw [h] at hfalse
  exact hfalse

/-- A run of plain characters stays, and what follows it is masked. -/
theorem masked_run {p : Char → Bool} (hp : ∀ c, p c = true → Plain c) (text : Text) :
    (masked text).takeWhile p = text.takeWhile p ∧
      (masked text).dropWhile p = masked (text.dropWhile p) := by
  have hsplit : masked text = text.takeWhile p ++ masked (text.dropWhile p) := by
    rw [← masked_append_plain fun c hc => hp c (List.mem_takeWhile_imp hc),
      List.takeWhile_append_dropWhile]
  rw [hsplit]
  refine takeWhile_eq_of_split (fun c hc => List.mem_takeWhile_imp hc) fun c hc => ?_
  rw [head?_masked] at hc
  exact head?_dropWhile_false hc

theorem prefix_masked_iff {literal : Text} (hl : ∀ c ∈ literal, Plain c) (text : Text) :
    literal <+: masked text ↔ literal <+: text := by
  induction literal generalizing text with
  | nil => simp
  | cons c literal ih =>
    have hc := hl c List.mem_cons_self
    have htail := ih fun d hd => hl d (List.mem_cons_of_mem c hd)
    have hhead := head?_masked text
    cases text with
    | nil => rw [masked_nil]
    | cons d text =>
      by_cases heq : c = d
      · subst heq
        rw [masked_char (afterBot_plain hc _) (afterKey_plain hc _), List.cons_prefix_cons,
          List.cons_prefix_cons, htail]
      · constructor
        · rintro ⟨more, hmore⟩
          rw [← hmore] at hhead
          exact absurd (Option.some.inj hhead) heq
        · intro hsub
          exact absurd (List.cons_prefix_cons.mp hsub).1 heq

theorem isDigit_plain (c : Char) (h : isDigit c = true) : Plain c := by
  refine ⟨?_, ?_, ?_⟩ <;> rintro rfl <;> revert h <;> decide

theorem isToken_plain (c : Char) (h : isToken c = true) : Plain c := by
  refine ⟨?_, ?_, ?_⟩ <;> rintro rfl <;> revert h <;> decide

theorem afterBot_slashBot (t : Text) :
    afterBot (slashBot ++ t) =
      if t.takeWhile isDigit ≠ [] ∧ (t.dropWhile isDigit).head? = some ':' ∧
          10 ≤ (((t.dropWhile isDigit).drop 1).takeWhile isToken).length then
        some (((t.dropWhile isDigit).drop 1).dropWhile isToken)
      else none := by
  unfold afterBot
  simp only [List.prefix_append, true_and]
  rfl

theorem afterKey_keyEquals (c : Char) (t : Text) :
    afterKey (c :: (keyEquals ++ t)) =
      if (c = '?' ∨ c = '&') ∧ t.takeWhile isToken ≠ [] then some (t.dropWhile isToken)
      else none := by
  unfold afterKey
  simp only [List.drop_one, List.tail_cons, List.prefix_append, true_and, List.head?_cons,
    Option.some_inj]
  rfl

/-- Masking what stands behind a character leaves whether a secret starts there. -/
theorem afterBot_masked (c : Char) (text : Text) :
    afterBot (c :: masked text) = (afterBot (c :: text)).map masked := by
  have hslash : slashBot <+: c :: masked text ↔ slashBot <+: c :: text := by
    change '/' :: ['b', 'o', 't'] <+: _ ↔ '/' :: ['b', 'o', 't'] <+: _
    rw [List.cons_prefix_cons, List.cons_prefix_cons, prefix_masked_iff (all_plain (by decide))]
  by_cases hstarts : slashBot <+: c :: text
  · obtain ⟨t, ht⟩ := hstarts
    obtain ⟨rfl, rfl⟩ := List.cons.inj ht
    change afterBot ('/' :: masked (['b', 'o', 't'] ++ t)) = (afterBot (slashBot ++ t)).map masked
    rw [masked_append_plain (all_plain (by decide))]
    change afterBot (slashBot ++ masked t) = _
    obtain ⟨hdigits, htail⟩ := masked_run isDigit_plain t
    rw [afterBot_slashBot, afterBot_slashBot, hdigits, htail, head?_masked]
    by_cases hcolon : (t.dropWhile isDigit).head? = some ':'
    · obtain ⟨tail, htail⟩ := List.head?_eq_some_iff.mp hcolon
      have hcons : masked (':' :: tail) = ':' :: masked tail :=
        masked_append_plain (a := [':']) (all_plain (by decide)) tail
      obtain ⟨htoken, hrest⟩ := masked_run isToken_plain tail
      rw [htail, hcons]
      simp only [List.drop_one, List.tail_cons]
      rw [htoken, hrest]
      split_ifs
      · rfl
      · rfl
    · rw [if_neg fun hand => hcolon hand.2.1, if_neg fun hand => hcolon hand.2.1]
      rfl
  · unfold afterBot
    dsimp only
    rw [if_neg fun hand => hstarts (hslash.mp hand.1), if_neg fun hand => hstarts hand.1]
    rfl

theorem afterKey_masked (c : Char) (text : Text) :
    afterKey (c :: masked text) = (afterKey (c :: text)).map masked := by
  have hplain := @prefix_masked_iff keyEquals (all_plain (by decide)) text
  by_cases hstarts : keyEquals <+: text
  · obtain ⟨t, rfl⟩ := hstarts
    obtain ⟨htoken, hrest⟩ := masked_run isToken_plain t
    rw [masked_append_plain (all_plain (by decide)), afterKey_keyEquals, afterKey_keyEquals,
      htoken, hrest]
    split_ifs
    · rfl
    · rfl
  · unfold afterKey
    rw [if_neg fun hand => hstarts (hplain.mp hand.2.1), if_neg fun hand => hstarts hand.2.1]
    rfl

/-! Secrets, from the head of the text on. -/

theorem afterBot_isSome {secret text : Text} (h : BotToken secret) (hp : secret <+: text) :
    (afterBot text).isSome = true := by
  obtain ⟨digits, token, hdigits, hdigit, hlong, htoken⟩ := h
  obtain ⟨more, rfl⟩ := hp
  have hdrop : (slashBot ++ digits ++ ':' :: token ++ more).drop 4 =
      digits ++ ':' :: (token ++ more) := by
    rw [List.append_assoc, List.append_assoc, List.cons_append]
    rfl
  have hcolon : ∀ c, (':' :: (token ++ more)).head? = some c → isDigit c = false := by
    intro c hc
    obtain rfl := Option.some.inj hc
    decide
  obtain ⟨htake, hrest⟩ := takeWhile_eq_of_split hdigit hcolon
  unfold afterBot
  dsimp only
  rw [hdrop, htake, hrest]
  refine Option.isSome_iff_exists.mpr ⟨_, if_pos ⟨?_, hdigits, rfl, ?_⟩⟩
  · rw [List.append_assoc, List.append_assoc]
    exact List.prefix_append _ _
  · rw [List.drop_one, List.tail_cons, List.takeWhile_append_of_pos htoken, List.length_append]
    exact hlong.trans (Nat.le_add_right _ _)

theorem afterKey_isSome {secret text : Text} (h : QueryKey secret) (hp : secret <+: text) :
    (afterKey text).isSome = true := by
  obtain ⟨c, value, hc, hvalue, htoken⟩ := h
  obtain ⟨more, rfl⟩ := hp
  have hdrop : (c :: keyEquals ++ value ++ more).drop 5 = value ++ more := by
    rw [List.append_assoc]
    rfl
  unfold afterKey
  rw [hdrop]
  refine Option.isSome_iff_exists.mpr ⟨_, if_pos ⟨?_, ?_, ?_⟩⟩
  · exact hc.imp (congrArg some) (congrArg some)
  · rw [List.append_assoc]
    exact List.prefix_append keyEquals (value ++ more)
  · rw [List.takeWhile_append_of_pos htoken]
    exact fun hnil => hvalue (List.append_eq_nil_iff.mp hnil).1

theorem not_leaks_nil : ¬ Leaks [] := by
  rintro ⟨secret, hsub, hsecret⟩
  obtain rfl := List.infix_nil.mp hsub
  obtain hsecret | hsecret := hsecret <;> cases hsecret

/-- A secret starts here, or further on. -/
theorem leaks_cons_iff (c : Char) (text : Text) :
    Leaks (c :: text) ↔ afterBot (c :: text) ≠ none ∨ afterKey (c :: text) ≠ none ∨ Leaks text := by
  constructor
  · rintro ⟨secret, hsub, hsecret⟩
    obtain hstarts | hsub := List.infix_cons_iff.mp hsub
    · obtain hsecret | hsecret := hsecret
      · exact Or.inl (Option.isSome_iff_ne_none.mp (afterBot_isSome hsecret hstarts))
      · exact Or.inr (Or.inl (Option.isSome_iff_ne_none.mp (afterKey_isSome hsecret hstarts)))
    · exact Or.inr (Or.inr ⟨secret, hsub, hsecret⟩)
  · rintro (hbot | hkey | ⟨secret, hsub, hsecret⟩)
    · obtain ⟨rest, h⟩ := Option.ne_none_iff_exists'.mp hbot
      obtain ⟨secret, heq, hsecret⟩ := botToken_of_afterBot h
      exact ⟨secret, ⟨[], rest, heq.symm⟩, Or.inl hsecret⟩
    · obtain ⟨rest, h⟩ := Option.ne_none_iff_exists'.mp hkey
      obtain ⟨d, secret, heq, hsecret⟩ := queryKey_of_afterKey h
      exact ⟨d :: secret, ⟨[], rest, heq.symm⟩, Or.inr hsecret⟩
    · exact ⟨secret, List.infix_cons hsub, hsecret⟩

theorem leaks_append_plain {a : Text} (ha : ∀ c ∈ a, Plain c) (text : Text) :
    Leaks (a ++ text) ↔ Leaks text := by
  induction a with
  | nil => rfl
  | cons c a ih =>
    have hc := ha c List.mem_cons_self
    rw [List.cons_append, leaks_cons_iff, afterBot_plain hc, afterKey_plain hc,
      ih fun d hd => ha d (List.mem_cons_of_mem c hd)]
    simp

theorem not_leaks_masked (text : Text) : ¬ Leaks (masked text) := by
  induction hn : text.length using Nat.strong_induction_on generalizing text with
  | _ n ih =>
    subst hn
    cases text with
    | nil =>
      rw [masked_nil]
      exact not_leaks_nil
    | cons c text =>
      cases hbot : afterBot (c :: text) with
      | some rest =>
        have hrest := ih _ (length_afterBot hbot) rest rfl
        have hnone : afterBot ('/' :: (['b', 'o', 't', '*', '*', '*'] ++ masked rest)) = none := rfl
        have hnone' : afterKey ('/' :: (['b', 'o', 't', '*', '*', '*'] ++ masked rest)) = none :=
          rfl
        rw [masked_bot hbot]
        change ¬ Leaks ('/' :: (['b', 'o', 't', '*', '*', '*'] ++ masked rest))
        rw [leaks_cons_iff, leaks_append_plain (all_plain (by decide)), hnone, hnone']
        simpa using hrest
      | none =>
        cases hkey : afterKey (c :: text) with
        | some rest =>
          have hrest := ih _ (length_afterKey hkey) rest rfl
          have hhead := head?_of_afterKey hkey
          have hbot' : afterBot (c :: (keyEquals ++ (mask ++ masked rest))) = none := by
            rw [Option.eq_none_iff_forall_ne_some]
            intro rest' h
            obtain rfl := Option.some.inj (head?_of_afterBot h)
            exact absurd hhead (by simp)
          rw [masked_key hbot hkey, List.cons_append, List.cons_append, List.append_assoc,
            leaks_cons_iff, hbot', afterKey_keyEquals, leaks_append_plain (all_plain (by decide)),
            leaks_append_plain (all_plain (by decide)), if_neg fun hand => hand.2 rfl]
          simpa using hrest
        | none =>
          rw [masked_char hbot hkey, leaks_cons_iff, afterBot_masked, afterKey_masked, hbot, hkey]
          simpa using ih _ (Nat.lt_succ_self _) text rfl

/-- Without a secret nothing changes. -/
theorem masked_of_not_leaks {text : Text} (h : ¬ Leaks text) : masked text = text := by
  induction text with
  | nil => exact masked_nil
  | cons c text ih =>
    rw [leaks_cons_iff, not_or, not_or, not_not, not_not] at h
    rw [masked_char h.1 h.2.1, ih h.2.2]

theorem redact_law (input : Text) :
    redact input = some (masked input) ∧ ¬ Leaks (masked input) ∧
      redact (masked input) = some (masked input) ∧ (redact input = some input ↔ ¬ Leaks input) := by
  have hclean := not_leaks_masked input
  refine ⟨redact_eq input, hclean, ?_, ?_⟩
  · rw [redact_eq, masked_of_not_leaks hclean]
  · rw [redact_eq, Option.some_inj]
    exact ⟨fun hsame => hsame ▸ hclean, masked_of_not_leaks⟩

end AgentsCommander.Telegram
