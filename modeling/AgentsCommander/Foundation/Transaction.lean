import AgentsCommander.Foundation.Machine

/-! Serializable transactions: what a refused one leaves behind, the fallible steps it is
made of, and passes that run one transaction for each candidate of a list. -/
namespace AgentsCommander.Foundation
universe u v

section
variable {ε : Type u} {α β : Type v}

/-- Go on when the condition holds. -/
def ensure (c : Bool) (e : ε) : Except ε Unit := if c then .ok () else .error e

@[simp] theorem ensure_eq_ok {c : Bool} {e : ε} {u : Unit} : ensure c e = .ok u ↔ c = true := by
  cases c <;> simp [ensure]

@[simp] theorem ensure_true (e : ε) : ensure true e = .ok () := rfl

@[simp] theorem ensure_false (e : ε) : ensure false e = .error e := rfl

/-- The value looked up, or the error. -/
def require (o : Option α) (e : ε) : Except ε α := o.elim (.error e) .ok

@[simp] theorem require_eq_ok {o : Option α} {e : ε} {a : α} :
    require o e = .ok a ↔ o = some a := by
  cases o <;> simp [require]

@[simp] theorem require_some (a : α) (e : ε) : require (some a) e = .ok a := rfl

@[simp] theorem require_none (e : ε) : require (none : Option α) e = .error e := rfl

theorem bind_eq_ok {x : Except ε α} {f : α → Except ε β} {b : β} :
    x >>= f = .ok b ↔ ∃ a, x = .ok a ∧ f a = .ok b := by
  cases x with
  | error e =>
    constructor
    · intro h
      cases h
    · intro h
      obtain ⟨a, ha, -⟩ := h
      cases ha
  | ok a =>
    constructor
    · intro h
      exact ⟨a, rfl, h⟩
    · intro h
      obtain ⟨c, hc, hf⟩ := h
      cases hc
      exact hf

@[simp] theorem ok_bind (a : α) (f : α → Except ε β) : (Except.ok a >>= f) = f a := rfl

@[simp] theorem error_bind (e : ε) (f : α → Except ε β) :
    ((Except.error e : Except ε α) >>= f) = .error e := rfl

end

section
variable {σ ε ω α : Type*}

/-- A transaction that fails is rolled back. -/
def atomically (s : σ) : Except ε (σ × ω) → σ × Except ε ω
  | .error e => (s, .error e)
  | .ok (s', r) => (s', .ok r)

theorem fst_atomically_of_inv {P : σ → Prop} {s : σ} {x : Except ε (σ × ω)} (hs : P s)
    (hx : ∀ s' r, x = .ok (s', r) → P s') : P (atomically s x).1 := by
  cases x with
  | error e => exact hs
  | ok p => exact hx p.1 p.2 rfl

theorem atomically_eq_ok {s s' : σ} {x : Except ε (σ × ω)} {r : ω}
    (h : (atomically s x).2 = .ok r) (hs : (atomically s x).1 = s') : x = .ok (s', r) := by
  cases x with
  | error e => cases h
  | ok p =>
    obtain ⟨t, q⟩ := p
    cases h
    cases hs
    rfl

/-- One transaction for each candidate that calls for one, up to the first that fails, and
how many counted. -/
def sweep {τ : Type*} (M : Machine σ τ (Except ε ω)) (choose : α → Option τ) (count : ω → ℕ) :
    σ → List α → σ × Except ε ℕ
  | s, [] => (s, .ok 0)
  | s, a :: l =>
    match choose a with
    | none => sweep M choose count s l
    | some t =>
      match M.answer s t with
      | .error e => (M.next s t, .error e)
      | .ok r =>
        let rest := sweep M choose count (M.next s t) l
        (rest.1, rest.2.map (count r + ·))

variable {τ : Type*} {M : Machine σ τ (Except ε ω)} {choose : α → Option τ} {count : ω → ℕ}

variable (choose count) in
/-- A sweep is a run of transactions its candidates called for. -/
theorem sweep_run (s : σ) (l : List α) :
    ∃ ts, (sweep M choose count s l).1 = M.run s ts ∧ ∀ t ∈ ts, ∃ a ∈ l, choose a = some t := by
  induction l generalizing s with
  | nil => exact ⟨[], rfl, fun t ht => nomatch ht⟩
  | cons a l ih =>
    have hlift : ∀ ts : List τ, (∀ t ∈ ts, ∃ b ∈ l, choose b = some t) →
        ∀ t ∈ ts, ∃ b ∈ a :: l, choose b = some t := by
      intro ts hts t ht
      obtain ⟨b, hb, hc⟩ := hts t ht
      exact ⟨b, List.mem_cons_of_mem a hb, hc⟩
    unfold sweep
    cases hc : choose a with
    | none =>
      obtain ⟨ts, hrun, hts⟩ := ih s
      exact ⟨ts, hrun, hlift ts hts⟩
    | some t =>
      dsimp only
      cases hr : M.answer s t with
      | error e =>
        refine ⟨[t], rfl, fun u hu => ?_⟩
        rw [List.mem_singleton.mp hu]
        exact ⟨a, List.mem_cons_self, hc⟩
      | ok r =>
        obtain ⟨ts, hrun, hts⟩ := ih (M.next s t)
        refine ⟨t :: ts, hrun, fun u hu => ?_⟩
        rcases List.mem_cons.mp hu with rfl | hu
        · exact ⟨a, List.mem_cons_self, hc⟩
        · exact hlift ts hts u hu

variable (choose count) in
/-- A sweep succeeds when every candidate, in its turn, does. `P` says what is left to do. -/
theorem sweep_ok {P : σ → List α → Prop}
    (hturn : ∀ s a l, P s (a :: l) →
      (choose a = none ∧ P s l) ∨
        ∃ t r, choose a = some t ∧ M.answer s t = .ok r ∧ P (M.next s t) l)
    {s : σ} {l : List α} (h : P s l) :
    ∃ n, (sweep M choose count s l).2 = .ok n ∧ P (sweep M choose count s l).1 [] := by
  induction l generalizing s with
  | nil => exact ⟨0, rfl, h⟩
  | cons a l ih =>
    unfold sweep
    rcases hturn s a l h with ⟨hc, hP⟩ | ⟨t, r, hc, hr, hP⟩
    · simp only [hc]
      exact ih hP
    · obtain ⟨n, hn, hend⟩ := ih hP
      simp only [hc, hr]
      exact ⟨count r + n, by rw [hn]; rfl, hend⟩

variable (choose count) in
/-- What every turn that goes through preserves holds after a sweep that has gone through. -/
theorem sweep_inv {P : σ → List α → Prop} (hskip : ∀ s a l, P s (a :: l) → choose a = none → P s l)
    (hturn : ∀ s a l t r, P s (a :: l) → choose a = some t → M.answer s t = .ok r →
      P (M.next s t) l) {s : σ} {l : List α} {n : ℕ} (h : P s l)
    (hok : (sweep M choose count s l).2 = .ok n) : P (sweep M choose count s l).1 [] := by
  induction l generalizing s n with
  | nil => exact h
  | cons a l ih =>
    unfold sweep at hok ⊢
    cases hc : choose a with
    | none =>
      rw [hc] at hok
      exact ih (hskip s a l h hc) hok
    | some t =>
      simp only [hc] at hok ⊢
      cases hr : M.answer s t with
      | error e =>
        rw [hr] at hok
        cases hok
      | ok r =>
        simp only [hr] at hok ⊢
        cases hrest : (sweep M choose count (M.next s t) l).2 with
        | error e =>
          rw [hrest] at hok
          cases hok
        | ok m => exact ih (hturn s a l t r h hc hr) hrest

end
end AgentsCommander.Foundation
