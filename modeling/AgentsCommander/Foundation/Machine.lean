import Mathlib.Algebra.BigOperators.Group.List.Basic
import Mathlib.Algebra.Order.Ring.Int
import Mathlib.Data.List.Infix

/-! Deterministic machines that answer every event, and the induction rules for
their runs. -/
namespace AgentsCommander.Foundation

/-- A total step function: the next state, and the answer given to the event. -/
structure Machine (σ ε ω : Type*) where
  step : σ → ε → σ × ω

namespace Machine
variable {σ ε ω : Type*} (M : Machine σ ε ω)

def next (s : σ) (e : ε) : σ := (M.step s e).1

def answer (s : σ) (e : ε) : ω := (M.step s e).2

/-- The state after all of the events. -/
def run : σ → List ε → σ
  | s, [] => s
  | s, e :: es => run (M.next s e) es

/-- The answers given on the way, in order. -/
def answers : σ → List ε → List ω
  | _, [] => []
  | s, e :: es => M.answer s e :: answers (M.next s e) es

/-- The guard holds at every step, in the state the step is taken from. -/
def Along (ok : σ → ε → Prop) : σ → List ε → Prop
  | _, [] => True
  | s, e :: es => ok s e ∧ Along ok (M.next s e) es

instance decidableAlong (ok : σ → ε → Prop) [∀ s e, Decidable (ok s e)] :
    ∀ s es, Decidable (Along M ok s es)
  | _, [] => isTrue trivial
  | s, e :: es =>
    have := decidableAlong ok (M.next s e) es
    inferInstanceAs (Decidable (ok s e ∧ Along M ok (M.next s e) es))

/-- How many steps do what the predicate says. -/
def tally (p : σ → ε → Bool) : σ → List ε → ℕ
  | _, [] => 0
  | s, e :: es => (p s e).toNat + tally p (M.next s e) es

/-- The predicate holds in every state visited, the first and the last included. -/
def Always (P : σ → Prop) : σ → List ε → Prop
  | s, [] => P s
  | s, e :: es => P s ∧ Always P (M.next s e) es

variable {M}

@[simp] theorem run_nil (s : σ) : M.run s [] = s := rfl

@[simp] theorem run_cons (s : σ) (e : ε) (es : List ε) :
    M.run s (e :: es) = M.run (M.next s e) es := rfl

theorem run_append (s : σ) (es fs : List ε) : M.run s (es ++ fs) = M.run (M.run s es) fs := by
  induction es generalizing s with
  | nil => rfl
  | cons e es ih => exact ih (M.next s e)

theorem answers_append (s : σ) (es fs : List ε) :
    M.answers s (es ++ fs) = M.answers s es ++ M.answers (M.run s es) fs := by
  induction es generalizing s with
  | nil => rfl
  | cons e es ih => exact congrArg (M.answer s e :: ·) (ih (M.next s e))

theorem run_concat (s : σ) (es : List ε) (e : ε) :
    M.run s (es ++ [e]) = M.next (M.run s es) e := run_append s es [e]

theorem answers_concat (s : σ) (es : List ε) (e : ε) :
    M.answers s (es ++ [e]) = M.answers s es ++ [M.answer (M.run s es) e] := answers_append s es [e]

theorem tally_concat (p : σ → ε → Bool) (s : σ) (es : List ε) (e : ε) :
    M.tally p s (es ++ [e]) = M.tally p s es + (p (M.run s es) e).toNat := by
  induction es generalizing s with
  | nil => exact (Nat.zero_add _).symm
  | cons f es ih =>
    rw [List.cons_append, tally, tally, ih, run_cons, Nat.add_assoc]

theorem along_append (ok : σ → ε → Prop) (s : σ) (es fs : List ε) :
    M.Along ok s (es ++ fs) ↔ M.Along ok s es ∧ M.Along ok (M.run s es) fs := by
  induction es generalizing s with
  | nil => simp [Along]
  | cons e es ih => simp only [List.cons_append, Along, run_cons, ih, and_assoc]

theorem along_true (s : σ) (es : List ε) : M.Along (fun _ _ => True) s es := by
  induction es generalizing s with
  | nil => trivial
  | cons e es ih => exact ⟨trivial, ih _⟩

theorem along_of_forall {ok : σ → ε → Prop} {es : List ε} (h : ∀ e ∈ es, ∀ s, ok s e) (s : σ) :
    M.Along ok s es := by
  induction es generalizing s with
  | nil => trivial
  | cons e es ih =>
    exact ⟨h e List.mem_cons_self s, ih (fun f hf => h f (List.mem_cons_of_mem e hf)) _⟩

theorem Always.head {P : σ → Prop} {s : σ} {es : List ε} (h : M.Always P s es) : P s := by
  cases es with
  | nil => exact h
  | cons e es => exact h.1

theorem always_iff (P : σ → Prop) (s : σ) (es : List ε) :
    M.Always P s es ↔ ∀ pre, pre <+: es → P (M.run s pre) := by
  induction es generalizing s with
  | nil =>
    simp only [Always, List.prefix_nil]
    exact ⟨fun h pre hp => by subst hp; exact h, fun h => h [] rfl⟩
  | cons e es ih =>
    simp only [Always, ih]
    constructor
    · rintro ⟨hs, hr⟩ pre hp
      cases pre with
      | nil => exact hs
      | cons f pre =>
        obtain ⟨rfl, hpre⟩ := List.cons_prefix_cons.mp hp
        exact hr pre hpre
    · intro h
      exact ⟨h [] List.nil_prefix, fun pre hp => h (e :: pre) (List.cons_prefix_cons.mpr ⟨rfl, hp⟩)⟩

/-- What every guarded step preserves holds in the last state. -/
theorem run_inv {P : σ → Prop} {ok : σ → ε → Prop}
    (hstep : ∀ s e, P s → ok s e → P (M.next s e))
    {s : σ} {es : List ε} (hs : P s) (h : M.Along ok s es) : P (M.run s es) := by
  induction es generalizing s with
  | nil => exact hs
  | cons e es ih => exact ih (hstep s e hs h.1) h.2

theorem run_inv_free {P : σ → Prop} (hstep : ∀ s e, P s → P (M.next s e))
    {s : σ} (hs : P s) (es : List ε) : P (M.run s es) :=
  run_inv (fun s e h _ => hstep s e h) hs (along_true s es)

theorem always_of_along {P : σ → Prop} {ok : σ → ε → Prop}
    (hstep : ∀ s e, P s → ok s e → P (M.next s e))
    {s : σ} {es : List ε} (hs : P s) (h : M.Along ok s es) : M.Always P s es := by
  induction es generalizing s with
  | nil => exact hs
  | cons e es ih => exact ⟨hs, ih (hstep s e hs h.1) h.2⟩

/-- When the guard is the weakest precondition of `P`, a run keeps `P`
throughout exactly when all its steps meet the guard. -/
theorem always_iff_along {P Q : σ → Prop} {ok : σ → ε → Prop}
    (hQ : ∀ s e, Q s → Q (M.next s e))
    (hwp : ∀ s e, Q s → P s → (P (M.next s e) ↔ ok s e))
    {s : σ} (es : List ε) (hq : Q s) (hs : P s) : M.Always P s es ↔ M.Along ok s es := by
  induction es generalizing s with
  | nil => exact ⟨fun _ => trivial, fun _ => hs⟩
  | cons e es ih =>
    constructor
    · intro h
      exact ⟨(hwp s e hq hs).mp h.2.head,
        (ih (hQ s e hq) h.2.head).mp h.2⟩
    · intro h
      have hn := (hwp s e hq hs).mpr h.1
      exact ⟨hs, (ih (hQ s e hq) hn).mpr h.2⟩

/-- When the guard is the weakest precondition of a good answer, all answers of a run are good
exactly when all its steps meet the guard. -/
theorem forall_answers_iff_along {Q : σ → Prop} {A : ω → Prop} {ok : σ → ε → Prop}
    (hQ : ∀ s e, Q s → Q (M.next s e)) (hwp : ∀ s e, Q s → (A (M.answer s e) ↔ ok s e))
    {s : σ} (es : List ε) (hq : Q s) : (∀ a ∈ M.answers s es, A a) ↔ M.Along ok s es := by
  induction es generalizing s with
  | nil => exact ⟨fun _ => trivial, fun _ a ha => nomatch ha⟩
  | cons e es ih =>
    rw [answers, List.forall_mem_cons, hwp s e hq, ih (hQ s e hq)]
    rfl

/-- The guard may be strengthened by anything the guarded steps preserve. -/
theorem Along.and_inv {P : σ → Prop} {ok : σ → ε → Prop}
    (hstep : ∀ s e, P s → ok s e → P (M.next s e))
    {s : σ} {es : List ε} (hs : P s) (h : M.Along ok s es) :
    M.Along (fun s e => P s ∧ ok s e) s es := by
  induction es generalizing s with
  | nil => trivial
  | cons e es ih => exact ⟨⟨hs, h.1⟩, ih (hstep s e hs h.1) h.2⟩

theorem Along.mono {ok ok' : σ → ε → Prop} (himp : ∀ s e, ok s e → ok' s e)
    {s : σ} {es : List ε} (h : M.Along ok s es) : M.Along ok' s es := by
  induction es generalizing s with
  | nil => trivial
  | cons e es ih => exact ⟨himp s e h.1, ih h.2⟩

private theorem total_eq_zero {Spent : σ → Prop} {ok : σ → ε → Prop} {w : ω → ℕ}
    (hkeep : ∀ s e, ok s e → Spent s → w (M.answer s e) = 0 ∧ Spent (M.next s e))
    {s : σ} {es : List ε} (h : M.Along ok s es) (hs : Spent s) :
    ((M.answers s es).map w).sum = 0 := by
  induction es generalizing s with
  | nil => rfl
  | cons e es ih =>
    obtain ⟨hw, hn⟩ := hkeep s e h.1 hs
    simp only [answers, List.map_cons, List.sum_cons, hw, ih h.2 hn]

/-- Something is granted at most once when granting it spends the right to it,
and a spent right stays spent. -/
theorem total_le_one (Spent : σ → Prop) (w : ω → ℕ) {ok : σ → ε → Prop}
    (hfire : ∀ s e, ok s e → w (M.answer s e) ≤ 1 ∧ (0 < w (M.answer s e) → Spent (M.next s e)))
    (hkeep : ∀ s e, ok s e → Spent s → w (M.answer s e) = 0 ∧ Spent (M.next s e))
    {s : σ} {es : List ε} (h : M.Along ok s es) : ((M.answers s es).map w).sum ≤ 1 := by
  induction es generalizing s with
  | nil => exact Nat.zero_le 1
  | cons e es ih =>
    obtain ⟨hle, hspent⟩ := hfire s e h.1
    simp only [answers, List.map_cons, List.sum_cons]
    rcases Nat.eq_zero_or_pos (w (M.answer s e)) with hz | hp
    · rw [hz, zero_add]
      exact ih h.2
    · rw [total_eq_zero hkeep h.2 (hspent hp), add_zero]
      exact hle

/-- The machine with a record of the run kept beside its state. -/
def trace {γ : Type*} (M : Machine σ ε ω) (record : γ → σ → ε → ω → γ) : Machine (σ × γ) ε ω where
  step s e := ((M.next s.1 e, record s.2 s.1 e (M.answer s.1 e)), M.answer s.1 e)

theorem fst_run_trace {γ : Type*} (record : γ → σ → ε → ω → γ) (s : σ × γ) (es : List ε) :
    ((M.trace record).run s es).1 = M.run s.1 es := by
  induction es generalizing s with
  | nil => rfl
  | cons e es ih => exact ih _

theorem answers_trace {γ : Type*} (record : γ → σ → ε → ω → γ) (s : σ × γ) (es : List ε) :
    (M.trace record).answers s es = M.answers s.1 es := by
  induction es generalizing s with
  | nil => rfl
  | cons e es ih => exact congrArg (M.answer s.1 e :: ·) (ih _)

end Machine
end AgentsCommander.Foundation
