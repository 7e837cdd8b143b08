import AgentsCommander.Foundation.Program

/-! Programs against a device whose actions may fail, or end the process. Triples that say what
holds after a program and wherever it stops. -/
namespace AgentsCommander.Foundation

/-- A state that actions read and change, as the environment chooses. -/
structure Device (I : Interface) where
  State : Type
  Choice : Type
  act : (o : I.Act) → Choice → State → I.Res o × State

namespace Device
variable {I : Interface} (D : Device I) {α β ε : Type}

/-- Run with these choices. Where they end, the process ends. -/
def exec : Program I α → List D.Choice → D.State → Option α × D.State
  | .done a, _, s => (some a, s)
  | .act _ _, [], s => (none, s)
  | .act o k, x :: xs, s => exec (k (D.act o x s).1) xs (D.act o x s).2

/-- With choices of this kind, the program ends in the postcondition, and where it stops before
that the first condition holds. -/
def Safe (G : D.Choice → Prop) (J : D.State → Prop) (Q : α → D.State → Prop) :
    Program I α → D.State → Prop
  | .done a, s => Q a s
  | .act o k, s => J s ∧ ∀ x, G x → Safe G J Q (k (D.act o x s).1) (D.act o x s).2

variable {D} {G : D.Choice → Prop} {J : D.State → Prop}

/-- What holds after a run that may have stopped. -/
def After (J : D.State → Prop) (Q : α → D.State → Prop) : Option α × D.State → Prop
  | (some a, s) => Q a s
  | (none, s) => J s

theorem Safe.exec {Q : α → D.State → Prop} {p : Program I α} {s : D.State}
    (h : D.Safe G J Q p s) {xs : List D.Choice} (hxs : ∀ x ∈ xs, G x) :
    After J Q (D.exec p xs s) := by
  induction p generalizing xs s with
  | done a => exact h
  | act o k ih =>
    cases xs with
    | nil => exact h.1
    | cons x xs =>
      exact ih (D.act o x s).1 (h.2 x (hxs x List.mem_cons_self))
        fun y hy => hxs y (List.mem_cons_of_mem x hy)

theorem Safe.mono {Q R : α → D.State → Prop} (hQ : ∀ a s, Q a s → R a s) {p : Program I α}
    {s : D.State} (h : D.Safe G J Q p s) : D.Safe G J R p s := by
  induction p generalizing s with
  | done a => exact hQ a s h
  | act o k ih => exact ⟨h.1, fun x hx => ih _ (h.2 x hx)⟩

theorem Safe.weaken {K : D.State → Prop} {Q : α → D.State → Prop} (hJ : ∀ s, J s → K s)
    {p : Program I α} {s : D.State} (h : D.Safe G J Q p s) : D.Safe G K Q p s := by
  induction p generalizing s with
  | done a => exact h
  | act o k ih => exact ⟨hJ s h.1, fun x hx => ih _ (h.2 x hx)⟩

theorem Safe.bind {Q : α → D.State → Prop} {R : β → D.State → Prop} {p : Program I α}
    {f : α → Program I β} {s : D.State} (h : D.Safe G J Q p s)
    (hf : ∀ a s, Q a s → D.Safe G J R (f a) s) : D.Safe G J R (p >>= f) s := by
  induction p generalizing s with
  | done a => exact hf a s h
  | act o k ih => exact ⟨h.1, fun x hx => ih _ (h.2 x hx)⟩

/-- With one choice made over and over the program comes to its end. -/
theorem exec_ends (x : D.Choice) (p : Program I α) (s : D.State) :
    ∃ n, ∀ m, n ≤ m → ∃ a, (D.exec p (List.replicate m x) s).1 = some a := by
  induction p generalizing s with
  | done a => exact ⟨0, fun m _ => ⟨a, by rw [Device.exec]⟩⟩
  | act o k ih =>
    obtain ⟨n, hn⟩ := ih (D.act o x s).1 (D.act o x s).2
    refine ⟨n + 1, fun m hm => ?_⟩
    obtain ⟨m, rfl⟩ : ∃ m', m = m' + 1 := ⟨m - 1, by omega⟩
    rw [List.replicate_succ, Device.exec]
    exact hn m (Nat.le_of_succ_le_succ hm)

/-- What holds at the end, by whether the program threw. -/
def Ends (R : α → D.State → Prop) (E : ε → D.State → Prop) : Except ε α → D.State → Prop
  | .ok a, s => R a s
  | .error e, s => E e s

/-- From the precondition the program is safe, and ends in one of the two postconditions. -/
def Triple (G : D.Choice → Prop) (J P : D.State → Prop) (p : ExceptT ε (Program I) α)
    (R : α → D.State → Prop) (E : ε → D.State → Prop) : Prop :=
  ∀ s, P s → D.Safe G J (Ends R E) p.run s

variable {P P' : D.State → Prop} {R R' : α → D.State → Prop} {E E' : ε → D.State → Prop}

theorem Triple.pure {a : α} (h : ∀ s, P s → R a s) :
    Triple G J P (pure a : ExceptT ε (Program I) α) R E := h

theorem Triple.throw {e : ε} (h : ∀ s, P s → E e s) :
    Triple G J P (throw e : ExceptT ε (Program I) α) R E := h

theorem Triple.bind {S : β → D.State → Prop} {p : ExceptT ε (Program I) α}
    {f : α → ExceptT ε (Program I) β} (hp : Triple G J P p R E)
    (hf : ∀ a, Triple G J (R a) (f a) S E) : Triple G J P (p >>= f) S E := by
  intro s hs
  refine Safe.bind (hp s hs) fun r s' hr => ?_
  cases r with
  | ok a => exact hf a s' hr
  | error e => exact hr

theorem Triple.conseq {p : ExceptT ε (Program I) α} (hp : Triple G J P p R E)
    (hP : ∀ s, P' s → P s) (hR : ∀ a s, R a s → R' a s) (hE : ∀ e s, E e s → E' e s) :
    Triple G J P' p R' E' := by
  intro s hs
  refine (hp s (hP s hs)).mono fun r s' hr => ?_
  cases r with
  | ok a => exact hR a s' hr
  | error e => exact hE e s' hr

theorem Triple.errors {p : ExceptT ε (Program I) α} (hp : Triple G J P p R E)
    (hE : ∀ e s, E e s → E' e s) : Triple G J P p R E' :=
  hp.conseq (fun _ hs => hs) (fun _ _ hs => hs) hE

theorem Triple.pre {p : ExceptT ε (Program I) α} (hp : Triple G J P p R E)
    (hP : ∀ s, P' s → P s) : Triple G J P' p R E :=
  hp.conseq hP (fun _ _ hs => hs) fun _ _ hs => hs

theorem Triple.post {p : ExceptT ε (Program I) α} (hp : Triple G J P p R E)
    (hR : ∀ a s, R a s → R' a s) (hE : ∀ e s, E e s → E' e s) : Triple G J P p R' E' :=
  hp.conseq (fun _ hs => hs) hR hE

/-- One action. -/
theorem Triple.call (o : I.Act) {R : I.Res o → D.State → Prop} (hJ : ∀ s, P s → J s)
    (h : ∀ s x, P s → G x → R (D.act o x s).1 (D.act o x s).2) :
    Triple G J P (ExceptT.lift (Program.call o) : ExceptT ε (Program I) (I.Res o)) R E :=
  fun s hs => ⟨hJ s hs, fun x hx => h s x hs hx⟩

/-- The precondition may be used in choosing the proof. -/
theorem Triple.of_pre {p : ExceptT ε (Program I) α} (h : ∀ s₀, P s₀ → Triple G J (· = s₀) p R E) :
    Triple G J P p R E := fun s hs => h s hs s rfl

/-- A fact about no state may be used in choosing the proof. -/
theorem Triple.of_fact {p : ExceptT ε (Program I) α} {c : Prop} (h : c → Triple G J P p R E) :
    Triple G J (fun s => P s ∧ c) p R E := fun s hs => h hs.2 s hs.1

theorem Triple.weaken {K : D.State → Prop} {p : ExceptT ε (Program I) α}
    (hp : Triple G J P p R E) (hJ : ∀ s, J s → K s) : Triple G K P p R E :=
  fun s hs => (hp s hs).weaken hJ

/-- What holds of the whole run, whether it comes to its end or not. -/
theorem Triple.exec {p : ExceptT ε (Program I) α} (hp : Triple G J P p R E) {s : D.State} (hs : P s)
    {xs : List D.Choice} (hxs : ∀ x ∈ xs, G x) : After J (Ends R E) (D.exec p.run xs s) :=
  (hp s hs).exec hxs

end Device
end AgentsCommander.Foundation
