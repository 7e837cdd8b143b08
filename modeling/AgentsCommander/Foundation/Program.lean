import Mathlib.Algebra.Order.Ring.Int
import Mathlib.Logic.Relation

/-! Programs as trees of atomic actions, the interleavings of the threads that run
them, and the rule that turns one proof for each program into an invariant of every
interleaving. -/
namespace AgentsCommander.Foundation

/-- The actions a program may call, each with the type of its answer. -/
structure Interface where
  Act : Type
  Res : Act → Type

inductive Program (I : Interface) (α : Type) where
  | done (a : α)
  | act (o : I.Act) (k : I.Res o → Program I α)

namespace Program
variable {I : Interface} {α β γ : Type}

def bind : Program I α → (α → Program I β) → Program I β
  | .done a, f => f a
  | .act o k, f => .act o fun r => bind (k r) f

instance : Monad (Program I) where
  pure := .done
  bind := bind

def call (o : I.Act) : Program I (I.Res o) := .act o .done

@[simp] theorem pure_eq (a : α) : (pure a : Program I α) = .done a := rfl

@[simp] theorem bind_done (a : α) (f : α → Program I β) : (Program.done a >>= f) = f a := rfl

@[simp] theorem bind_act (o : I.Act) (k : I.Res o → Program I α) (f : α → Program I β) :
    (Program.act o k >>= f) = .act o fun r => k r >>= f := rfl

theorem bind_assoc (p : Program I α) (f : α → Program I β) (g : β → Program I γ) :
    (p >>= f) >>= g = p >>= fun a => f a >>= g := by
  induction p with
  | done a => rfl
  | act o k ih => exact congrArg (Program.act o) (funext ih)

theorem bind_pure (p : Program I α) : (p >>= fun a => pure a) = p := by
  induction p with
  | done a => rfl
  | act o k ih => exact congrArg (Program.act o) (funext ih)

theorem map_eq (f : α → β) (p : Program I α) : f <$> p = p >>= fun a => pure (f a) := rfl

/-- Every action the program can come to is one of these. -/
inductive Uses (φ : I.Act → Prop) : Program I α → Prop
  | done (a : α) : Uses φ (.done a)
  | act {o : I.Act} {k : I.Res o → Program I α} :
      φ o → (∀ r, Uses φ (k r)) → Uses φ (.act o k)

variable {φ ψ : I.Act → Prop}

theorem uses_call {o : I.Act} (h : φ o) : (call o).Uses φ := .act h fun r => .done r

theorem Uses.bind {p : Program I α} {f : α → Program I β} (hp : p.Uses φ)
    (hf : ∀ a, (f a).Uses φ) : (p >>= f).Uses φ := by
  induction hp with
  | done a => exact hf a
  | act h _ ih => exact .act h ih

theorem Uses.mono (h : ∀ o, φ o → ψ o) {p : Program I α} (hp : p.Uses φ) : p.Uses ψ := by
  induction hp with
  | done a => exact .done a
  | act hφ _ ih => exact .act (h _ hφ) ih

section
variable {ε : Type}

theorem uses_pure (a : α) : Uses φ (pure a : ExceptT ε (Program I) α).run := .done _

theorem uses_throw (e : ε) : Uses φ (throw e : ExceptT ε (Program I) α).run := .done _

theorem uses_ofExcept (r : Except ε α) : Uses φ (ofExcept r : ExceptT ε (Program I) α).run := by
  cases r with
  | ok a => exact uses_pure a
  | error e => exact uses_throw e

theorem Uses.except_bind {p : ExceptT ε (Program I) α} {f : α → ExceptT ε (Program I) β}
    (hp : Uses φ p.run) (hf : ∀ a, Uses φ (f a).run) : Uses φ (p >>= f).run := by
  refine Uses.bind hp fun r => ?_
  cases r with
  | ok a => exact hf a
  | error e => exact uses_throw e

theorem Uses.lift {p : Program I α} (hp : p.Uses φ) :
    Uses φ (ExceptT.lift p : ExceptT ε (Program I) α).run := Uses.bind hp fun a => uses_pure a

end
end Program

/-- A shared state and the threads that act on it. An action answers `none` where it
blocks; the choice is what the environment decides. -/
structure Platform (I : Interface) where
  Thread : Type
  State : Type
  Choice : Type
  act : Thread → (o : I.Act) → Choice → State → Option (I.Res o × State)
  starts : Thread → Program I Unit → Prop
  mayDie : (Thread → Bool) → Prop
  kill : (Thread → Bool) → State → State

namespace Platform
variable {I : Interface} (P : Platform I)

structure Conf where
  threads : P.Thread → Option (Program I Unit)
  shared : P.State

/-- What is assumed of the environment's choices. -/
abbrev Guard := (t : P.Thread) → (o : I.Act) → P.Choice → P.State → Prop

variable {P}

open Classical in
noncomputable def Conf.set (c : P.Conf) (t : P.Thread) (p : Option (Program I Unit))
    (s : P.State) : P.Conf where
  threads u := if u = t then p else c.threads u
  shared := s

def Conf.without (c : P.Conf) (dead : P.Thread → Bool) : P.Conf where
  threads u := if dead u then none else c.threads u
  shared := P.kill dead c.shared

inductive Step (ok : P.Guard) : P.Conf → P.Conf → Prop
  | start {c : P.Conf} {t : P.Thread} {p : Program I Unit} :
      c.threads t = none → P.starts t p → Step ok c (c.set t (some p) c.shared)
  | act {c : P.Conf} {t : P.Thread} {o : I.Act} {k : I.Res o → Program I Unit} {x : P.Choice}
      {r : I.Res o} {s : P.State} :
      c.threads t = some (.act o k) → ok t o x c.shared → P.act t o x c.shared = some (r, s) →
      Step ok c (c.set t (some (k r)) s)
  | finish {c : P.Conf} {t : P.Thread} :
      c.threads t = some (.done ()) → Step ok c (c.set t none c.shared)
  | kill {c : P.Conf} {dead : P.Thread → Bool} : P.mayDie dead → Step ok c (c.without dead)

abbrev Reaches (ok : P.Guard) : P.Conf → P.Conf → Prop := Relation.ReflTransGen (Step ok)

theorem reaches_mono {ok ok' : P.Guard} (h : ∀ t o x s, ok t o x s → ok' t o x s)
    {c c' : P.Conf} (hr : Reaches ok c c') : Reaches ok' c c' := by
  induction hr with
  | refl => exact .refl
  | tail _ hstep ih =>
    refine ih.tail ?_
    cases hstep with
    | start hn hp => exact .start hn hp
    | act hp hok hact => exact .act hp (h _ _ _ _ hok) hact
    | finish hp => exact .finish hp
    | kill hd => exact .kill hd

/-- Every choice is allowed. -/
def anything : P.Guard := fun _ _ _ _ => True

/-- No thread has started. -/
def quiet (s : P.State) : P.Conf := ⟨fun _ => none, s⟩

/-- What every action keeps holds along every run. -/
theorem kept_of_reaches {ok : P.Guard} {A : P.State → Prop}
    (hact : ∀ t o x s r s', A s → P.act t o x s = some (r, s') → A s')
    (hkill : ∀ dead s, P.mayDie dead → A s → A (P.kill dead s)) {c c' : P.Conf}
    (h : Reaches ok c c') (hA : A c.shared) : A c'.shared := by
  induction h with
  | refl => exact hA
  | tail _ hstep ih =>
    cases hstep with
    | start => exact ih
    | act _ _ hs => exact hact _ _ _ _ _ _ ih hs
    | finish => exact ih
    | kill hd => exact hkill _ _ hd ih

/-- Run one thread to its end on its own, with the choices given, each of which must pass
the check. -/
def run (P : Platform I) (check : P.Thread → I.Act → P.Choice → P.State → Bool) (t : P.Thread) :
    Program I Unit → List P.Choice → P.State → Option P.State
  | .done (), [], s => some s
  | .done (), _ :: _, _ => none
  | .act _ _, [], _ => none
  | .act o k, x :: xs, s =>
    if check t o x s then
      match P.act t o x s with
      | none => none
      | some (r, s') => run P check t (k r) xs s'
    else none

/-- Run one thread on its own for as long as there are choices; what is left of it. -/
def walk (P : Platform I) (check : P.Thread → I.Act → P.Choice → P.State → Bool) (t : P.Thread) :
    Program I Unit → List P.Choice → P.State → Option (Program I Unit × P.State)
  | p, [], s => some (p, s)
  | .done (), _ :: _, _ => none
  | .act o k, x :: xs, s =>
    if check t o x s then
      match P.act t o x s with
      | none => none
      | some (r, s') => walk P check t (k r) xs s'
    else none

theorem Conf.set_threads_self (c : P.Conf) (t : P.Thread) (p : Option (Program I Unit))
    (s : P.State) : (c.set t p s).threads t = p := if_pos rfl

theorem Conf.set_threads_ne (c : P.Conf) {t u : P.Thread} (p : Option (Program I Unit))
    (s : P.State) (h : u ≠ t) : (c.set t p s).threads u = c.threads u := if_neg h

theorem Conf.set_set (c : P.Conf) (t : P.Thread) (p q : Option (Program I Unit)) (s s' : P.State) :
    (c.set t p s).set t q s' = c.set t q s' := by
  have h : ((c.set t p s).set t q s').threads = (c.set t q s').threads := by
    funext u
    by_cases hu : u = t
    · rw [hu, set_threads_self, set_threads_self]
    · rw [set_threads_ne _ _ _ hu, set_threads_ne _ _ _ hu, set_threads_ne _ _ _ hu]
  exact congrArg (Conf.mk · s') h

theorem Conf.set_self (c : P.Conf) (t : P.Thread) : c.set t (c.threads t) c.shared = c := by
  have h : (c.set t (c.threads t) c.shared).threads = c.threads := by
    funext u
    by_cases hu : u = t
    · rw [hu, set_threads_self]
    · rw [set_threads_ne _ _ _ hu]
  exact congrArg (Conf.mk · c.shared) h

theorem reaches_run_from {ok : P.Guard} {check : P.Thread → I.Act → P.Choice → P.State → Bool}
    (hcheck : ∀ t o x s, check t o x s = true → ok t o x s) {t : P.Thread} (c : P.Conf)
    (p : Program I Unit) (xs : List P.Choice) (s s' : P.State)
    (h : P.run check t p xs s = some s') : Reaches ok (c.set t (some p) s) (c.set t none s') := by
  induction p generalizing xs s with
  | done a =>
    cases xs with
    | nil =>
      obtain rfl := Option.some.inj h
      have hstep : Step ok (c.set t (some (.done ())) s) ((c.set t (some (.done ())) s).set t none s) :=
        .finish (Conf.set_threads_self _ t _ s)
      rw [Conf.set_set] at hstep
      exact .single hstep
    | cons x xs => cases h
  | act o k ih =>
    cases xs with
    | nil => cases h
    | cons x xs =>
      simp only [run] at h
      by_cases hok : check t o x s = true
      · rw [if_pos hok] at h
        cases ha : P.act t o x s with
        | none => rw [ha] at h; cases h
        | some rs =>
          rw [ha] at h
          have hstep : Step ok (c.set t (some (.act o k)) s)
              ((c.set t (some (.act o k)) s).set t (some (k rs.1)) rs.2) :=
            .act (c.set_threads_self t _ s) (hcheck _ _ _ _ hok) ha
          rw [Conf.set_set] at hstep
          exact .head hstep (ih rs.1 xs rs.2 h)
      · rw [if_neg hok] at h
        cases h

/-- A thread may stop anywhere and leave the rest to later. -/
theorem reaches_walk {ok : P.Guard} {check : P.Thread → I.Act → P.Choice → P.State → Bool}
    (hcheck : ∀ t o x s, check t o x s = true → ok t o x s) {t : P.Thread} (c : P.Conf)
    (xs : List P.Choice) (p p' : Program I Unit) (s s' : P.State)
    (h : P.walk check t p xs s = some (p', s')) :
    Reaches ok (c.set t (some p) s) (c.set t (some p') s') := by
  induction xs generalizing p s with
  | nil =>
    simp only [walk, Option.some.injEq, Prod.mk.injEq] at h
    rw [h.1, h.2]
  | cons x xs ih =>
    cases p with
    | done a => cases h
    | act o k =>
      simp only [walk] at h
      by_cases hok : check t o x s = true
      · rw [if_pos hok] at h
        cases ha : P.act t o x s with
        | none => rw [ha] at h; cases h
        | some rs =>
          rw [ha] at h
          have hstep : Step ok (c.set t (some (.act o k)) s)
              ((c.set t (some (.act o k)) s).set t (some (k rs.1)) rs.2) :=
            .act (c.set_threads_self t _ s) (hcheck _ _ _ _ hok) ha
          rw [Conf.set_set] at hstep
          exact .head hstep (ih (k rs.1) rs.2 h)
      · rw [if_neg hok] at h
        cases h

/-- What one thread does on its own is a run of the system. -/
theorem reaches_run {ok : P.Guard} {check : P.Thread → I.Act → P.Choice → P.State → Bool}
    (hcheck : ∀ t o x s, check t o x s = true → ok t o x s) {t : P.Thread} {p : Program I Unit}
    {xs : List P.Choice} {s s' : P.State} (hp : P.starts t p)
    (h : P.run check t p xs s = some s') : Reaches ok (quiet s) (quiet s') := by
  have hstart : Step ok (quiet s) ((quiet s).set t (some p) s) := .start rfl hp
  have hrun := reaches_run_from hcheck (quiet s) p xs s s' h
  have hend : (quiet s).set t none s' = quiet s' := Conf.set_self (quiet s') t
  rw [hend] at hrun
  exact .head hstart hrun

section
variable {ok : P.Guard} {check : P.Thread → I.Act → P.Choice → P.State → Bool} {c : P.Conf}
  {t : P.Thread} {p p' : Program I Unit} {xs : List P.Choice} {s' : P.State}

/-- A thread runs its program to the end while the others rest. -/
theorem reaches_turn (hcheck : ∀ t o x s, check t o x s = true → ok t o x s)
    (hn : c.threads t = none) (hp : P.starts t p) (h : P.run check t p xs c.shared = some s') :
    Reaches ok c (c.set t none s') :=
  .head (.start hn hp) (reaches_run_from hcheck c p xs c.shared s' h)

/-- A thread runs part of its program while the others rest. -/
theorem reaches_pause (hcheck : ∀ t o x s, check t o x s = true → ok t o x s)
    (hn : c.threads t = none) (hp : P.starts t p)
    (h : P.walk check t p xs c.shared = some (p', s')) : Reaches ok c (c.set t (some p') s') :=
  .head (.start hn hp) (reaches_walk hcheck c xs p p' c.shared s' h)

/-- A thread runs the rest of its program while the others rest. -/
theorem reaches_resume (hcheck : ∀ t o x s, check t o x s = true → ok t o x s)
    (hp : c.threads t = some p) (h : P.run check t p xs c.shared = some s') :
    Reaches ok c (c.set t none s') := by
  have hrun := reaches_run_from hcheck c p xs c.shared s' h
  rw [← hp, Conf.set_self] at hrun
  exact hrun

end

end Platform

/-- An invariant, what a thread must know before it acts, and what a thread may rely on
the others to keep. -/
structure Protocol {I : Interface} (P : Platform I) (ok : P.Guard) where
  Inv : P.State → Prop
  Allowed : P.Thread → I.Act → P.State → Prop
  rely : P.Thread → P.State → P.State → Prop
  Idle : P.Thread → P.State → Prop
  keeps : ∀ {t o x s r s'}, Inv s → Allowed t o s → ok t o x s → P.act t o x s = some (r, s') →
    Inv s' ∧ ∀ u, u ≠ t → rely u s s'
  survives : ∀ {dead s}, P.mayDie dead → Inv s → Inv (P.kill dead s) ∧
    (∀ u, dead u = false → rely u s (P.kill dead s)) ∧
    ∀ u, dead u = true → Idle u (P.kill dead s)
  idle_keeps : ∀ {t s s'}, Inv s → Inv s' → rely t s s' → Idle t s → Idle t s'

namespace Protocol
variable {I : Interface} {P : Platform I} {ok : P.Guard} (G : Protocol P ok)
variable {α β : Type} {t : P.Thread}

/-- What the other threads may do before this one acts. -/
def Later (t : P.Thread) : P.State → P.State → Prop :=
  Relation.ReflTransGen fun s s' => G.Inv s ∧ G.Inv s' ∧ G.rely t s s'

/-- Whatever the others do, each action of the program is allowed, and the result
comes with the postcondition. -/
def Safe (t : P.Thread) : Program I α → (α → P.State → Prop) → P.State → Prop
  | .done a, Q, s => Q a s
  | .act o k, Q, s => ∀ s₁, G.Later t s s₁ → G.Inv s₁ → G.Allowed t o s₁ ∧
      ∀ x r s₂, ok t o x s₁ → P.act t o x s₁ = some (r, s₂) → Safe t (k r) Q s₂

def Stable (t : P.Thread) (A : P.State → Prop) : Prop :=
  ∀ s s', G.Inv s → G.Inv s' → G.rely t s s' → A s → A s'

/-- From the precondition the program is safe and ends in the postcondition. -/
def Triple (t : P.Thread) (A : P.State → Prop) (p : Program I α) (B : α → P.State → Prop) : Prop :=
  ∀ s, G.Inv s → A s → G.Safe t p B s

variable {G}

theorem Stable.later {A : P.State → Prop} (h : G.Stable t A) {s s' : P.State}
    (hl : G.Later t s s') (hs : A s) : A s' := by
  induction hl with
  | refl => exact hs
  | tail _ hstep ih => exact h _ _ hstep.1 hstep.2.1 hstep.2.2 ih

theorem Stable.and {A B : P.State → Prop} (ha : G.Stable t A) (hb : G.Stable t B) :
    G.Stable t fun s => A s ∧ B s :=
  fun s s' hi hi' hr h => ⟨ha s s' hi hi' hr h.1, hb s s' hi hi' hr h.2⟩

theorem Stable.pure (p : Prop) : G.Stable t fun _ => p := fun _ _ _ _ _ h => h

theorem Safe.mono {Q R : α → P.State → Prop} (h : ∀ a s, Q a s → R a s) {p : Program I α}
    {s : P.State} (hs : G.Safe t p Q s) : G.Safe t p R s := by
  induction p generalizing s with
  | done a => exact h a s hs
  | act o k ih =>
    intro s₁ hl hi
    obtain ⟨ha, hk⟩ := hs s₁ hl hi
    exact ⟨ha, fun x r s₂ hok hact => ih r (hk x r s₂ hok hact)⟩

theorem Safe.later {Q : α → P.State → Prop} (hQ : ∀ a, G.Stable t (Q a)) {p : Program I α}
    {s s' : P.State} (hl : G.Later t s s') (hs : G.Safe t p Q s) : G.Safe t p Q s' := by
  cases p with
  | done a => exact (hQ a).later hl hs
  | act o k => exact fun s₁ hl' hi => hs s₁ (hl.trans hl') hi

theorem Safe.bind {Q : α → P.State → Prop} {R : β → P.State → Prop} {p : Program I α}
    {f : α → Program I β} {s : P.State} (hi : G.Inv s) (hs : G.Safe t p Q s)
    (hf : ∀ a s, G.Inv s → Q a s → G.Safe t (f a) R s) : G.Safe t (p >>= f) R s := by
  induction p generalizing s with
  | done a => exact hf a s hi hs
  | act o k ih =>
    intro s₁ hl hi₁
    obtain ⟨ha, hk⟩ := hs s₁ hl hi₁
    refine ⟨ha, fun x r s₂ hok hact => ?_⟩
    exact ih r (G.keeps hi₁ ha hok hact).1 (hk x r s₂ hok hact)

theorem Triple.done {A : P.State → Prop} {B : α → P.State → Prop} {a : α}
    (h : ∀ s, G.Inv s → A s → B a s) : G.Triple t A (.done a) B := h

theorem Triple.bind {A : P.State → Prop} {B : α → P.State → Prop} {C : β → P.State → Prop}
    {p : Program I α} {f : α → Program I β} (hp : G.Triple t A p B)
    (hf : ∀ a, G.Triple t (B a) (f a) C) : G.Triple t A (p >>= f) C :=
  fun s hi hA => Safe.bind hi (hp s hi hA) hf

/-- A program whose answer is known in advance. -/
theorem Triple.bind_known {A : P.State → Prop} {C : β → P.State → Prop} {p : Program I α}
    {f : α → Program I β} (a : α) (hp : G.Triple t A p fun r s => A s ∧ r = a)
    (hf : G.Triple t A (f a) C) : G.Triple t A (p >>= f) C := by
  refine Triple.bind hp fun r s hi h => ?_
  rw [h.2]
  exact hf s hi h.1

theorem Triple.conseq {A A' : P.State → Prop} {B B' : α → P.State → Prop} {p : Program I α}
    (hp : G.Triple t A p B) (hA : ∀ s, G.Inv s → A' s → A s) (hB : ∀ a s, B a s → B' a s) :
    G.Triple t A' p B' :=
  fun s hi h => (hp s hi (hA s hi h)).mono hB

/-- One action: what is known before it stays true while the others act. -/
theorem Triple.call {A : P.State → Prop} {o : I.Act} {B : I.Res o → P.State → Prop}
    (hst : G.Stable t A) (ha : ∀ s, G.Inv s → A s → G.Allowed t o s)
    (hB : ∀ s x r s', G.Inv s → A s → ok t o x s → P.act t o x s = some (r, s') → B r s') :
    G.Triple t A (Program.call o) B := by
  intro s _ hA s₁ hl hi₁
  have hA₁ := hst.later hl hA
  exact ⟨ha s₁ hi₁ hA₁, fun x r s₂ hok hact => hB s₁ x r s₂ hi₁ hA₁ hok hact⟩

/-- The assertion outlasts what the others do, and the actions named. -/
def Kept (G : Protocol P ok) (t : P.Thread) (φ : I.Act → Prop) (A : P.State → Prop) : Prop :=
  G.Stable t A ∧ ∀ o, φ o → ∀ s, G.Inv s → A s → G.Allowed t o s ∧
    ∀ x r s', ok t o x s → P.act t o x s = some (r, s') → A s'

theorem Triple.uses {φ : I.Act → Prop} {A : P.State → Prop} (h : G.Kept t φ A) {p : Program I α}
    (hp : p.Uses φ) : G.Triple t A p fun _ => A := by
  intro s hi hA
  induction hp generalizing s with
  | done a => exact hA
  | @act o k hφ _ ih =>
    intro s₁ hl hi₁
    have hA₁ := h.1.later hl hA
    obtain ⟨hallowed, hkeep⟩ := h.2 o hφ s₁ hi₁ hA₁
    refine ⟨hallowed, fun x r s₂ hok hact => ?_⟩
    exact ih r s₂ (G.keeps hi₁ hallowed hok hact).1 (hkeep x r s₂ hok hact)

section
variable {ε : Type}

/-- A postcondition for each way a fallible program can end. -/
def post {σ : Type} (B : α → σ → Prop) (E : ε → σ → Prop) : Except ε α → σ → Prop
  | .ok a => B a
  | .error e => E e

theorem Triple.except_bind {A : P.State → Prop} {B : α → P.State → Prop}
    {E : ε → P.State → Prop} {C : Except ε β → P.State → Prop} {p : ExceptT ε (Program I) α}
    {f : α → ExceptT ε (Program I) β} (hp : G.Triple t A p.run (post B E))
    (hf : ∀ a, G.Triple t (B a) (f a).run C) (he : ∀ e s, G.Inv s → E e s → C (.error e) s) :
    G.Triple t A (p >>= f).run C := by
  refine Triple.bind hp fun r => ?_
  cases r with
  | ok a => exact hf a
  | error e => exact Triple.done (he e)

theorem Triple.uses_except {φ : I.Act → Prop} {A : P.State → Prop} (h : G.Kept t φ A)
    {p : ExceptT ε (Program I) α} (hp : Program.Uses φ p.run) :
    G.Triple t A p.run (post (fun _ => A) fun _ => A) :=
  (Triple.uses h hp).conseq (fun _ _ h => h) fun r _ h => by cases r <;> exact h

theorem Triple.ofExcept {A : P.State → Prop} (r : Except ε α) :
    G.Triple t A (ofExcept r : ExceptT ε (Program I) α).run
      (post (fun a s => A s ∧ r = .ok a) fun e s => A s ∧ r = .error e) := by
  cases r with
  | ok a => exact Triple.done (a := Except.ok a) fun _ _ h => ⟨h, rfl⟩
  | error e => exact Triple.done (a := Except.error e) fun _ _ h => ⟨h, rfl⟩

theorem Triple.lift {A : P.State → Prop} {B : α → P.State → Prop} {E : ε → P.State → Prop}
    {p : Program I α} (hp : G.Triple t A p B) :
    G.Triple t A (ExceptT.lift p : ExceptT ε (Program I) α).run (post B E) :=
  Triple.bind hp fun a => Triple.done (a := Except.ok a) fun _ _ h => h

end

/-- A part of the state may be given a name. -/
theorem Triple.named {γ : Type} (f : P.State → γ) {A : P.State → Prop}
    {B : α → P.State → Prop} {p : Program I α}
    (h : ∀ c, G.Triple t (fun s => A s ∧ f s = c) p B) : G.Triple t A p B :=
  fun s hi hA => h (f s) s hi ⟨hA, rfl⟩

/-- A fact that does not depend on the state may be taken out of a precondition. -/
theorem Triple.of_pure {φ : Prop} {A : P.State → Prop} {B : α → P.State → Prop}
    {p : Program I α} (h : φ → G.Triple t A p B) : G.Triple t (fun s => φ ∧ A s) p B :=
  fun s hi hA => h hA.1 s hi hA.2

/-- What is shown of a thread holds of what it does on its own. -/
theorem Safe.of_run {check : P.Thread → I.Act → P.Choice → P.State → Bool}
    (hcheck : ∀ t o x s, check t o x s = true → ok t o x s) {Q : Unit → P.State → Prop}
    {p : Program I Unit} {xs : List P.Choice} {s s' : P.State} (hi : G.Inv s)
    (hs : G.Safe t p Q s) (hrun : P.run check t p xs s = some s') : Q () s' := by
  induction p generalizing xs s with
  | done a =>
    cases xs with
    | nil =>
      obtain rfl := Option.some.inj hrun
      exact hs
    | cons x xs => cases hrun
  | act o k ih =>
    cases xs with
    | nil => cases hrun
    | cons x xs =>
      simp only [Platform.run] at hrun
      by_cases hok : check t o x s = true
      · rw [if_pos hok] at hrun
        cases hact : P.act t o x s with
        | none =>
          rw [hact] at hrun
          cases hrun
        | some rs =>
          rw [hact] at hrun
          obtain ⟨hallowed, hk⟩ := hs s .refl hi
          have hok' := hcheck _ _ _ _ hok
          exact ih rs.1 (G.keeps hi hallowed hok' hact).1 (hk x rs.1 rs.2 hok' hact) hrun
      · rw [if_neg hok] at hrun
        cases hrun

variable (G)

/-- Every thread is idle or in a safe program. -/
def Sound (c : P.Conf) : Prop :=
  G.Inv c.shared ∧ ∀ t, (c.threads t).elim (G.Idle t c.shared) fun p =>
    G.Safe t p (fun _ => G.Idle t) c.shared

variable {G}

theorem stable_idle : G.Stable t (G.Idle t) := fun _ _ hi hi' hr h => G.idle_keeps hi hi' hr h

private theorem sound_other {c : P.Conf} {s : P.State} (h : G.Sound c) (hi : G.Inv s)
    {u : P.Thread} (hr : G.rely u c.shared s) :
    (c.threads u).elim (G.Idle u s) fun p => G.Safe u p (fun _ => G.Idle u) s := by
  have hu := h.2 u
  cases hp : c.threads u with
  | none =>
    rw [hp] at hu
    exact G.idle_keeps h.1 hi hr hu
  | some p =>
    rw [hp] at hu
    exact Safe.later (fun _ => stable_idle) (.single ⟨h.1, hi, hr⟩) hu

theorem sound_step (hstarts : ∀ t p, P.starts t p → G.Triple t (G.Idle t) p fun _ => G.Idle t)
    {c c' : P.Conf} (h : G.Sound c) (hs : Platform.Step ok c c') : G.Sound c' := by
  cases hs with
  | @start t p hn hp =>
    refine ⟨h.1, fun u => ?_⟩
    by_cases hu : u = t
    · subst hu
      rw [Platform.Conf.set_threads_self]
      have hidle := h.2 u
      rw [hn] at hidle
      exact hstarts u p hp c.shared h.1 hidle
    · rw [Platform.Conf.set_threads_ne _ _ _ hu]
      exact h.2 u
  | @act t o k x r s hp hok hact =>
    have hsafe := h.2 t
    rw [hp] at hsafe
    obtain ⟨hallowed, hk⟩ := hsafe c.shared .refl h.1
    obtain ⟨hi, hrely⟩ := G.keeps h.1 hallowed hok hact
    refine ⟨hi, fun u => ?_⟩
    by_cases hu : u = t
    · subst hu
      rw [Platform.Conf.set_threads_self]
      exact hk x r s hok hact
    · rw [Platform.Conf.set_threads_ne _ _ _ hu]
      exact sound_other h hi (hrely u hu)
  | @finish t hp =>
    refine ⟨h.1, fun u => ?_⟩
    by_cases hu : u = t
    · subst hu
      rw [Platform.Conf.set_threads_self]
      have hdone := h.2 u
      rw [hp] at hdone
      exact hdone
    · rw [Platform.Conf.set_threads_ne _ _ _ hu]
      exact h.2 u
  | @kill dead hd =>
    obtain ⟨hi, hrely, hidle⟩ := G.survives hd h.1
    refine ⟨hi, fun u => ?_⟩
    simp only [Platform.Conf.without]
    cases hu : dead u with
    | true => exact hidle u hu
    | false => exact sound_other h hi (hrely u hu)

/-- The invariant holds in every configuration an interleaving reaches. -/
theorem inv_of_reaches
    (hstarts : ∀ t p, P.starts t p → G.Triple t (G.Idle t) p fun _ => G.Idle t)
    {s : P.State} (hi : G.Inv s) (hidle : ∀ t, G.Idle t s) {c : P.Conf}
    (h : Platform.Reaches ok (Platform.quiet s) c) : G.Inv c.shared := by
  have hs : G.Sound c := by
    induction h with
    | refl => exact ⟨hi, hidle⟩
    | tail _ hstep ih => exact sound_step hstarts ih hstep
  exact hs.1

end Protocol
end AgentsCommander.Foundation
