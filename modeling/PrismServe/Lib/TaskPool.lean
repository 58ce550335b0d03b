import PrismServe.Lib.Coroutine

/-!
# A pool of cooperative tasks

One distinguished task, the main one, and a pool of other tasks share a state.
The environment chooses which suspended task is resumed and with which reply,
lets events happen between segments, and launches tasks.  A task that has been
spawned waits at the entry call of the machine for its first turn.

A segment that is executed leaves a task that owes what its weakest precondition
says (`exec_meets`), and a program that awaits nothing ends in its first segment.
-/

namespace PrismServe.Lib

/-- How an uninterrupted segment ends. -/
inductive Stop (σ κ ρ ε τ α : Type) : Type
  | returned (a : α)
  | failed (e : ε)
  | paused (c : κ) (next : ρ → Prog σ κ ρ ε τ α)
  | stuck

/-- An executed segment: the state it left, what it spawned, how it ended. -/
structure Segment (σ κ ρ ε τ α : Type) where
  sys : Sys σ τ
  spawned : List τ
  stop : Stop σ κ ρ ε τ α

/-- Run a program up to its next suspension. -/
def exec {σ κ ρ ε τ α : Type} :
    Prog σ κ ρ ε τ α → Sys σ τ → List τ → Segment σ κ ρ ε τ α
  | .ret a, s, ts => ⟨s, ts, .returned a⟩
  | .raise e, s, ts => ⟨s, ts, .failed e⟩
  | .sync u k, s, ts => exec (k s.shared) (s.update u) ts
  | .await c k, s, ts => ⟨s, ts, .paused c k⟩
  | .spawn t k, s, ts => exec k (s.start t) (ts ++ [t])
  | .cut, s, ts => ⟨s, ts, .stuck⟩

/-! ## Programs that never suspend -/

namespace Prog

variable {σ κ ρ ε τ α β : Type}

/-- The program neither awaits a call nor is cut. -/
def Atomic : Prog σ κ ρ ε τ α → Prop
  | .ret _ => True
  | .raise _ => True
  | .sync _ k => ∀ s, Atomic (k s)
  | .await _ _ => False
  | .spawn _ k => Atomic k
  | .cut => False

namespace Atomic

theorem bind {p : Prog σ κ ρ ε τ α} {f : α → Prog σ κ ρ ε τ β} (hp : p.Atomic)
    (hf : ∀ a, (f a).Atomic) : (p.bind f).Atomic := by
  induction p with
  | ret a =>
    exact hf a
  | raise e =>
    trivial
  | sync u k ih =>
    exact fun s => ih s (hp s)
  | await c k =>
    exact hp.elim
  | spawn t k ih =>
    exact ih hp
  | cut =>
    exact hp.elim

theorem rescue {p : Prog σ κ ρ ε τ α} {h : ε → Option (Prog σ κ ρ ε τ α)} (hp : p.Atomic)
    (hh : ∀ e q, h e = some q → q.Atomic) : (p.rescue h).Atomic := by
  induction p with
  | ret a =>
    trivial
  | raise e =>
    show ((h e).getD (.raise e)).Atomic
    cases he : h e with
    | none =>
      trivial
    | some q =>
      exact hh e q he
  | sync u k ih =>
    exact fun s => ih s (hp s)
  | await c k =>
    exact hp.elim
  | spawn t k ih =>
    exact ih hp
  | cut =>
    exact hp.elim

theorem attempt (f : σ → Except ε (α × σ)) :
    (Prog.attempt f : Prog σ κ ρ ε τ α).Atomic := by
  intro s
  dsimp only
  split <;> trivial

theorem attemptWith (f : σ → Except ε α × σ) :
    (Prog.attemptWith f : Prog σ κ ρ ε τ α).Atomic := by
  intro s
  dsimp only
  split <;> trivial

/-- An atomic program returns or raises. -/
theorem exec_ends {p : Prog σ κ ρ ε τ α} (hp : p.Atomic) (s : Sys σ τ) (ts : List τ) :
    (∃ a, (exec p s ts).stop = .returned a) ∨ ∃ e, (exec p s ts).stop = .failed e := by
  induction p generalizing s ts with
  | ret a =>
    exact Or.inl ⟨a, rfl⟩
  | raise e =>
    exact Or.inr ⟨e, rfl⟩
  | sync u k ih =>
    exact ih _ (hp _) _ ts
  | await c k =>
    exact hp.elim
  | spawn t k ih =>
    exact ih hp _ _
  | cut =>
    exact hp.elim

end Atomic

end Prog

/-- A suspended task of the pool. -/
structure Pending (σ κ ρ ε τ : Type) where
  task : τ
  call : κ
  next : ρ → Prog σ κ ρ ε τ Unit

/-- The program of every task, which tasks the environment starts, and what else happens. -/
structure Machine (σ κ ρ ε τ η : Type) where
  body : τ → Prog σ κ ρ ε τ Unit
  entry : κ
  external : τ → Bool
  event : η → σ → σ

/-- State of a run; `crash` is the exception that ended the main task. -/
structure Config (σ κ ρ ε τ : Type) where
  sys : Sys σ τ
  main : Option (κ × (ρ → Prog σ κ ρ ε τ Unit))
  crash : Option ε
  pool : List (Pending σ κ ρ ε τ)

/-- One decision of the environment. -/
inductive Choice (ρ τ η : Type) : Type
  | main (r : ρ)
  | task (i : Nat) (r : ρ)
  | event (e : η)
  | launch (t : τ)
  deriving DecidableEq, Repr

namespace Machine

variable {σ κ ρ ε τ η : Type} [DecidableEq τ]

variable (M : Machine σ κ ρ ε τ η)

/-- A task before its first turn. -/
def pend (t : τ) : Pending σ κ ρ ε τ :=
  ⟨t, M.entry, fun _ => M.body t⟩

/-- The configuration after a segment of the main task. -/
def settleMain (c : Config σ κ ρ ε τ) (g : Segment σ κ ρ ε τ Unit) : Config σ κ ρ ε τ :=
  let pool := c.pool ++ g.spawned.map M.pend
  match g.stop with
  | .returned _ => ⟨g.sys, none, c.crash, pool⟩
  | .failed e => ⟨g.sys, none, some e, pool⟩
  | .paused call next => ⟨g.sys, some (call, next), c.crash, pool⟩
  | .stuck => ⟨g.sys, none, c.crash, pool⟩

/-- The configuration after a segment of the pool task at position `i`. -/
def settleTask (c : Config σ κ ρ ε τ) (i : Nat) (t : τ)
    (g : Segment σ κ ρ ε τ Unit) : Config σ κ ρ ε τ :=
  let rest := c.pool.eraseIdx i
  let fresh := g.spawned.map M.pend
  match g.stop with
  | .returned _ => { c with sys := g.sys.finish t, pool := rest ++ fresh }
  | .failed _ => { c with sys := g.sys.finish t, pool := rest ++ fresh }
  | .paused call next => { c with sys := g.sys, pool := c.pool.set i ⟨t, call, next⟩ ++ fresh }
  | .stuck => { c with sys := g.sys, pool := rest ++ fresh }

def step (c : Config σ κ ρ ε τ) : Choice ρ τ η → Config σ κ ρ ε τ
  | .main r =>
    match c.main with
    | none => c
    | some (_, next) => M.settleMain c (exec (next r) c.sys [])
  | .task i r =>
    match c.pool[i]? with
    | none => c
    | some p => M.settleTask c i p.task (exec (p.next r) c.sys [])
  | .event e => { c with sys := c.sys.update (M.event e) }
  | .launch t =>
    if M.external t then { c with sys := c.sys.start t, pool := c.pool ++ [M.pend t] } else c

/-- The run that a list of decisions produces. -/
def run (c : Config σ κ ρ ε τ) : List (Choice ρ τ η) → Config σ κ ρ ε τ
  | [] => c
  | x :: rest => run (M.step c x) rest

end Machine

/-- What a program owes for the rest of the segment it is in. -/
def Stop.Meets {σ κ ρ ε τ α : Type} (C : Contract σ κ τ)
    (Q : α → Sys σ τ → Sys σ τ → Prop) (E : ε → Sys σ τ → Sys σ τ → Prop)
    (s₀ s : Sys σ τ) : Stop σ κ ρ ε τ α → Prop
  | .returned a => Q a s₀ s
  | .failed e => E e s₀ s
  | .paused c k =>
    C.guar s₀ s ∧ C.note c s ∧ ∀ s', C.rely s s' → ∀ r, (k r).WP C Q E s' s'
  | .stuck => C.guar s₀ s

theorem exec_meets {σ κ ρ ε τ α : Type} {C : Contract σ κ τ}
    {Q : α → Sys σ τ → Sys σ τ → Prop} {E : ε → Sys σ τ → Sys σ τ → Prop}
    {p : Prog σ κ ρ ε τ α} {s₀ s : Sys σ τ} (ts : List τ) (h : p.WP C Q E s₀ s) :
    (exec p s ts).stop.Meets C Q E s₀ (exec p s ts).sys := by
  induction p generalizing s ts with
  | ret a =>
    exact h
  | raise e =>
    exact h
  | sync u k ih =>
    exact ih _ ts h
  | await c k =>
    exact h
  | spawn t k ih =>
    exact ih _ h
  | cut =>
    exact h

end PrismServe.Lib
