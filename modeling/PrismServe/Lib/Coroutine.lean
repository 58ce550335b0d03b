import Mathlib.Logic.Relation
import Mathlib.Tactic

/-!
# Cooperative coroutines

A coroutine runs without interruption until it awaits; other tasks may run only
while it is suspended.  `Prog` is the syntax of such a program over a shared
state `σ`: it reads and writes the state, raises exceptions of type `ε`, awaits
calls `κ` that are answered by replies `ρ`, and spawns tasks named by `τ`.  A
loop that never ends is cut after finitely many rounds: `cut` is a task that
stays suspended for ever.

`WP C Q E p s₀ s` is the weakest precondition of `p` in rely/guarantee form.
`s₀` is the state in which the current uninterrupted segment began and `s` the
present one.  At every suspension the segment must satisfy the guarantee of the
contract `C` and its note for the awaited call; on resumption the state is any
one that the rely of `C` allows the other tasks to have produced.

`Keeps C I p` says that `p` keeps the assertion `I` about the running segment,
and re-establishes it on every resumption.  It is closed under all the program
constructors, so that a long program keeps what its operations keep.
-/

namespace PrismServe.Lib

/-- Programs of one cooperative task. -/
inductive Prog (σ κ ρ ε τ α : Type) : Type
  | ret (a : α)
  | raise (e : ε)
  | sync (upd : σ → σ) (next : σ → Prog σ κ ρ ε τ α)
  | await (c : κ) (next : ρ → Prog σ κ ρ ε τ α)
  | spawn (t : τ) (next : Prog σ κ ρ ε τ α)
  | cut

/-- Shared state together with the names of the live tasks. -/
structure Sys (σ τ : Type) where
  shared : σ
  live : List τ

namespace Sys

variable {σ τ : Type}

def update (s : Sys σ τ) (f : σ → σ) : Sys σ τ := ⟨f s.shared, s.live⟩

def start (s : Sys σ τ) (t : τ) : Sys σ τ := ⟨s.shared, t :: s.live⟩

def finish [DecidableEq τ] (s : Sys σ τ) (t : τ) : Sys σ τ :=
  ⟨s.shared, s.live.erase t⟩

@[simp] theorem update_shared (s : Sys σ τ) (f : σ → σ) :
    (s.update f).shared = f s.shared := rfl

end Sys

namespace Prog

variable {σ κ ρ ε τ α β : Type}

def bind : Prog σ κ ρ ε τ α → (α → Prog σ κ ρ ε τ β) → Prog σ κ ρ ε τ β
  | .ret a, f => f a
  | .raise e, _ => .raise e
  | .sync u k, f => .sync u (fun s => (k s).bind f)
  | .await c k, f => .await c (fun r => (k r).bind f)
  | .spawn t k, f => .spawn t (k.bind f)
  | .cut, _ => .cut

instance : Monad (Prog σ κ ρ ε τ) where
  pure := .ret
  bind := .bind

/-- Run a handler on the exceptions it accepts. -/
def rescue : Prog σ κ ρ ε τ α → (ε → Option (Prog σ κ ρ ε τ α)) → Prog σ κ ρ ε τ α
  | .ret a, _ => .ret a
  | .raise e, h => (h e).getD (.raise e)
  | .sync u k, h => .sync u (fun s => (k s).rescue h)
  | .await c k, h => .await c (fun r => (k r).rescue h)
  | .spawn t k, h => .spawn t (k.rescue h)
  | .cut, _ => .cut

/-- Read the shared state. -/
def read : Prog σ κ ρ ε τ σ := .sync id .ret

/-- Write the shared state. -/
def modify (f : σ → σ) : Prog σ κ ρ ε τ Unit := .sync f (fun _ => .ret ())

/-- A fallible operation that changes the state only when it succeeds. -/
def attempt (f : σ → Except ε (α × σ)) : Prog σ κ ρ ε τ α :=
  .sync
    (fun s => match f s with
      | .ok (_, s') => s'
      | .error _ => s)
    (fun s => match f s with
      | .ok (a, _) => .ret a
      | .error e => .raise e)

/-- A fallible operation whose failure may leave the state changed. -/
def attemptWith (f : σ → Except ε α × σ) : Prog σ κ ρ ε τ α :=
  .sync (fun s => (f s).2)
    (fun s => match (f s).1 with
      | .ok a => .ret a
      | .error e => .raise e)

def forEach : List β → (β → Prog σ κ ρ ε τ Unit) → Prog σ κ ρ ε τ Unit
  | [], _ => .ret ()
  | x :: rest, f => (f x).bind (fun _ => forEach rest f)

/-- Iterate while the body answers `true`. -/
def forEachWhile : List β → (β → Prog σ κ ρ ε τ Bool) → Prog σ κ ρ ε τ Unit
  | [], _ => .ret ()
  | x :: rest, f =>
    (f x).bind (fun go => if go then forEachWhile rest f else .ret ())

@[simp] theorem pure_eq (a : α) : (pure a : Prog σ κ ρ ε τ α) = .ret a := rfl

@[simp] theorem bind_eq (p : Prog σ κ ρ ε τ α) (f : α → Prog σ κ ρ ε τ β) :
    p >>= f = p.bind f := rfl

end Prog

/--
What one kind of task may rely on while it is suspended, what it guarantees
for each uninterrupted segment and what it notes at an awaited call.
-/
structure Contract (σ κ τ : Type) where
  rely : Sys σ τ → Sys σ τ → Prop
  guar : Sys σ τ → Sys σ τ → Prop
  note : κ → Sys σ τ → Prop
  rely_refl : ∀ s, rely s s
  rely_trans : ∀ s t u, rely s t → rely t u → rely s u

namespace Prog

variable {σ κ ρ ε τ α β : Type}

/-- Rely/guarantee weakest precondition. -/
def WP (C : Contract σ κ τ)
    (Q : α → Sys σ τ → Sys σ τ → Prop)
    (E : ε → Sys σ τ → Sys σ τ → Prop) :
    Prog σ κ ρ ε τ α → Sys σ τ → Sys σ τ → Prop
  | .ret a, s₀, s => Q a s₀ s
  | .raise e, s₀, s => E e s₀ s
  | .sync u k, s₀, s => WP C Q E (k s.shared) s₀ (s.update u)
  | .await c k, s₀, s =>
    C.guar s₀ s ∧ C.note c s ∧ ∀ s', C.rely s s' → ∀ r, WP C Q E (k r) s' s'
  | .spawn t k, s₀, s => WP C Q E k s₀ (s.start t)
  | .cut, s₀, s => C.guar s₀ s

section Rules

variable {C : Contract σ κ τ}
variable {Q Q' : α → Sys σ τ → Sys σ τ → Prop}
variable {E E' : ε → Sys σ τ → Sys σ τ → Prop}

@[simp] theorem wp_sync (u : σ → σ) (k : σ → Prog σ κ ρ ε τ α) (s₀ s : Sys σ τ) :
    WP C Q E (.sync u k) s₀ s ↔ WP C Q E (k s.shared) s₀ (s.update u) := Iff.rfl

/-- Postconditions may be weakened. -/
theorem WP.mono {p : Prog σ κ ρ ε τ α} {s₀ s : Sys σ τ}
    (hQ : ∀ a s₀ s, Q a s₀ s → Q' a s₀ s)
    (hE : ∀ e s₀ s, E e s₀ s → E' e s₀ s)
    (h : WP C Q E p s₀ s) : WP C Q' E' p s₀ s := by
  induction p generalizing s₀ s with
  | ret a =>
    exact hQ a s₀ s h
  | raise e =>
    exact hE e s₀ s h
  | sync u k ih =>
    exact ih _ h
  | await c k ih =>
    exact ⟨h.1, h.2.1, fun s' hs r => ih r (h.2.2 s' hs r)⟩
  | spawn t k ih =>
    exact ih h
  | cut =>
    exact h

/-- Sequencing. -/
@[simp] theorem wp_bind {Q : β → Sys σ τ → Sys σ τ → Prop}
    (p : Prog σ κ ρ ε τ α) (f : α → Prog σ κ ρ ε τ β) (s₀ s : Sys σ τ) :
    WP C Q E (p.bind f) s₀ s ↔
      WP C (fun a s₀ s => WP C Q E (f a) s₀ s) E p s₀ s := by
  induction p generalizing s₀ s with
  | ret a =>
    rfl
  | raise e =>
    rfl
  | sync u k ih =>
    exact ih _ _ _
  | await c k ih =>
    refine and_congr_right fun _ => and_congr_right fun _ => forall_congr' fun s' => ?_
    exact imp_congr_right fun _ => forall_congr' fun r => ih r s' s'
  | spawn t k ih =>
    exact ih _ _
  | cut =>
    rfl

/-- A handler takes over the exceptions that it accepts. -/
@[simp] theorem wp_rescue
    (p : Prog σ κ ρ ε τ α) (h : ε → Option (Prog σ κ ρ ε τ α)) (s₀ s : Sys σ τ) :
    WP C Q E (p.rescue h) s₀ s ↔
      WP C Q (fun e s₀ s => WP C Q E ((h e).getD (.raise e)) s₀ s) p s₀ s := by
  induction p generalizing s₀ s with
  | ret a =>
    rfl
  | raise e =>
    rfl
  | sync u k ih =>
    exact ih _ _ _
  | await c k ih =>
    refine and_congr_right fun _ => and_congr_right fun _ => forall_congr' fun s' => ?_
    exact imp_congr_right fun _ => forall_congr' fun r => ih r s' s'
  | spawn t k ih =>
    exact ih _ _
  | cut =>
    rfl

@[simp] theorem wp_read {Q : σ → Sys σ τ → Sys σ τ → Prop} (s₀ s : Sys σ τ) :
    WP C Q E (read : Prog σ κ ρ ε τ σ) s₀ s ↔ Q s.shared s₀ s := Iff.rfl

theorem wp_attempt (f : σ → Except ε (α × σ)) (s₀ s : Sys σ τ)
    (hok : ∀ a w, f s.shared = .ok (a, w) → Q a s₀ ⟨w, s.live⟩)
    (herr : ∀ e, f s.shared = .error e → E e s₀ s) :
    WP C Q E (attempt f : Prog σ κ ρ ε τ α) s₀ s := by
  simp only [attempt, wp_sync, Sys.update]
  cases hf : f s.shared with
  | error e =>
    exact herr e hf
  | ok r =>
    exact hok r.1 r.2 hf

theorem wp_attemptWith (f : σ → Except ε α × σ) (s₀ s : Sys σ τ)
    (hok : ∀ a, (f s.shared).1 = .ok a → Q a s₀ ⟨(f s.shared).2, s.live⟩)
    (herr : ∀ e, (f s.shared).1 = .error e → E e s₀ ⟨(f s.shared).2, s.live⟩) :
    WP C Q E (attemptWith f : Prog σ κ ρ ε τ α) s₀ s := by
  simp only [attemptWith, wp_sync]
  cases hf : (f s.shared).1 with
  | error e =>
    exact herr e hf
  | ok a =>
    exact hok a hf

/-- A loop whose rounds lead from an assertion about the remaining items to the next. -/
theorem wp_forEach {f : β → Prog σ κ ρ ε τ Unit}
    (P : List β → Sys σ τ → Sys σ τ → Prop) :
    ∀ (l : List β),
      (∀ x rest, (x :: rest) <:+ l → ∀ s₀ s, P (x :: rest) s₀ s →
        WP C (fun _ => P rest) E (f x) s₀ s) →
      ∀ s₀ s, P l s₀ s → WP C (fun _ => P []) E (forEach l f) s₀ s
  | [], _, _, _, h => h
  | x :: rest, hf, s₀, s, h => by
      unfold forEach
      rw [wp_bind]
      apply WP.mono _ _ (hf x rest (List.suffix_refl _) s₀ s h)
      · intro _ s₀ s hs
        exact wp_forEach P rest
          (fun y l hy => hf y l (hy.trans (List.suffix_cons x rest))) s₀ s hs
      · exact fun _ _ _ he => he

end Rules

section Keeping

variable {C : Contract σ κ τ} {I : Sys σ τ → Sys σ τ → Prop}

/-- An assertion about the running segment that may be carried through suspensions. -/
structure Carried (C : Contract σ κ τ) (I : Sys σ τ → Sys σ τ → Prop) : Prop where
  guar : ∀ s₀ s, I s₀ s → C.guar s₀ s
  resume : ∀ s₀ s s', I s₀ s → C.rely s s' → I s' s'

/-- A step that an assertion survives. -/
def Respects (I R : Sys σ τ → Sys σ τ → Prop) : Prop :=
  ∀ s₀ s t, I s₀ s → R s t → I s₀ t

/-- A program that keeps an assertion, however it ends. -/
def Keeps (C : Contract σ κ τ) (I : Sys σ τ → Sys σ τ → Prop)
    (p : Prog σ κ ρ ε τ α) : Prop :=
  ∀ s₀ s, I s₀ s → WP C (fun _ => I) (fun _ => I) p s₀ s

namespace Keeps

theorem ret (a : α) : Keeps C I (.ret a : Prog σ κ ρ ε τ α) :=
  fun _ _ h => h

theorem raise (e : ε) : Keeps C I (.raise e : Prog σ κ ρ ε τ α) :=
  fun _ _ h => h

theorem cut (hI : Carried C I) : Keeps C I (.cut : Prog σ κ ρ ε τ α) :=
  fun s₀ s h => hI.guar s₀ s h

theorem bind {p : Prog σ κ ρ ε τ α} {f : α → Prog σ κ ρ ε τ β}
    (hp : Keeps C I p) (hf : ∀ a, Keeps C I (f a)) : Keeps C I (p.bind f) := by
  intro s₀ s h
  rw [wp_bind]
  exact WP.mono (fun a s₀ s hs => hf a s₀ s hs) (fun _ _ _ he => he) (hp s₀ s h)

/-- Continue under an assertion that the first part keeps. -/
theorem andThen {J : Sys σ τ → Sys σ τ → Prop} {p : Prog σ κ ρ ε τ α}
    {f : α → Prog σ κ ρ ε τ β} {Q : β → Sys σ τ → Sys σ τ → Prop}
    {E : ε → Sys σ τ → Sys σ τ → Prop} {s₀ s : Sys σ τ} (hp : Keeps C J p) (h : J s₀ s)
    (hE : ∀ e s₀ s, J s₀ s → E e s₀ s)
    (hf : ∀ a s₀ s, J s₀ s → WP C Q E (f a) s₀ s) : WP C Q E (p.bind f) s₀ s := by
  rw [wp_bind]
  exact WP.mono hf hE (hp s₀ s h)

/-- What follows a reading of the state may use the state that was read. -/
theorem read {f : σ → Prog σ κ ρ ε τ β}
    (hf : ∀ s₀ s, I s₀ s → WP C (fun _ => I) (fun _ => I) (f s.shared) s₀ s) :
    Keeps C I (Prog.read.bind f) :=
  fun s₀ s h => hf s₀ s h

theorem modify {f : σ → σ} (hf : ∀ s₀ s, I s₀ s → I s₀ (s.update f)) :
    Keeps C I (modify f : Prog σ κ ρ ε τ Unit) :=
  fun s₀ s h => hf s₀ s h

theorem attempt {f : σ → Except ε (α × σ)}
    (hf : ∀ s₀ s a w, I s₀ s → f s.shared = .ok (a, w) → I s₀ ⟨w, s.live⟩) :
    Keeps C I (attempt f : Prog σ κ ρ ε τ α) := by
  intro s₀ s h
  apply wp_attempt
  · intro a w ha
    exact hf s₀ s a w h ha
  · intro e _
    exact h

theorem attemptWith {f : σ → Except ε α × σ}
    (hf : ∀ s₀ s, I s₀ s → I s₀ ⟨(f s.shared).2, s.live⟩) :
    Keeps C I (attemptWith f : Prog σ κ ρ ε τ α) :=
  fun s₀ s h => wp_attemptWith f s₀ s (fun _ _ => hf s₀ s h) fun _ _ => hf s₀ s h

theorem await (hI : Carried C I) {c : κ} (hc : ∀ s₀ s, I s₀ s → C.note c s)
    {k : ρ → Prog σ κ ρ ε τ α} (hk : ∀ r, Keeps C I (k r)) : Keeps C I (.await c k) :=
  fun s₀ s h =>
    ⟨hI.guar s₀ s h, hc s₀ s h, fun s' hs r => hk r s' s' (hI.resume s₀ s s' h hs)⟩

theorem rescue {p : Prog σ κ ρ ε τ α} {h : ε → Option (Prog σ κ ρ ε τ α)}
    (hp : Keeps C I p) (hh : ∀ e q, h e = some q → Keeps C I q) :
    Keeps C I (p.rescue h) := by
  intro s₀ s hs
  rw [wp_rescue]
  refine WP.mono (fun _ _ _ hq => hq) ?_ (hp s₀ s hs)
  intro e s₀ s he
  cases hq : h e with
  | none =>
    exact he
  | some q =>
    exact hh e q hq s₀ s he

theorem forEach {l : List β} {f : β → Prog σ κ ρ ε τ Unit}
    (hf : ∀ x ∈ l, Keeps C I (f x)) : Keeps C I (forEach l f) :=
  fun s₀ s h => wp_forEach (fun _ => I) l
    (fun x _ hx => hf x (hx.subset List.mem_cons_self)) s₀ s h

end Keeps

end Keeping

section Families

variable {ι ν : Type}

/-- Whatever holds of a family of assertions before a step holds after it. -/
def Transfers (K : ι → Sys σ τ → Prop) (s t : Sys σ τ) : Prop := ∀ i, K i s → K i t

theorem Transfers.refl {K : ι → Sys σ τ → Prop} (s : Sys σ τ) : Transfers K s s :=
  fun _ h => h

theorem Transfers.trans {K : ι → Sys σ τ → Prop} {s t u : Sys σ τ} (h₁ : Transfers K s t)
    (h₂ : Transfers K t u) : Transfers K s u :=
  fun i h => h₂ i (h₁ i h)

/-- Rely on the assertions `K`, guarantee the assertions `L`, note those that `marks` names. -/
def Contract.carrying (K : ι → Sys σ τ → Prop) (L : ν → Sys σ τ → Prop) (marks : κ → Option ι) :
    Contract σ κ τ where
  rely := Transfers K
  guar := Transfers L
  note c s := ∀ i, marks c = some i → K i s
  rely_refl := Transfers.refl
  rely_trans _ _ _ := Transfers.trans

end Families

end Prog

end PrismServe.Lib
