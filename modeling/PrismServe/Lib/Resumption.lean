import PrismServe.Lib.Coroutine

/-!
# Programs that crash and are run again

A program that is run on its own may stop at any call, because the process dies
there.  `Stands R p s t` says that `t` is a state in which `p`, started in `s`,
may be found: at a call that was not answered, or at its end.  `R` says how a
call may be answered.

`Warrants R N p s Φ` is the rule for it: `N` holds at every call, and `Φ` of the
result and the state at the end.  Since a program without `cut` comes to its end
whenever its calls are answered, this is also total correctness.

`Resumes R boot p` starts the program again and again in what the previous
attempt left behind.
-/

namespace PrismServe.Lib

namespace Prog

variable {σ κ ρ ε α β : Type}

/-- The program keeps `N` at its calls, and ends with `Φ`. -/
def Warrants (R : κ → σ → ρ → Prop) (N : κ → σ → Prop) :
    Prog σ κ ρ ε Empty α → σ → (Except ε α → σ → Prop) → Prop
  | .ret a, s, Φ => Φ (.ok a) s
  | .raise e, s, Φ => Φ (.error e) s
  | .sync u k, s, Φ => Warrants R N (k s) (u s) Φ
  | .await c k, s, Φ => N c s ∧ ∀ x, R c s x → Warrants R N (k x) s Φ
  | .spawn _ k, s, Φ => Warrants R N k s Φ
  | .cut, _, _ => False

/-- A state in which the program may be found. -/
def Stands (R : κ → σ → ρ → Prop) : Prog σ κ ρ ε Empty α → σ → σ → Prop
  | .ret _, s, t => t = s
  | .raise _, s, t => t = s
  | .sync u k, s, t => Stands R (k s) (u s) t
  | .await c k, s, t => t = s ∨ ∃ x, R c s x ∧ Stands R (k x) s t
  | .spawn _ k, s, t => Stands R k s t
  | .cut, s, t => t = s

/-- What is left to show when the first part of a sequence has ended. -/
def WarrantsThen (R : κ → σ → ρ → Prop) (N : κ → σ → Prop) (f : α → Prog σ κ ρ ε Empty β)
    (Φ : Except ε β → σ → Prop) (r : Except ε α) (s : σ) : Prop :=
  match r with
  | .ok a => Warrants R N (f a) s Φ
  | .error e => Φ (.error e) s

/-- What is left to show when a guarded program has ended. -/
def WarrantsCaught (R : κ → σ → ρ → Prop) (N : κ → σ → Prop)
    (h : ε → Option (Prog σ κ ρ ε Empty α)) (Φ : Except ε α → σ → Prop) (r : Except ε α) (s : σ) :
    Prop :=
  match r with
  | .ok a => Φ (.ok a) s
  | .error e => Warrants R N ((h e).getD (.raise e)) s Φ

section Rules

variable {R : κ → σ → ρ → Prop} {N : κ → σ → Prop} {Φ Ψ : Except ε α → σ → Prop} {s t : σ}

@[simp] theorem warrants_sync (u : σ → σ) (k : σ → Prog σ κ ρ ε Empty α) :
    Warrants R N (.sync u k) s Φ ↔ Warrants R N (k s) (u s) Φ := Iff.rfl

variable {p : Prog σ κ ρ ε Empty α}

theorem Warrants.mono (h : Warrants R N p s Φ) (hΦ : ∀ r t, Φ r t → Ψ r t) :
    Warrants R N p s Ψ := by
  induction p generalizing s with
  | ret a =>
    exact hΦ _ _ h
  | raise e =>
    exact hΦ _ _ h
  | sync u k ih =>
    exact ih _ h
  | await c k ih =>
    exact ⟨h.1, fun x hx => ih x (h.2 x hx)⟩
  | spawn t k ih =>
    exact t.elim
  | cut =>
    exact h

theorem warrants_bind {Φ : Except ε β → σ → Prop} (p : Prog σ κ ρ ε Empty α)
    (f : α → Prog σ κ ρ ε Empty β) :
    Warrants R N (p.bind f) s Φ ↔ Warrants R N p s (WarrantsThen R N f Φ) := by
  induction p generalizing s with
  | ret a =>
    exact Iff.rfl
  | raise e =>
    exact Iff.rfl
  | sync u k ih =>
    exact ih _
  | await c k ih =>
    exact and_congr_right fun _ => forall_congr' fun x => imp_congr_right fun _ => ih x
  | spawn t k ih =>
    exact t.elim
  | cut =>
    exact Iff.rfl

theorem warrants_rescue (p : Prog σ κ ρ ε Empty α) (h : ε → Option (Prog σ κ ρ ε Empty α)) :
    Warrants R N (p.rescue h) s Φ ↔ Warrants R N p s (WarrantsCaught R N h Φ) := by
  induction p generalizing s with
  | ret a =>
    exact Iff.rfl
  | raise e =>
    exact Iff.rfl
  | sync u k ih =>
    exact ih _
  | await c k ih =>
    exact and_congr_right fun _ => forall_congr' fun x => imp_congr_right fun _ => ih x
  | spawn t k ih =>
    exact t.elim
  | cut =>
    exact Iff.rfl

/-- Sequencing, with what the first part is known to end with. -/
theorem Warrants.bind {Φ : Except ε β → σ → Prop} {f : α → Prog σ κ ρ ε Empty β}
    (hp : Warrants R N p s Ψ) (hok : ∀ a t, Ψ (.ok a) t → Warrants R N (f a) t Φ)
    (herror : ∀ e t, Ψ (.error e) t → Φ (.error e) t) : Warrants R N (p.bind f) s Φ := by
  refine (warrants_bind p f).mpr (hp.mono fun r t hr => ?_)
  cases r with
  | ok a =>
    exact hok a t hr
  | error e =>
    exact herror e t hr

/-- A guarded program, with what the guarded part is known to end with. -/
theorem Warrants.rescue {h : ε → Option (Prog σ κ ρ ε Empty α)} (hp : Warrants R N p s Ψ)
    (hok : ∀ a t, Ψ (.ok a) t → Φ (.ok a) t)
    (herror : ∀ e t, Ψ (.error e) t → Warrants R N ((h e).getD (.raise e)) t Φ) :
    Warrants R N (p.rescue h) s Φ := by
  refine (warrants_rescue p h).mpr (hp.mono fun r t hr => ?_)
  cases r with
  | ok a =>
    exact hok a t hr
  | error e =>
    exact herror e t hr

/-- Wherever the program is found, the assertion about its calls holds. -/
theorem Warrants.stands {I : σ → Prop} (h : Warrants R (fun _ => I) p s fun _ t => I t)
    (ht : Stands R p s t) : I t := by
  induction p generalizing s with
  | ret a =>
    exact ht ▸ h
  | raise e =>
    exact ht ▸ h
  | sync u k ih =>
    exact ih _ h ht
  | await c k ih =>
    rcases ht with rfl | ⟨x, hx, ht⟩
    · exact h.1
    · exact ih x (h.2 x hx) ht
  | spawn t k ih =>
    exact t.elim
  | cut =>
    exact h.elim

end Rules

/-- Where the program is found when its calls have been answered in turn. -/
def follow : Prog σ κ ρ ε Empty α → List ρ → σ → σ
  | .ret _, _, s => s
  | .raise _, _, s => s
  | .sync u k, xs, s => follow (k s) xs (u s)
  | .await _ _, [], s => s
  | .await _ k, x :: xs, s => follow (k x) xs s
  | .spawn _ k, xs, s => follow k xs s
  | .cut, _, s => s

/-- Where every answer is allowed. -/
theorem stands_follow {R : κ → σ → ρ → Prop} (hR : ∀ c s x, R c s x)
    (p : Prog σ κ ρ ε Empty α) : ∀ (xs : List ρ) (s : σ), Stands R p s (follow p xs s) := by
  induction p with
  | ret a =>
    exact fun _ _ => rfl
  | raise e =>
    exact fun _ _ => rfl
  | sync u k ih =>
    exact fun xs s => ih s xs (u s)
  | await c k ih =>
    intro xs s
    cases xs with
    | nil =>
      exact Or.inl rfl
    | cons x xs =>
      exact Or.inr ⟨x, hR c s x, ih x xs s⟩
  | spawn t k ih =>
    exact t.elim
  | cut =>
    exact fun _ _ => rfl

/-! ## Programs that keep an assertion -/

/-- The program keeps `P`, however it ends, and `I` holds at its calls. -/
def Retains (R : κ → σ → ρ → Prop) (I P : σ → Prop) (p : Prog σ κ ρ ε Empty α) : Prop :=
  ∀ s, P s → Warrants R (fun _ => I) p s fun _ t => P t

namespace Retains

variable {R : κ → σ → ρ → Prop} {I P : σ → Prop}

theorem ret (a : α) : Retains R I P (.ret a : Prog σ κ ρ ε Empty α) := fun _ h => h

theorem raise (e : ε) : Retains R I P (.raise e : Prog σ κ ρ ε Empty α) := fun _ h => h

theorem sync {u : σ → σ} {k : σ → Prog σ κ ρ ε Empty α}
    (hk : ∀ s, P s → Warrants R (fun _ => I) (k s) (u s) fun _ t => P t) :
    Retains R I P (.sync u k) := hk

theorem bind {p : Prog σ κ ρ ε Empty α} {f : α → Prog σ κ ρ ε Empty β} (hp : Retains R I P p)
    (hf : ∀ a, Retains R I P (f a)) : Retains R I P (p.bind f) :=
  fun s h => Warrants.bind (hp s h) (fun a t ht => hf a t ht) fun _ _ ht => ht

theorem rescue {p : Prog σ κ ρ ε Empty α} {h : ε → Option (Prog σ κ ρ ε Empty α)}
    (hp : Retains R I P p) (hh : ∀ e q, h e = some q → Retains R I P q) :
    Retains R I P (p.rescue h) := by
  intro s hs
  refine Warrants.rescue (hp s hs) (fun _ _ ht => ht) fun e t ht => ?_
  cases hq : h e with
  | none =>
    exact ht
  | some q =>
    exact hh e q hq t ht

theorem forEach {l : List β} {f : β → Prog σ κ ρ ε Empty Unit}
    (hf : ∀ x ∈ l, Retains R I P (f x)) : Retains R I P (forEach l f) := by
  induction l with
  | nil =>
    exact Retains.ret ()
  | cons x rest ih =>
    exact (hf x List.mem_cons_self).bind fun _ =>
      ih fun y hy => hf y (List.mem_cons_of_mem x hy)

end Retains

/-- Attempts at a program, each in what the previous one left behind. -/
inductive Resumes (R : κ → σ → ρ → Prop) (boot : σ → σ) (p : Prog σ κ ρ ε Empty α) (s : σ) :
    σ → Prop
  | none : Resumes R boot p s s
  | again {t u : σ} (h : Resumes R boot p s t) (hu : Stands R p (boot t) u) :
      Resumes R boot p s u

/-- What every attempt keeps holds wherever an attempt is found. -/
theorem Resumes.keeps {R : κ → σ → ρ → Prop} {boot : σ → σ} {p : Prog σ κ ρ ε Empty α} {s t : σ}
    {I : σ → Prop} (h : Resumes R boot p s t)
    (hp : ∀ s, I s → Warrants R (fun _ => I) p (boot s) fun _ t => I t) (hs : I s) : I t := by
  induction h with
  | none =>
    exact hs
  | again _ hu ih =>
    exact (hp _ ih).stands hu

end Prog

end PrismServe.Lib
