import PrismServe.Lib.Coroutine

/-!
# What a coroutine says and hears

A coroutine is judged here by its exchanges: the calls that it makes and the
answers that it gets, in order.  `converse` follows it against given answers
and says where it stands when they run out.

A `Protocol` says which call may be made after which exchanges, and after which
exchanges a loop may go on for ever.  `Abides P R p s h Φ` means that `p`, which
starts in state `s` after the exchanges `h`, keeps to the protocol whatever it
is answered, and that `Φ` holds of all exchanges, of the result and of the state
when it ends.  `R` bounds what happens to the state during a call.  Nothing is
said about termination, unless the protocol forbids that a loop goes on for ever.
-/

namespace PrismServe.Lib

/-- Where a run stands that was followed for a while. -/
inductive Standing (κ ε α : Type)
  | waiting (c : κ)
  | returned (a : α)
  | raised (e : ε)
  /-- A loop was cut. -/
  | cut

/-- The rules of a dialogue. -/
structure Protocol (κ ρ : Type) where
  /-- The call may be made after the exchanges. -/
  allows : List (κ × ρ) → κ → Prop
  /-- A loop may go on for ever after the exchanges. -/
  rests : List (κ × ρ) → Prop

namespace Prog

variable {σ κ ρ ε τ α β : Type}

/-- Follow a coroutine against answers to whatever it calls; with each answer comes what happens
to the state meanwhile. -/
def converse : Prog σ κ ρ ε τ α → σ → List (κ → ρ × (σ → σ)) → List (κ × ρ) × Standing κ ε α
  | .ret a, _, _ => ([], .returned a)
  | .raise e, _, _ => ([], .raised e)
  | .sync u k, s, l => converse (k s) (u s) l
  | .await c _, _, [] => ([], .waiting c)
  | .await c k, s, f :: l =>
    ((c, (f c).1) :: (converse (k (f c).1) ((f c).2 s) l).1,
      (converse (k (f c).1) ((f c).2 s) l).2)
  | .spawn _ k, s, l => converse k s l
  | .cut, _, _ => ([], .cut)

/-- The coroutine keeps to the protocol, and `Φ` holds when it ends. -/
def Abides (P : Protocol κ ρ) (R : κ → σ → σ → Prop) :
    Prog σ κ ρ ε τ α → σ → List (κ × ρ) →
      (List (κ × ρ) → Except ε α → σ → Prop) → Prop
  | .ret a, s, h, Φ => Φ h (.ok a) s
  | .raise e, s, h, Φ => Φ h (.error e) s
  | .sync u k, s, h, Φ => Abides P R (k s) (u s) h Φ
  | .await c k, s, h, Φ =>
    P.allows h c ∧ ∀ x s', R c s s' → Abides P R (k x) s' (h ++ [(c, x)]) Φ
  | .spawn _ k, s, h, Φ => Abides P R k s h Φ
  | .cut, _, h, _ => P.rests h

/-- What is left to show when the first part of a sequence has ended. -/
def Then (P : Protocol κ ρ) (R : κ → σ → σ → Prop) (f : α → Prog σ κ ρ ε τ β)
    (Φ : List (κ × ρ) → Except ε β → σ → Prop) (h : List (κ × ρ)) (r : Except ε α) (s : σ) :
    Prop :=
  match r with
  | .ok a => Abides P R (f a) s h Φ
  | .error e => Φ h (.error e) s

section Rules

variable {P : Protocol κ ρ} {R : κ → σ → σ → Prop}
variable {Φ Ψ : List (κ × ρ) → Except ε α → σ → Prop} {s : σ} {h : List (κ × ρ)}

@[simp] theorem abides_ret (a : α) :
    Abides P R (.ret a : Prog σ κ ρ ε τ α) s h Φ ↔ Φ h (.ok a) s := Iff.rfl

@[simp] theorem abides_raise (e : ε) :
    Abides P R (.raise e : Prog σ κ ρ ε τ α) s h Φ ↔ Φ h (.error e) s := Iff.rfl

@[simp] theorem abides_cut : Abides P R (.cut : Prog σ κ ρ ε τ α) s h Φ ↔ P.rests h := Iff.rfl

variable {p : Prog σ κ ρ ε τ α} {Q : List (κ × ρ) → α → σ → Prop}

theorem Abides.mono (hp : Abides P R p s h Φ) (hΦ : ∀ h r t, Φ h r t → Ψ h r t) :
    Abides P R p s h Ψ := by
  induction p generalizing s h with
  | ret a =>
    exact hΦ _ _ _ hp
  | raise e =>
    exact hΦ _ _ _ hp
  | sync u k ih =>
    exact ih _ hp
  | await c k ih =>
    exact ⟨hp.1, fun x s' hs' => ih x (hp.2 x s' hs')⟩
  | spawn t k ih =>
    exact ih hp
  | cut =>
    exact hp

/-- Sequencing. -/
theorem abides_bind {Φ : List (κ × ρ) → Except ε β → σ → Prop} (p : Prog σ κ ρ ε τ α)
    (f : α → Prog σ κ ρ ε τ β) :
    Abides P R (p.bind f) s h Φ ↔ Abides P R p s h (Then P R f Φ) := by
  induction p generalizing s h with
  | ret a =>
    exact Iff.rfl
  | raise e =>
    exact Iff.rfl
  | sync u k ih =>
    exact ih _
  | await c k ih =>
    refine and_congr_right fun _ => forall_congr' fun x => forall_congr' fun s' => ?_
    exact imp_congr_right fun _ => ih x
  | spawn t k ih =>
    exact ih
  | cut =>
    exact Iff.rfl

/-- Sequencing, with what the first part is known to end with. -/
theorem Abides.bind {Φ : List (κ × ρ) → Except ε β → σ → Prop}
    {Θ : List (κ × ρ) → Except ε α → σ → Prop} {f : α → Prog σ κ ρ ε τ β} (hp : Abides P R p s h Θ)
    (hok : ∀ h' a t, Θ h' (.ok a) t → Abides P R (f a) t h' Φ)
    (herror : ∀ h' e t, Θ h' (.error e) t → Φ h' (.error e) t) : Abides P R (p.bind f) s h Φ := by
  refine (abides_bind p f).mpr (hp.mono fun h' r t hΘ => ?_)
  cases r with
  | ok a =>
    exact hok h' a t hΘ
  | error e =>
    exact herror h' e t hΘ

/-- The coroutine keeps to the protocol, and `Q` holds when it returns. -/
def Yields (P : Protocol κ ρ) (R : κ → σ → σ → Prop) (p : Prog σ κ ρ ε τ α) (s : σ)
    (h : List (κ × ρ)) (Q : List (κ × ρ) → α → σ → Prop) : Prop :=
  Abides P R p s h fun h' r t => ∀ a, r = .ok a → Q h' a t

theorem Yields.mono {Q Q' : List (κ × ρ) → α → σ → Prop} (hp : Yields P R p s h Q)
    (hQ : ∀ h' a t, Q h' a t → Q' h' a t) : Yields P R p s h Q' :=
  Abides.mono hp fun h' _ t hr a ha => hQ h' a t (hr a ha)

theorem yields_ret {a : α} (ha : Q h a s) : Yields P R (.ret a : Prog σ κ ρ ε τ α) s h Q := by
  rintro b ⟨⟩
  exact ha

theorem yields_raise (e : ε) : Yields P R (.raise e : Prog σ κ ρ ε τ α) s h Q := by
  rintro a ⟨⟩

theorem Yields.bind {Q' : List (κ × ρ) → β → σ → Prop} {f : α → Prog σ κ ρ ε τ β}
    (hp : Yields P R p s h Q) (hf : ∀ h' a t, Q h' a t → Yields P R (f a) t h' Q') :
    Yields P R (p.bind f) s h Q' := by
  refine Abides.bind hp (fun h' a t ha => hf h' a t (ha a rfl)) ?_
  rintro h' e t - b ⟨⟩

/-- What `Abides` says of a run that was followed for a while. -/
def Kept (P : Protocol κ ρ) (Φ : List (κ × ρ) → Except ε α → σ → Prop) (h : List (κ × ρ)) :
    Standing κ ε α → Prop
  | .waiting c => P.allows h c
  | .returned a => ∃ t, Φ h (.ok a) t
  | .raised e => ∃ t, Φ h (.error e) t
  | .cut => P.rests h

/-- Every call of a run was allowed when it was made, and so is where the run stands. -/
theorem Abides.converse {answers : List (κ → ρ × (σ → σ))} (hp : Abides P R p s h Φ)
    (hanswers : ∀ f ∈ answers, ∀ c t, R c t ((f c).2 t)) :
    (∀ before c x after, (p.converse s answers).1 = before ++ (c, x) :: after →
      P.allows (h ++ before) c) ∧
      Kept P Φ (h ++ (p.converse s answers).1) (p.converse s answers).2 := by
  induction p generalizing s h answers with
  | ret a =>
    exact ⟨by simp [Prog.converse], s, by simpa [Prog.converse] using hp⟩
  | raise e =>
    exact ⟨by simp [Prog.converse], s, by simpa [Prog.converse] using hp⟩
  | sync u k ih =>
    exact ih s hp hanswers
  | await c k ih =>
    cases answers with
    | nil =>
      exact ⟨by simp [Prog.converse], by simpa [Prog.converse, Kept] using hp.1⟩
    | cons f answers =>
      have hfirst : R c s ((f c).2 s) := hanswers f List.mem_cons_self c s
      obtain ⟨hcalls, hend⟩ := ih (f c).1 (hp.2 (f c).1 ((f c).2 s) hfirst)
        fun g hg => hanswers g (List.mem_cons_of_mem _ hg)
      refine ⟨fun before c' x' after heq => ?_, by simpa [Prog.converse] using hend⟩
      cases before with
      | nil =>
        obtain ⟨hcall, -⟩ := List.cons.inj heq
        cases hcall
        simpa using hp.1
      | cons b before =>
        obtain ⟨rfl, hrest⟩ := List.cons.inj heq
        simpa using hcalls before c' x' after hrest
  | spawn t k ih =>
    exact ih hp hanswers
  | cut =>
    exact ⟨by simp [Prog.converse], by simpa [Prog.converse, Kept] using hp⟩

end Rules

end Prog

end PrismServe.Lib
