import Mathlib.Tactic

/-!
# Methods that raise

Equations for checks, which return or raise, and for methods, which also change
a state and keep the state they have reached when they raise.
-/

namespace PrismServe.Lib

universe u

section Checks

variable {ε α β : Type u}

@[simp] theorem ok_bind (a : α) (f : α → Except ε β) : (Except.ok a >>= f) = f a := rfl

@[simp] theorem error_bind (e : ε) (f : α → Except ε β) :
    ((Except.error e : Except ε α) >>= f) = .error e := rfl

@[simp] theorem return_eq_ok (a : α) : (pure a : Except ε α) = .ok a := rfl

@[simp] theorem throw_eq_error (e : ε) : (throw e : Except ε α) = .error e := rfl

/-- A sequence of checks passes when each of them does. -/
theorem bind_eq_ok {x : Except ε α} {f : α → Except ε β} {b : β} :
    x >>= f = .ok b ↔ ∃ a, x = .ok a ∧ f a = .ok b := by
  cases x with
  | ok a =>
    simp
  | error e =>
    simp

/-- A list is checked item by item. -/
theorem mapM_eq_ok {f : α → Except ε β} {l : List α} {l' : List β} :
    l.mapM f = .ok l' ↔ List.Forall₂ (fun a b => f a = .ok b) l l' := by
  induction l generalizing l' with
  | nil =>
    rw [List.mapM_nil, return_eq_ok, List.forall₂_nil_left_iff, Except.ok.injEq, eq_comm]
  | cons a rest ih =>
    simp only [List.mapM_cons, bind_eq_ok, return_eq_ok, Except.ok.injEq,
      List.forall₂_cons_left_iff, ih]
    constructor
    · rintro ⟨b, hb, rest', hrest, rfl⟩
      exact ⟨b, rest', hb, hrest, rfl⟩
    · rintro ⟨b, rest', hb, hrest, rfl⟩
      exact ⟨b, hb, rest', hrest, rfl⟩

end Checks

section Ensuring

variable {ε α : Type}

/-- A check that raises unless the condition holds. -/
def ensure (holds : Bool) (e : ε) : Except ε Unit := if holds then .ok () else .error e

@[simp] theorem ensure_eq_ok {holds : Bool} {e : ε} {u : Unit} :
    ensure holds e = .ok u ↔ holds = true := by
  cases holds <;> simp [ensure]

theorem ensure_bind_eq_ok {holds : Bool} {e : ε} {next : Unit → Except ε α} {a : α} :
    (ensure holds e >>= next) = .ok a ↔ holds = true ∧ next () = .ok a := by
  cases holds <;> simp [ensure]

@[simp] theorem mapError_eq_ok {ε' : Type} {f : ε → ε'} {x : Except ε α} {a : α} :
    x.mapError f = .ok a ↔ x = .ok a := by
  cases x <;> simp [Except.mapError]

/-- Every item of a list is checked. -/
theorem forM_eq_ok {f : α → Except ε Unit} {l : List α} {u : Unit} :
    l.forM f = .ok u ↔ ∀ x ∈ l, f x = .ok () := by
  induction l with
  | nil =>
    exact iff_of_true rfl (by simp)
  | cons x rest ih =>
    change (f x >>= fun _ => rest.forM f) = .ok u ↔ _
    rw [bind_eq_ok, List.forall_mem_cons, ← ih]
    exact ⟨fun ⟨_, hx, hrest⟩ => ⟨hx, hrest⟩, fun ⟨hx, hrest⟩ => ⟨(), hx, hrest⟩⟩

end Ensuring

section Methods

variable {ε σ α β : Type u}

@[simp] theorem run_raise (e : ε) (s : σ) :
    (throw e : EStateM ε σ α).run s = .error e s := rfl

@[simp] theorem run_map (f : α → β) (x : EStateM ε σ α) (s : σ) :
    (f <$> x).run s = match x.run s with
      | .ok a t => .ok (f a) t
      | .error e t => .error e t := rfl

@[simp] theorem run_handle (x : EStateM ε σ α) (f : ε → EStateM ε σ α) (s : σ) :
    (tryCatch x f).run s = match x.run s with
      | .ok a t => .ok a t
      | .error e t => (f e).run t := by
  change EStateM.tryCatch x f s = match x s with
    | .ok a t => .ok a t
    | .error e t => f e t
  unfold EStateM.tryCatch
  cases x s with
  | ok a t =>
    rfl
  | error e t =>
    rfl

end Methods

end PrismServe.Lib
