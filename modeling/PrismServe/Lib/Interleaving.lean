import PrismServe.Lib.TaskPool

/-!
# One coroutine among others

`Leads R p s Φ` is total correctness of a single coroutine in an environment:
every run of `p` from `s` comes to its end, and `Φ` holds of the suspensions on
the way, of the result and of the final state.  The environment `R` says how a
call may be answered and in which state the coroutine may find the system when
it resumes.

A `Visit` keeps both sides of a suspension apart: the state in which the
coroutine left the system and the one in which it came back.  What lies between
two visits is the work of the coroutine itself; `Leaves f` says that none of it
changes `f`.

`drive` runs a coroutine against given answers.
-/

namespace PrismServe.Lib

/-- A suspension: the call, its answer, and the states before and after it. -/
structure Visit (σ κ ρ τ : Type) where
  call : κ
  reply : ρ
  left : Sys σ τ
  back : Sys σ τ

/-- Which answers a call may get, and what the others may have done meanwhile. -/
abbrev Env (σ κ ρ τ : Type) := κ → Sys σ τ → ρ → Sys σ τ → Prop

namespace Prog

variable {σ κ ρ ε τ α β : Type}

/-- Every run ends, and `Φ` holds of its visits, its result and its final state. -/
def Leads (R : Env σ κ ρ τ) :
    Prog σ κ ρ ε τ α → Sys σ τ →
      (List (Visit σ κ ρ τ) → Except ε α → Sys σ τ → Prop) → Prop
  | .ret a, s, Φ => Φ [] (.ok a) s
  | .raise e, s, Φ => Φ [] (.error e) s
  | .sync u k, s, Φ => Leads R (k s.shared) (s.update u) Φ
  | .await c k, s, Φ =>
    ∀ x s', R c s x s' → Leads R (k x) s' fun l r t => Φ (⟨c, x, s, s'⟩ :: l) r t
  | .spawn t k, s, Φ => Leads R k (s.start t) Φ
  | .cut, _, _ => False

/-- What is left to show when the first part of a sequence has ended. -/
def After (R : Env σ κ ρ τ) (f : α → Prog σ κ ρ ε τ β)
    (Φ : List (Visit σ κ ρ τ) → Except ε β → Sys σ τ → Prop)
    (l : List (Visit σ κ ρ τ)) (r : Except ε α) (u : Sys σ τ) : Prop :=
  match r with
  | .ok a => Leads R (f a) u fun l' r t => Φ (l ++ l') r t
  | .error e => Φ l (.error e) u

/-- What is left to show when a guarded program has ended. -/
def Handled (R : Env σ κ ρ τ) (h : ε → Option (Prog σ κ ρ ε τ α))
    (Φ : List (Visit σ κ ρ τ) → Except ε α → Sys σ τ → Prop)
    (l : List (Visit σ κ ρ τ)) (r : Except ε α) (u : Sys σ τ) : Prop :=
  match r with
  | .ok a => Φ l (.ok a) u
  | .error e => Leads R ((h e).getD (.raise e)) u fun l' r t => Φ (l ++ l') r t

section Rules

variable {R : Env σ κ ρ τ} {Φ Ψ : List (Visit σ κ ρ τ) → Except ε α → Sys σ τ → Prop}

@[simp] theorem leads_ret (a : α) (s : Sys σ τ) :
    Leads R (.ret a : Prog σ κ ρ ε τ α) s Φ ↔ Φ [] (.ok a) s := Iff.rfl

@[simp] theorem leads_raise (e : ε) (s : Sys σ τ) :
    Leads R (.raise e : Prog σ κ ρ ε τ α) s Φ ↔ Φ [] (.error e) s := Iff.rfl

@[simp] theorem leads_sync (u : σ → σ) (k : σ → Prog σ κ ρ ε τ α) (s : Sys σ τ) :
    Leads R (.sync u k) s Φ ↔ Leads R (k s.shared) (s.update u) Φ := Iff.rfl

variable {p : Prog σ κ ρ ε τ α} {s : Sys σ τ} {f : α → Prog σ κ ρ ε τ β}
variable {Ω : List (Visit σ κ ρ τ) → Except ε β → Sys σ τ → Prop}
variable {h : ε → Option (Prog σ κ ρ ε τ α)}

@[simp] theorem after_ok (l : List (Visit σ κ ρ τ)) (a : α) (u : Sys σ τ) :
    After R f Ω l (.ok a) u ↔ Leads R (f a) u fun l' r t => Ω (l ++ l') r t := Iff.rfl

@[simp] theorem after_error (l : List (Visit σ κ ρ τ)) (e : ε) (u : Sys σ τ) :
    After R f Ω l (.error e) u ↔ Ω l (.error e) u := Iff.rfl

@[simp] theorem handled_ok (l : List (Visit σ κ ρ τ)) (a : α) (u : Sys σ τ) :
    Handled R h Φ l (.ok a) u ↔ Φ l (.ok a) u := Iff.rfl

@[simp] theorem handled_error (l : List (Visit σ κ ρ τ)) (e : ε) (u : Sys σ τ) :
    Handled R h Φ l (.error e) u ↔
      Leads R ((h e).getD (.raise e)) u fun l' r t => Φ (l ++ l') r t := Iff.rfl

theorem Leads.mono (h : Leads R p s Φ) (hΦ : ∀ l r t, Φ l r t → Ψ l r t) : Leads R p s Ψ := by
  induction p generalizing s Φ Ψ with
  | ret a =>
    exact hΦ _ _ _ h
  | raise e =>
    exact hΦ _ _ _ h
  | sync u k ih =>
    exact ih _ h hΦ
  | await c k ih =>
    exact fun x s' hx => ih x (h x s' hx) fun l r t => hΦ _ r t
  | spawn t k ih =>
    exact ih h hΦ
  | cut =>
    exact h

theorem leads_congr (hΦ : ∀ l r t, Φ l r t ↔ Ψ l r t) : Leads R p s Φ ↔ Leads R p s Ψ :=
  ⟨fun h => h.mono fun l r t => (hΦ l r t).mp, fun h => h.mono fun l r t => (hΦ l r t).mpr⟩

/-- Sequencing. -/
theorem leads_bind : Leads R (p.bind f) s Ω ↔ Leads R p s (After R f Ω) := by
  induction p generalizing s Ω with
  | ret a =>
    rfl
  | raise e =>
    rfl
  | sync u k ih =>
    exact ih _
  | await c k ih =>
    refine forall_congr' fun x => forall_congr' fun s' => imp_congr_right fun _ => ?_
    refine (ih x).trans (leads_congr fun l r t => ?_)
    cases r <;> rfl
  | spawn t k ih =>
    exact ih
  | cut =>
    rfl

/-- A handler takes over the exceptions that it accepts. -/
theorem leads_rescue : Leads R (p.rescue h) s Φ ↔ Leads R p s (Handled R h Φ) := by
  induction p generalizing s Φ with
  | ret a =>
    rfl
  | raise e =>
    rfl
  | sync u k ih =>
    exact ih _
  | await c k ih =>
    refine forall_congr' fun x => forall_congr' fun s' => imp_congr_right fun _ => ?_
    refine (ih x).trans (leads_congr fun l r t => ?_)
    cases r <;> rfl
  | spawn t k ih =>
    exact ih
  | cut =>
    rfl

/-- Sequencing by a specification of the first part. -/
theorem Leads.bind (hp : Leads R p s Ψ) (hf : ∀ l r u, Ψ l r u → After R f Ω l r u) :
    Leads R (p.bind f) s Ω :=
  leads_bind.mpr (hp.mono hf)

@[simp] theorem leads_read {Φ : List (Visit σ κ ρ τ) → Except ε σ → Sys σ τ → Prop} :
    Leads R (read : Prog σ κ ρ ε τ σ) s Φ ↔ Φ [] (.ok s.shared) s := Iff.rfl

theorem leads_read_bind {f : σ → Prog σ κ ρ ε τ β} :
    Leads R (read.bind f) s Ω ↔ Leads R (f s.shared) s Ω := Iff.rfl

theorem leads_modify_bind {u : σ → σ} {f : Unit → Prog σ κ ρ ε τ β} :
    Leads R ((modify u).bind f) s Ω ↔ Leads R (f ()) (s.update u) Ω := Iff.rfl

@[simp] theorem leads_modify {Φ : List (Visit σ κ ρ τ) → Except ε Unit → Sys σ τ → Prop}
    {f : σ → σ} :
    Leads R (modify f : Prog σ κ ρ ε τ Unit) s Φ ↔ Φ [] (.ok ()) (s.update f) := Iff.rfl

theorem leads_attempt_ok {f : σ → Except ε (α × σ)} {a : α} {w : σ} (hf : f s.shared = .ok (a, w)) :
    Leads R (attempt f : Prog σ κ ρ ε τ α) s Φ ↔ Φ [] (.ok a) ⟨w, s.live⟩ := by
  simp [attempt, hf, Sys.update]

theorem leads_attempt_error {f : σ → Except ε (α × σ)} {e : ε} (hf : f s.shared = .error e) :
    Leads R (attempt f : Prog σ κ ρ ε τ α) s Φ ↔ Φ [] (.error e) s := by
  simp [attempt, hf, Sys.update]

theorem leads_attempt {f : σ → Except ε (α × σ)}
    (hok : ∀ a w, f s.shared = .ok (a, w) → Φ [] (.ok a) ⟨w, s.live⟩)
    (herr : ∀ e, f s.shared = .error e → Φ [] (.error e) s) :
    Leads R (attempt f : Prog σ κ ρ ε τ α) s Φ := by
  cases hf : f s.shared with
  | error e =>
    exact (leads_attempt_error hf).mpr (herr e hf)
  | ok r =>
    exact (leads_attempt_ok hf).mpr (hok r.1 r.2 hf)

theorem leads_attemptWith (f : σ → Except ε α × σ) (s : Sys σ τ) :
    Leads R (attemptWith f : Prog σ κ ρ ε τ α) s Φ ↔
      Φ [] (f s.shared).1 (s.update fun w => (f w).2) := by
  unfold attemptWith
  rw [leads_sync]
  cases (f s.shared).1 <;> rfl

/-- A program without suspensions ends. -/
theorem Atomic.leads (hp : p.Atomic) (h : ∀ r t, Φ [] r t) : Leads R p s Φ := by
  induction p generalizing s with
  | ret a =>
    exact h _ _
  | raise e =>
    exact h _ _
  | sync u k ih =>
    exact ih _ (hp _)
  | await c k ih =>
    exact hp.elim
  | spawn t k ih =>
    exact ih hp
  | cut =>
    exact hp.elim

theorem Leads.and (h : Leads R p s Φ) (h' : Leads R p s Ψ) :
    Leads R p s fun l r t => Φ l r t ∧ Ψ l r t := by
  induction p generalizing s Φ Ψ with
  | ret a =>
    exact ⟨h, h'⟩
  | raise e =>
    exact ⟨h, h'⟩
  | sync u k ih =>
    exact ih _ h h'
  | await c k ih =>
    exact fun x s' hx => ih x (h x s' hx) (h' x s' hx)
  | spawn t k ih =>
    exact ih h h'
  | cut =>
    exact h

/-- In an environment that always answers there is a run. -/
theorem Leads.run (h : Leads R p s Φ) (hR : ∀ c s, ∃ x t, R c s x t) : ∃ l r t, Φ l r t := by
  induction p generalizing s Φ with
  | ret a =>
    exact ⟨_, _, _, h⟩
  | raise e =>
    exact ⟨_, _, _, h⟩
  | sync u k ih =>
    exact ih _ h
  | await c k ih =>
    obtain ⟨x, t, hx⟩ := hR c s
    obtain ⟨l, r, t', hl⟩ := ih x (h x t hx)
    exact ⟨_, r, t', hl⟩
  | spawn t k ih =>
    exact ih h
  | cut =>
    exact h.elim

/-- The environment allows every visit of a run. -/
theorem Leads.visits (h : Leads R p s Φ) :
    Leads R p s fun l r t => Φ l r t ∧ ∀ v ∈ l, R v.call v.left v.reply v.back := by
  induction p generalizing s Φ with
  | ret a =>
    exact ⟨h, by simp⟩
  | raise e =>
    exact ⟨h, by simp⟩
  | sync u k ih =>
    exact ih _ h
  | await c k ih =>
    intro x s' hx
    exact (ih x (h x s' hx)).mono fun _ _ _ hl => ⟨hl.1, List.forall_mem_cons.mpr ⟨hx, hl.2⟩⟩
  | spawn t k ih =>
    exact ih h
  | cut =>
    exact h

end Rules

/-! ## What the coroutine itself leaves alone -/

/-- The coroutine's own steps, between its visits, leave `f` as it is. -/
def Leaves (f : σ → β) : Sys σ τ → List (Visit σ κ ρ τ) → Sys σ τ → Prop
  | s, [], t => f t.shared = f s.shared
  | s, v :: l, t => f v.left.shared = f s.shared ∧ Leaves f v.back l t

section Leaving

variable {f : σ → β} {s u t : Sys σ τ}

theorem Leaves.append :
    ∀ {l : List (Visit σ κ ρ τ)} {s : Sys σ τ} {l' : List (Visit σ κ ρ τ)},
      Leaves f s l u → Leaves f u l' t → Leaves f s (l ++ l') t
  | [], _, [], h, h' => h'.trans h
  | [], _, _ :: _, h, h' => ⟨h'.1.trans h, h'.2⟩
  | _ :: l, _, _, h, h' => ⟨h.1, Leaves.append (l := l) h.2 h'⟩

/-- A further own step that leaves `f` alone. -/
theorem Leaves.step :
    ∀ {l : List (Visit σ κ ρ τ)} {s : Sys σ τ},
      Leaves f s l u → f t.shared = f u.shared → Leaves f s l t
  | [], _, h, ht => ht.trans h
  | _ :: l, _, h, ht => ⟨h.1, Leaves.step (l := l) h.2 ht⟩

/-- An own step before, that leaves `f` alone. -/
theorem Leaves.after {l : List (Visit σ κ ρ τ)} (h : Leaves f u l t)
    (hu : f u.shared = f s.shared) : Leaves f s l t := by
  cases l with
  | nil =>
    exact h.trans hu
  | cons v l =>
    exact ⟨h.1.trans hu, h.2⟩

/-- Own steps that change nothing leave every part alone. -/
theorem Leaves.of_id (f : σ → β) :
    ∀ {l : List (Visit σ κ ρ τ)} {s : Sys σ τ}, Leaves id s l t → Leaves f s l t
  | [], _, h => congrArg f h
  | _ :: l, _, h => ⟨congrArg f h.1, Leaves.of_id f (l := l) h.2⟩

end Leaving

/-! ## What holds whenever the others can look -/

/-- The states in which a run lets the others go on, each with the visits made before it. -/
inductive Seen (l : List (Visit σ κ ρ τ)) (t : Sys σ τ) : List (Visit σ κ ρ τ) → Sys σ τ → Prop
  | visit {l₁ l₂ : List (Visit σ κ ρ τ)} {v : Visit σ κ ρ τ} (h : l = l₁ ++ v :: l₂) :
      Seen l t l₁ v.left
  | last : Seen l t l t

/-- After a first visit: the state that was left, or one that is seen later. -/
theorem Seen.of_cons {v : Visit σ κ ρ τ} {l seen : List (Visit σ κ ρ τ)} {t u : Sys σ τ}
    (h : Seen (v :: l) t seen u) :
    seen = [] ∧ u = v.left ∨ ∃ later, seen = v :: later ∧ Seen l t later u := by
  cases h with
  | last =>
    exact Or.inr ⟨l, rfl, .last⟩
  | visit h =>
    cases seen with
    | nil =>
      cases h
      exact Or.inl ⟨rfl, rfl⟩
    | cons w later =>
      obtain ⟨rfl, hl⟩ := List.cons.inj h
      exact Or.inr ⟨later, rfl, .visit hl⟩

/-- Before a last visit: a state that was seen until then, or the one after it. -/
theorem Seen.of_snoc {v : Visit σ κ ρ τ} {l seen : List (Visit σ κ ρ τ)} {t u : Sys σ τ}
    (h : Seen (l ++ [v]) t seen u) :
    Seen l v.left seen u ∨ seen = l ++ [v] ∧ u = t := by
  cases h with
  | last =>
    exact Or.inr ⟨rfl, rfl⟩
  | @visit _ l₂ v' h =>
    rcases List.eq_nil_or_concat l₂ with rfl | ⟨l₃, v'', rfl⟩
    · obtain ⟨rfl, hv⟩ := List.append_inj' h rfl
      cases hv
      exact Or.inl .last
    · rw [List.concat_eq_append, ← List.cons_append, ← List.append_assoc] at h
      exact Or.inl (.visit (List.append_inj_left' h rfl))

/-- The assertion holds whenever the others can look, until `Q` holds of the visits made. -/
def Until (I : Sys σ τ → Prop) (Q : List (Visit σ κ ρ τ) → Prop) (l : List (Visit σ κ ρ τ))
    (t : Sys σ τ) : Prop :=
  ∀ seen u, Seen l t seen u → I u ∨ Q seen

namespace Until

variable {I : Sys σ τ → Prop} {Q : List (Visit σ κ ρ τ) → Prop} {l : List (Visit σ κ ρ τ)}
variable {v : Visit σ κ ρ τ} {t : Sys σ τ}

theorem of_visits (hl : ∀ v ∈ l, I v.left) (ht : I t ∨ Q l) : Until I Q l t := by
  intro seen u h
  cases h with
  | last =>
    exact ht
  | visit h =>
    exact Or.inl (hl _ (by simp [h]))

theorem mono {Q' : List (Visit σ κ ρ τ) → Prop} (h : Until I Q l t) (hQ : ∀ l, Q l → Q' l) :
    Until I Q' l t :=
  fun seen u hseen => (h seen u hseen).imp_right (hQ seen)

theorem cons (hv : I v.left) (h : Until I (fun l => Q (v :: l)) l t) : Until I Q (v :: l) t := by
  intro seen u hseen
  rcases hseen.of_cons with ⟨rfl, rfl⟩ | ⟨later, rfl, hlater⟩
  · exact Or.inl hv
  · exact h later u hlater

theorem snoc (h : Until I Q l v.left) (ht : I v.left → I t) (hQ : Q l → Q (l ++ [v])) :
    Until I Q (l ++ [v]) t := by
  intro seen u hseen
  rcases hseen.of_snoc with hbefore | ⟨rfl, rfl⟩
  · exact h seen u hbefore
  · exact (h l v.left .last).imp ht hQ

end Until

/-- The assertion holds at every suspension and at the end when it holds at the start. -/
def Upholds (R : Env σ κ ρ τ) (I : Sys σ τ → Prop) (p : Prog σ κ ρ ε τ α) : Prop :=
  ∀ s, I s → Leads R p s fun l _ t => (∀ v ∈ l, I v.left) ∧ I t

namespace Upholds

variable {R : Env σ κ ρ τ} {I : Sys σ τ → Prop}

theorem ret (a : α) : Upholds R I (.ret a : Prog σ κ ρ ε τ α) :=
  fun _ h => ⟨by simp, h⟩

theorem raise (e : ε) : Upholds R I (.raise e : Prog σ κ ρ ε τ α) :=
  fun _ h => ⟨by simp, h⟩

theorem read : Upholds R I (Prog.read : Prog σ κ ρ ε τ σ) :=
  fun _ h => ⟨by simp, h⟩

theorem attempt {f : σ → Except ε (α × σ)}
    (hf : ∀ s a w, I s → f s.shared = .ok (a, w) → I ⟨w, s.live⟩) :
    Upholds R I (Prog.attempt f : Prog σ κ ρ ε τ α) :=
  fun s h => leads_attempt (fun a w hw => ⟨by simp, hf s a w h hw⟩) fun _ _ => ⟨by simp, h⟩

theorem bind {p : Prog σ κ ρ ε τ α} {f : α → Prog σ κ ρ ε τ β} (hp : Upholds R I p)
    (hf : ∀ a, Upholds R I (f a)) : Upholds R I (p.bind f) := by
  intro s hs
  refine Leads.bind (hp s hs) fun l r u hu => ?_
  cases r with
  | error e =>
    exact hu
  | ok a =>
    exact (hf a u hu.2).mono fun _ _ _ ht => ⟨List.forall_mem_append.mpr ⟨hu.1, ht.1⟩, ht.2⟩

theorem rescue {p : Prog σ κ ρ ε τ α} {h : ε → Option (Prog σ κ ρ ε τ α)} (hp : Upholds R I p)
    (hh : ∀ e q, h e = some q → Upholds R I q) : Upholds R I (p.rescue h) := by
  intro s hs
  refine leads_rescue.mpr ((hp s hs).mono fun l r u hu => ?_)
  cases r with
  | ok a =>
    exact hu
  | error e =>
    have hhandler : Upholds R I ((h e).getD (.raise e)) := by
      cases hq : h e with
      | none =>
        exact raise e
      | some q =>
        exact hh e q hq
    exact (hhandler u hu.2).mono fun _ _ _ ht => ⟨List.forall_mem_append.mpr ⟨hu.1, ht.1⟩, ht.2⟩

end Upholds

/-- Run against given answers; the others act on the state at each suspension. -/
def drive : Prog σ κ ρ ε τ α → Sys σ τ → List (ρ × (Sys σ τ → Sys σ τ)) →
    Option (List (Visit σ κ ρ τ) × Except ε α × Sys σ τ)
  | .ret a, s, _ => some ([], .ok a, s)
  | .raise e, s, _ => some ([], .error e, s)
  | .sync u k, s, l => drive (k s.shared) (s.update u) l
  | .await _ _, _, [] => none
  | .await c k, s, (x, f) :: l =>
    (drive (k x) (f s) l).map fun o => (⟨c, x, s, f s⟩ :: o.1, o.2)
  | .spawn t k, s, l => drive k (s.start t) l
  | .cut, _, _ => none

variable {p : Prog σ κ ρ ε τ α}

/-- A run of a sequence ends in its first part, or is a run of the first and one of the second. -/
theorem drive_bind {f : α → Prog σ κ ρ ε τ β} {s : Sys σ τ} {l : List (ρ × (Sys σ τ → Sys σ τ))}
    {o : List (Visit σ κ ρ τ) × Except ε β × Sys σ τ} (h : (p.bind f).drive s l = some o) :
    (∃ e, o.2.1 = .error e ∧ p.drive s l = some (o.1, .error e, o.2.2)) ∨
      ∃ l₁ a u l' o', p.drive s l = some (l₁, .ok a, u) ∧ (f a).drive u l' = some o' ∧
        o = (l₁ ++ o'.1, o'.2) := by
  induction p generalizing s l o with
  | ret a =>
    exact .inr ⟨[], a, s, l, o, rfl, h, rfl⟩
  | raise e =>
    cases h
    exact .inl ⟨e, rfl, rfl⟩
  | sync u k ih =>
    exact ih _ h
  | await c k ih =>
    cases l with
    | nil =>
      cases h
    | cons y l =>
      obtain ⟨x, g⟩ := y
      simp only [Prog.bind, Prog.drive, Option.map_eq_some_iff] at h
      obtain ⟨o', ho', rfl⟩ := h
      rcases ih x ho' with ⟨e, hr, hp⟩ | ⟨l₁, a, u, l', o'', hp, hf, rfl⟩
      · exact .inl ⟨e, hr, by simp [Prog.drive, hp]⟩
      · exact .inr ⟨⟨c, x, s, g s⟩ :: l₁, a, u, l', o'', by simp [Prog.drive, hp], hf, rfl⟩
  | spawn t k ih =>
    exact ih h
  | cut =>
    cases h

/-- A run that the environment allows has what every run has. -/
theorem Leads.drive {R : Env σ κ ρ τ} {Φ : List (Visit σ κ ρ τ) → Except ε α → Sys σ τ → Prop}
    {s : Sys σ τ} {l : List (ρ × (Sys σ τ → Sys σ τ))}
    {o : List (Visit σ κ ρ τ) × Except ε α × Sys σ τ} (h : Leads R p s Φ)
    (ho : p.drive s l = some o) (hR : ∀ v ∈ o.1, R v.call v.left v.reply v.back) :
    Φ o.1 o.2.1 o.2.2 := by
  induction p generalizing s l Φ o with
  | ret a =>
    cases ho
    exact h
  | raise e =>
    cases ho
    exact h
  | sync u k ih =>
    exact ih _ h ho hR
  | await c k ih =>
    cases l with
    | nil =>
      simp [Prog.drive] at ho
    | cons y l =>
      obtain ⟨x, f⟩ := y
      simp only [Prog.drive, Option.map_eq_some_iff] at ho
      obtain ⟨o', ho', rfl⟩ := ho
      have hfirst : R c s x (f s) := hR ⟨c, x, s, f s⟩ List.mem_cons_self
      have hrest : ∀ v ∈ o'.1, R v.call v.left v.reply v.back :=
        fun v hv => hR v (List.mem_cons_of_mem _ hv)
      have hk := h x (f s) hfirst
      have hend := ih x hk ho' hrest
      exact hend
  | spawn t k ih =>
    exact ih h ho hR
  | cut =>
    cases ho

/-! ## One run after another -/

/-- A run of a coroutine that has ended. -/
structure Run (σ κ ρ ε τ α : Type) where
  before : Sys σ τ
  visits : List (Visit σ κ ρ τ)
  result : Except ε α
  after : Sys σ τ

/-- The run is one of the coroutine in the environment. -/
structure Run.Of (R : Env σ κ ρ τ) (p : Prog σ κ ρ ε τ α) (a : Run σ κ ρ ε τ α) : Prop where
  drive : ∃ answers, p.drive a.before answers = some (a.visits, a.result, a.after)
  visits : ∀ v ∈ a.visits, R v.call v.left v.reply v.back

theorem Run.Of.leads {R : Env σ κ ρ τ} {a : Run σ κ ρ ε τ α}
    {Φ : List (Visit σ κ ρ τ) → Except ε α → Sys σ τ → Prop} (h : a.Of R p)
    (hp : Leads R p a.before Φ) : Φ a.visits a.result a.after := by
  obtain ⟨⟨answers, hdrive⟩, hvisits⟩ := h
  exact hp.drive hdrive hvisits

/-- The coroutine is run again and again; between two runs the others go on. -/
inductive Series (between : Sys σ τ → Sys σ τ → Prop) (R : Env σ κ ρ τ)
    (p : Prog σ κ ρ ε τ α) : Sys σ τ → List (Run σ κ ρ ε τ α) → Sys σ τ → Prop
  | nil {s t : Sys σ τ} (h : between s t) : Series between R p s [] t
  | cons {s t : Sys σ τ} {a : Run σ κ ρ ε τ α} {rest : List (Run σ κ ρ ε τ α)}
      (hbefore : between s a.before) (hrun : a.Of R p) (hrest : Series between R p a.after rest t) :
      Series between R p s (a :: rest) t

section Repeating

variable {between : Sys σ τ → Sys σ τ → Prop} {R : Env σ κ ρ τ} {p : Prog σ κ ρ ε τ α}
variable {runs : List (Run σ κ ρ ε τ α)} {s t : Sys σ τ}

/-- What every run keeps, and the others between them, holds before every run. -/
theorem Series.all {I : Sys σ τ → Prop} (h : Series between R p s runs t)
    (hbetween : ∀ s t, I s → between s t → I t)
    (hrun : ∀ a : Run σ κ ρ ε τ α, a.Of R p → I a.before → I a.after) (hs : I s) :
    ∀ a ∈ runs, a.Of R p ∧ I a.before := by
  induction h with
  | nil =>
    simp
  | cons hbefore hof hrest ih =>
    have hI := hbetween _ _ hs hbefore
    rw [List.forall_mem_cons]
    exact ⟨⟨hof, hI⟩, ih (hrun _ hof hI)⟩

/-- The part of a series before one of its runs. -/
theorem Series.until_run {a : Run σ κ ρ ε τ α} {first rest : List (Run σ κ ρ ε τ α)}
    (h : Series between R p s (first ++ a :: rest) t) : Series between R p s first a.before := by
  induction first generalizing s with
  | nil =>
    cases h with
    | cons hbefore hof hrest =>
      exact .nil hbefore
  | cons b first ih =>
    cases h with
    | cons hbefore hof hrest =>
      exact .cons hbefore hof (ih hrest)

end Repeating

end Prog

end PrismServe.Lib
