import PrismServe.Lib.TaskPool

/-!
# Tasks that are told apart

A crew is a set of cooperative tasks over a shared state in which every task has
a name of its own.  Each name is started at most once; the environment chooses
which suspended task is resumed and with which reply, and lets events happen
between segments.  A task that was started waits for its first turn, and may be
cancelled before it.

In contrast to a pool, every task may have a contract of its own: what it relies
on is kept by the segments of all the others, but not by its own.  `run_agreed`
is the rule: when every body meets its contract from the precondition of its
task, and the guarantee of each task is what the others rely on, an invariant
that the guarantees keep holds along every run.
-/

namespace PrismServe.Lib

/-- The program of every task, given the reply of its first turn, and what else happens. -/
structure Crew (σ κ ρ ε τ η : Type) where
  body : τ → ρ → Prog σ κ ρ ε Empty Unit
  event : η → σ → σ

/-- A suspended task; a task that has not begun awaits no call. -/
structure Waiting (σ κ ρ ε τ : Type) where
  task : τ
  call : Option κ
  next : ρ → Prog σ κ ρ ε Empty Unit

/-- State of a run of a crew. -/
structure Roster (σ κ ρ ε τ : Type) where
  shared : σ
  started : List τ
  waiting : List (Waiting σ κ ρ ε τ)

/-- One decision of the environment of a crew. -/
inductive Turn (ρ τ η : Type) : Type
  | start (t : τ)
  | resume (t : τ) (r : ρ)
  | event (e : η)
  deriving DecidableEq, Repr

namespace Crew

variable {σ κ ρ ε τ η : Type} [DecidableEq τ]

/-- The roster after a segment of the task. -/
def settle (c : Roster σ κ ρ ε τ) (t : τ) (g : Segment σ κ ρ ε Empty Unit) :
    Roster σ κ ρ ε τ :=
  let rest := c.waiting.filter fun w => w.task ≠ t
  match g.stop with
  | .paused call next =>
    { c with shared := g.sys.shared, waiting := ⟨t, some call, next⟩ :: rest }
  | _ => { c with shared := g.sys.shared, waiting := rest }

def step (M : Crew σ κ ρ ε τ η) (c : Roster σ κ ρ ε τ) : Turn ρ τ η → Roster σ κ ρ ε τ
  | .start t =>
    if t ∈ c.started then c
    else { c with started := t :: c.started, waiting := ⟨t, none, M.body t⟩ :: c.waiting }
  | .resume t r =>
    match c.waiting.find? fun w => w.task = t with
    | none => c
    | some w => settle c t (exec (w.next r) ⟨c.shared, []⟩ [])
  | .event e => { c with shared := M.event e c.shared }

def run (M : Crew σ κ ρ ε τ η) (c : Roster σ κ ρ ε τ) : List (Turn ρ τ η) → Roster σ κ ρ ε τ
  | [] => c
  | x :: rest => M.run (M.step c x) rest

/-- A crew none of whose tasks was started. -/
def idle (s : σ) : Roster σ κ ρ ε τ := ⟨s, [], []⟩

end Crew

/-! ## Contracts by task -/

section Agreement

variable {σ κ ρ ε τ η : Type} [DecidableEq τ]

/-- What a program of a task owes. -/
def Owes (C : Contract σ κ Empty) (p : Prog σ κ ρ ε Empty Unit) (s : σ) : Prop :=
  p.WP C (fun _ => C.guar) (fun _ => C.guar) ⟨s, []⟩ ⟨s, []⟩

/-- The contracts of the tasks fit together and keep the invariant. -/
structure Agreement (M : Crew σ κ ρ ε τ η) (C : τ → Contract σ κ Empty) (Inv : σ → Prop)
    (Pre : τ → σ → Prop) : Prop where
  inv : ∀ t s s', (C t).guar s s' → Inv s.shared → Inv s'.shared
  others : ∀ t u, t ≠ u → ∀ s s', Inv s.shared → (C t).guar s s' → (C u).rely s s'
  pre : ∀ t s s', (C t).rely s s' → Pre t s.shared → Pre t s'.shared
  body : ∀ t r s, Inv s → Pre t s → Owes (C t) (M.body t r) s
  event_inv : ∀ e s, Inv s → Inv (M.event e s)
  event_rely : ∀ e t s, Inv s → (C t).rely ⟨s, []⟩ ⟨M.event e s, []⟩

/-- What holds of a roster between two turns. -/
structure Agreed (C : τ → Contract σ κ Empty) (Inv : σ → Prop) (Pre : τ → σ → Prop)
    (c : Roster σ κ ρ ε τ) : Prop where
  inv : Inv c.shared
  unstarted : ∀ t, t ∉ c.started → Pre t c.shared
  started : ∀ w ∈ c.waiting, w.task ∈ c.started
  distinct : (c.waiting.map Waiting.task).Nodup
  owes : ∀ w ∈ c.waiting, ∀ s, (C w.task).rely ⟨c.shared, []⟩ ⟨s, []⟩ → Inv s →
    ∀ r, Owes (C w.task) (w.next r) s

variable {M : Crew σ κ ρ ε τ η} {C : τ → Contract σ κ Empty} {Inv : σ → Prop}
variable {Pre : τ → σ → Prop} {c : Roster σ κ ρ ε τ}

omit [DecidableEq τ] in
theorem agreed_idle {s : σ} (hinv : Inv s) (hpre : ∀ t, Pre t s) :
    Agreed C Inv Pre (Crew.idle s : Roster σ κ ρ ε τ) where
  inv := hinv
  unstarted t _ := hpre t
  started := by simp [Crew.idle]
  distinct := by simp [Crew.idle]
  owes := by simp [Crew.idle]

/-- No task spawns another, so that a segment only changes the shared state. -/
theorem exec_live_nil {α : Type} (p : Prog σ κ ρ ε Empty α) (s : σ) :
    (exec p ⟨s, []⟩ []).sys = ⟨(exec p ⟨s, []⟩ []).sys.shared, []⟩ := by
  generalize (exec p ⟨s, []⟩ []).sys = t
  obtain ⟨shared, live⟩ := t
  cases live with
  | nil =>
    rfl
  | cons t _ =>
    exact t.elim

/-- A segment that meets its contract gives its guarantee, however it stops. -/
theorem segment_guar {K : Contract σ κ Empty} {g : Segment σ κ ρ ε Empty Unit}
    {s₀ : Sys σ Empty}
    (hg : g.stop.Meets K (fun _ => K.guar) (fun _ => K.guar) s₀ g.sys) : K.guar s₀ g.sys := by
  cases hstop : g.stop with
  | returned a =>
    rw [hstop] at hg
    exact hg
  | failed e =>
    rw [hstop] at hg
    exact hg
  | paused call next =>
    rw [hstop] at hg
    exact hg.1
  | stuck =>
    rw [hstop] at hg
    exact hg

/-- What the segment of a task leaves behind for the others. -/
theorem Agreed.settle (hM : Agreement M C Inv Pre) (h : Agreed C Inv Pre c) {t : τ}
    (hstarted : t ∈ c.started) {g : Segment σ κ ρ ε Empty Unit}
    (hsys : g.sys = ⟨g.sys.shared, []⟩)
    (hg : g.stop.Meets (C t) (fun _ => (C t).guar) (fun _ => (C t).guar) ⟨c.shared, []⟩ g.sys) :
    Agreed C Inv Pre (Crew.settle c t g) := by
  have hguar : (C t).guar ⟨c.shared, []⟩ ⟨g.sys.shared, []⟩ := by
    rw [← hsys]
    exact segment_guar hg
  have hinv : Inv g.sys.shared := hM.inv t ⟨c.shared, []⟩ ⟨g.sys.shared, []⟩ hguar h.inv
  have hrely : ∀ u, t ≠ u → (C u).rely ⟨c.shared, []⟩ ⟨g.sys.shared, []⟩ :=
    fun u hne => hM.others t u hne _ _ h.inv hguar
  have hunstarted : ∀ u, u ∉ c.started → Pre u g.sys.shared := by
    intro u hu
    exact hM.pre u ⟨c.shared, []⟩ ⟨g.sys.shared, []⟩ (hrely u (by rintro rfl; exact hu hstarted))
      (h.unstarted u hu)
  have hrest : ∀ w ∈ c.waiting.filter fun w => w.task ≠ t,
      w ∈ c.waiting ∧ t ≠ w.task := by
    intro w hw
    obtain ⟨hmem, hne⟩ := List.mem_filter.mp hw
    exact ⟨hmem, Ne.symm (by simpa using hne)⟩
  have howes : ∀ w ∈ c.waiting.filter fun w => w.task ≠ t,
      ∀ s, (C w.task).rely ⟨g.sys.shared, []⟩ ⟨s, []⟩ → Inv s →
        ∀ r, Owes (C w.task) (w.next r) s := by
    intro w hw s hs hI r
    obtain ⟨hmem, hne⟩ := hrest w hw
    exact h.owes w hmem s ((C w.task).rely_trans _ _ _ (hrely _ hne) hs) hI r
  have hdistinct : ((c.waiting.filter fun w => w.task ≠ t).map Waiting.task).Nodup :=
    h.distinct.sublist (List.filter_sublist.map _)
  have hended : Agreed C Inv Pre
      { c with shared := g.sys.shared, waiting := c.waiting.filter fun w => w.task ≠ t } :=
    ⟨hinv, hunstarted, fun w hw => h.started w (hrest w hw).1, hdistinct, howes⟩
  unfold Crew.settle
  cases hstop : g.stop with
  | returned a =>
    exact hended
  | failed e =>
    exact hended
  | stuck =>
    exact hended
  | paused call next =>
    refine ⟨hinv, hunstarted, ?_, ?_, ?_⟩
    · intro w hw
      rcases List.mem_cons.mp hw with rfl | hw
      · exact hstarted
      · exact hended.started w hw
    · refine List.nodup_cons.mpr ⟨fun hmem => ?_, hdistinct⟩
      obtain ⟨w, hw, heq⟩ := List.mem_map.mp hmem
      exact (hrest w hw).2 heq.symm
    · intro w hw s hs hI r
      rcases List.mem_cons.mp hw with rfl | hw
      · rw [hstop] at hg
        refine hg.2.2 ⟨s, []⟩ ?_ r
        rw [hsys]
        exact hs
      · exact howes w hw s hs hI r

theorem step_agreed (hM : Agreement M C Inv Pre) (h : Agreed C Inv Pre c) (x : Turn ρ τ η) :
    Agreed C Inv Pre (M.step c x) := by
  cases x with
  | start t =>
    simp only [Crew.step]
    split
    · exact h
    rename_i hnew
    refine ⟨h.inv, fun u hu => h.unstarted u fun hmem => hu (List.mem_cons_of_mem _ hmem),
      ?_, ?_, ?_⟩
    · intro w hw
      rcases List.mem_cons.mp hw with rfl | hw
      · exact List.mem_cons_self
      · exact List.mem_cons_of_mem _ (h.started w hw)
    · refine List.nodup_cons.mpr ⟨fun hmem => hnew ?_, h.distinct⟩
      obtain ⟨w, hw, rfl⟩ := List.mem_map.mp hmem
      exact h.started w hw
    · intro w hw s hs hI r
      rcases List.mem_cons.mp hw with rfl | hw
      · exact hM.body t r s hI (hM.pre t ⟨c.shared, []⟩ ⟨s, []⟩ hs (h.unstarted t hnew))
      · exact h.owes w hw s hs hI r
  | resume t r =>
    simp only [Crew.step]
    split
    · exact h
    rename_i w hw
    have hmem := List.mem_of_find?_eq_some hw
    have htask : w.task = t := by simpa using List.find?_some hw
    subst htask
    have howes := h.owes w hmem c.shared ((C w.task).rely_refl _) h.inv r
    exact h.settle hM (h.started w hmem) (exec_live_nil _ _) (exec_meets [] howes)
  | event e =>
    have hrely : ∀ t, (C t).rely ⟨c.shared, []⟩ ⟨M.event e c.shared, []⟩ :=
      fun t => hM.event_rely e t _ h.inv
    refine ⟨hM.event_inv e _ h.inv, fun t ht =>
      hM.pre t ⟨c.shared, []⟩ ⟨M.event e c.shared, []⟩ (hrely t) (h.unstarted t ht),
      h.started, h.distinct, fun w hw s hs hI r => ?_⟩
    exact h.owes w hw s ((C w.task).rely_trans _ _ _ (hrely _) hs) hI r

/-- The agreement lasts along every run. -/
theorem run_agreed (hM : Agreement M C Inv Pre) (h : Agreed C Inv Pre c) :
    ∀ xs : List (Turn ρ τ η), Agreed C Inv Pre (M.run c xs) := by
  intro xs
  induction xs generalizing c with
  | nil =>
    exact h
  | cons x rest ih =>
    exact ih (step_agreed hM h x)

end Agreement

/-! ## One invariant for all tasks -/

section Invariant

variable {σ κ ρ ε τ η α : Type}

/-- Every segment keeps the invariant. -/
def Contract.invariant (κ : Type) (Inv : σ → Prop) : Contract σ κ Empty where
  rely s s' := Inv s.shared → Inv s'.shared
  guar s s' := Inv s.shared → Inv s'.shared
  note _ _ := True
  rely_refl _ h := h
  rely_trans _ _ _ h h' hs := h' (h hs)

/-- A program none of whose steps breaks the invariant. -/
def Preserves (Inv : σ → Prop) (p : Prog σ κ ρ ε Empty α) : Prop :=
  p.Keeps (Contract.invariant κ Inv) fun _ s => Inv s.shared

/-- An invariant that every body and every event keeps holds along every run. -/
theorem run_preserves [DecidableEq τ] {M : Crew σ κ ρ ε τ η} {Inv : σ → Prop} {s : σ}
    (hbody : ∀ t r, Preserves Inv (M.body t r)) (hevent : ∀ e s, Inv s → Inv (M.event e s))
    (hs : Inv s) (turns : List (Turn ρ τ η)) : Inv (M.run (Crew.idle s) turns).shared := by
  have hM : Agreement M (fun _ => Contract.invariant κ Inv) Inv fun _ _ => True :=
    { inv := fun _ _ _ h hs => h hs
      others := fun _ _ _ _ _ _ h => h
      pre := fun _ _ _ _ _ => trivial
      body := fun t r s hs _ =>
        Prog.WP.mono (fun _ _ _ h _ => h) (fun _ _ _ h _ => h) (hbody t r ⟨s, []⟩ ⟨s, []⟩ hs)
      event_inv := hevent
      event_rely := fun e _ s _ => hevent e s }
  exact (run_agreed hM (agreed_idle hs fun _ => trivial) turns).inv

end Invariant

end PrismServe.Lib
