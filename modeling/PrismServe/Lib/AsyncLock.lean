import Mathlib.Tactic

/-!
# A fair lock of an event loop

The lock of `asyncio`: a task that finds it free and nobody waiting takes it at
once; any other task appends a future to the queue and is suspended on it.
Releasing the lock completes the first future of the queue, and the task of that
future takes the lock when it runs, without looking again whether it is free.
A waiting task may be cancelled: its future is cancelled at once, and when the
task runs it leaves the queue and passes the turn on.

`Orderly` is what makes this an exclusive lock: only the first future of the
queue may be completed, and only while nobody holds the lock.
-/

namespace PrismServe.Lib

/-- State of the future that a waiting task is suspended on. -/
inductive FutureState
  | pending
  | done
  | cancelled
  deriving DecidableEq, Repr

/-- The lock; the holder is known by name. -/
structure AsyncLock (τ : Type) where
  holder : Option τ := none
  waiters : List (τ × FutureState) := []

namespace AsyncLock

variable {τ : Type} {l l' : AsyncLock τ} {t u : τ}

/-- The lock can be had without waiting. -/
def free (l : AsyncLock τ) : Bool :=
  l.holder.isNone && l.waiters.all fun w => w.2 == .cancelled

/-- The first future is completed unless that has happened. -/
def wakeUpFirst (l : AsyncLock τ) : AsyncLock τ :=
  match l.waiters with
  | (t, .pending) :: rest => { l with waiters := (t, .done) :: rest }
  | _ => l

/-- Take a free lock. -/
def seize (l : AsyncLock τ) (t : τ) : AsyncLock τ := { l with holder := some t }

/-- Join the queue. -/
def enqueue (l : AsyncLock τ) (t : τ) : AsyncLock τ :=
  { l with waiters := l.waiters ++ [(t, .pending)] }

/-- The task is in the queue. -/
def Queued (l : AsyncLock τ) (t : τ) : Prop := t ∈ l.waiters.map Prod.fst

/-- The future of the task is completed. -/
def Woken (l : AsyncLock τ) (t : τ) : Prop := (t, .done) ∈ l.waiters

def release (l : AsyncLock τ) : AsyncLock τ := { l with holder := none }.wakeUpFirst

section Names

variable [DecidableEq τ]

instance (l : AsyncLock τ) (t : τ) : Decidable (l.Woken t) := inferInstanceAs (Decidable (_ ∈ _))

def leave (l : AsyncLock τ) (t : τ) : AsyncLock τ :=
  { l with waiters := l.waiters.filter fun w => w.1 ≠ t }

/-- A task whose future was completed takes the lock. -/
def take (l : AsyncLock τ) (t : τ) : AsyncLock τ := (l.leave t).seize t

/-- A cancelled task passes the turn on. -/
def abandon (l : AsyncLock τ) (t : τ) : AsyncLock τ :=
  if l.holder.isNone then (l.leave t).wakeUpFirst else l.leave t

/-- The future of a waiting task is cancelled. -/
def cancel (l : AsyncLock τ) (t : τ) : AsyncLock τ :=
  { l with waiters := l.waiters.map fun w =>
      if w.1 = t ∧ w.2 = .pending then (w.1, .cancelled) else w }

end Names

/-- Only the first future is completed, and only while nobody holds the lock. -/
structure Orderly (l : AsyncLock τ) : Prop where
  distinct : (l.waiters.map Prod.fst).Nodup
  later : ∀ w ∈ l.waiters.tail, w.2 ≠ .done
  held : l.holder ≠ none → ∀ w ∈ l.waiters, w.2 ≠ .done

/-- What the others leave to a task: its place in the queue, its turn, and the lock if it has it. -/
structure Undisturbed (u : τ) (l l' : AsyncLock τ) : Prop where
  holder : l'.holder = some u ↔ l.holder = some u
  queued : l'.Queued u ↔ l.Queued u
  woken : l.Woken u → l'.Woken u

theorem Undisturbed.refl (u : τ) (l : AsyncLock τ) : Undisturbed u l l :=
  ⟨Iff.rfl, Iff.rfl, id⟩

theorem Undisturbed.trans {l'' : AsyncLock τ} (h : Undisturbed u l l') (h' : Undisturbed u l' l'') :
    Undisturbed u l l'' :=
  ⟨h'.holder.trans h.holder, h'.queued.trans h.queued, fun hw => h'.woken (h.woken hw)⟩

theorem orderly_initial : ({} : AsyncLock τ).Orderly := ⟨by simp, by simp, by simp⟩

/-! ## Waking -/

theorem wakeUpFirst_names (l : AsyncLock τ) :
    l.wakeUpFirst.waiters.map Prod.fst = l.waiters.map Prod.fst := by
  unfold wakeUpFirst
  split
  · rename_i h
    simp [h]
  · rfl

theorem wakeUpFirst_holder (l : AsyncLock τ) : l.wakeUpFirst.holder = l.holder := by
  unfold wakeUpFirst
  split <;> rfl

theorem Orderly.wakeUpFirst (h : l.Orderly) (hfree : l.holder = none) : l.wakeUpFirst.Orderly := by
  refine ⟨?_, ?_, ?_⟩
  · rw [wakeUpFirst_names]
    exact h.distinct
  · have hlater := h.later
    unfold AsyncLock.wakeUpFirst
    split
    · rename_i heq
      rw [heq] at hlater
      exact hlater
    · exact hlater
  · rw [wakeUpFirst_holder, hfree]
    exact fun hne => absurd rfl hne

theorem undisturbed_wakeUpFirst (u : τ) (l : AsyncLock τ) : Undisturbed u l l.wakeUpFirst := by
  refine ⟨by rw [wakeUpFirst_holder], by rw [Queued, wakeUpFirst_names, Queued], fun hw => ?_⟩
  unfold AsyncLock.wakeUpFirst
  split
  · rename_i heq
    rw [Woken, heq] at hw
    rcases List.mem_cons.mp hw with hw | hw
    · cases hw
    · exact List.mem_cons_of_mem _ hw
  · exact hw

/-! ## The operations of one task -/

theorem Orderly.seize (h : l.Orderly) (hfree : l.free = true) : (l.seize t).Orderly := by
  rw [free, Bool.and_eq_true, List.all_eq_true] at hfree
  refine ⟨h.distinct, h.later, fun _ w hw hdone => ?_⟩
  have hcancelled := hfree.2 w hw
  rw [hdone] at hcancelled
  cases hcancelled

theorem undisturbed_seize (hne : u ≠ t) (hfree : l.holder = none) : Undisturbed u l (l.seize t) :=
  ⟨by simp [seize, hfree, Ne.symm hne], Iff.rfl, id⟩

theorem Orderly.enqueue (h : l.Orderly) (hnew : ¬ l.Queued t) : (l.enqueue t).Orderly := by
  refine ⟨?_, ?_, ?_⟩
  · have happend : (l.waiters.map Prod.fst ++ [t]).Nodup :=
      List.nodup_append.mpr ⟨h.distinct, by simp, by
        rintro x hx y hy rfl
        rw [List.mem_singleton] at hy
        exact hnew (hy ▸ hx)⟩
    simpa [AsyncLock.enqueue] using happend
  · intro w hw
    have hcases : w ∈ l.waiters.tail ∨ w = (t, .pending) := by
      cases hl : l.waiters with
      | nil =>
        simp [AsyncLock.enqueue, hl] at hw
      | cons x rest =>
        simpa [AsyncLock.enqueue, hl] using hw
    rcases hcases with hw | rfl
    · exact h.later w hw
    · exact fun heq => nomatch heq
  · intro hheld w hw
    rcases List.mem_append.mp hw with hw | hw
    · exact h.held hheld w hw
    · rw [List.mem_singleton.mp hw]
      exact fun heq => nomatch heq

theorem undisturbed_enqueue (hne : u ≠ t) : Undisturbed u l (l.enqueue t) := by
  refine ⟨Iff.rfl, ?_, fun hw => List.mem_append_left _ hw⟩
  simp [Queued, enqueue, hne]

/-- A completed future means that nobody has the lock. -/
theorem Orderly.free_of_woken (h : l.Orderly) (hw : l.Woken t) : l.holder = none := by
  by_contra hheld
  exact h.held hheld _ hw rfl

theorem Orderly.release (h : l.Orderly) : l.release.Orderly :=
  Orderly.wakeUpFirst ⟨h.distinct, h.later, fun hne => absurd rfl hne⟩ rfl

theorem undisturbed_release (hne : u ≠ t) (hheld : l.holder = some t) :
    Undisturbed u l l.release := by
  have hfirst : Undisturbed u l { l with holder := none } :=
    ⟨by simp [hheld, Ne.symm hne], Iff.rfl, id⟩
  exact hfirst.trans (undisturbed_wakeUpFirst u _)

variable [DecidableEq τ]

theorem Orderly.leave (h : l.Orderly) (t : τ) : (l.leave t).Orderly := by
  refine ⟨h.distinct.sublist (List.filter_sublist.map _), ?_, fun hheld w hw =>
    h.held hheld w (List.mem_filter.mp hw).1⟩
  have hlater := h.later
  unfold AsyncLock.leave
  cases hl : l.waiters with
  | nil =>
    simp
  | cons x rest =>
    rw [hl] at hlater
    by_cases hx : x.1 = t
    · have hfilter : ∀ w ∈ rest.filter fun w => w.1 ≠ t, w.2 ≠ .done :=
        fun w hw => hlater w (List.mem_filter.mp hw).1
      rw [List.filter_cons_of_neg (by simpa using hx)]
      exact fun w hw => hfilter w (List.mem_of_mem_tail hw)
    · rw [List.filter_cons_of_pos (by simpa using hx)]
      exact fun w hw => hlater w (List.mem_filter.mp hw).1

theorem undisturbed_leave (hne : u ≠ t) : Undisturbed u l (l.leave t) := by
  refine ⟨Iff.rfl, ?_, fun hw => List.mem_filter.mpr ⟨hw, by simpa using hne⟩⟩
  simp only [Queued, leave, List.mem_map, List.mem_filter]
  constructor
  · rintro ⟨w, ⟨hw, _⟩, rfl⟩
    exact ⟨w, hw, rfl⟩
  · rintro ⟨w, hw, rfl⟩
    exact ⟨w, ⟨hw, by simpa using hne⟩, rfl⟩

theorem Orderly.take (h : l.Orderly) (hw : l.Woken t) : (l.take t).Orderly := by
  refine ⟨(h.leave t).distinct, (h.leave t).later, fun _ w hmem hdone => ?_⟩
  obtain ⟨hmem, hne⟩ := List.mem_filter.mp hmem
  -- the completed future is the first one, and the others are not completed
  have hlater := h.later
  cases hl : l.waiters with
  | nil =>
    rw [hl] at hmem
    exact absurd hmem (by simp)
  | cons x rest =>
    rw [hl] at hmem hlater
    rw [Woken, hl] at hw
    rcases List.mem_cons.mp hmem with rfl | hmem
    · rcases List.mem_cons.mp hw with hw | hw
      · rw [← hw] at hne
        simp at hne
      · exact hlater _ hw rfl
    · exact hlater w hmem hdone

theorem undisturbed_take (hne : u ≠ t) (hfree : l.holder = none) : Undisturbed u l (l.take t) :=
  (undisturbed_leave hne).trans (undisturbed_seize hne hfree)

theorem Orderly.abandon (h : l.Orderly) (t : τ) : (l.abandon t).Orderly := by
  unfold AsyncLock.abandon
  split
  · rename_i hfree
    exact (h.leave t).wakeUpFirst (Option.isNone_iff_eq_none.mp hfree)
  · exact h.leave t

theorem undisturbed_abandon (hne : u ≠ t) : Undisturbed u l (l.abandon t) := by
  unfold AsyncLock.abandon
  split
  · exact (undisturbed_leave hne).trans (undisturbed_wakeUpFirst u _)
  · exact undisturbed_leave hne

/-! ## Cancellation from outside -/

theorem cancel_names (l : AsyncLock τ) (t : τ) :
    (l.cancel t).waiters.map Prod.fst = l.waiters.map Prod.fst := by
  simp only [cancel, List.map_map]
  refine List.map_congr_left fun w _ => ?_
  simp only [Function.comp_apply]
  split <;> rfl

theorem done_of_cancel {w : τ × FutureState} :
    (if w.1 = t ∧ w.2 = .pending then (w.1, FutureState.cancelled) else w).2 = .done ↔
      w.2 = .done := by
  split
  · rename_i h
    simp [h.2]
  · rfl

theorem Orderly.cancel (h : l.Orderly) (t : τ) : (l.cancel t).Orderly := by
  refine ⟨by rw [cancel_names]; exact h.distinct, fun w hw hdone => ?_, fun hheld w hw hdone => ?_⟩
  · rw [AsyncLock.cancel, ← List.map_tail] at hw
    obtain ⟨x, hx, rfl⟩ := List.mem_map.mp hw
    exact h.later x hx (done_of_cancel.mp hdone)
  · obtain ⟨x, hx, rfl⟩ := List.mem_map.mp hw
    exact h.held hheld x hx (done_of_cancel.mp hdone)

theorem undisturbed_cancel (u t : τ) (l : AsyncLock τ) : Undisturbed u l (l.cancel t) := by
  refine ⟨Iff.rfl, by rw [Queued, cancel_names, Queued], fun hw => ?_⟩
  exact List.mem_map.mpr ⟨(u, .done), hw, by simp⟩

end AsyncLock

end PrismServe.Lib
