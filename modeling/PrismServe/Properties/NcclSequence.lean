import PrismServe.Lib.Interleaving
import PrismServe.Router.Loader
import PrismServe.Router.NcclSequencer

/-!
# At most one pair is being launched

Every transfer of a control object is followed under all schedules, with any
failure, lost response or cancellation at any await.  `InSection` is read off the
log: the target was called to prepare and the two terminals have not been seen,
whether or not the task is still there.

The invariant is that such a pair has the lock or has poisoned the sequencer.
Each pair relies on the others to leave its place in the queue, its lock and its
part of the log alone, and the log as a whole while it has the lock.

The scheduling process has a coarser pair.  A pair here takes one of a few
courses once it has the lock, and the coarser pair can take each of them.
-/

namespace PrismServe

open Lib Prog

/-! ## The log -/

/-- The pair that an event is about. -/
def NcclEvent.task : NcclEvent → PairTask
  | .prepared t => t
  | .started t => t
  | .observed t _ _ => t
  | .left t => t

/-- The event is a call that moves a transfer on. -/
def NcclEvent.isLaunch : NcclEvent → Bool
  | .prepared _ => true
  | .started _ => true
  | _ => false

/-- Both endpoints were seen terminal by the pair. -/
def SeenTerminal (log : List NcclEvent) (t : PairTask) : Prop :=
  ∃ source target, .observed t source target ∈ log

/-- The pair has called its target to prepare and has not seen both endpoints terminal. -/
def InSection (log : List NcclEvent) (t : PairTask) : Prop :=
  .prepared t ∈ log ∧ ¬ SeenTerminal log t

/-- After a pair has left the section with an exception nothing is launched. -/
def QuietAfterLeaving (log : List NcclEvent) : Prop :=
  ∀ before t after, log = before ++ .left t :: after → ∀ e ∈ after, e.isLaunch = false

/-- Both endpoints are completed, with one positive count of bytes and all terminal flags. -/
def TerminalProof (source target : JsonObject) : Prop :=
  source.lookup "state" = some (.string "COMPLETED") ∧
    target.lookup "state" = some (.string "COMPLETED") ∧
    ∃ sourceResult targetResult n, source.lookup "result" = some (.object sourceResult) ∧
      target.lookup "result" = some (.object targetResult) ∧ 0 < n ∧
      sourceResult.lookup "completed_bytes" = some (.integer n) ∧
      equalsCount n (targetResult.lookup "completed_bytes") = true ∧
      ∀ result ∈ [sourceResult, targetResult], ∀ flag ∈ ["work_terminal", "cuda_terminal"],
        result.lookup flag = some (.bool true)

theorem stateText_completed {value : JsonObject} (h : stateText value = "COMPLETED") :
    value.lookup "state" = some (.string "COMPLETED") := by
  unfold stateText at h
  split at h
  · exact absurd h (by decide)
  · rename_i hs
    rw [hs, h]
  · exact absurd h (by decide)

theorem isTrue_iff {value : Option Json} : isTrue value = true ↔ value = some (.bool true) := by
  constructor
  · intro h
    unfold isTrue at h
    split at h
    · rfl
    · cases h
  · rintro rfl
    rfl

theorem positiveCount_some {value : Option Json} {n : Int} (h : positiveCount value = some n) :
    value = some (.integer n) ∧ 0 < n := by
  unfold positiveCount at h
  split at h
  · split at h
    · rename_i hpositive
      cases h
      exact ⟨rfl, hpositive⟩
    · cases h
  · cases h

theorem terminalTransferFacts_ok {source target : JsonObject} {n : Int}
    (h : terminalTransferFacts source target = .ok n) : TerminalProof source target := by
  unfold terminalTransferFacts at h
  split at h
  · cases h
  rename_i hstates
  push Not at hstates
  split at h
  · rename_i sourceResult targetResult hsource htarget
    split at h
    · cases h
    rename_i bytes hbytes
    obtain ⟨hcount, hpositive⟩ := positiveCount_some hbytes
    split at h
    · cases h
    rename_i hequal
    split at h
    · rename_i hflags
      simp only [Bool.and_eq_true, isTrue_iff] at hflags
      obtain ⟨⟨⟨hsw, htw⟩, hsc⟩, htc⟩ := hflags
      refine ⟨stateText_completed hstates.1, stateText_completed hstates.2, sourceResult,
        targetResult, bytes, hsource, htarget, hpositive, hcount, by simpa using hequal, ?_⟩
      simp [hsw, htw, hsc, htc]
    · cases h
  · cases h

/-! ## The invariant -/

/-- What holds between two segments. -/
structure SequencerInv (s : NcclState) : Prop where
  orderly : s.lock.Orderly
  held : ∀ t, InSection s.log t → s.lock.holder = some t ∨ .left t ∈ s.log
  unique : ∀ t u, InSection s.log t → InSection s.log u → t = u
  poisoned : ∀ t, .left t ∈ s.log → s.poisoned = true
  quiet : QuietAfterLeaving s.log
  terminal : ∀ t source target, .observed t source target ∈ s.log → TerminalProof source target

/-- What the others leave to a pair. -/
structure LeftAlone (t : PairTask) (s s' : NcclState) : Prop where
  lock : AsyncLock.Undisturbed t s.lock s'.lock
  events : ∀ e : NcclEvent, e.task = t → (e ∈ s'.log ↔ e ∈ s.log)
  holding : s.lock.holder = some t → s'.poisoned = s.poisoned ∧ s'.log = s.log

namespace LeftAlone

theorem refl (t : PairTask) (s : NcclState) : LeftAlone t s s :=
  ⟨.refl t _, fun _ _ => Iff.rfl, fun _ => ⟨rfl, rfl⟩⟩

theorem trans {t : PairTask} {s s' s'' : NcclState} (h : LeftAlone t s s')
    (h' : LeftAlone t s' s'') : LeftAlone t s s'' := by
  refine ⟨h.lock.trans h'.lock, fun e he => (h'.events e he).trans (h.events e he), fun hheld => ?_⟩
  obtain ⟨hp, hl⟩ := h.holding hheld
  obtain ⟨hp', hl'⟩ := h'.holding (h.lock.holder.mpr hheld)
  exact ⟨hp'.trans hp, hl'.trans hl⟩

end LeftAlone

/-- The segments of a pair keep the invariant and leave the others alone. -/
structure PairGuar (t : PairTask) (s s' : NcclState) : Prop where
  inv : SequencerInv s → SequencerInv s'
  others : ∀ u, u ≠ t → LeftAlone u s s'

theorem PairGuar.refl (t : PairTask) (s : NcclState) : PairGuar t s s :=
  ⟨id, fun u _ => .refl u s⟩

theorem PairGuar.trans {t : PairTask} {s s' s'' : NcclState} (h : PairGuar t s s')
    (h' : PairGuar t s' s'') : PairGuar t s s'' :=
  ⟨fun hI => h'.inv (h.inv hI), fun u hu => (h.others u hu).trans (h'.others u hu)⟩

/-- The contract of a pair. -/
def pairContract (t : PairTask) : Contract NcclState PairCall Empty where
  rely s s' := (SequencerInv s.shared → SequencerInv s'.shared) ∧ LeftAlone t s.shared s'.shared
  guar s s' := PairGuar t s.shared s'.shared
  note _ _ := True
  rely_refl _ := ⟨id, .refl t _⟩
  rely_trans _ _ _ h h' := ⟨fun hI => h'.1 (h.1 hI), h.2.trans h'.2⟩

/-- Nothing is known of the pair yet. -/
structure Unseen (t : PairTask) (s : NcclState) : Prop where
  unheld : s.lock.holder ≠ some t
  unqueued : ¬ s.lock.Queued t
  silent : ∀ e : NcclEvent, e.task = t → e ∉ s.log

theorem Unseen.leftAlone {t : PairTask} {s s' : NcclState} (h : Unseen t s)
    (hs : LeftAlone t s s') : Unseen t s' :=
  ⟨fun hheld => h.unheld (hs.lock.holder.mp hheld),
    fun hqueued => h.unqueued (hs.lock.queued.mp hqueued),
    fun e he hmem => h.silent e he ((hs.events e he).mp hmem)⟩

/-! ## What one operation of a pair keeps -/

section Operations

variable {t : PairTask} {s : NcclState}

/-- The pair has the lock and has not done anything. -/
structure HasLock (t : PairTask) (s : NcclState) : Prop where
  held : s.lock.holder = some t
  silent : ∀ e : NcclEvent, e.task = t → e ∉ s.log

/-- The pair waits in the queue. -/
structure Queueing (t : PairTask) (s : NcclState) : Prop where
  unheld : s.lock.holder ≠ some t
  silent : ∀ e : NcclEvent, e.task = t → e ∉ s.log

/-- The pair is in its section. -/
structure Launching (t : PairTask) (s : NcclState) : Prop where
  held : s.lock.holder = some t
  sound : s.poisoned = false
  prepared : .prepared t ∈ s.log
  unobserved : ¬ SeenTerminal s.log t

/-- The pair has the lock and is done with its section. -/
structure Releasing (t : PairTask) (s : NcclState) : Prop where
  held : s.lock.holder = some t
  settled : InSection s.log t → .left t ∈ s.log

/-- A change of the lock alone. -/
theorem PairGuar.onLock {f : AsyncLock PairTask → AsyncLock PairTask}
    (horderly : (f s.lock).Orderly)
    (hothers : ∀ u, u ≠ t → AsyncLock.Undisturbed u s.lock (f s.lock))
    (hheld : s.lock.holder = some t → InSection s.log t → .left t ∈ s.log) :
    PairGuar t s (s.onLock f) where
  inv hI := by
    refine ⟨horderly, fun u hu => ?_, hI.unique, hI.poisoned, hI.quiet, hI.terminal⟩
    rcases hI.held u hu with h | h
    · by_cases hut : u = t
      · subst hut
        exact Or.inr (hheld h hu)
      · exact Or.inl ((hothers u hut).holder.mpr h)
    · exact Or.inr h
  others u hu := ⟨hothers u hu, fun _ _ => Iff.rfl, fun _ => ⟨rfl, rfl⟩⟩

theorem seize_guar (hI : SequencerInv s) (h : Unseen t s) (hfree : s.lock.free = true) :
    PairGuar t s (s.onLock (·.seize t)) ∧ HasLock t (s.onLock (·.seize t)) := by
  have hnone : s.lock.holder = none := by
    rw [AsyncLock.free, Bool.and_eq_true] at hfree
    exact Option.isNone_iff_eq_none.mp hfree.1
  refine ⟨PairGuar.onLock (hI.orderly.seize hfree)
    (fun _ hu => AsyncLock.undisturbed_seize hu hnone) fun hheld => absurd hheld h.unheld, rfl,
    h.silent⟩

theorem enqueue_guar (hI : SequencerInv s) (h : Unseen t s) :
    PairGuar t s (s.onLock (·.enqueue t)) ∧ Queueing t (s.onLock (·.enqueue t)) :=
  ⟨PairGuar.onLock (hI.orderly.enqueue h.unqueued) (fun _ hu => AsyncLock.undisturbed_enqueue hu)
    fun hheld => absurd hheld h.unheld, h.unheld, h.silent⟩

theorem take_guar (hI : SequencerInv s) (h : Queueing t s) (hwoken : s.lock.Woken t) :
    PairGuar t s (s.onLock (·.take t)) ∧ HasLock t (s.onLock (·.take t)) :=
  ⟨PairGuar.onLock (hI.orderly.take hwoken)
    (fun _ hu => AsyncLock.undisturbed_take hu (hI.orderly.free_of_woken hwoken))
    fun hheld => absurd hheld h.unheld, rfl, h.silent⟩

theorem abandon_guar (hI : SequencerInv s) (h : Queueing t s) :
    PairGuar t s (s.onLock (·.abandon t)) :=
  PairGuar.onLock (hI.orderly.abandon t) (fun _ hu => AsyncLock.undisturbed_abandon hu)
    fun hheld => absurd hheld h.unheld

theorem release_guar (hI : SequencerInv s) (h : Releasing t s) :
    PairGuar t s (s.onLock AsyncLock.release) :=
  PairGuar.onLock hI.orderly.release (fun _ hu => AsyncLock.undisturbed_release hu h.held)
    fun _ => h.settled

/-- The references that are marked concern nobody here. -/
theorem PairGuar.of_same {s' : NcclState} (hlock : s'.lock = s.lock)
    (hpoisoned : s'.poisoned = s.poisoned) (hlog : s'.log = s.log) : PairGuar t s s' where
  inv hI := by
    refine ⟨hlock ▸ hI.orderly, ?_, ?_, ?_, ?_, ?_⟩
    · rw [hlog, hlock]
      exact hI.held
    · rw [hlog]
      exact hI.unique
    · rw [hlog, hpoisoned]
      exact hI.poisoned
    · rw [hlog]
      exact hI.quiet
    · rw [hlog]
      exact hI.terminal
  others u _ := ⟨hlock ▸ .refl u _, fun _ _ => by rw [hlog], fun _ => ⟨hpoisoned, hlog⟩⟩

variable {e : NcclEvent}

/-- An event that the holder of the lock records concerns no other pair. -/
theorem LeftAlone.of_record {u : PairTask} {s' : NcclState} (hne : u ≠ t)
    (hheld : s.lock.holder = some t) (he : e.task = t) (hlock : s'.lock = s.lock)
    (hlog : s'.log = s.log ++ [e]) : LeftAlone u s s' := by
  refine ⟨hlock ▸ .refl u _, fun e' he' => ?_, fun hheld' => ?_⟩
  · rw [hlog, List.mem_append, List.mem_singleton, or_iff_left]
    rintro rfl
    exact hne (he'.symm.trans he)
  · rw [hheld] at hheld'
    exact absurd (Option.some.inj hheld').symm hne

theorem observed_append {log : List NcclEvent} {t : PairTask}
    (he : ∀ u source target, e ≠ .observed u source target) :
    SeenTerminal (log ++ [e]) t ↔ SeenTerminal log t := by
  constructor
  · rintro ⟨source, target, hmem⟩
    rcases List.mem_append.mp hmem with hmem | hmem
    · exact ⟨source, target, hmem⟩
    · exact absurd (List.mem_singleton.mp hmem).symm (he t source target)
  · rintro ⟨source, target, hmem⟩
    exact ⟨source, target, List.mem_append_left _ hmem⟩

/-- Nothing has been left with an exception, so that a launch disturbs no silence. -/
theorem quiet_append {log : List NcclEvent} (h : QuietAfterLeaving log)
    (he : e.isLaunch = true → ∀ t, .left t ∉ log) : QuietAfterLeaving (log ++ [e]) := by
  intro before t after heq e' he'
  rcases List.eq_nil_or_concat after with rfl | ⟨after, last, rfl⟩
  · exact absurd he' (by simp)
  rw [List.concat_eq_append, ← List.cons_append, ← List.append_assoc] at heq
  obtain ⟨hlog, hlast⟩ := List.append_inj' heq rfl
  cases hlast
  rw [List.concat_eq_append] at he'
  rcases List.mem_append.mp he' with he' | he'
  · exact h before t after hlog e' he'
  rw [List.mem_singleton.mp he']
  by_contra hlaunch
  refine he (by simpa using hlaunch) t ?_
  rw [hlog]
  exact List.mem_append_right _ List.mem_cons_self

theorem SequencerInv.not_left (hI : SequencerInv s) (hsound : s.poisoned = false) (u : PairTask) :
    .left u ∉ s.log := by
  intro hleft
  rw [hI.poisoned u hleft] at hsound
  cases hsound

/-- A pair that begins its section finds no other one in it. -/
theorem prepare_guar (hI : SequencerInv s) (h : HasLock t s) (hsound : s.poisoned = false) :
    PairGuar t s (s.record (.prepared t)) ∧ Launching t (s.record (.prepared t)) := by
  have hnone : ∀ u, ¬ InSection s.log u := by
    intro u hu
    rcases hI.held u hu with hheld | hleft
    · rw [h.held] at hheld
      cases hheld
      exact h.silent _ rfl hu.1
    · exact hI.not_left hsound u hleft
  have hsection : ∀ u, InSection (s.log ++ [.prepared t]) u → u = t := by
    rintro u ⟨hprepared, hunobserved⟩
    rcases List.mem_append.mp hprepared with hmem | hmem
    · refine absurd ⟨hmem, fun hobserved => hunobserved ?_⟩ (hnone u)
      exact (observed_append (by simp)).mpr hobserved
    · simpa using hmem
  refine ⟨⟨fun _ => ⟨hI.orderly, fun u hu => ?_, fun u v hu hv => ?_, fun u hu => ?_, ?_, ?_⟩,
    fun u hu => .of_record hu h.held rfl rfl rfl⟩, h.held, hsound, by simp [NcclState.record], ?_⟩
  · rw [hsection u hu]
    exact Or.inl h.held
  · rw [hsection u hu, hsection v hv]
  · have hleft : .left u ∈ s.log := by simpa [NcclState.record] using hu
    exact hI.poisoned u hleft
  · exact quiet_append hI.quiet fun _ u => hI.not_left hsound u
  · intro u source target hmem
    exact hI.terminal u source target (by simpa [NcclState.record] using hmem)
  · intro hobserved
    obtain ⟨source, target, hmem⟩ := (observed_append (by simp)).mp hobserved
    exact h.silent _ rfl hmem

theorem start_guar (hI : SequencerInv s) (h : Launching t s) :
    PairGuar t s (s.record (.started t)) ∧ Launching t (s.record (.started t)) := by
  have hsection : ∀ u, InSection (s.log ++ [.started t]) u ↔ InSection s.log u := by
    intro u
    rw [InSection, InSection, observed_append (by simp)]
    simp
  refine ⟨⟨fun _ => ⟨hI.orderly, fun u hu => ?_, fun u v hu hv => ?_, fun u hu => ?_, ?_, ?_⟩,
    fun u hu => .of_record hu h.held rfl rfl rfl⟩, h.held, h.sound, ?_, ?_⟩
  · refine (hI.held u ((hsection u).mp hu)).imp_right fun hleft => ?_
    exact List.mem_append_left _ hleft
  · exact hI.unique u v ((hsection u).mp hu) ((hsection v).mp hv)
  · have hleft : .left u ∈ s.log := by simpa [NcclState.record] using hu
    exact hI.poisoned u hleft
  · exact quiet_append hI.quiet fun _ u => hI.not_left h.sound u
  · intro u source target hmem
    exact hI.terminal u source target (by simpa [NcclState.record] using hmem)
  · exact List.mem_append_left _ h.prepared
  · intro hobserved
    exact h.unobserved ((observed_append (by simp)).mp hobserved)

theorem observe_guar (hI : SequencerInv s) (h : Launching t s) {source target : JsonObject}
    (hterminal : TerminalProof source target) :
    PairGuar t s (s.record (.observed t source target)) ∧
      Releasing t (s.record (.observed t source target)) := by
  have hobserved : SeenTerminal (s.record (.observed t source target)).log t :=
    ⟨source, target, List.mem_append_right _ List.mem_cons_self⟩
  have hsection : ∀ u, InSection (s.record (.observed t source target)).log u →
      InSection s.log u := by
    rintro u ⟨hprepared, hunobserved⟩
    refine ⟨by simpa [NcclState.record] using hprepared, ?_⟩
    rintro ⟨source', target', hmem⟩
    exact hunobserved ⟨source', target', List.mem_append_left _ hmem⟩
  refine ⟨⟨fun _ => ⟨hI.orderly, fun u hu => ?_, fun u v hu hv => ?_, fun u hu => ?_, ?_, ?_⟩,
    fun u hu => .of_record hu h.held rfl rfl rfl⟩, h.held, fun hin => absurd hobserved hin.2⟩
  · refine (hI.held u (hsection u hu)).imp_right fun hleft => ?_
    exact List.mem_append_left _ hleft
  · exact hI.unique u v (hsection u hu) (hsection v hv)
  · have hleft : .left u ∈ s.log := by simpa [NcclState.record] using hu
    exact hI.poisoned u hleft
  · exact quiet_append hI.quiet fun hlaunch => nomatch hlaunch
  · intro u source' target' hmem
    rcases List.mem_append.mp hmem with hmem | hmem
    · exact hI.terminal u source' target' hmem
    · cases List.mem_singleton.mp hmem
      exact hterminal

theorem poison_guar (hI : SequencerInv s) (h : Launching t s) :
    PairGuar t s (s.poison t) ∧ Releasing t (s.poison t) := by
  have hleft : .left t ∈ (s.poison t).log := List.mem_append_right _ List.mem_cons_self
  have hsection : ∀ u, InSection (s.poison t).log u → InSection s.log u := by
    rintro u ⟨hprepared, hunobserved⟩
    refine ⟨by simpa [NcclState.poison, NcclState.record] using hprepared, fun hobserved => ?_⟩
    exact hunobserved ((observed_append (by simp)).mpr hobserved)
  refine ⟨⟨fun _ => ⟨hI.orderly, fun u hu => ?_, fun u v hu hv => ?_, fun _ _ => rfl, ?_, ?_⟩,
    fun u hu => .of_record hu h.held rfl rfl rfl⟩, h.held, fun _ => hleft⟩
  · refine (hI.held u (hsection u hu)).imp_right fun hleft => ?_
    exact List.mem_append_left _ hleft
  · exact hI.unique u v (hsection u hu) (hsection v hv)
  · exact quiet_append hI.quiet fun hlaunch => nomatch hlaunch
  · intro u source target hmem
    have hmem' : .observed u source target ∈ s.log := by
      simpa [NcclState.poison, NcclState.record] using hmem
    exact hI.terminal u source target hmem'

end Operations

/-! ## The calls of a pair -/

section Calls

variable {C : Contract NcclState PairCall Empty}
  {J : Sys NcclState Empty → Sys NcclState Empty → Prop}

/-- An assertion that the calls of a pair keep. -/
structure Lasting (C : Contract NcclState PairCall Empty)
    (J : Sys NcclState Empty → Sys NcclState Empty → Prop) : Prop where
  carried : Carried C J
  note : ∀ c s, C.note c s

theorem keeps_call (hJ : Lasting C J) (c : PairCall) : Keeps C J (Pair.call c) := by
  refine Keeps.await hJ.carried (fun _ s _ => hJ.note c s) fun r => ?_
  cases r with
  | ok value =>
    exact Keeps.ret _
  | _ =>
    exact Keeps.raise _

theorem keeps_reconcile (hJ : Lasting C J) (phase instanceId : String)
    (ref : EndpointOperationRef) (lost : Option EndpointOperationRef) :
    Keeps C J (Pair.reconcileAmbiguousTransferMutation phase instanceId ref lost) := by
  unfold Pair.reconcileAmbiguousTransferMutation
  split
  · exact Keeps.raise _
  refine Keeps.bind (keeps_call hJ _) fun value => ?_
  split
  · exact Keeps.raise _
  split
  · exact Keeps.raise _
  split
  · split
    · exact Keeps.ret _
    · exact Keeps.raise _
  · exact Keeps.raise _

theorem keeps_mutateEndpoint (hJ : Lasting C J) {ref : EndpointOperationRef}
    (hmark : Keeps C J (Prog.modify (NcclState.markRefAmbiguous ref) : Pair Unit))
    (phase instanceId : String) (c : PairCall) :
    Keeps C J (Pair.mutateEndpoint phase instanceId ref c) := by
  refine Keeps.rescue (keeps_call hJ c) fun e q hq => ?_
  split at hq
  · cases hq
    exact Keeps.bind hmark fun _ => keeps_reconcile hJ phase instanceId ref _
  · cases hq

theorem keeps_checkpoint (hJ : Lasting C J) (t : PairTask) (name : String) :
    Keeps C J (Pair.checkpoint t name) := by
  refine Keeps.read fun s₀ s h => ?_
  split
  · exact Keeps.bind (keeps_call hJ _) (fun _ => Keeps.ret _) s₀ s h
  · exact h

theorem keeps_gatherTerminals (hJ : Lasting C J) (t : PairTask) (rounds : Nat)
    (target source : Option JsonObject) :
    Keeps C J (Pair.gatherTerminals t rounds target source) := by
  fun_induction Pair.gatherTerminals t rounds target source with
  | case1 =>
    exact Keeps.ret _
  | case2 =>
    exact Keeps.cut hJ.carried
  | case3 rounds target source hpair ihOk ihTarget ihSource =>
    refine Keeps.await hJ.carried (fun _ s _ => hJ.note _ s) fun r => ?_
    split
    · exact ihOk
    · exact Keeps.raise _
    · split
      · exact Keeps.raise _
      · exact ihTarget _
    · split
      · exact Keeps.raise _
      · exact ihSource _

end Calls

/-! ## The program of a pair -/

section Program

variable {t : PairTask} {P : NcclState → Prop}

/-- The pair is where `P` says, and its segment has kept its guarantee. -/
def During (t : PairTask) (P : NcclState → Prop) (s₀ s : Sys NcclState Empty) : Prop :=
  PairGuar t s₀.shared s.shared ∧ SequencerInv s.shared ∧ P s.shared

/-- The others do not move the pair from where it is. -/
def Fixed (t : PairTask) (P : NcclState → Prop) : Prop :=
  ∀ s s', P s → LeftAlone t s s' → P s'

theorem During.lasting (hP : Fixed t P) : Lasting (pairContract t) (During t P) where
  carried :=
    ⟨fun _ _ h => h.1,
      fun _ s s' h hs => ⟨.refl t _, hs.1 h.2.1, hP s.shared s'.shared h.2.2 hs.2⟩⟩
  note _ _ := trivial

variable {s₀ s : Sys NcclState Empty}

theorem During.step {P' : NcclState → Prop} {f : NcclState → NcclState} (h : During t P s₀ s)
    (hf : SequencerInv s.shared → P s.shared → PairGuar t s.shared (f s.shared) ∧ P' (f s.shared)) :
    During t P' s₀ (s.update f) := by
  obtain ⟨hguar, hI, hP⟩ := h
  obtain ⟨hstep, hP'⟩ := hf hI hP
  exact ⟨hguar.trans hstep, hstep.inv hI, hP'⟩

theorem fixed_queueing : Fixed t (Queueing t) := fun _ _ h hs =>
  ⟨fun hheld => h.unheld (hs.lock.holder.mp hheld),
    fun e he hmem => h.silent e he ((hs.events e he).mp hmem)⟩

theorem fixed_launching : Fixed t (Launching t) := by
  intro s s' h hs
  obtain ⟨hpoisoned, hlog⟩ := hs.holding h.held
  exact ⟨hs.lock.holder.mpr h.held, hpoisoned ▸ h.sound, hlog ▸ h.prepared, hlog ▸ h.unobserved⟩

theorem lasting_launching : Lasting (pairContract t) (During t (Launching t)) :=
  During.lasting fixed_launching

/-- Marking a reference concerns neither the lock nor the log. -/
theorem keeps_launching_mark (ref : EndpointOperationRef) :
    Keeps (pairContract t) (During t (Launching t))
      (Prog.modify (NcclState.markRefAmbiguous ref) : Pair Unit) :=
  Keeps.modify fun _ _ h => h.step fun _ hl =>
    ⟨.of_same rfl rfl rfl, hl.held, hl.sound, hl.prepared, hl.unobserved⟩

/-- The section ends with both terminals seen, or it is being left with an exception. -/
theorem wp_launch (rounds : Nat) (h : During t (fun s => HasLock t s ∧ s.poisoned = false) s₀ s) :
    WP (pairContract t) (fun _ => During t (Releasing t)) (fun _ => During t (Launching t))
      (Pair.launch rounds t) s₀ s := by
  have hprepared : During t (Launching t) s₀
      ((s.update (NcclState.markRefAttempted t.targetRef)).update
        (NcclState.record (.prepared t))) := by
    have hmarked : During t (fun s => HasLock t s ∧ s.poisoned = false) s₀
        (s.update (NcclState.markRefAttempted t.targetRef)) :=
      h.step fun _ hl => ⟨.of_same rfl rfl rfl, ⟨hl.1.held, hl.1.silent⟩, hl.2⟩
    exact hmarked.step fun hI hl => prepare_guar hI hl.1 hl.2
  change WP _ _ _ (Prog.bind (Pair.mutateEndpoint _ _ _ _) _) s₀ ((s.update _).update _)
  refine Keeps.andThen (keeps_mutateEndpoint lasting_launching (keeps_launching_mark _) _ _ _)
    hprepared (fun _ _ _ he => he)
    fun _ s₀ s h => ?_
  refine Keeps.andThen (keeps_checkpoint lasting_launching t _) h (fun _ _ _ he => he)
    fun _ s₀ s h => ?_
  have hstarted : During t (Launching t) s₀
      ((s.update (NcclState.markRefAttempted t.sourceRef)).update
        (NcclState.record (.started t))) := by
    have hmarked : During t (Launching t) s₀
        (s.update (NcclState.markRefAttempted t.sourceRef)) :=
      h.step fun _ hl => ⟨.of_same rfl rfl rfl, ⟨hl.held, hl.sound, hl.prepared, hl.unobserved⟩⟩
    exact hmarked.step fun hI hl => start_guar hI hl
  change WP _ _ _ (Prog.bind (Pair.mutateEndpoint _ _ _ _) _) s₀ ((s.update _).update _)
  refine Keeps.andThen (keeps_mutateEndpoint lasting_launching (keeps_launching_mark _) _ _ _)
    hstarted (fun _ _ _ he => he)
    fun _ s₀ s h => ?_
  refine Keeps.andThen (keeps_checkpoint lasting_launching t _) h (fun _ _ _ he => he)
    fun _ s₀ s h => ?_
  refine Keeps.andThen (keeps_gatherTerminals lasting_launching t rounds none none) h
    (fun _ _ _ he => he)
    fun r s₀ s h => ?_
  obtain ⟨target, source⟩ := r
  dsimp only
  split
  · exact h
  · rename_i n hfacts
    exact h.step fun hI hl => observe_guar hI hl (terminalTransferFacts_ok hfacts)

/-- Whatever ends the body, the lock may be released. -/
theorem wp_guarded (rounds : Nat) (h : During t (HasLock t) s₀ s) :
    WP (pairContract t) (fun _ => During t (Releasing t)) (fun _ => During t (Releasing t))
      (Pair.guarded rounds t) s₀ s := by
  change WP _ _ _ (if s.shared.poisoned = true then _ else _) s₀ s
  split
  · exact ⟨h.1, h.2.1, h.2.2.held, fun hin => absurd hin.1 (h.2.2.silent _ rfl)⟩
  rename_i hsound
  rw [wp_rescue]
  refine WP.mono (fun _ _ _ hr => hr) (fun e s₀ s hl => ?_)
    (wp_launch rounds ⟨h.1, h.2.1, h.2.2, by simpa using hsound⟩)
  exact hl.step fun hI hl => poison_guar hI hl

theorem wp_acquire {s : Sys NcclState Empty} (hI : SequencerInv s.shared)
    (h : Unseen t s.shared) :
    WP (pairContract t) (fun _ => During t (HasLock t))
      (fun _ s₀ s => PairGuar t s₀.shared s.shared)
      (Pair.acquire t) s s := by
  change WP _ _ _ (if s.shared.lock.free = true then _ else _) s s
  split
  · rename_i hfree
    obtain ⟨hguar, hlock⟩ := seize_guar hI h hfree
    exact ⟨hguar, hguar.inv hI, hlock⟩
  · obtain ⟨hguar, hqueue⟩ := enqueue_guar hI h
    refine ⟨hguar, trivial, fun s' hs' r => ?_⟩
    have hI' : SequencerInv s'.shared := hs'.1 (hguar.inv hI)
    have hqueue' : Queueing t s'.shared := fixed_queueing _ _ hqueue hs'.2
    cases r with
    | ok _ =>
      change WP _ _ _ (if s'.shared.lock.Woken t then _ else _) s' s'
      split
      · rename_i hwoken
        obtain ⟨htake, hlock⟩ := take_guar hI' hqueue' hwoken
        exact ⟨htake, htake.inv hI', hlock⟩
      · exact abandon_guar hI' hqueue'
    | _ =>
      exact abandon_guar hI' hqueue'

theorem owes_runNcclPair (rounds : Nat) {s : NcclState} (hI : SequencerInv s) (h : Unseen t s) :
    Owes (pairContract t) ((Pair.runNcclPair rounds t).bind fun _ => .ret ()) s := by
  rw [Owes, wp_bind]
  refine (wp_bind _ _ _ _).mpr (WP.mono (fun _ s₀ s hs => ?_) (fun _ _ _ he => he)
    (wp_acquire hI h))
  refine (wp_bind _ _ _ _).mpr ((wp_rescue _ _ _ _).mpr (WP.mono (fun _ s₀ s hr => ?_)
    (fun e s₀ s hr => ?_) (wp_guarded rounds hs)))
  · exact hr.1.trans (release_guar hr.2.1 hr.2.2)
  · exact hr.1.trans (release_guar hr.2.1 hr.2.2)

end Program

/-! ## Every schedule -/

theorem event_guar (rounds : Nat) (e : NcclHappening) (s : NcclState) (hI : SequencerInv s) :
    SequencerInv ((ncclCrew rounds).event e s) ∧
      ∀ t, LeftAlone t s ((ncclCrew rounds).event e s) := by
  cases e with
  | cancelWaiter t =>
    refine ⟨⟨hI.orderly.cancel t, hI.held, hI.unique, hI.poisoned, hI.quiet, hI.terminal⟩,
      fun u => ⟨AsyncLock.undisturbed_cancel u t s.lock, fun _ _ => Iff.rfl, fun _ => ⟨rfl, rfl⟩⟩⟩
  | _ =>
    exact ⟨⟨hI.orderly, hI.held, hI.unique, hI.poisoned, hI.quiet, hI.terminal⟩,
      fun u => ⟨.refl u _, fun _ _ => Iff.rfl, fun _ => ⟨rfl, rfl⟩⟩⟩

theorem nccl_agreement (rounds : Nat) :
    Agreement (ncclCrew rounds) pairContract SequencerInv Unseen where
  inv _ _ _ h hI := h.inv hI
  others _ u hne _ _ _ h := ⟨h.inv, h.others u hne.symm⟩
  pre _ _ _ h hpre := hpre.leftAlone h.2
  body t r s hI hpre := by
    cases r with
    | raised _ =>
      exact .refl t s
    | _ =>
      exact owes_runNcclPair rounds hI hpre
  event_inv e s hI := (event_guar rounds e s hI).1
  event_rely e t s hI := ⟨fun _ => (event_guar rounds e s hI).1, (event_guar rounds e s hI).2 t⟩

theorem sequencerInv_initial : SequencerInv {} where
  orderly := AsyncLock.orderly_initial
  held t h := absurd h.1 (by simp)
  unique t u h := absurd h.1 (by simp)
  poisoned t h := absurd h (by simp)
  quiet before t after h := absurd h (by simp)
  terminal t source target h := absurd h (by simp)

theorem unseen_initial (t : PairTask) : Unseen t {} :=
  ⟨by simp, by simp [AsyncLock.Queued], by simp⟩

/-- Under every schedule at most one pair has called its target without having seen both endpoints
terminal, and it has the lock or has left with an exception; once a pair has left its section with
an exception, nothing is launched; and a pair that has seen its endpoints terminal has proof of
it. -/
theorem nccl_pairs_are_sequenced (rounds : Nat)
    (turns : List (Turn PairReply PairTask NcclHappening)) :
    let s := ((ncclCrew rounds).run (Crew.idle {}) turns).shared
    (∀ t u, InSection s.log t → InSection s.log u → t = u) ∧
    (∀ t, InSection s.log t → s.lock.holder = some t ∨ .left t ∈ s.log) ∧
    QuietAfterLeaving s.log ∧
    ∀ t source target, .observed t source target ∈ s.log → TerminalProof source target := by
  intro s
  have hI : SequencerInv s :=
    (run_agreed (nccl_agreement rounds)
      (agreed_idle sequencerInv_initial unseen_initial) turns).inv
  exact ⟨hI.unique, hI.held, hI.quiet, hI.terminal⟩

/-! ## The pair of the scheduling process -/

/-- How a pair that got the lock can end: how many endpoints were called, the target first, whether
the sequencer was poisoned before, whether the pair returns, and whether the sequencer is poisoned
then. -/
inductive PairCourse : Nat → Bool → Bool → Bool → Prop
  | refused : PairCourse 0 true false true
  | targetFails : PairCourse 1 false false true
  | sourceFails : PairCourse 2 false false true
  | completes : PairCourse 2 false true false

section Courses

variable {t : PairTask} {s₀ s : Sys NcclState Empty}

/-- The others leave the flag and the marks alone. -/
def sectionContract : Contract NcclState PairCall Empty where
  rely s s' :=
    s'.shared.poisoned = s.shared.poisoned ∧ s'.shared.attemptedRefs = s.shared.attemptedRefs
  guar _ _ := True
  note _ _ := True
  rely_refl _ := ⟨rfl, rfl⟩
  rely_trans _ _ _ h h' := ⟨h'.1.trans h.1, h'.2.trans h.2⟩

/-- The references were marked since `before`. -/
def Marked (before : NcclState) (refs : List EndpointOperationRef) (flag : Bool) (s : NcclState) :
    Prop :=
  s.poisoned = flag ∧ ∀ ref, ref ∈ s.attemptedRefs ↔ ref ∈ refs ∨ ref ∈ before.attemptedRefs

theorem lasting_marked {before : NcclState} {refs : List EndpointOperationRef} {flag : Bool} :
    Lasting sectionContract fun _ s => Marked before refs flag s.shared where
  carried := ⟨fun _ _ _ => trivial, fun _ _ _ h hs => ⟨hs.1.trans h.1, hs.2 ▸ h.2⟩⟩
  note _ _ := trivial

theorem keeps_marked_mark {before : NcclState} {refs : List EndpointOperationRef} {flag : Bool}
    {ref : EndpointOperationRef} (h : ref ∈ refs) :
    Keeps sectionContract (fun _ s => Marked before refs flag s.shared)
      (Prog.modify (NcclState.markRefAmbiguous ref) : Pair Unit) := by
  refine Keeps.modify fun _ s hs => ⟨hs.1, fun ref' => List.mem_cons.trans ?_⟩
  rw [hs.2]
  constructor
  · rintro (rfl | h')
    · exact Or.inl h
    · exact h'
  · exact Or.inr

/-- The endpoints that a pair calls, in order. -/
def PairTask.endpoints (t : PairTask) : List EndpointOperationRef := [t.targetRef, t.sourceRef]

theorem launch_marks (rounds : Nat) (h : s.shared.poisoned = false) :
    WP sectionContract (fun _ _ u => Marked s.shared (t.endpoints.take 2) false u.shared)
      (fun _ _ u => ∃ k, PairCourse k false false true ∧
        Marked s.shared (t.endpoints.take k) false u.shared) (Pair.launch rounds t) s₀ s := by
  change WP _ _ _ (Prog.bind (Pair.mutateEndpoint _ _ _ _) _) s₀ ((s.update _).update _)
  have hprepared : Marked s.shared (t.endpoints.take 1) false
      ((s.update (NcclState.markRefAttempted t.targetRef)).update
        (NcclState.record (.prepared t))).shared :=
    ⟨h, fun ref => by simp [PairTask.endpoints, NcclState.markRefAttempted, NcclState.record]⟩
  refine Keeps.andThen (keeps_mutateEndpoint lasting_marked (keeps_marked_mark (by
    simp [PairTask.endpoints])) _ _ _) hprepared (fun _ _ _ he => ⟨1, .targetFails, he⟩)
    fun _ _ _ h => ?_
  refine Keeps.andThen (keeps_checkpoint lasting_marked t _) h
    (fun _ _ _ he => ⟨1, .targetFails, he⟩) fun _ s₀ u h => ?_
  change WP _ _ _ (Prog.bind (Pair.mutateEndpoint _ _ _ _) _) s₀ ((u.update _).update _)
  have hstarted : Marked s.shared (t.endpoints.take 2) false
      ((u.update (NcclState.markRefAttempted t.sourceRef)).update
        (NcclState.record (.started t))).shared := by
    refine ⟨h.1, fun ref => List.mem_cons.trans ?_⟩
    simp [h.2, PairTask.endpoints, or_assoc, or_left_comm]
  refine Keeps.andThen (keeps_mutateEndpoint lasting_marked (keeps_marked_mark (by
    simp [PairTask.endpoints])) _ _ _) hstarted (fun _ _ _ he => ⟨2, .sourceFails, he⟩)
    fun _ _ _ h => ?_
  refine Keeps.andThen (keeps_checkpoint lasting_marked t _) h
    (fun _ _ _ he => ⟨2, .sourceFails, he⟩) fun _ _ _ h => ?_
  refine Keeps.andThen (keeps_gatherTerminals lasting_marked t rounds none none) h
    (fun _ _ _ he => ⟨2, .sourceFails, he⟩) fun r _ _ h => ?_
  obtain ⟨target, source⟩ := r
  dsimp only
  split
  · exact ⟨2, .sourceFails, h⟩
  · exact h

/-- A pair that got the lock takes one of the courses. -/
theorem guarded_course (rounds : Nat) :
    let ends (returned : Bool) (_ u : Sys NcclState Empty) := ∃ k flag,
      PairCourse k s.shared.poisoned returned flag ∧
        Marked s.shared (t.endpoints.take k) flag u.shared
    WP sectionContract (fun _ => ends true) (fun _ => ends false) (Pair.guarded rounds t) s₀ s := by
  intro ends
  change WP _ _ _ (if s.shared.poisoned = true then _ else _) s₀ s
  split
  · rename_i hpoisoned
    exact ⟨0, true, hpoisoned ▸ .refused, hpoisoned, by simp⟩
  rename_i hsound
  have hsound : s.shared.poisoned = false := by simpa using hsound
  rw [wp_rescue]
  refine WP.mono (fun _ _ u hu => ?_) (fun e _ u hu => ?_) (launch_marks rounds hsound)
  · exact ⟨2, false, hsound ▸ .completes, hu⟩
  · obtain ⟨k, hcourse, hmarked⟩ := hu
    exact ⟨k, true, hsound ▸ hcourse, rfl, hmarked.2⟩

end Courses

/-- The pair of the scheduling process can take every course once it is let through. -/
theorem course_taken {k : Nat} {returned flag : Bool} (timed : Bool) (operationId : String)
    (sourceRef targetRef : EndpointRef) (w : Process)
    (h : PairCourse k w.shared.control.ncclPoisoned returned flag) :
    ∃ answers visits r w',
      (Loop.runNcclPair timed operationId sourceRef targetRef).drive w answers =
        some (visits, r, w') ∧ r.isOk = returned ∧
      w'.shared.control = { ([targetRef, sourceRef].take k).foldl
        (fun c ref => c.markRefAttempted ref) w.shared.control with ncclPoisoned := flag } := by
  generalize hflag : w.shared.control.ncclPoisoned = before at h
  have hw : w = ⟨{ w.shared with control := { w.shared.control with ncclPoisoned := before } },
      w.live⟩ := by
    rw [← hflag]
  rw [hw]
  -- answered are the gate, the target, the source and the wait for both
  cases h with
  | refused =>
    exact ⟨[(.ok, id)], by cases timed <;> exact ⟨_, _, _, rfl, rfl, rfl⟩⟩
  | targetFails =>
    exact ⟨[(.ok, id), (.raised .timeout, id)], by
      cases timed <;> exact ⟨_, _, _, rfl, rfl, rfl⟩⟩
  | sourceFails =>
    exact ⟨[(.ok, id), (.ok, id), (.raised .timeout, id)], by
      cases timed <;> exact ⟨_, _, _, rfl, rfl, rfl⟩⟩
  | completes =>
    exact ⟨List.replicate 4 (.ok, id), by cases timed <;> exact ⟨_, _, _, rfl, rfl, rfl⟩⟩

end PrismServe
