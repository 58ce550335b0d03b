import PrismServe.Scheduler.TransferRuns

/-!
# The live tasks of the governor

How each change of the ledger changes the deferred tasks and those in flight, up
to order.  Since a request has at most one live task, a task that is handed off
replaces no other, and the task of a held entry is the one that leaves.
-/

namespace PrismServe

open Lib

namespace TransferGovernor

section Frames

variable {g : TransferGovernor} {task : TransferTask}

/-- How charging a task of a new request changes the tasks in flight. -/
theorem values_charge (hfresh : g.inflightTasks.get? task.reqId = none) :
    (g.charge task).inflightTasks.values.Perm (task :: g.inflightTasks.values) := by
  have h := Dict.values_set_perm g.inflightTasks task.reqId task
  rwa [Dict.erase_of_get?_none _ hfresh] at h

theorem values_discharge (hheld : g.inflightTasks.get? task.reqId = some task) :
    g.inflightTasks.values.Perm (task :: (g.discharge task).inflightTasks.values) :=
  Dict.values_perm_erase _ hheld

theorem deferredTasks_setQueue {dst : String} {rest : List TransferTask}
    (hqueue : g.queueOf dst = task :: rest) :
    g.deferredTasks.Perm (task :: (g.setQueue dst rest).deferredTasks) := by
  have hget : g.deferred.get? dst = some (task :: rest) := by
    unfold queueOf at hqueue
    cases hget : g.deferred.get? dst with
    | none =>
      simp [hget] at hqueue
    | some queue =>
      simpa [hget] using hqueue
  have hbefore := (Dict.values_perm_erase _ hget).flatten
  have hafter := (Dict.values_set_perm g.deferred dst rest).flatten
  exact hbefore.trans (hafter.symm.cons task)

theorem deferredTasks_defer (g : TransferGovernor) (task : TransferTask) :
    (g.defer task).deferredTasks.Perm (task :: g.deferredTasks) := by
  have hafter := (Dict.values_set_perm g.deferred task.dst
    ((g.deferred.get? task.dst).getD [] ++ [task])).flatten
  refine hafter.trans ?_
  cases hget : g.deferred.get? task.dst with
  | none =>
    rw [Dict.erase_of_get?_none _ hget]
    exact List.Perm.refl _
  | some queue =>
    have hbefore := (Dict.values_perm_erase _ hget).flatten
    rw [List.flatten_cons] at hbefore ⊢
    rw [Option.getD_some, List.append_assoc]
    exact List.perm_middle.trans (hbefore.symm.cons task)

theorem deferredTasks_dropDeferred (reqId : String) (operationId : Option String) :
    (g.dropDeferred reqId operationId).deferredTasks =
      g.deferredTasks.filter fun t => !concerns reqId operationId t := by
  unfold deferredTasks dropDeferred Dict.values Dict.map
  simp only [List.map_map, List.filter_flatten]
  rfl

theorem mem_values {reqId : String} (h : g.inflightTasks.get? reqId = some task) :
    task ∈ g.inflightTasks.values :=
  (Dict.mem_values_iff _ _).mpr ⟨_, h⟩

theorem liveTasks_charge (hfresh : g.inflightTasks.get? task.reqId = none) :
    (g.charge task).liveTasks.Perm (task :: g.liveTasks) :=
  ((values_charge hfresh).append_left _).trans List.perm_middle

theorem liveTasks_discharge (hheld : g.inflightTasks.get? task.reqId = some task) :
    g.liveTasks.Perm (task :: (g.discharge task).liveTasks) :=
  ((values_discharge hheld).append_left _).trans List.perm_middle

theorem liveTasks_defer (g : TransferGovernor) (task : TransferTask) :
    (g.defer task).liveTasks.Perm (task :: g.liveTasks) :=
  (deferredTasks_defer g task).append_right _

theorem liveTasks_setQueue {dst : String} {rest : List TransferTask}
    (hqueue : g.queueOf dst = task :: rest) :
    g.liveTasks.Perm (task :: (g.setQueue dst rest).liveTasks) :=
  (deferredTasks_setQueue hqueue).append_right _

theorem liveTasks_retune {g' : TransferGovernor} (hsame : SameLedger g g') :
    g'.liveTasks.Perm g.liveTasks := by
  unfold liveTasks
  rw [hsame.tasks]
  exact hsame.deferred.append_right _

end Frames

/-! ## One live task of a request -/

/-- Proper tasks, at most one of a request. -/
structure Sound (ok : TransferTask → Prop) (tasks : List TransferTask) : Prop where
  proper : ∀ t ∈ tasks, ok t
  single : (tasks.map TransferTask.reqId).Nodup

/-- The live tasks are told apart by their requests. -/
structure Distinct (ok : TransferTask → Prop) (g : TransferGovernor) : Prop where
  sound : Sound ok g.liveTasks
  keyed : ∀ reqId t, g.inflightTasks.get? reqId = some t → t.reqId = reqId

namespace Sound

variable {ok : TransferTask → Prop} {l l' : List TransferTask}

theorem perm (h : Sound ok l) (hperm : l.Perm l') : Sound ok l' :=
  ⟨fun t ht => h.proper t (hperm.mem_iff.mpr ht), (hperm.map _).nodup_iff.mp h.single⟩

theorem sublist (h : Sound ok l) (hsub : l'.Sublist l) : Sound ok l' :=
  ⟨fun t ht => h.proper t (hsub.subset ht), h.single.sublist (hsub.map _)⟩

theorem cons {g : TransferGovernor} {task : TransferTask} (h : Sound ok g.liveTasks)
    (htask : Submittable ok g task) : Sound ok (task :: g.liveTasks) := by
  refine ⟨?_, ?_⟩
  · intro t ht
    rcases List.mem_cons.mp ht with rfl | ht
    · exact htask.proper
    · exact h.proper t ht
  · refine List.nodup_cons.mpr ⟨?_, h.single⟩
    intro hmem
    obtain ⟨t, ht, heq⟩ := List.mem_map.mp hmem
    exact htask.fresh t ht heq

/-- The requests of the other tasks differ from that of the first. -/
theorem absent {task : TransferTask} (h : Sound ok (task :: l)) :
    ∀ t ∈ l, t.reqId ≠ task.reqId := by
  intro t ht heq
  exact (List.nodup_cons.mp h.single).1 (List.mem_map.mpr ⟨t, ht, heq⟩)

end Sound

namespace Distinct

variable {ok : TransferTask → Prop} {g g' : TransferGovernor} {task : TransferTask}

/-- A task of a request that has no live task is not in flight. -/
theorem fresh (h : Distinct ok g) (hfresh : ∀ t ∈ g.liveTasks, t.reqId ≠ task.reqId) :
    g.inflightTasks.get? task.reqId = none := by
  by_contra hsome
  obtain ⟨t, ht⟩ := Option.ne_none_iff_exists'.mp hsome
  exact hfresh t (List.mem_append_right _ (mem_values ht)) (h.keyed _ _ ht)

theorem keyed_charge (h : Distinct ok g) (reqId : String) (t : TransferTask)
    (hget : (g.charge task).inflightTasks.get? reqId = some t) : t.reqId = reqId := by
  simp only [charge, Dict.get?_set] at hget
  split at hget
  · next heq =>
      cases hget
      exact heq.symm
  · exact h.keyed reqId t hget

theorem discharge (h : Distinct ok g) (hheld : g.inflightTasks.get? task.reqId = some task) :
    Distinct ok (g.discharge task) := by
  refine ⟨(h.sound.perm (liveTasks_discharge hheld)).sublist (List.sublist_cons_self _ _), ?_⟩
  intro reqId t hget
  simp only [TransferGovernor.discharge, Dict.get?_erase] at hget
  split at hget
  · cases hget
  · exact h.keyed reqId t hget

theorem sendNew (h : Distinct ok g) (htask : Submittable ok g task) :
    Distinct ok (g.charge task) :=
  ⟨(h.sound.cons htask).perm (liveTasks_charge (h.fresh htask.fresh)).symm, h.keyed_charge⟩

section Front

variable {dst : String} {rest : List TransferTask}

theorem pop (h : Distinct ok g) (hqueue : g.queueOf dst = task :: rest) :
    Distinct ok (g.setQueue dst rest) :=
  ⟨(h.sound.perm (liveTasks_setQueue hqueue)).sublist (List.sublist_cons_self _ _), h.keyed⟩

/-- The front of a queue is of no request that has a task in flight. -/
theorem front_fresh (h : Distinct ok g) (hqueue : g.queueOf dst = task :: rest) :
    g.inflightTasks.get? task.reqId = none :=
  (h.pop hqueue).fresh (h.sound.perm (liveTasks_setQueue hqueue)).absent

theorem sendDeferred (h : Distinct ok g) (hqueue : g.queueOf dst = task :: rest) :
    Distinct ok ((g.setQueue dst rest).charge task) := by
  have hfresh : (g.setQueue dst rest).inflightTasks.get? task.reqId = none := h.front_fresh hqueue
  exact ⟨h.sound.perm ((liveTasks_setQueue hqueue).trans (liveTasks_charge hfresh).symm),
    (h.pop hqueue).keyed_charge⟩

end Front

theorem drop (h : Distinct ok g) (reqId : String) (operationId : Option String) :
    Distinct ok (g.dropDeferred reqId operationId) := by
  refine ⟨h.sound.sublist ?_, h.keyed⟩
  have hsub : (g.dropDeferred reqId operationId).deferredTasks.Sublist g.deferredTasks := by
    rw [deferredTasks_dropDeferred]
    exact List.filter_sublist
  exact hsub.append_right _

theorem retune (h : Distinct ok g) (hsame : SameLedger g g') : Distinct ok g' := by
  refine ⟨h.sound.perm (liveTasks_retune hsame).symm, ?_⟩
  intro reqId t hget
  rw [hsame.tasks] at hget
  exact h.keyed reqId t hget

theorem change {new : List TransferEvent} (h : Distinct ok g) (hchange : Change ok g new g') :
    Distinct ok g' := by
  cases hchange with
  | deferred htask =>
    exact ⟨(h.sound.cons htask).perm (liveTasks_defer g _).symm, h.keyed⟩
  | sentNew htask _ =>
    exact h.sendNew htask
  | sentDeferred hqueue _ =>
    exact h.sendDeferred hqueue
  | released _ hheld =>
    exact h.discharge hheld
  | dropped reqId operationId =>
    exact h.drop reqId operationId
  | remarked _ =>
    exact h
  | retuned hsame =>
    exact h.retune hsame

theorem unused (h : g.Unused) : Distinct ok g := by
  refine ⟨⟨?_, ?_⟩, ?_⟩
  · simp [liveTasks, deferredTasks, h.queues, h.tasks, Dict.values, Dict.empty]
  · simp [liveTasks, deferredTasks, h.queues, h.tasks, Dict.values, Dict.empty]
  · intro reqId t hget
    simp [h.tasks] at hget

theorem changes {log : List TransferEvent} (hg : Distinct ok g) (h : Changes ok g log g') :
    Distinct ok g' :=
  h.invariant (fun _ _ _ hg hchange => hg.change hchange) hg

end Distinct

/-! ## A small governor -/

/-- A governor that may send to one instance. -/
def openTo (dst : String) (cap : Int) : TransferGovernor where
  maxBytesInflightPerPair := cap
  kvUsage := Dict.empty.set dst ⟨0, "e", 0⟩
  expectedEpochs := Dict.empty.set dst "e"

theorem openTo_unused (dst : String) (cap : Int) : (openTo dst cap).Unused := ⟨rfl, rfl, rfl, rfl⟩

/-- Sending the first task of a governor that may send to its destination. -/
theorem Reached.first {ok : TransferTask → Prop} {dst : String} {cap : Int}
    {task : TransferTask} {now : Time} (hok : ok task)
    (hsend : (openTo dst cap).canSend now task = true) :
    Reached ok (openTo dst cap) [.submitted task, .handedOff (openTo dst cap) task]
      ((openTo dst cap).charge task) :=
  .submit .start ⟨hok, nofun⟩ (.sent hsend)

def largeTask : TransferTask := ⟨0, "r0", "p0", "d0", 80, "op0", 1⟩

def smallTask : TransferTask := ⟨1, "r1", "p0", "d0", 30, "op1", 1⟩

def largeSent : TransferGovernor := (openTo "d0" 100).charge largeTask

def smallWaits : TransferGovernor := largeSent.defer smallTask

def largeDone : TransferGovernor := smallWaits.discharge largeTask

def smallSent : TransferGovernor := (largeDone.setQueue "d0" []).charge smallTask

def smallSentLog : List TransferEvent :=
  [.submitted largeTask, .handedOff (openTo "d0" 100) largeTask, .submitted smallTask,
    .released smallWaits largeTask .completed, .handedOff largeDone smallTask]

/-- The small task waits for the large one, and is sent by its completion. -/
theorem smallSent_reached {ok : TransferTask → Prop} (hlargeOk : ok largeTask)
    (hsmallOk : ok smallTask) : Reached ok (openTo "d0" 100) smallSentLog smallSent := by
  have hroom : (openTo "d0" 100).canSend 0 largeTask = true := by decide +kernel
  have hfull : largeSent.canSend 0 smallTask = false := by decide +kernel
  have hagain : largeDone.canSend 0 smallTask = true := by decide +kernel
  have hqueue : largeDone.queueOf "d0" = [smallTask] := by decide +kernel
  have hlarge : Reached ok (openTo "d0" 100) _ largeSent := .first hlargeOk hroom
  have htask : Submittable ok largeSent smallTask := ⟨hsmallOk, by decide +kernel⟩
  have hflush : Runs (.flush "d0") largeDone _ true smallSent :=
    .flushSends hqueue hagain (.accepted .clientReturns) (.flushEmpty (by decide +kernel))
  exact (hlarge.submit htask (.submitDefers hfull)).onComplete
    (.completed (by decide +kernel) hflush)

end TransferGovernor

end PrismServe
