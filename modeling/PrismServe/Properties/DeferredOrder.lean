import PrismServe.Lib.Fifo
import PrismServe.Scheduler.DeferredRuns
import PrismServe.Properties.TransferTasks

/-!
# The order of deferred transfers

Seen from one destination, a run of the governor is a run of a queue: deferring
puts a task in at the end, a flush takes one out at the front, a cancellation
removes the tasks of a request.  Each change of the queues keeps this, however
deeply the flushes nest; so deferred tasks are dispatched in the order of their
deferral, and each deferral at most once.
-/

namespace PrismServe

open Lib

/-! ## What a log says about one destination -/

namespace QueueEvent

/-- Deferred for the destination. -/
def deferral (dst : String) : QueueEvent → List TransferTask
  | .deferred task => if task.dst = dst then [task] else []
  | _ => []

/-- Dispatched from the queue of the destination. -/
def dispatch (dst : String) : QueueEvent → List TransferTask
  | .dispatched (some queue) _ _ task => if queue = dst then [task] else []
  | _ => []

/-- Cancelled while waiting for the destination. -/
def cancellation (dst : String) : QueueEvent → List TransferTask
  | .cancelled before reqId operationId =>
    (before.queueOf dst).filter (TransferGovernor.concerns reqId operationId)
  | _ => []

def deferredFor (dst : String) (log : List QueueEvent) : List TransferTask :=
  log.flatMap (deferral dst)

def dispatchedFrom (dst : String) (log : List QueueEvent) : List TransferTask :=
  log.flatMap (dispatch dst)

def cancelledFor (dst : String) (log : List QueueEvent) : List TransferTask :=
  log.flatMap (cancellation dst)

/-- An event as an event of the queue of the destination. -/
def view (dst : String) : QueueEvent → List (FifoEvent TransferTask)
  | .deferred task => if task.dst = dst then [.enqueued task] else []
  | .dispatched (some queue) _ _ task => if queue = dst then [.dequeued task] else []
  | .dispatched none _ _ _ => []
  | .cancelled before reqId operationId =>
    [.removed ((before.queueOf dst).filter (TransferGovernor.concerns reqId operationId))]

theorem view_entering (dst : String) (event : QueueEvent) :
    (view dst event).flatMap FifoEvent.entering = deferral dst event := by
  rcases event with task | ⟨_ | queue, before, now, task⟩ | ⟨before, reqId, operationId⟩ <;>
    simp only [view, deferral] <;> (try split) <;> simp [FifoEvent.entering]

theorem view_leaving (dst : String) (event : QueueEvent) :
    (view dst event).flatMap FifoEvent.leaving = dispatch dst event := by
  rcases event with task | ⟨_ | queue, before, now, task⟩ | ⟨before, reqId, operationId⟩ <;>
    simp only [view, dispatch] <;> (try split) <;> simp [FifoEvent.leaving]

theorem view_removing (dst : String) (event : QueueEvent) :
    (view dst event).flatMap FifoEvent.removing = cancellation dst event := by
  rcases event with task | ⟨_ | queue, before, now, task⟩ | ⟨before, reqId, operationId⟩ <;>
    simp only [view, cancellation] <;> (try split) <;> simp [FifoEvent.removing]

variable (dst : String) (log : List QueueEvent)

theorem enqueuedIn_view : FifoEvent.enqueuedIn (log.flatMap (view dst)) = deferredFor dst log := by
  simp [FifoEvent.enqueuedIn, deferredFor, List.flatMap_assoc, view_entering]

theorem dequeuedIn_view :
    FifoEvent.dequeuedIn (log.flatMap (view dst)) = dispatchedFrom dst log := by
  simp [FifoEvent.dequeuedIn, dispatchedFrom, List.flatMap_assoc, view_leaving]

theorem removedIn_view : FifoEvent.removedIn (log.flatMap (view dst)) = cancelledFor dst log := by
  simp [FifoEvent.removedIn, cancelledFor, List.flatMap_assoc, view_removing]

end QueueEvent

open QueueEvent

namespace TransferGovernor

/-- One change of the queues, seen from one destination. -/
theorem QueueStep.fifo {g g' : TransferGovernor} {new : List QueueEvent} {dst : String}
    {seen : List (FifoEvent TransferTask)} (hstep : QueueStep g new g')
    (h : Fifo seen (g.queueOf dst)) :
    Fifo (seen ++ new.flatMap (view dst)) (g'.queueOf dst) := by
  cases hstep with
  | deferred task =>
    rw [queueOf_defer]
    by_cases hdst : dst = task.dst
    · simpa [view, hdst] using h.enqueue task
    · simpa [view, hdst, Ne.symm hdst] using h
  | @sent task now _ =>
    have hcharge : (charge task g).queueOf dst = g.queueOf dst := rfl
    rw [hcharge]
    simpa [view] using h
  | @sentDeferred queue task rest now hqueue _ =>
    have hcharge : (charge task (g.setQueue queue rest)).queueOf dst =
        (g.setQueue queue rest).queueOf dst := rfl
    rw [hcharge, queueOf_setQueue]
    by_cases hdst : dst = queue
    · subst hdst
      rw [hqueue] at h
      simpa [view] using h.dequeue
    · simpa [view, hdst, Ne.symm hdst] using h
  | cancelled reqId operationId hqueues =>
    rw [queueOf_congr hqueues, queueOf_dropDeferred]
    simpa [view] using h.remove (concerns reqId operationId)
  | quiet hqueues =>
    rw [hqueues]
    simpa using h

theorem QueueSteps.fifo {g g' : TransferGovernor} {log : List QueueEvent}
    (h : QueueSteps g log g') (hempty : ∀ dst, g.queueOf dst = []) (dst : String) :
    Fifo (log.flatMap (view dst)) (g'.queueOf dst) := by
  induction h with
  | none =>
    rw [hempty]
    exact .empty
  | more _ hstep ih =>
    rw [List.flatMap_append]
    exact hstep.fifo ih

/-- A dispatch is only made when `can_send` holds. -/
theorem QueueSteps.canSend {g g' : TransferGovernor} {log : List QueueEvent}
    (h : QueueSteps g log g') :
    ∀ queue before now task, QueueEvent.dispatched queue before now task ∈ log →
      before.canSend now task = true := by
  induction h with
  | none =>
    nofun
  | more _ hstep ih =>
    intro queue before now task hmem
    rcases List.mem_append.mp hmem with hold | hnew
    · exact ih queue before now task hold
    cases hstep with
    | sent hsend =>
      simp only [List.mem_singleton, QueueEvent.dispatched.injEq] at hnew
      obtain ⟨_, rfl, rfl, rfl⟩ := hnew
      exact hsend
    | sentDeferred _ hsend =>
      simp only [List.mem_singleton, QueueEvent.dispatched.injEq] at hnew
      obtain ⟨_, rfl, rfl, rfl⟩ := hnew
      -- taking the task out of its queue does not matter to `can_send`
      exact hsend
    | _ =>
      simp at hnew

/--
At every moment of a run the tasks that were deferred for a destination are those
dispatched from its queue, then those that wait, both in the order of deferral, and
those that were cancelled; and what is dispatched may be sent at that moment.
-/
theorem deferred_in_order {g₀ g : TransferGovernor} {log : List QueueEvent}
    (hempty : g₀.deferred = Dict.empty) (h : Worked g₀ log g) :
    (∀ dst earlier, earlier <+: log → ∃ waiting,
        (dispatchedFrom dst earlier ++ waiting).Sublist (deferredFor dst earlier) ∧
          (dispatchedFrom dst earlier ++ waiting ++ cancelledFor dst earlier).Perm
            (deferredFor dst earlier)) ∧
      ∀ queue before now task, QueueEvent.dispatched queue before now task ∈ log →
        before.canSend now task = true := by
  have hqueues : ∀ dst, g₀.queueOf dst = [] := by
    intro dst
    unfold queueOf
    rw [hempty]
    rfl
  refine ⟨fun dst earlier hearlier => ?_, h.steps.canSend⟩
  obtain ⟨m, hm⟩ := h.steps.initial hearlier
  have hfifo := hm.fifo hqueues dst
  refine ⟨m.queueOf dst, ?_, ?_⟩
  · have horder := hfifo.order
    rwa [dequeuedIn_view, enqueuedIn_view] at horder
  · have haccount := hfifo.account
    rwa [dequeuedIn_view, enqueuedIn_view, removedIn_view] at haccount

/-! ## A nested flush -/

def nextTask : TransferTask := ⟨2, "r2", "p0", "d0", 60, "op2", 1⟩

def bothWait : TransferGovernor := smallWaits.defer nextTask

/-- Completing the large task takes the small one out of its queue. -/
def smallOut : TransferGovernor := (bothWait.discharge largeTask).setQueue "d0" [nextTask]

/-- The small task is called back inside of its dispatch. -/
def smallBack : TransferGovernor := (smallOut.charge smallTask).discharge smallTask

def nextOut : TransferGovernor := smallBack.setQueue "d0" []

def nestedLog : List QueueEvent :=
  [.dispatched none (openTo "d0" 100) 0 largeTask, .deferred smallTask, .deferred nextTask,
    .dispatched (some "d0") smallOut 0 smallTask, .dispatched (some "d0") nextOut 0 nextTask]

theorem Worked.submit {g₀ g g' : TransferGovernor} {log new : List QueueEvent}
    {task : TransferTask} (h : Worked g₀ log g) (hrun : Works (.submit task) g new g') :
    Worked g₀ (log ++ new) g' := by
  refine h.call ?_ hrun
  trivial

theorem nestedLog_worked :
    Worked (openTo "d0" 100) nestedLog (((nextOut.charge nextTask).setQueue "d0" []).setQueue
      "d0" []) := by
  have hroom : (openTo "d0" 100).canSend 0 largeTask = true := by decide +kernel
  have hfull : largeSent.canSend 0 smallTask = false := by decide +kernel
  have hstill : smallWaits.canSend 0 nextTask = false := by decide +kernel
  have hsmall : (bothWait.discharge largeTask).canSend 0 smallTask = true := by decide +kernel
  have hnext : smallBack.canSend 0 nextTask = true := by decide +kernel
  have hinner : Works (.flush "d0") smallBack [.dispatched (some "d0") nextOut 0 nextTask]
      ((nextOut.charge nextTask).setQueue "d0" []) :=
    .flushSends (by decide +kernel) hnext (.clientReturns _) (.flushEmpty (by decide +kernel))
  have hback : Works (.onComplete smallTask) (smallOut.charge smallTask) _ _ :=
    .completes (by decide +kernel) (.callbackEnds _) hinner
  have houter : Works (.flush "d0") (bothWait.discharge largeTask)
      [.dispatched (some "d0") smallOut 0 smallTask, .dispatched (some "d0") nextOut 0 nextTask]
      (((nextOut.charge nextTask).setQueue "d0" []).setQueue "d0" []) :=
    .flushSends (by decide +kernel) hsmall (.clientCallsBack hback (.clientReturns _))
      (.flushEmpty (by decide +kernel))
  have hdone : Works (.onComplete largeTask) bothWait _ _ :=
    .completes (by decide +kernel) (.callbackEnds _) houter
  have hsent : Worked (openTo "d0" 100) _ largeSent :=
    Worked.start.submit (.submitSends hroom (.clientReturns _))
  have hboth : Worked (openTo "d0" 100) _ bothWait :=
    (hsent.submit (.submitDefers hfull)).submit (.submitDefers hstill)
  refine hboth.call ?_ hdone
  trivial

theorem deferred_in_order_nested :
    (openTo "d0" 100).deferred = Dict.empty ∧ ∃ waiting,
      ([smallTask, nextTask] ++ waiting).Sublist [smallTask, nextTask] ∧
        ([smallTask, nextTask] ++ waiting ++ []).Perm [smallTask, nextTask] :=
  ⟨rfl, (deferred_in_order rfl nestedLog_worked).1 "d0" nestedLog (List.prefix_refl _)⟩

end TransferGovernor

end PrismServe
