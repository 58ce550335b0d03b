import PrismServe.Scheduler.TransferRuns

/-!
# Runs of the deferred queues

The operations of the governor when no hand-off fails, with completion callbacks
that may call any of them again except a cancellation: they may submit further
tasks, complete others, flush, and raise.  A client may call tasks back before the
hand-off returns, and swallows what a callback raises.

The loop of a flush holds the queue object of its destination.  A queue object is
only ever replaced by a cancellation, which no callback makes, so the loop always
sees the queue that the governor holds.

`QueueStep` lists what all this can do to the queues, one change at a time.
-/

namespace PrismServe

open Lib

/-- What happens to the queues and to their tasks. -/
inductive QueueEvent
  | deferred (task : TransferTask)
  /-- `_dispatch` is called, from the queue of a destination or from `submit`. -/
  | dispatched (queue : Option String) (before : TransferGovernor) (now : Time)
      (task : TransferTask)
  | cancelled (before : TransferGovernor) (reqId : String) (operationId : Option String)

/-- The operations that may be nested. -/
inductive QueueOp
  | submit (task : TransferTask)
  /-- The call of the client. -/
  | handOff
  | onComplete (task : TransferTask)
  /-- The callback of a task that has completed. -/
  | callback
  | flush (dst : String)
  | tick (dsts : List String)
  | updateKvUsage (instanceId : String) (sample : Option KVUsageSample)
  /-- What leaves the queues alone: expected epochs, recompute counts. -/
  | retune
  deriving DecidableEq, Repr

/-- What a callback may call. -/
def QueueOp.callable (g : TransferGovernor) : QueueOp → Prop
  | .submit _ => True
  | .onComplete _ => True
  | .tick dsts => dsts = g.deferred.keys
  | .updateKvUsage _ _ => True
  | .retune => True
  | _ => False

namespace TransferGovernor

/-- `Works op g log g'`: from `g` the operation may end in `g'`, having done what the log says. -/
inductive Works : QueueOp → TransferGovernor → List QueueEvent → TransferGovernor → Prop
  | submitSends {g g' : TransferGovernor} {task : TransferTask} {now : Time}
      {log : List QueueEvent} (hsend : g.canSend now task = true)
      (hclient : Works .handOff (g.charge task) log g') :
      Works (.submit task) g (.dispatched none g now task :: log) g'
  | submitDefers {g : TransferGovernor} {task : TransferTask} {now : Time}
      (hsend : g.canSend now task = false) :
      Works (.submit task) g [.deferred task] (g.defer task)
  | clientReturns (g : TransferGovernor) : Works .handOff g [] g
  | clientCallsBack {g g₁ g' : TransferGovernor} {task : TransferTask}
      {log log' : List QueueEvent} (hcall : Works (.onComplete task) g log g₁)
      (hrest : Works .handOff g₁ log' g') : Works .handOff g (log ++ log') g'
  | stale {g : TransferGovernor} {task : TransferTask}
      (hgone : g.inflightTasks.get? task.reqId ≠ some task) : Works (.onComplete task) g [] g
  | callbackRaises {g g' : TransferGovernor} {task : TransferTask} {log : List QueueEvent}
      (hheld : g.inflightTasks.get? task.reqId = some task)
      (hcallback : Works .callback (g.discharge task) log g') : Works (.onComplete task) g log g'
  | completes {g g₁ g' : TransferGovernor} {task : TransferTask} {log log' : List QueueEvent}
      (hheld : g.inflightTasks.get? task.reqId = some task)
      (hcallback : Works .callback (g.discharge task) log g₁)
      (hflush : Works (.flush task.dst) g₁ log' g') : Works (.onComplete task) g (log ++ log') g'
  | callbackEnds (g : TransferGovernor) : Works .callback g [] g
  | callbackCalls {g g₁ g' : TransferGovernor} {op : QueueOp} {log log' : List QueueEvent}
      (hop : op.callable g) (hcall : Works op g log g₁) (hrest : Works .callback g₁ log' g') :
      Works .callback g (log ++ log') g'
  | flushEmpty {g : TransferGovernor} {dst : String} (hqueue : g.queueOf dst = []) :
      -- looking the queue up creates it
      Works (.flush dst) g [] (g.setQueue dst [])
  | flushStops {g : TransferGovernor} {dst : String} {now : Time} {task : TransferTask}
      {rest : List TransferTask} (hqueue : g.queueOf dst = task :: rest)
      (hsend : g.canSend now task = false) : Works (.flush dst) g [] g
  | flushSends {g g₁ g' : TransferGovernor} {dst : String} {now : Time} {task : TransferTask}
      {rest : List TransferTask} {log log' : List QueueEvent}
      (hqueue : g.queueOf dst = task :: rest) (hsend : g.canSend now task = true)
      (hclient : Works .handOff ((g.setQueue dst rest).charge task) log g₁)
      (hrest : Works (.flush dst) g₁ log' g') :
      Works (.flush dst) g
        (.dispatched (some dst) (g.setQueue dst rest) now task :: (log ++ log')) g'
  | tickEnds (g : TransferGovernor) : Works (.tick []) g [] g
  | tickSkips {g g' : TransferGovernor} {dst : String} {dsts : List String}
      {log : List QueueEvent} (hqueue : g.queueOf dst = [])
      (hrest : Works (.tick dsts) g log g') : Works (.tick (dst :: dsts)) g log g'
  | tickFlushes {g g₁ g' : TransferGovernor} {dst : String} {dsts : List String}
      {log log' : List QueueEvent} (hqueue : g.queueOf dst ≠ [])
      (hflush : Works (.flush dst) g log g₁) (hrest : Works (.tick dsts) g₁ log' g') :
      Works (.tick (dst :: dsts)) g (log ++ log') g'
  | usageUpdated {g g' : TransferGovernor} {now : Time} {instanceId : String}
      {sample : Option KVUsageSample}
      (husage : g.updateKvUsage now instanceId sample = (false, g')) :
      Works (.updateKvUsage instanceId sample) g [] g'
  | usageFlushed {g g₁ g' : TransferGovernor} {now : Time} {instanceId : String}
      {sample : Option KVUsageSample} {log : List QueueEvent}
      (husage : g.updateKvUsage now instanceId sample = (true, g₁))
      (hflush : Works (.flush instanceId) g₁ log g') :
      Works (.updateKvUsage instanceId sample) g log g'
  | epochsExpected (g : TransferGovernor) (epochs : Dict String String) :
      Works .retune g [] (g.setExpectedEpochs epochs)
  | transferFailed (g : TransferGovernor) (reqId : String) :
      Works .retune g [] (g.onTransferFailure reqId).2
  /-- The answers of the worker registry may change whenever it is asked again. -/
  | registryChanges {g g' : TransferGovernor} {op : QueueOp} {log : List QueueEvent}
      (names : Option (List String)) (hrun : Works op { g with governable := names } log g') :
      Works op g log g'

/-- Sequences of calls of the governor, with cancellations between them. -/
inductive Worked (g₀ : TransferGovernor) : List QueueEvent → TransferGovernor → Prop
  | start : Worked g₀ [] g₀
  | call {log new : List QueueEvent} {g g' : TransferGovernor} {op : QueueOp}
      (hbefore : Worked g₀ log g) (hop : op.callable g) (hrun : Works op g new g') :
      Worked g₀ (log ++ new) g'
  | cancel {log : List QueueEvent} {g : TransferGovernor} (reqId : String)
      (operationId : Option String) (hbefore : Worked g₀ log g) :
      Worked g₀ (log ++ [.cancelled g reqId operationId]) (g.cancel reqId operationId)
  | finishRequest {log : List QueueEvent} {g : TransferGovernor} (reqId : String)
      (hbefore : Worked g₀ log g) :
      Worked g₀ (log ++ [.cancelled g reqId none]) (g.finishRequest reqId)

/-! ## The changes of the queues -/

/-- Everything that a call can do to the queues, one change at a time. -/
inductive QueueStep : TransferGovernor → List QueueEvent → TransferGovernor → Prop
  | deferred (g : TransferGovernor) (task : TransferTask) :
      QueueStep g [.deferred task] (g.defer task)
  | sent {g : TransferGovernor} {task : TransferTask} {now : Time}
      (hsend : g.canSend now task = true) :
      QueueStep g [.dispatched none g now task] (g.charge task)
  | sentDeferred {g : TransferGovernor} {dst : String} {task : TransferTask}
      {rest : List TransferTask} {now : Time} (hqueue : g.queueOf dst = task :: rest)
      (hsend : g.canSend now task = true) :
      QueueStep g [.dispatched (some dst) (g.setQueue dst rest) now task]
        ((g.setQueue dst rest).charge task)
  | cancelled {g g' : TransferGovernor} (reqId : String) (operationId : Option String)
      (hqueues : g'.deferred = (g.dropDeferred reqId operationId).deferred) :
      QueueStep g [.cancelled g reqId operationId] g'
  | quiet {g g' : TransferGovernor} (hqueues : ∀ dst, g'.queueOf dst = g.queueOf dst) :
      QueueStep g [] g'

/-- A sequence of changes. -/
inductive QueueSteps (g : TransferGovernor) : List QueueEvent → TransferGovernor → Prop
  | none : QueueSteps g [] g
  | more {g₁ g' : TransferGovernor} {log new : List QueueEvent} (hbefore : QueueSteps g log g₁)
      (hstep : QueueStep g₁ new g') : QueueSteps g (log ++ new) g'

namespace QueueSteps

variable {g g₁ g' : TransferGovernor} {log log' : List QueueEvent} {event : QueueEvent}

theorem trans (h : QueueSteps g log g₁) (h' : QueueSteps g₁ log' g') :
    QueueSteps g (log ++ log') g' := by
  induction h' with
  | none =>
    simpa using h
  | more _ hstep ih =>
    rw [← List.append_assoc]
    exact .more ih hstep

theorem single (h : QueueStep g log g') : QueueSteps g log g' := by
  simpa using QueueSteps.more .none h

theorem cons (h : QueueStep g [event] g₁) (h' : QueueSteps g₁ log g') :
    QueueSteps g (event :: log) g' :=
  (single h).trans h'

theorem quietly (h : QueueSteps g₁ log g') (hqueues : ∀ dst, g₁.queueOf dst = g.queueOf dst) :
    QueueSteps g log g' :=
  (single (.quiet hqueues)).trans h

/-- Every initial part of a log is the log of some first changes. -/
theorem initial {earlier : List QueueEvent} (h : QueueSteps g log g') (hbegins : earlier <+: log) :
    ∃ m, QueueSteps g earlier m := by
  induction h with
  | none =>
    rw [List.prefix_nil.mp hbegins]
    exact ⟨g, .none⟩
  | @more g₁ g' log new hbefore hstep ih =>
    have hnew : new = [] ∨ ∃ event, new = [event] := by
      cases hstep <;> simp
    rcases hnew with rfl | ⟨event, rfl⟩
    · exact ih (by simpa using hbegins)
    · rcases List.prefix_concat_iff.mp hbegins with rfl | hearlier
      · exact ⟨g', .more hbefore hstep⟩
      · exact ih hearlier

end QueueSteps

theorem Works.steps {op : QueueOp} {g g' : TransferGovernor} {log : List QueueEvent}
    (h : Works op g log g') : QueueSteps g log g' := by
  induction h with
  | submitSends hsend _ ih =>
    exact .cons (.sent hsend) ih
  | submitDefers _ =>
    exact .single (.deferred _ _)
  | clientCallsBack _ _ ih ih' =>
    exact ih.trans ih'
  | callbackRaises _ _ ih =>
    exact ih.quietly (queueOf_congr rfl)
  | completes _ _ _ ih ih' =>
    exact (ih.trans ih').quietly (queueOf_congr rfl)
  | callbackCalls _ _ _ ih ih' =>
    exact ih.trans ih'
  | flushEmpty hqueue =>
    exact .single (.quiet (SameLedger.lookUp hqueue).queue)
  | flushSends hqueue hsend _ _ ih ih' =>
    exact .cons (.sentDeferred hqueue hsend) (ih.trans ih')
  | tickSkips _ _ ih =>
    exact ih
  | tickFlushes _ _ _ ih ih' =>
    exact ih.trans ih'
  | usageUpdated husage =>
    exact .single (.quiet (updateKvUsage_sameLedger husage).queue)
  | usageFlushed husage _ ih =>
    exact ih.quietly (updateKvUsage_sameLedger husage).queue
  | epochsExpected g epochs =>
    exact .single (.quiet (queueOf_congr rfl))
  | transferFailed g reqId =>
    exact .single (.quiet (onTransferFailure_sameLedger reqId g).queue)
  | registryChanges names _ ih =>
    exact ih.quietly (queueOf_congr rfl)
  | _ =>
    exact .none

theorem cancel_deferred (reqId : String) (operationId : Option String) (g : TransferGovernor) :
    (g.cancel reqId operationId).deferred = (g.dropDeferred reqId operationId).deferred := by
  unfold cancel
  dsimp only
  split
  · rfl
  · split <;> rfl

theorem Worked.steps {g₀ g : TransferGovernor} {log : List QueueEvent} (h : Worked g₀ log g) :
    QueueSteps g₀ log g := by
  induction h with
  | start =>
    exact .none
  | call _ _ hrun ih =>
    exact ih.trans hrun.steps
  | cancel reqId operationId _ ih =>
    exact ih.more (.cancelled reqId operationId (cancel_deferred _ _ _))
  | finishRequest reqId _ ih =>
    exact ih.more (.cancelled reqId none (cancel_deferred _ _ _))

end TransferGovernor

end PrismServe
