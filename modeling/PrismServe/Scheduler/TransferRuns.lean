import PrismServe.Scheduler.TransferGovernor

/-!
# Runs of the transfer governor

Dispatch, completion and flushing call each other: a client may call a
completion back before the hand-off returns, the completion flushes the queue
of its destination, and the flush hands off further tasks.  `Runs` is this
recursion as the source has it, with every behaviour of the client: it returns,
it raises, or it calls any task back any number of times first.

A run leaves a log.  Where the ledger is changed the log keeps the governor as
it was before the change, so that a statement about the log is a statement
about every moment of the run.

`Reached` closes the runs under the calls of the scheduling process, under the
guarantees that its callers give.
-/

namespace PrismServe

open Lib

/-- Why a handed-off task left the ledger. -/
inductive ReleaseReason
  | completed
  | cancelled
  /-- The hand-off raised; the flag tells whether `submit` made it, or a flush. -/
  | withdrawn (bySubmit : Bool)
  deriving DecidableEq, Repr

inductive TransferEvent
  | submitted (task : TransferTask)
  | handedOff (before : TransferGovernor) (task : TransferTask)
  | released (before : TransferGovernor) (task : TransferTask) (reason : ReleaseReason)
  /-- A deferred task was cancelled. -/
  | dropped (task : TransferTask)
  | callbackRaised (task : TransferTask)
  /-- The hand-off raised after its task had been called back. -/
  | refusedLate (bySubmit : Bool) (task : TransferTask)

/-- Events that leave the ledger alone. -/
inductive TransferEvent.Remark : TransferEvent → Prop
  | callbackRaised (task : TransferTask) : Remark (.callbackRaised task)
  | refusedLate (bySubmit : Bool) (task : TransferTask) : Remark (.refusedLate bySubmit task)

/-- The mutually recursive operations of the governor. -/
inductive GovernorOp
  | submit (task : TransferTask)
  /-- The rest of `_dispatch` once the ledger is charged. -/
  | deliver (bySubmit : Bool) (task : TransferTask)
  /-- The call of the client. -/
  | handOff
  | onComplete (task : TransferTask)
  | flush (dst : String)
  | tick (dsts : List String)
  deriving DecidableEq, Repr

namespace TransferGovernor

/--
`Runs op g log returned g'`: from `g` the operation may end in `g'`, having done
what the log says; it raises when `returned` is false.
-/
inductive Runs :
    GovernorOp → TransferGovernor → List TransferEvent → Bool → TransferGovernor → Prop
  | submitSends {g : TransferGovernor} {task : TransferTask} {now : Time}
      {log : List TransferEvent} {returned : Bool} {g' : TransferGovernor}
      (hsend : g.canSend now task = true)
      (hdeliver : Runs (.deliver true task) (g.charge task) log returned g') :
      Runs (.submit task) g (.submitted task :: .handedOff g task :: log) returned g'
  | submitDefers {g : TransferGovernor} {task : TransferTask} {now : Time}
      (hsend : g.canSend now task = false) :
      Runs (.submit task) g [.submitted task] true (g.defer task)
  | accepted {g : TransferGovernor} {bySubmit : Bool} {task : TransferTask}
      {log : List TransferEvent} {g' : TransferGovernor}
      (hclient : Runs .handOff g log true g') :
      Runs (.deliver bySubmit task) g log true g'
  | withdrawn {g : TransferGovernor} {bySubmit : Bool} {task : TransferTask}
      {log : List TransferEvent} {g' : TransferGovernor}
      (hclient : Runs .handOff g log false g')
      (hheld : g'.inflightTasks.get? task.reqId = some task) :
      Runs (.deliver bySubmit task) g
        (log ++ [.released g' task (.withdrawn bySubmit)]) false (g'.discharge task)
  | refusedLate {g : TransferGovernor} {bySubmit : Bool} {task : TransferTask}
      {log : List TransferEvent} {g' : TransferGovernor}
      (hclient : Runs .handOff g log false g')
      (hgone : g'.inflightTasks.get? task.reqId ≠ some task) :
      Runs (.deliver bySubmit task) g (log ++ [.refusedLate bySubmit task]) false g'
  | clientReturns {g : TransferGovernor} : Runs .handOff g [] true g
  | clientRaises {g : TransferGovernor} : Runs .handOff g [] false g
  | clientCallsBack {g g₁ g' : TransferGovernor} {task : TransferTask}
      {log log' : List TransferEvent} {called returned : Bool}
      -- the client may swallow an exception of the completion, or raise later
      (hcall : Runs (.onComplete task) g log called g₁)
      (hrest : Runs .handOff g₁ log' returned g') :
      Runs .handOff g (log ++ log') returned g'
  | stale {g : TransferGovernor} {task : TransferTask}
      (hgone : g.inflightTasks.get? task.reqId ≠ some task) :
      Runs (.onComplete task) g [] true g
  | callbackRaised {g : TransferGovernor} {task : TransferTask}
      (hheld : g.inflightTasks.get? task.reqId = some task) :
      Runs (.onComplete task) g [.released g task .completed, .callbackRaised task] false
        (g.discharge task)
  | completed {g : TransferGovernor} {task : TransferTask} {log : List TransferEvent}
      {returned : Bool} {g' : TransferGovernor}
      (hheld : g.inflightTasks.get? task.reqId = some task)
      (hflush : Runs (.flush task.dst) (g.discharge task) log returned g') :
      Runs (.onComplete task) g (.released g task .completed :: log) returned g'
  | flushEmpty {g : TransferGovernor} {dst : String} (hqueue : g.queueOf dst = []) :
      -- looking the queue up creates it
      Runs (.flush dst) g [] true (g.setQueue dst [])
  | flushStops {g : TransferGovernor} {dst : String} {now : Time} {task : TransferTask}
      {rest : List TransferTask}
      (hqueue : g.queueOf dst = task :: rest) (hsend : g.canSend now task = false) :
      Runs (.flush dst) g [] true g
  | flushSends {g g₁ g' : TransferGovernor} {dst : String} {now : Time}
      {task : TransferTask} {rest : List TransferTask} {log log' : List TransferEvent}
      {returned : Bool}
      (hqueue : g.queueOf dst = task :: rest) (hsend : g.canSend now task = true)
      (hdeliver : Runs (.deliver false task) ((g.setQueue dst rest).charge task) log true g₁)
      (hrest : Runs (.flush dst) g₁ log' returned g') :
      Runs (.flush dst) g (.handedOff g task :: (log ++ log')) returned g'
  | flushFails {g g' : TransferGovernor} {dst : String} {now : Time}
      {task : TransferTask} {rest : List TransferTask} {log : List TransferEvent}
      (hqueue : g.queueOf dst = task :: rest) (hsend : g.canSend now task = true)
      (hdeliver : Runs (.deliver false task) ((g.setQueue dst rest).charge task) log false g') :
      Runs (.flush dst) g (.handedOff g task :: log) false g'
  | tickEnds {g : TransferGovernor} : Runs (.tick []) g [] true g
  | tickSkips {g g' : TransferGovernor} {dst : String} {dsts : List String}
      {log : List TransferEvent} {returned : Bool} (hqueue : g.queueOf dst = [])
      (hrest : Runs (.tick dsts) g log returned g') : Runs (.tick (dst :: dsts)) g log returned g'
  | tickFlushes {g g₁ g' : TransferGovernor} {dst : String} {dsts : List String}
      {log log' : List TransferEvent} {returned : Bool} (hqueue : g.queueOf dst ≠ [])
      (hflush : Runs (.flush dst) g log true g₁)
      (hrest : Runs (.tick dsts) g₁ log' returned g') :
      Runs (.tick (dst :: dsts)) g (log ++ log') returned g'
  | tickFails {g g' : TransferGovernor} {dst : String} {dsts : List String}
      {log : List TransferEvent} (hqueue : g.queueOf dst ≠ [])
      (hflush : Runs (.flush dst) g log false g') :
      Runs (.tick (dst :: dsts)) g log false g'

variable {ok : TransferTask → Prop} {log log' new : List TransferEvent}
variable {g g' g₀ g₁ before : TransferGovernor} {task : TransferTask} {reason : ReleaseReason}
variable {P : TransferGovernor → Prop}

/-- The run of a task that is sent at once to a client that accepts it. -/
theorem Runs.sent {now : Time} (hsend : g.canSend now task = true) :
    Runs (.submit task) g [.submitted task, .handedOff g task] true (g.charge task) :=
  .submitSends hsend (.accepted .clientReturns)

/-- The tasks the governor still answers for. -/
def liveTasks (g : TransferGovernor) : List TransferTask :=
  g.deferredTasks ++ g.inflightTasks.values

/-- What a cancellation leaves in the log. -/
def cancellation (reqId : String) (operationId : Option String) (g : TransferGovernor) :
    List TransferEvent :=
  (g.deferredTasks.filter (concerns reqId operationId)).map .dropped ++
    match g.inflightTasks.get? reqId with
    | none => []
    | some task =>
      if concerns reqId operationId task then
        [.released (g.dropDeferred reqId operationId) task .cancelled]
      else []

/-- A governor that has not been given any task yet. -/
structure Unused (g : TransferGovernor) : Prop where
  pairBytes : g.pairBytesInflight = Dict.empty
  bytes : g.bytesInflight = Dict.empty
  queues : g.deferred = Dict.empty
  tasks : g.inflightTasks = Dict.empty

/-- What the caller of `submit` guarantees: what is `ok`, and one live task of a request. -/
structure Submittable (ok : TransferTask → Prop) (g : TransferGovernor) (task : TransferTask) :
    Prop where
  proper : ok task
  fresh : ∀ t ∈ g.liveTasks, t.reqId ≠ task.reqId

/-- The states that the calls of the scheduling process reach, with their log. -/
inductive Reached (ok : TransferTask → Prop) (g₀ : TransferGovernor) :
    List TransferEvent → TransferGovernor → Prop
  | start : Reached ok g₀ [] g₀
  | submit {log new : List TransferEvent} {g g' : TransferGovernor} {task : TransferTask}
      {returned : Bool} (hreach : Reached ok g₀ log g) (htask : Submittable ok g task)
      (hrun : Runs (.submit task) g new returned g') : Reached ok g₀ (log ++ new) g'
  | onComplete {log new : List TransferEvent} {g g' : TransferGovernor} {task : TransferTask}
      {returned : Bool} (hreach : Reached ok g₀ log g)
      (hrun : Runs (.onComplete task) g new returned g') : Reached ok g₀ (log ++ new) g'
  | cancel {log : List TransferEvent} {g : TransferGovernor} (reqId : String)
      (operationId : Option String) (hreach : Reached ok g₀ log g) :
      Reached ok g₀ (log ++ g.cancellation reqId operationId) (g.cancel reqId operationId)
  | finishRequest {log : List TransferEvent} {g : TransferGovernor} (reqId : String)
      (hreach : Reached ok g₀ log g) :
      Reached ok g₀ (log ++ g.cancellation reqId none) (g.finishRequest reqId)
  | tick {log new : List TransferEvent} {g g' : TransferGovernor} {returned : Bool}
      (hreach : Reached ok g₀ log g)
      (hrun : Runs (.tick g.deferred.keys) g new returned g') : Reached ok g₀ (log ++ new) g'
  | usageUpdated {log : List TransferEvent} {g g' : TransferGovernor} {now : Time}
      {instanceId : String} {sample : Option KVUsageSample} (hreach : Reached ok g₀ log g)
      (husage : g.updateKvUsage now instanceId sample = (false, g')) : Reached ok g₀ log g'
  | usageFlushed {log new : List TransferEvent} {g g₁ g' : TransferGovernor} {now : Time}
      {instanceId : String} {sample : Option KVUsageSample} {returned : Bool}
      (hreach : Reached ok g₀ log g)
      (husage : g.updateKvUsage now instanceId sample = (true, g₁))
      (hrun : Runs (.flush instanceId) g₁ new returned g') : Reached ok g₀ (log ++ new) g'
  | setExpectedEpochs {log : List TransferEvent} {g : TransferGovernor}
      (epochs : Dict String String) (hreach : Reached ok g₀ log g) :
      Reached ok g₀ log (g.setExpectedEpochs epochs)
  | onTransferFailure {log : List TransferEvent} {g : TransferGovernor} (reqId : String)
      (hreach : Reached ok g₀ log g) : Reached ok g₀ log (g.onTransferFailure reqId).2
  /-- The registry of the workers changed. -/
  | governable {log : List TransferEvent} {g : TransferGovernor} (names : Option (List String))
      (hreach : Reached ok g₀ log g) : Reached ok g₀ log { g with governable := names }

/--
The moments of a run with this log and end: its end, and each moment at which a
task is about to leave the ledger, be it inside of another operation.
-/
inductive Moment (log : List TransferEvent) (g : TransferGovernor) :
    List TransferEvent → TransferGovernor → Prop
  | settled : Moment log g log g
  | releasing {earlier later : List TransferEvent} {before : TransferGovernor}
      {task : TransferTask} {reason : ReleaseReason}
      (hlog : log = earlier ++ .released before task reason :: later) :
      Moment log g earlier before

/-! ## Queues -/

theorem queueOf_congr (h : g'.deferred = g.deferred) (dst : String) :
    g'.queueOf dst = g.queueOf dst := by
  unfold queueOf
  rw [h]

theorem queueOf_setQueue (g : TransferGovernor) (dst dst' : String) (queue : List TransferTask) :
    (g.setQueue dst queue).queueOf dst' = if dst' = dst then queue else g.queueOf dst' := by
  unfold queueOf setQueue
  rw [Dict.get?_set]
  split <;> rfl

theorem queueOf_defer (g : TransferGovernor) (task : TransferTask) (dst : String) :
    (g.defer task).queueOf dst =
      if dst = task.dst then g.queueOf dst ++ [task] else g.queueOf dst := by
  have hset : g.defer task = g.setQueue task.dst (g.queueOf task.dst ++ [task]) := rfl
  rw [hset, queueOf_setQueue]
  split
  · next heq =>
      rw [heq]
  · rfl

theorem queueOf_dropDeferred (g : TransferGovernor) (reqId : String)
    (operationId : Option String) (dst : String) :
    (g.dropDeferred reqId operationId).queueOf dst =
      (g.queueOf dst).filter fun task => !concerns reqId operationId task := by
  unfold queueOf dropDeferred
  rw [Dict.get?_map]
  cases g.deferred.get? dst <;> rfl

/-! ## The changes of the ledger -/

/-- The governor differs in nothing that the ledger is made of. -/
structure SameLedger (g g' : TransferGovernor) : Prop where
  cap : g'.maxBytesInflightPerPair = g.maxBytesInflightPerPair
  pairBytes : g'.pairBytesInflight = g.pairBytesInflight
  bytes : g'.bytesInflight = g.bytesInflight
  queue : ∀ dst, g'.queueOf dst = g.queueOf dst
  deferred : g'.deferredTasks.Perm g.deferredTasks
  tasks : g'.inflightTasks = g.inflightTasks

theorem SameLedger.of_fields (hcap : g'.maxBytesInflightPerPair = g.maxBytesInflightPerPair)
    (hpair : g'.pairBytesInflight = g.pairBytesInflight)
    (hbytes : g'.bytesInflight = g.bytesInflight) (hdeferred : g'.deferred = g.deferred)
    (htasks : g'.inflightTasks = g.inflightTasks) : SameLedger g g' := by
  refine ⟨hcap, hpair, hbytes, ?_, ?_, htasks⟩
  · exact queueOf_congr hdeferred
  · unfold deferredTasks
    rw [hdeferred]

/-- Creating an empty queue. -/
theorem SameLedger.lookUp {dst : String} (hqueue : g.queueOf dst = []) :
    SameLedger g (g.setQueue dst []) := by
  refine ⟨rfl, rfl, rfl, ?_, ?_, rfl⟩
  · intro dst'
    rw [queueOf_setQueue]
    split
    · next heq =>
        rw [heq, hqueue]
    · rfl
  · have hafter := (Dict.values_set_perm g.deferred dst []).flatten
    refine hafter.trans ?_
    unfold deferredTasks
    cases hget : g.deferred.get? dst with
    | none =>
      rw [Dict.erase_of_get?_none _ hget]
      exact List.Perm.refl _
    | some queue =>
      have hnil : queue = [] := by simpa [queueOf, hget] using hqueue
      subst hnil
      exact (Dict.values_perm_erase _ hget).flatten.symm

/-- Everything that a call can do to the ledger, one change at a time. -/
inductive Change (ok : TransferTask → Prop) :
    TransferGovernor → List TransferEvent → TransferGovernor → Prop
  | deferred {g : TransferGovernor} {task : TransferTask} (htask : Submittable ok g task) :
      Change ok g [.submitted task] (g.defer task)
  | sentNew {g : TransferGovernor} {task : TransferTask} {now : Time}
      (htask : Submittable ok g task) (hsend : g.canSend now task = true) :
      Change ok g [.submitted task, .handedOff g task] (g.charge task)
  | sentDeferred {g : TransferGovernor} {dst : String} {task : TransferTask}
      {rest : List TransferTask} {now : Time} (hqueue : g.queueOf dst = task :: rest)
      (hsend : g.canSend now task = true) :
      Change ok g [.handedOff g task] ((g.setQueue dst rest).charge task)
  | released {g : TransferGovernor} {task : TransferTask} (reason : ReleaseReason)
      (hheld : g.inflightTasks.get? task.reqId = some task) :
      Change ok g [.released g task reason] (g.discharge task)
  | dropped (g : TransferGovernor) (reqId : String) (operationId : Option String) :
      Change ok g ((g.deferredTasks.filter (concerns reqId operationId)).map .dropped)
        (g.dropDeferred reqId operationId)
  | remarked (g : TransferGovernor) {event : TransferEvent} (hremark : event.Remark) :
      Change ok g [event] g
  | retuned {g g' : TransferGovernor} (hsame : SameLedger g g') : Change ok g [] g'

/-- A sequence of changes. -/
inductive Changes (ok : TransferTask → Prop) :
    TransferGovernor → List TransferEvent → TransferGovernor → Prop
  | none (g : TransferGovernor) : Changes ok g [] g
  | more {g g₁ g' : TransferGovernor} {log new : List TransferEvent}
      (hbefore : Changes ok g log g₁) (hchange : Change ok g₁ new g') :
      Changes ok g (log ++ new) g'

theorem Change.single (h : Change ok g new g') : Changes ok g new g' := by
  simpa using Changes.more (.none g) h

theorem Changes.trans (h : Changes ok g log g₁) (h' : Changes ok g₁ log' g') :
    Changes ok g (log ++ log') g' := by
  induction h' with
  | none =>
    simpa using h
  | more _ hchange ih =>
    rw [← List.append_assoc]
    exact .more ih hchange

theorem Changes.cons {event : TransferEvent} (h : Change ok g [event] g₁)
    (h' : Changes ok g₁ log g') : Changes ok g (event :: log) g' :=
  h.single.trans h'

theorem Changes.retune (h : Changes ok g log g₁) (hsame : SameLedger g₁ g') :
    Changes ok g log g' := by
  simpa using h.more (.retuned hsame)

/-- A run is a sequence of changes; for `submit`, of a task that may be submitted. -/
theorem Runs.changes {op : GovernorOp} {returned : Bool} (h : Runs op g log returned g')
    (htask : ∀ task, op = .submit task → Submittable ok g task) : Changes ok g log g' := by
  induction h with
  | submitSends hsend _ ih =>
    exact (Change.single (.sentNew (htask _ rfl) hsend)).trans (ih nofun)
  | submitDefers _ =>
    exact Change.single (.deferred (htask _ rfl))
  | accepted _ ih =>
    exact ih nofun
  | withdrawn _ hheld ih =>
    exact .more (ih nofun) (.released _ hheld)
  | refusedLate _ _ ih =>
    exact .more (ih nofun) (.remarked _ (.refusedLate _ _))
  | clientCallsBack _ _ ih ih' =>
    exact (ih nofun).trans (ih' nofun)
  | callbackRaised hheld =>
    exact .cons (.released _ hheld) (Change.single (.remarked _ (.callbackRaised _)))
  | completed hheld _ ih =>
    exact .cons (.released _ hheld) (ih nofun)
  | flushEmpty hqueue =>
    exact Change.single (.retuned (.lookUp hqueue))
  | flushSends hqueue hsend _ _ ih ih' =>
    exact .cons (.sentDeferred hqueue hsend) ((ih nofun).trans (ih' nofun))
  | flushFails hqueue hsend _ ih =>
    exact .cons (.sentDeferred hqueue hsend) (ih nofun)
  | tickSkips _ _ ih =>
    exact ih nofun
  | tickFlushes _ _ _ ih ih' =>
    exact (ih nofun).trans (ih' nofun)
  | tickFails _ _ ih =>
    exact ih nofun
  | _ =>
    exact .none _

theorem cancel_changes (ok : TransferTask → Prop) (reqId : String) (operationId : Option String)
    (g : TransferGovernor) :
    Changes ok g (g.cancellation reqId operationId) (g.cancel reqId operationId) := by
  refine (Change.single (.dropped g reqId operationId)).trans ?_
  cases hget : g.inflightTasks.get? reqId with
  | none =>
    simpa [cancel, dropDeferred, hget] using Changes.none _
  | some task =>
    by_cases hconcerns : concerns reqId operationId task = true
    · have hreq : task.reqId = reqId := by
        simp only [concerns, Bool.and_eq_true, decide_eq_true_eq] at hconcerns
        exact hconcerns.1
      have hheld : (g.dropDeferred reqId operationId).inflightTasks.get? task.reqId =
          some task := by
        simpa [dropDeferred, hreq] using hget
      have hchange : Changes ok _ _ _ := Change.single (.released .cancelled hheld)
      simpa [cancel, dropDeferred, hget, hconcerns] using hchange
    · simpa [cancel, dropDeferred, hget, hconcerns] using Changes.none _

theorem updateKvUsage_sameLedger {now : Time} {instanceId : String} {sample : Option KVUsageSample}
    {crossed : Bool} (h : g.updateKvUsage now instanceId sample = (crossed, g')) :
    SameLedger g g' := by
  cases sample with
  | none =>
    cases h
    exact .of_fields rfl rfl rfl rfl rfl
  | some x =>
    cases h
    exact .of_fields rfl rfl rfl rfl rfl

theorem onTransferFailure_sameLedger (reqId : String) (g : TransferGovernor) :
    SameLedger g (g.onTransferFailure reqId).2 := by
  simp only [onTransferFailure]
  split <;> exact .of_fields rfl rfl rfl rfl rfl

/-- Every reached state is reached by changes of the ledger. -/
theorem Reached.changes (h : Reached ok g₀ log g) : Changes ok g₀ log g := by
  induction h with
  | start =>
    exact .none _
  | submit _ htask hrun ih =>
    refine ih.trans (hrun.changes ?_)
    intro task hop
    cases hop
    exact htask
  | onComplete _ hrun ih =>
    exact ih.trans (hrun.changes nofun)
  | cancel reqId operationId _ ih =>
    exact ih.trans (cancel_changes ok reqId operationId _)
  | finishRequest reqId _ ih =>
    exact (ih.trans (cancel_changes ok reqId none _)).retune (.of_fields rfl rfl rfl rfl rfl)
  | tick _ hrun ih =>
    exact ih.trans (hrun.changes nofun)
  | usageUpdated _ husage ih =>
    exact ih.retune (updateKvUsage_sameLedger husage)
  | usageFlushed _ husage hrun ih =>
    exact (ih.retune (updateKvUsage_sameLedger husage)).trans (hrun.changes nofun)
  | setExpectedEpochs epochs _ ih =>
    exact ih.retune (.of_fields rfl rfl rfl rfl rfl)
  | onTransferFailure reqId _ ih =>
    exact ih.retune (onTransferFailure_sameLedger reqId _)
  | governable names _ ih =>
    exact ih.retune (.of_fields rfl rfl rfl rfl rfl)

/-- What every change keeps holds in the end. -/
theorem Changes.invariant (hstep : ∀ g new g', P g → Change ok g new g' → P g')
    (h : Changes ok g₀ log g) (h₀ : P g₀) : P g := by
  induction h with
  | none =>
    exact h₀
  | more _ hchange ih =>
    exact hstep _ _ _ ih hchange

/-- What holds of the events of every change, made in a state that every change keeps. -/
theorem Changes.events {E : TransferEvent → Prop}
    (hstep : ∀ g new g', P g → Change ok g new g' → P g')
    (hevents : ∀ g new g', P g → Change ok g new g' → ∀ event ∈ new, E event)
    (h : Changes ok g₀ log g) (h₀ : P g₀) : ∀ event ∈ log, E event := by
  induction h with
  | none =>
    exact nofun
  | more hbefore hchange ih =>
    intro event hevent
    rcases List.mem_append.mp hevent with hevent | hevent
    · exact ih event hevent
    · exact hevents _ _ _ (hbefore.invariant hstep h₀) hchange event hevent

theorem Change.released_mem (h : Change ok g new g') (hmem : .released before task reason ∈ new) :
    new = [.released g task reason] ∧ before = g ∧
      g.inflightTasks.get? task.reqId = some task := by
  cases h with
  | released _ hheld =>
    simp only [List.mem_singleton, TransferEvent.released.injEq] at hmem
    obtain ⟨rfl, rfl, rfl⟩ := hmem
    exact ⟨rfl, rfl, hheld⟩
  | remarked hremark =>
    simp only [List.mem_singleton] at hmem
    subst hmem
    cases hremark
  | _ =>
    simp at hmem

theorem Change.released_alone {a later : List TransferEvent} (h : Change ok g new g')
    (hnew : new = a ++ .released before task reason :: later) :
    a = [] ∧ before = g := by
  have hmem : .released before task reason ∈ new := by
    rw [hnew]
    simp
  obtain ⟨hsingle, hbefore, _⟩ := h.released_mem hmem
  rw [hsingle] at hnew
  refine ⟨?_, hbefore⟩
  cases a with
  | nil =>
    rfl
  | cons e rest =>
    simp at hnew

/-- Every moment of a run is reached by changes itself. -/
theorem Changes.moment {m : TransferGovernor} {earlier : List TransferEvent}
    (h : Changes ok g₀ log g) (hmoment : Moment log g earlier m) : Changes ok g₀ earlier m := by
  induction h with
  | none =>
    cases hmoment with
    | settled =>
      exact .none _
    | releasing hlog =>
      simp at hlog
  | @more g₁ g' log new hbefore hchange ih =>
    cases hmoment with
    | settled =>
      exact .more hbefore hchange
    | releasing hlog =>
      rcases List.append_eq_append_iff.mp hlog with ⟨a, ha, hnew⟩ | ⟨a, ha, hnew⟩
      · -- the release is the last change
        obtain ⟨rfl, rfl⟩ := hchange.released_alone hnew
        rwa [ha, List.append_nil]
      · cases a with
        | nil =>
          obtain ⟨_, rfl⟩ := hchange.released_alone (a := []) hnew.symm
          rw [List.append_nil] at ha
          rwa [← ha]
        | cons event rest =>
          -- it stands in the log before that
          obtain ⟨rfl, _⟩ := List.cons.inj hnew
          exact ih (.releasing ha)

/-- What is released was held. -/
theorem Changes.released_held (h : Changes ok g₀ log g)
    (hmem : .released before task reason ∈ log) :
    before.inflightTasks.get? task.reqId = some task := by
  induction h with
  | none =>
    cases hmem
  | more _ hchange ih =>
    rcases List.mem_append.mp hmem with hmem | hmem
    · exact ih hmem
    · obtain ⟨_, rfl, hheld⟩ := hchange.released_mem hmem
      exact hheld

end TransferGovernor

end PrismServe
