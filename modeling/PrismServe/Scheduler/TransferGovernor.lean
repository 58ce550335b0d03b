import PrismServe.Lib.Binary64
import PrismServe.Scheduler.PDScheduler

/-!
# Flow control and retry bookkeeping of KV transfers

The ledger of the transfers: bytes in flight per instance pair and per
destination, the deferred tasks of each destination in arrival order, the task
handed off for each request, and the number of recomputes spent on it.  Tasks
are compared by identity, here by serial number: a callback of a task that has
been cancelled or replaced is stale.

Handing a task to the inference client is a step of the scheduling process and
is modelled with it.
-/

namespace PrismServe

open Lib

structure TransferTask where
  serial : Nat
  reqId : String
  src : String
  dst : String
  kvSize : Int
  operationId : String
  priority : Nat := 1
  deriving DecidableEq, Repr

inductive TaskState
  | inflight
  | deferred
  | none
  deriving DecidableEq, Repr

inductive FailureDecision
  | recompute
  | abort
  deriving DecidableEq, Repr

structure TransferGovernor where
  highWatermark : Rat := 85 / 100
  lowWatermark : Rat := 70 / 100
  maxBytesInflightPerPair : Int := 1024 * 1024 * 1024
  kvUsageStaleAfter : Time := 10
  maxRecompute : Nat := 2
  governable : Option (List String) := none
  kvUsage : Dict String KVUsageSample := Dict.empty
  expectedEpochs : Dict String String := Dict.empty
  pairBytesInflight : Dict String Int := Dict.empty
  bytesInflight : Dict String Int := Dict.empty
  deferred : Dict String (List TransferTask) := Dict.empty
  inflightTasks : Dict String TransferTask := Dict.empty
  recomputeCounts : Dict String Nat := Dict.empty

namespace TransferGovernor

def pairId (src dst : String) : String := src ++ "--" ++ dst

/-- Reading a default dictionary of numbers. -/
def bytesAt (d : Dict String Int) (key : String) : Int := (d.get? key).getD 0

def sampleIsFresh (g : TransferGovernor) (now : Time) (instanceId : String) : Bool :=
  match g.kvUsage.get? instanceId with
  | none => false
  | some sample =>
    decide (g.expectedEpochs.get? instanceId = some sample.instanceEpoch) &&
      decide (now - sample.sampledAt ≤ g.kvUsageStaleAfter)

def canGovern (g : TransferGovernor) (instanceId : String) : Bool :=
  match g.governable with
  | none => true
  | some names => decide (instanceId ∈ names)

/-- The double nearest to 0.3. -/
def lowPriorityShare : Rat := 5404319552844595 / 2 ^ 54

/-- Byte budget of a pair for a priority, in floating point as the source computes it. -/
def byteCap (g : TransferGovernor) (priority : Nat) : Rat :=
  Binary64.round (Binary64.round g.maxBytesInflightPerPair *
    (if 1 ≤ priority then 1 else lowPriorityShare))

def canSend (g : TransferGovernor) (now : Time) (task : TransferTask) : Bool :=
  g.canGovern task.dst && g.canGovern task.src && g.sampleIsFresh now task.dst &&
    (match g.kvUsage.get? task.dst with
      | none => false
      | some sample => decide (sample.ratio < g.highWatermark)) &&
    (let cap := g.byteCap task.priority
     let current := bytesAt g.pairBytesInflight (pairId task.src task.dst)
     if cap < task.kvSize then decide (current = 0)
     else decide ((current : Rat) + task.kvSize ≤ cap))

/-- `set_expected_epochs`: samples of other epochs are dropped. -/
def setExpectedEpochs (epochs : Dict String String) (g : TransferGovernor) :
    TransferGovernor :=
  { g with
    expectedEpochs := epochs
    kvUsage := g.kvUsage.filter fun id sample =>
      decide (epochs.get? id = some sample.instanceEpoch) }

/-- A sample replaces the last one; the answer tells whether usage fell back from high to low. -/
def updateKvUsage (now : Time) (instanceId : String) (sample : Option KVUsageSample)
    (g : TransferGovernor) : Bool × TransferGovernor :=
  match sample with
  | none => (false, { g with kvUsage := g.kvUsage.erase instanceId })
  | some x =>
    let normalized : KVUsageSample := { x with ratio := max 0 (min 1 x.ratio) }
    let g' := { g with kvUsage := g.kvUsage.set instanceId normalized }
    ((g.kvUsage.get? instanceId).any (fun prev => decide (g.highWatermark ≤ prev.ratio)) &&
      decide (normalized.ratio < g.lowWatermark) && g'.sampleIsFresh now instanceId, g')

/-- Accounting when a task is handed off. -/
def charge (task : TransferTask) (g : TransferGovernor) : TransferGovernor :=
  let pair := pairId task.src task.dst
  { g with
    pairBytesInflight :=
      g.pairBytesInflight.set pair (bytesAt g.pairBytesInflight pair + task.kvSize)
    bytesInflight :=
      g.bytesInflight.set task.dst (bytesAt g.bytesInflight task.dst + task.kvSize)
    inflightTasks := g.inflightTasks.set task.reqId task }

/-- Accounting when a handed-off task ends. -/
def discharge (task : TransferTask) (g : TransferGovernor) : TransferGovernor :=
  let pair := pairId task.src task.dst
  { g with
    pairBytesInflight :=
      g.pairBytesInflight.set pair (max 0 (bytesAt g.pairBytesInflight pair - task.kvSize))
    bytesInflight :=
      g.bytesInflight.set task.dst (max 0 (bytesAt g.bytesInflight task.dst - task.kvSize))
    inflightTasks := g.inflightTasks.erase task.reqId }

/-- Whether the ledger still holds this very task. -/
def holds (g : TransferGovernor) (task : TransferTask) : Bool :=
  (g.inflightTasks.get? task.reqId).any fun t => decide (t.serial = task.serial)

def defer (task : TransferTask) (g : TransferGovernor) : TransferGovernor :=
  { g with deferred :=
      g.deferred.set task.dst ((g.deferred.get? task.dst).getD [] ++ [task]) }

/-- The queue of a destination; looking it up creates it. -/
def queueOf (g : TransferGovernor) (dst : String) : List TransferTask :=
  (g.deferred.get? dst).getD []

def setQueue (dst : String) (queue : List TransferTask) (g : TransferGovernor) :
    TransferGovernor :=
  { g with deferred := g.deferred.set dst queue }

/-- A task of a request, of one operation when one is named. -/
def concerns (reqId : String) (operationId : Option String) (task : TransferTask) : Bool :=
  decide (task.reqId = reqId) &&
    match operationId with
    | none => true
    | some op => decide (task.operationId = op)

def deferredTasks (g : TransferGovernor) : List TransferTask := g.deferred.values.flatten

def owns (g : TransferGovernor) (reqId operationId : String) : Bool :=
  match g.inflightTasks.get? reqId with
  | some task => decide (task.operationId = operationId)
  | none => g.deferredTasks.any (concerns reqId (some operationId))

def taskState (g : TransferGovernor) (reqId : String) (operationId : Option String) :
    TaskState :=
  if (g.inflightTasks.get? reqId).any (concerns reqId operationId) then .inflight
  else if g.deferredTasks.any (concerns reqId operationId) then .deferred
  else .none

/-- Drop the deferred tasks of a request from every queue. -/
def dropDeferred (reqId : String) (operationId : Option String) (g : TransferGovernor) :
    TransferGovernor :=
  { g with deferred := g.deferred.map fun queue =>
      queue.filter fun task => !concerns reqId operationId task }

def cancel (reqId : String) (operationId : Option String) (g : TransferGovernor) :
    TransferGovernor :=
  let g := g.dropDeferred reqId operationId
  match g.inflightTasks.get? reqId with
  | none => g
  | some task => if concerns reqId operationId task then g.discharge task else g

def onTransferFailure (reqId : String) (g : TransferGovernor) :
    FailureDecision × TransferGovernor :=
  let count := (g.recomputeCounts.get? reqId).getD 0
  if g.maxRecompute ≤ count then
    (.abort, { g with recomputeCounts := g.recomputeCounts.erase reqId })
  else
    (.recompute, { g with recomputeCounts := g.recomputeCounts.set reqId (count + 1) })

def finishRequest (reqId : String) (g : TransferGovernor) : TransferGovernor :=
  let g := g.cancel reqId none
  { g with recomputeCounts := g.recomputeCounts.erase reqId }

/-- `bytes_inflight`. -/
def bytesInflightTo (g : TransferGovernor) (dst : String) : Int := bytesAt g.bytesInflight dst

def bytesInflightForPair (g : TransferGovernor) (src dst : String) : Int :=
  bytesAt g.pairBytesInflight (pairId src dst)

def allInflightZero (g : TransferGovernor) : Bool :=
  g.bytesInflight.values.all fun bytes => decide (bytes = 0)

def isDrained (g : TransferGovernor) : Bool :=
  g.allInflightZero && g.deferred.values.all List.isEmpty

end TransferGovernor

end PrismServe
