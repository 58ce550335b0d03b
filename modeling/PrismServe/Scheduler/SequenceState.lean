import Mathlib.Data.List.Sort
import PrismServe.Lib.Dict
import PrismServe.Runtime

/-!
# Request life cycle

`RequestInfo` is a mutable object of the source: the tracker maps request ids
to objects, and code that holds an object keeps seeing its later changes even
after the tracker has dropped it or has given its id to another object.  The
objects therefore live in a heap of their own and are named by a serial number,
and `tracker.get(req_id) is req` compares serial numbers.

A transition checks the table of legal successors, stamps the phase it enters
and applies the keyword arguments of the call.
-/

namespace PrismServe

open Lib

inductive SeqState
  | waiting
  | prefilling
  | kvPending
  | recomputing
  | affinityLoading
  | prefixPrefilling
  | decoding
  | finished
  | aborted
  deriving DecidableEq, Repr

namespace SeqState

def name : SeqState → String
  | waiting => "WAITING"
  | prefilling => "PREFILLING"
  | kvPending => "KV_PENDING"
  | recomputing => "RECOMPUTING"
  | affinityLoading => "AFFINITY_LOADING"
  | prefixPrefilling => "PREFIX_PREFILLING"
  | decoding => "DECODING"
  | finished => "FINISHED"
  | aborted => "ABORTED"

/-- The table of `_validate_transition`, before `ABORTED` is added to every row. -/
def successors : SeqState → List SeqState
  | waiting => [prefilling, affinityLoading]
  | prefilling => [kvPending]
  | affinityLoading => [prefixPrefilling, waiting]
  | prefixPrefilling => [decoding, waiting]
  | kvPending => [decoding, recomputing]
  | recomputing => [decoding]
  | decoding => [finished, aborted]
  | finished => []
  | aborted => []

def allows (current new : SeqState) : Bool :=
  decide (new = aborted) || decide (new ∈ current.successors)

end SeqState

/-- How far the dispatch of a prefill command is known to have come. -/
inductive PublishOutcome
  | notStarted
  | acked
  | unknown
  deriving DecidableEq, Repr

/-- The identity of one operation at a worker endpoint. -/
structure EndpointRef where
  operationSeq : Nat
  targetInstance : String
  targetWorkerEpoch : String
  operationId : String
  deriving DecidableEq, Repr

structure RequestInfo where
  reqId : String
  state : SeqState := .waiting
  hasFingerprint : Bool := false
  prefillInstance : String := ""
  decodeInstance : String := ""
  prefillInstanceEpoch : String := ""
  decodeInstanceEpoch : String := ""
  arrivedAt : Time := 0
  prefillStart : Time := 0
  kvSentAt : Time := 0
  recomputeStart : Time := 0
  decodeStart : Time := 0
  suffixPrefillStartedAt : Time := 0
  firstTokenAt : Time := 0
  lastOutputQueryAt : Time := 0
  dispatchAttempts : Nat := 0
  kvSizeBytes : Int := 0
  transferOperationId : String := ""
  activeOperationId : String := ""
  correctnessPath : String := ""
  correctnessSourceInstance : String := ""
  correctnessTargetInstance : String := ""
  commandId : String := ""
  publishOutcome : PublishOutcome := .notStarted
  dispatchOperationRef : Option EndpointRef := none
  deriving DecidableEq, Repr

namespace RequestInfo

/-- Timestamps written on entry to a phase. -/
def stamp (now : Time) (new : SeqState) (r : RequestInfo) : RequestInfo :=
  match new with
  | .prefilling => { r with prefillStart := now, dispatchAttempts := r.dispatchAttempts + 1 }
  | .kvPending => { r with kvSentAt := now }
  | .prefixPrefilling => { r with suffixPrefillStartedAt := now }
  | .recomputing => { r with recomputeStart := now }
  | .decoding => { r with decodeStart := now }
  | _ => r

/-- Shared form of the `is_*_stuck` predicates: in a phase for longer than a timeout. -/
def stuckIn (phase : SeqState) (since : RequestInfo → Time) (now timeout : Time)
    (r : RequestInfo) : Bool :=
  decide (r.state = phase) && decide (timeout < now - since r)

def isStuck := stuckIn .kvPending kvSentAt

def isPrefillStuck := stuckIn .prefilling prefillStart

def isRecomputeStuck := stuckIn .recomputing recomputeStart

def isDecodeStuck := stuckIn .decoding decodeStart

def isSuffixPrefillStuck := stuckIn .prefixPrefilling suffixPrefillStartedAt

end RequestInfo

/--
The tracked requests, and the heap of all request objects ever made.  A tracked
object exists and carries the id it is tracked under.
-/
structure RequestTracker where
  requests : Dict String Nat
  objects : Nat → RequestInfo
  nextSerial : Nat
  serial_lt : ∀ reqId serial, requests.get? reqId = some serial → serial < nextSerial
  reqId_eq : ∀ reqId serial, requests.get? reqId = some serial →
    (objects serial).reqId = reqId

namespace RequestTracker

theorem serial_lt_empty (reqId : String) (serial : Nat)
    (h : (Dict.empty : Dict String Nat).get? reqId = some serial) : serial < 0 := by
  cases h

def empty : RequestTracker where
  requests := Dict.empty
  objects _ := { reqId := "" }
  nextSerial := 0
  serial_lt := serial_lt_empty
  reqId_eq _ _ h := by cases h

def get? (t : RequestTracker) (reqId : String) : Option Nat := t.requests.get? reqId

/-- The object with a serial number. -/
def info (t : RequestTracker) (serial : Nat) : RequestInfo := t.objects serial

/-- Whether the tracker still holds this very object under its id. -/
def isCurrent (t : RequestTracker) (serial : Nat) : Bool :=
  decide (t.requests.get? (t.info serial).reqId = some serial)

/-- Assignments to attributes of one object; its id is never assigned. -/
def assign (serial : Nat) (f : RequestInfo → RequestInfo) (t : RequestTracker) :
    RequestTracker :=
  { t with
    objects := Function.update t.objects serial
      { f (t.objects serial) with reqId := (t.objects serial).reqId }
    reqId_eq := by
      intro reqId n h
      by_cases hn : n = serial
      · subst hn
        simpa using t.reqId_eq reqId n h
      · simpa [Function.update_of_ne hn] using t.reqId_eq reqId n h }

def add (r : RequestInfo) (t : RequestTracker) : Except Exc (Nat × RequestTracker) :=
  if t.requests.contains r.reqId then
    .error (.assertion ("duplicate request id " ++ quoted r.reqId))
  else
    .ok (t.nextSerial,
      { requests := t.requests.set r.reqId t.nextSerial
        objects := Function.update t.objects t.nextSerial r
        nextSerial := t.nextSerial + 1
        serial_lt := by
          intro reqId n h
          rw [Dict.get?_set] at h
          split at h
          · cases h
            exact Nat.lt_succ_self _
          · exact Nat.lt_succ_of_lt (t.serial_lt reqId n h)
        reqId_eq := by
          intro reqId n h
          rw [Dict.get?_set] at h
          split at h
          · cases h
            simp_all
          · have hn : n ≠ t.nextSerial := Nat.ne_of_lt (t.serial_lt reqId n h)
            simpa [Function.update_of_ne hn] using t.reqId_eq reqId n h })

def remove (reqId : String) (t : RequestTracker) : RequestTracker :=
  { t with
    requests := t.requests.erase reqId
    serial_lt := by
      intro x n h
      rw [Dict.get?_erase] at h
      split at h
      · cases h
      · exact t.serial_lt x n h
    reqId_eq := by
      intro x n h
      rw [Dict.get?_erase] at h
      split at h
      · cases h
      · exact t.reqId_eq x n h }

def setPublishOutcome (reqId : String) (outcome : PublishOutcome) (t : RequestTracker) :
    Except Exc RequestTracker :=
  match t.requests.get? reqId with
  | none => .error (.key reqId)
  | some serial => .ok (t.assign serial fun r => { r with publishOutcome := outcome })

/-- `transition`; `kwargs` are the attribute assignments that follow the stamp. -/
def transition (now : Time) (reqId : String) (new : SeqState)
    (kwargs : RequestInfo → RequestInfo) (t : RequestTracker) : Except Exc RequestTracker :=
  match t.requests.get? reqId with
  | none => .error (.key reqId)
  | some serial =>
    let current := (t.info serial).state
    if current.allows new then
      .ok (t.assign serial fun r => { kwargs (r.stamp now new) with state := new })
    else
      .error (.assertion ("illegal transition " ++ current.name ++ " to " ++ new.name))

/-- Tracked objects in a state, in the order of the tracker. -/
def iterByState (state : SeqState) (t : RequestTracker) : List Nat :=
  t.requests.values.filter fun serial => decide ((t.info serial).state = state)

/-- Shared form of the `get_stuck_*` queries: filtered, oldest first. -/
def stuckBy (stuck : RequestInfo → Bool) (since : RequestInfo → Time)
    (t : RequestTracker) : List Nat :=
  (t.requests.values.filter fun serial => stuck (t.info serial)).insertionSort
    fun a b => since (t.info a) ≤ since (t.info b)

def getStuckRequests (now timeout : Time) : RequestTracker → List Nat :=
  stuckBy (RequestInfo.isStuck now timeout) RequestInfo.kvSentAt

def getStuckPrefills (now timeout : Time) : RequestTracker → List Nat :=
  stuckBy (RequestInfo.isPrefillStuck now timeout) RequestInfo.prefillStart

def getStuckRecomputes (now timeout : Time) : RequestTracker → List Nat :=
  stuckBy (RequestInfo.isRecomputeStuck now timeout) RequestInfo.recomputeStart

def getStuckDecodes (now timeout : Time) : RequestTracker → List Nat :=
  stuckBy (RequestInfo.isDecodeStuck now timeout) RequestInfo.decodeStart

def getStuckSuffixPrefills (now timeout : Time) : RequestTracker → List Nat :=
  stuckBy (RequestInfo.isSuffixPrefillStuck now timeout) RequestInfo.suffixPrefillStartedAt

/-- Stamp the first token of a decoding request once. -/
def recordFirstToken (now : Time) (reqId : String) (t : RequestTracker) : RequestTracker :=
  match t.requests.get? reqId with
  | none => t
  | some serial =>
    if (t.info serial).state = .decoding ∧ (t.info serial).firstTokenAt = 0 then
      t.assign serial fun r => { r with firstTokenAt := now }
    else t

/-! ## What the operations do -/

section Specs

variable {t t' : RequestTracker} {r : RequestInfo} {n : Nat}

@[simp] theorem remove_info (t : RequestTracker) (x : String) (m : Nat) :
    (t.remove x).info m = t.info m := rfl

end Specs

end RequestTracker

/-! ## The registry of cleanup tasks -/

/--
The cleanup tasks by request id, and the request ids of the tasks that have not
ended.  Tasks are numbered in the order of their creation.  A task that has not
ended is the one registered for its request.
-/
structure CleanupTasks where
  registered : Dict String Nat
  live : Dict Nat String
  nextTask : Nat
  live_registered : ∀ task reqId, live.get? task = some reqId →
    registered.get? reqId = some task

namespace CleanupTasks

def empty : CleanupTasks where
  registered := Dict.empty
  live := Dict.empty
  nextTask := 0
  live_registered _ _ h := by simp at h

/-- The existing task of a request, also one that has just ended, or a new one. -/
def getOrCreateCleanupTask (reqId : String) (c : CleanupTasks) : Nat × CleanupTasks :=
  match h : c.registered.get? reqId with
  | some existing => (existing, c)
  | none => (c.nextTask,
      { registered := c.registered.set reqId c.nextTask
        live := c.live.set c.nextTask reqId
        nextTask := c.nextTask + 1
        live_registered := by
          intro task id hlive
          rw [Dict.get?_set] at hlive ⊢
          by_cases htask : task = c.nextTask
          · rw [if_pos htask] at hlive
            cases hlive
            rw [if_pos rfl, htask]
          · rw [if_neg htask] at hlive
            have hid := c.live_registered task id hlive
            rw [if_neg fun heq => by rw [heq, h] at hid; cases hid]
            exact hid })

/-- Take a task out of the registry, unless another one has its place. -/
def unregister (reqId : String) (task : Nat) (registered : Dict String Nat) : Dict String Nat :=
  if registered.get? reqId = some task then registered.erase reqId else registered

theorem get?_unregister {reqId id : String} {task other : Nat} {registered : Dict String Nat}
    (h : registered.get? id = some other) (hne : other ≠ task) :
    (unregister reqId task registered).get? id = some other := by
  unfold unregister
  split
  · rename_i htask
    have hid : id ≠ reqId := by
      rintro rfl
      exact hne (Option.some.inj (h.symm.trans htask))
    rw [Dict.get?_erase_of_ne _ hid, h]
  · exact h

/-- A task ends; at its regular end it has called `clear_cleanup_task` before. -/
def finish (task : Nat) (cleared : Bool) (c : CleanupTasks) : CleanupTasks where
  registered :=
    match cleared, c.live.get? task with
    | true, some reqId => unregister reqId task c.registered
    | _, _ => c.registered
  live := c.live.erase task
  nextTask := c.nextTask
  live_registered other id h := by
    have hne : other ≠ task := by
      rintro rfl
      simp at h
    rw [Dict.get?_erase_of_ne _ hne] at h
    have hid := c.live_registered other id h
    split
    · exact get?_unregister hid hne
    · exact hid

/-- The callback `forget` of a task, which is called when the task has ended. -/
def forget (reqId : String) (task : Nat) (c : CleanupTasks) : CleanupTasks where
  registered :=
    if (c.live.get? task).isSome then c.registered else unregister reqId task c.registered
  live := c.live
  nextTask := c.nextTask
  live_registered other id h := by
    have hid := c.live_registered other id h
    split
    · exact hid
    rename_i hended
    refine get?_unregister hid ?_
    rintro rfl
    simp [h] at hended

/-- What happens to the registry. -/
inductive Step
  | getOrCreate (reqId : String)
  | finish (task : Nat) (cleared : Bool)
  | forget (reqId : String) (task : Nat)

def step (c : CleanupTasks) : Step → CleanupTasks
  | .getOrCreate reqId => (c.getOrCreateCleanupTask reqId).2
  | .finish task cleared => c.finish task cleared
  | .forget reqId task => c.forget reqId task

def run (steps : List Step) : CleanupTasks := steps.foldl step empty

/-- The tasks of several requests, in their order. -/
def getOrCreateAll : List String → CleanupTasks → List Nat × CleanupTasks
  | [], c => ([], c)
  | reqId :: rest, c =>
    let (task, c') := c.getOrCreateCleanupTask reqId
    let (tasks, c'') := getOrCreateAll rest c'
    (task :: tasks, c'')

theorem registered_getOrCreate (c : CleanupTasks) (reqId : String) :
    (c.getOrCreateCleanupTask reqId).2.registered.get? reqId =
        some (c.getOrCreateCleanupTask reqId).1 ∧
      ∀ id task, c.registered.get? id = some task →
        (c.getOrCreateCleanupTask reqId).2.registered.get? id = some task := by
  unfold getOrCreateCleanupTask
  split
  · rename_i existing h
    exact ⟨h, fun _ _ hid => hid⟩
  rename_i h
  refine ⟨Dict.get?_set_self _ _ _, fun id task hid => ?_⟩
  have hne : id ≠ reqId := by
    rintro rfl
    cases h.symm.trans hid
  exact (Dict.get?_set_of_ne _ _ hne).trans hid

/-- Each request is given the task that is registered for it, also one that was there before. -/
theorem registered_getOrCreateAll (ids : List String) (c : CleanupTasks) :
    (∀ x ∈ ids.zip (c.getOrCreateAll ids).1, (c.getOrCreateAll ids).2.registered.get? x.1 =
        some x.2) ∧
      ∀ id task, c.registered.get? id = some task →
        (c.getOrCreateAll ids).2.registered.get? id = some task := by
  induction ids generalizing c with
  | nil =>
    exact ⟨by simp [getOrCreateAll], fun _ _ h => h⟩
  | cons reqId rest ih =>
    obtain ⟨hnew, hold⟩ := c.registered_getOrCreate reqId
    obtain ⟨hrest, hkept⟩ := ih (c.getOrCreateCleanupTask reqId).2
    refine ⟨?_, fun id task h => hkept id task (hold id task h)⟩
    simp only [getOrCreateAll, List.zip_cons_cons, List.forall_mem_cons]
    exact ⟨hkept _ _ hnew, hrest⟩

/-- A join that finds no task of its request runs a new one, and leaves none behind. -/
theorem join_alone {c : CleanupTasks} {reqId : String} (h : c.registered.get? reqId = none)
    (cleared : Bool) :
    (c.getOrCreateCleanupTask reqId).1 = c.nextTask ∧
      (((c.getOrCreateCleanupTask reqId).2.finish c.nextTask cleared).forget reqId
        c.nextTask).registered.get? reqId = none := by
  obtain ⟨hnew, -⟩ := c.registered_getOrCreate reqId
  have htask : (c.getOrCreateCleanupTask reqId).1 = c.nextTask := by
    unfold getOrCreateCleanupTask
    split
    · rename_i heq
      cases heq.symm.trans h
    · rfl
  refine ⟨htask, ?_⟩
  rw [htask] at hnew
  generalize (c.getOrCreateCleanupTask reqId).2 = c' at hnew
  have hany : ∀ id, (unregister id c.nextTask c'.registered).get? reqId = some c.nextTask ∨
      (unregister id c.nextTask c'.registered).get? reqId = none := by
    intro id
    unfold unregister
    split
    · rw [Dict.get?_erase, hnew]
      split <;> simp
    · exact Or.inl hnew
  have hfinish : (c'.finish c.nextTask cleared).registered.get? reqId = some c.nextTask ∨
      (c'.finish c.nextTask cleared).registered.get? reqId = none := by
    unfold finish
    dsimp only
    split
    · exact hany _
    · exact Or.inl hnew
  have hended : ((c'.finish c.nextTask cleared).live.get? c.nextTask).isSome = false := by
    simp [finish]
  simp only [forget, hended, Bool.false_eq_true, if_false, unregister]
  split
  · exact Dict.get?_erase_self _ _
  · rename_i hne
    exact hfinish.resolve_left hne

/-- At most one task of a request has not ended. -/
theorem live_unique (c : CleanupTasks) {task other : Nat} {reqId : String}
    (h : c.live.get? task = some reqId) (h' : c.live.get? other = some reqId) : task = other :=
  Option.some.inj ((c.live_registered task reqId h).symm.trans (c.live_registered other reqId h'))

end CleanupTasks

end PrismServe
