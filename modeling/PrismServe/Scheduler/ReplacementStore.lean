import PrismServe.Lib.Dict
import PrismServe.Lib.AtomicFile
import Mathlib.Data.List.Sort
import Mathlib.Data.Prod.Lex
import Mathlib.Data.String.Basic

/-!
# Durable decisions of a whole-world replacement

The store keeps the release decisions of the one replacement run that is not
sealed yet, and the seals of the last runs.  Every change is written as a whole:
to a temporary file, which is then renamed over the file of the store.  Sealing
a run takes two such writes, one that adds the seal and one that drops the
records; opening the store completes the second one.

A write succeeds, raises or is cut short by a crash, each with one of three
effects on the directory.  `Host` holds the store object, the directory and what
will come of the next writes.
-/

namespace PrismServe

open Lib

structure ReplacementReleaseRecord where
  cleanupId : String
  restartRunId : String
  oldOperationDigest : String
  operationId : String
  leaseId : String
  oldResourceKinds : List String
  decisionDigest : String
  deriving DecidableEq, Repr

abbrev RecordKey := String × String × String

namespace ReplacementReleaseRecord

def key (r : ReplacementReleaseRecord) : RecordKey :=
  (r.cleanupId, r.restartRunId, r.oldOperationDigest)

def leaseKey (r : ReplacementReleaseRecord) : String × String := (r.operationId, r.leaseId)

/-- The fields that the loader wants to be non-empty. -/
def complete (r : ReplacementReleaseRecord) : Bool :=
  decide (r.cleanupId ≠ "") && decide (r.restartRunId ≠ "") && decide (r.oldOperationDigest ≠ "") &&
    decide (r.operationId ≠ "") && decide (r.leaseId ≠ "") && decide (r.decisionDigest ≠ "")

end ReplacementReleaseRecord

structure ReplacementRunSeal where
  sealSequence : Nat
  restartRunId : String
  oldTopologyGenerationDigest : String
  newTopologyGeneration : String
  decisionDigest : String
  recordRootDigest : String
  recordCount : Nat
  deriving DecidableEq, Repr

def ReplacementRunSeal.complete (runSeal : ReplacementRunSeal) : Bool :=
  decide (runSeal.sealSequence ≠ 0) && decide (runSeal.restartRunId ≠ "") &&
    decide (runSeal.oldTopologyGenerationDigest ≠ "") &&
      decide (runSeal.newTopologyGeneration ≠ "") &&
    decide (runSeal.decisionDigest ≠ "") && decide (runSeal.recordRootDigest ≠ "")

/-- The one run that is not sealed. -/
structure ActiveRun where
  restartRunId : String
  oldTopologyGenerationDigest : String
  decisionDigest : String
  deriving DecidableEq, Repr

/-- What the file of the store holds, next to its version and digest. -/
structure Payload where
  activeRun : Option ActiveRun
  records : List ReplacementReleaseRecord
  seals : List ReplacementRunSeal
  nextSealSequence : Nat
  deriving DecidableEq, Repr

structure Envelope where
  formatVersion : Nat
  payload : Payload
  payloadDigest : String
  deriving DecidableEq, Repr

/-- Digests of the canonical JSON of the values that are hashed. -/
structure Hashing where
  text : String → String
  records : List ReplacementReleaseRecord → String
  sealed : ReplacementRunSeal → String
  payload : Payload → String
  text_ne_empty : ∀ s, text s ≠ ""
  records_ne_empty : ∀ l, records l ≠ ""

inductive StoreError
  | store (message : String)
  | unavailable (message : String)
  | capacity (message : String)
  | conflict (message : String)
  | retired (runSeal : ReplacementRunSeal)
  | unknownRun (message : String)
  deriving DecidableEq, Repr

variable (H : Hashing)

namespace StoreError

/-- The class and the message of an error, as the store remembers a fatal one. -/
def rendered : StoreError → String
  | store message => "ReplacementStoreError: " ++ message
  | unavailable message => "ReplacementStoreUnavailable: " ++ message
  | capacity message => "ReplacementStoreCapacity: " ++ message
  | conflict message => "ReplacementConflict: " ++ message
  | retired runSeal => "RetiredReplacementRun: RETIRED_REPLACEMENT_RUN: " ++ runSeal.restartRunId ++
      " (" ++ H.sealed runSeal ++ ")"
  | unknownRun message => "UnknownReplacementRun: " ++ message

end StoreError

structure StoreLimits where
  maxRecordsPerRun : Nat := 1024
  sealRetention : Nat := 2
  retention_pos : 0 < sealRetention := by decide

/-- The part of a store that is durable. -/
structure StoreContents where
  activeRun : Option ActiveRun := none
  records : Dict RecordKey ReplacementReleaseRecord := Dict.empty
  seals : List ReplacementRunSeal := []
  nextSealSequence : Nat := 1

structure ReplacementDecisionStore extends StoreContents where
  fatalError : Option String := none

/-! ## The process and its directory -/

/-- The process and its directory; once `writes` is used up all writes succeed. -/
structure Host where
  store : ReplacementDecisionStore := {}
  directory : Directory Envelope := {}
  writes : List WriteOutcome := []

/-- Why a method does not return. -/
inductive StoreStop
  | raised (e : StoreError)
  | crashed
  deriving DecidableEq, Repr

/-- A method of the store: an exception or a crash keeps the state it finds. -/
abbrev StoreM := EStateM StoreStop Host

namespace ReplacementDecisionStore

/-- Records in the order of their keys. -/
def keyLe (a b : ReplacementReleaseRecord) : Prop :=
  toLex (a.key.1, toLex a.key.2) ≤ toLex (b.key.1, toLex b.key.2)

instance : DecidableRel keyLe := fun a b =>
  inferInstanceAs (Decidable (toLex (a.key.1, toLex a.key.2) ≤ toLex (b.key.1, toLex b.key.2)))

def sortedRecords (records : Dict RecordKey ReplacementReleaseRecord) :
    List ReplacementReleaseRecord :=
  records.values.insertionSort keyLe

def recordRoot (records : Dict RecordKey ReplacementReleaseRecord) : String :=
  H.records (sortedRecords records)

def payloadOf (c : StoreContents) : Payload where
  activeRun := c.activeRun
  records := sortedRecords c.records
  seals := c.seals
  nextSealSequence := c.nextSealSequence

def formatVersion : Nat := 2

def envelopeOf (c : StoreContents) : Envelope where
  formatVersion := formatVersion
  payload := payloadOf c
  payloadDigest := H.payload (payloadOf c)

/-- A check that reads the store and may raise. -/
def check {α : Type} (f : ReplacementDecisionStore → Except StoreError α) : StoreM α := do
  match f (← get).store with
  | .ok a => return a
  | .error e => throw (.raised e)

/-- What comes of the next write. -/
def nextWrite : StoreM WriteOutcome := do
  let h ← get
  match h.writes with
  | [] => return .done
  | outcome :: rest => do
      set { h with writes := rest }
      return outcome

def onDirectory (f : Directory Envelope → Directory Envelope) : StoreM Unit :=
  modify fun h => { h with directory := f h.directory }

/-- `_commit_state`: the contents are written as a whole, then taken over in memory. -/
def commitState (c : StoreContents) : StoreM Unit := do
  match ← nextWrite with
  | .done => onDirectory fun d => d.write (envelopeOf H c) .replaced
  | .fails effect error => do
      onDirectory fun d => d.write (envelopeOf H c) effect
      modify fun h => { h with store := { h.store with fatalError := some error } }
      throw (.raised (.unavailable "replacement store persistence failed closed"))
  | .crashes effect => do
      onDirectory fun d => d.write (envelopeOf H c) effect
      throw .crashed
  modify fun h => { h with store := { h.store with toStoreContents := c } }

/-! ## Reads -/

def requireIntegrity (s : ReplacementDecisionStore) : Except StoreError Unit :=
  match s.fatalError with
  | some error => .error (.unavailable ("replacement store is not ready: " ++ error))
  | none => .ok ()

def sealForRun (c : StoreContents) (restartRunId : String) : Option ReplacementRunSeal :=
  c.seals.find? fun runSeal => decide (runSeal.restartRunId = restartRunId)

def validateRequestedRun (c : StoreContents)
    (restartRunId oldTopologyGeneration : String) (decisionDigest : Option String) :
    Except StoreError Unit :=
  if restartRunId = "" ∨ oldTopologyGeneration = "" then
    .error (.unknownRun "UNKNOWN_REPLACEMENT_RUN: run and old generation are required")
  else
    match c.activeRun with
    | none => .ok ()
    | some run =>
      if run.restartRunId ≠ restartRunId then
        .error (.unknownRun "UNKNOWN_REPLACEMENT_RUN: another run is still unsealed")
      else if run.oldTopologyGenerationDigest ≠ H.text oldTopologyGeneration then
        .error (.conflict "replacement run reused with different old generation")
      else if decisionDigest.isSome ∧ some run.decisionDigest ≠ decisionDigest then
        .error (.conflict "replacement run reused with different decision evidence")
      else .ok ()

/-- Whether the store takes part in an admission decision. -/
def ready (limits : StoreLimits) (s : ReplacementDecisionStore) : Bool :=
  s.fatalError.isNone && decide (s.records.size < limits.maxRecordsPerRun)

def transitionClosed (s : ReplacementDecisionStore) : Bool :=
  s.fatalError.isNone && s.activeRun.isNone

/-- The seal of a run that is replayed with the very evidence it was sealed with. -/
def exactCompletedRun (restartRunId oldTopologyGeneration newTopologyGeneration
    decisionDigest : String) (s : ReplacementDecisionStore) :
    Except StoreError (Option ReplacementRunSeal) := do
  requireIntegrity s
  match sealForRun s.toStoreContents restartRunId with
  | none => return none
  | some runSeal =>
    if runSeal.oldTopologyGenerationDigest ≠ H.text oldTopologyGeneration then
      throw (.conflict "sealed replacement run reused with different old generation")
    else if runSeal.newTopologyGeneration ≠ newTopologyGeneration then
      throw (.conflict "sealed replacement run reused with different new generation")
    else if runSeal.decisionDigest ≠ decisionDigest then
      throw (.conflict "sealed replacement run reused with different decision evidence")
    else return some runSeal

def validateColdRecoveryBase (oldTopologyGeneration : String) (s : ReplacementDecisionStore) :
    Except StoreError Unit := do
  requireIntegrity s
  if s.activeRun.isSome ∨ s.records.size ≠ 0 then
    throw (.conflict "cold replacement recovery requires a closed local segment")
  else
    match s.seals.getLast? with
    | none => return ()
    | some runSeal =>
      if runSeal.newTopologyGeneration ≠ oldTopologyGeneration then
        throw (.conflict "cold replacement old generation does not follow retained seal")
      else return ()

def validateActiveRun (restartRunId oldTopologyGeneration decisionDigest : String)
    (s : ReplacementDecisionStore) : Except StoreError Unit := do
  requireIntegrity s
  if s.activeRun.isNone then
    throw (.unknownRun "UNKNOWN_REPLACEMENT_RUN: no active replacement segment")
  else
    validateRequestedRun H s.toStoreContents restartRunId oldTopologyGeneration
      (some decisionDigest)

def lookup (record : ReplacementReleaseRecord) (oldTopologyGeneration : String)
    (s : ReplacementDecisionStore) : Except StoreError (Option ReplacementReleaseRecord) := do
  requireIntegrity s
  match s.records.get? record.key with
  | some existing =>
    if existing ≠ record then
      throw (.conflict "replacement key reused with different record/digest")
    else return some existing
  | none =>
    match sealForRun s.toStoreContents record.restartRunId with
    | some runSeal => throw (.retired runSeal)
    | none => do
        validateRequestedRun H s.toStoreContents record.restartRunId oldTopologyGeneration
          (some record.decisionDigest)
        return none

/-! ## Mutations -/

def newRun (restartRunId oldTopologyGeneration decisionDigest : String) : ActiveRun :=
  ⟨restartRunId, H.text oldTopologyGeneration, decisionDigest⟩

/-- The lease of a record has a decision under another key. -/
def leaseTaken (c : StoreContents) (record : ReplacementReleaseRecord) : Bool :=
  c.records.values.any fun other =>
    decide (other.leaseKey = record.leaseKey) && decide (other.key ≠ record.key)

def persistRecord (limits : StoreLimits) (record : ReplacementReleaseRecord)
    (oldTopologyGeneration : String) : StoreM (ReplacementReleaseRecord × Bool) := do
  match ← check (lookup H record oldTopologyGeneration) with
  | some existing => return (existing, false)
  | none => do
      let s := (← get).store
      if limits.maxRecordsPerRun ≤ s.records.size then
        throw (.raised (.capacity "replacement record capacity exhausted"))
      if leaseTaken s.toStoreContents record then
        throw (.raised (.conflict "replacement lease already has a different decision key"))
      commitState H { s.toStoreContents with
        activeRun := some (s.activeRun.getD
          (newRun H record.restartRunId oldTopologyGeneration record.decisionDigest))
        records := s.records.set record.key record }
      return (record, true)

/-- A batch in the making: its records, their leases, and whether anything is new. -/
structure Batch where
  candidate : Dict RecordKey ReplacementReleaseRecord
  leases : Dict (String × String) RecordKey
  changed : Bool := false

def startBatch (records : Dict RecordKey ReplacementReleaseRecord) : Batch where
  candidate := records
  leases := records.values.foldl (fun d r => d.set r.leaseKey r.key) Dict.empty

def addToBatch (b : Batch) (record : ReplacementReleaseRecord) : Except StoreError Batch :=
  match b.candidate.get? record.key with
  | some existing =>
    if existing ≠ record then
      .error (.conflict "replacement key reused with different record/digest")
    else .ok b
  | none =>
    match b.leases.get? record.leaseKey with
    | some other =>
      if other ≠ record.key then
        .error (.conflict "replacement lease already has a different decision key")
      else .ok ⟨b.candidate.set record.key record, b.leases.set record.leaseKey record.key, true⟩
    | none =>
      .ok ⟨b.candidate.set record.key record, b.leases.set record.leaseKey record.key, true⟩

def addAllToBatch (b : Batch) : List ReplacementReleaseRecord → Except StoreError Batch
  | [] => .ok b
  | record :: rest => do addAllToBatch (← addToBatch b record) rest

/-- The decision of a batch: the given one, or that of its first record. -/
def requestedDecision (records : List ReplacementReleaseRecord) (decisionDigest : Option String) :
    String :=
  match decisionDigest with
  | some digest => if digest = "" then (records.head?.map (·.decisionDigest)).getD "" else digest
  | none => (records.head?.map (·.decisionDigest)).getD ""

/-- The checks of a batch and the records it leads to. -/
def validateBatch (limits : StoreLimits) (records : List ReplacementReleaseRecord)
    (restartRunId oldTopologyGeneration : String) (decisionDigest : Option String)
    (s : ReplacementDecisionStore) : Except StoreError Batch := do
  requireIntegrity s
  match sealForRun s.toStoreContents restartRunId with
  | some runSeal => throw (.retired runSeal)
  | none => do
      let decision := requestedDecision records decisionDigest
      if decision = "" then
        throw (.conflict "replacement batch requires a decision digest")
      else if records.any fun r => decide (r.decisionDigest ≠ decision) then
        throw (.conflict "replacement batch mixes decisions")
      else do
        validateRequestedRun H s.toStoreContents restartRunId oldTopologyGeneration (some decision)
        if records.any fun r => decide (r.restartRunId ≠ restartRunId) then
          throw (.conflict "replacement batch mixes restart runs")
        else do
          let b ← addAllToBatch (startBatch s.records) records
          if limits.maxRecordsPerRun < b.candidate.size then
            throw (.capacity "replacement record capacity exhausted")
          else return b

def persistRecords (limits : StoreLimits) (records : List ReplacementReleaseRecord)
    (restartRunId oldTopologyGeneration : String) (decisionDigest : Option String) :
    StoreM (List ReplacementReleaseRecord) := do
  let b ← check (validateBatch H limits records restartRunId oldTopologyGeneration decisionDigest)
  let s := (← get).store
  if b.changed || s.activeRun.isNone then
    commitState H { s.toStoreContents with
      activeRun := some (newRun H restartRunId oldTopologyGeneration
        (requestedDecision records decisionDigest))
      records := b.candidate }
  return records.filterMap fun r => b.candidate.get? r.key

/-- The seal that a run gets. -/
def newSeal (c : StoreContents) (restartRunId oldTopologyGeneration
    newTopologyGeneration decisionDigest : String) : ReplacementRunSeal where
  sealSequence := c.nextSealSequence
  restartRunId := restartRunId
  oldTopologyGenerationDigest := H.text oldTopologyGeneration
  newTopologyGeneration := newTopologyGeneration
  decisionDigest := decisionDigest
  recordRootDigest := recordRoot H c.records
  recordCount := c.records.size

/-- The newest entries of a list. -/
def newest (n : Nat) (l : List ReplacementRunSeal) : List ReplacementRunSeal :=
  l.drop (l.length - n)

/-- The contents with a new seal, before the records are dropped. -/
def withSeal (limits : StoreLimits) (runSeal : ReplacementRunSeal) (c : StoreContents) :
    StoreContents :=
  { c with
    seals := newest limits.sealRetention (c.seals ++ [runSeal])
    nextSealSequence := runSeal.sealSequence + 1 }

/-- The contents without the records of the run that was sealed. -/
def collected (c : StoreContents) : StoreContents :=
  { c with activeRun := none, records := Dict.empty }

/-- The checks of `seal_run`: the seal that the run already has, or none. -/
def validateSeal (restartRunId oldTopologyGeneration newTopologyGeneration
    decisionDigest : String) (s : ReplacementDecisionStore) :
    Except StoreError (Option ReplacementRunSeal) := do
  requireIntegrity s
  match sealForRun s.toStoreContents restartRunId with
  | some existing =>
    if existing.oldTopologyGenerationDigest ≠ H.text oldTopologyGeneration ∨
        existing.newTopologyGeneration ≠ newTopologyGeneration ∨
        existing.decisionDigest ≠ decisionDigest then
      throw (.conflict "sealed replacement run reused with different evidence")
    else return some existing
  | none => do
      validateRequestedRun H s.toStoreContents restartRunId oldTopologyGeneration
        (some decisionDigest)
      if s.activeRun.isNone then
        throw (.unknownRun "UNKNOWN_REPLACEMENT_RUN: no active replacement segment")
      else return none

def sealRun (limits : StoreLimits) (restartRunId oldTopologyGeneration
    newTopologyGeneration decisionDigest : String) : StoreM ReplacementRunSeal := do
  match ← check (validateSeal H restartRunId oldTopologyGeneration newTopologyGeneration
      decisionDigest) with
  | some existing => return existing
  | none => do
      let s := (← get).store
      let runSeal := newSeal H s.toStoreContents restartRunId oldTopologyGeneration
        newTopologyGeneration decisionDigest
      let marked := withSeal limits runSeal s.toStoreContents
      commitState H marked
      commitState H (collected marked)
      return runSeal

/-! ## The file -/

def fileSeals (d : Directory Envelope) : List ReplacementRunSeal :=
  (d.main.map (·.payload.seals)).getD []

def fileRecords (d : Directory Envelope) : List ReplacementReleaseRecord :=
  (d.main.map (·.payload.records)).getD []

/-! ## Opening -/

/-- The records of a file, with the keys and the leases seen so far. -/
def loadRecords (records : Dict RecordKey ReplacementReleaseRecord)
    (leases : List (String × String)) :
    List ReplacementReleaseRecord →
      Except StoreError (Dict RecordKey ReplacementReleaseRecord)
  | [] => .ok records
  | record :: rest =>
    if record.complete = false then
      .error (.store "replacement record fields are empty")
    else if records.contains record.key then
      .error (.store "duplicate replacement record key")
    else if leases.contains record.leaseKey then
      .error (.store "duplicate replacement lease decision")
    else loadRecords (records.set record.key record) (record.leaseKey :: leases) rest

/-- The sequence numbers rise from each seal to the next. -/
def rising : List ReplacementRunSeal → Bool
  | [] => true
  | [_] => true
  | a :: b :: rest => decide (a.sealSequence < b.sealSequence) && rising (b :: rest)

/-- The checks of the loader on the active run. -/
def validateSegment (activeRun : Option ActiveRun)
    (records : Dict RecordKey ReplacementReleaseRecord) : Except StoreError Unit :=
  match activeRun with
  | none =>
    if records.size ≠ 0 then .error (.store "orphan records have no active run") else .ok ()
  | some run =>
    if records.values.any fun r => decide (r.restartRunId ≠ run.restartRunId) then
      .error (.store "active segment mixes replacement runs")
    else if run.decisionDigest = "" ∨
        (records.values.any fun r => decide (r.decisionDigest ≠ run.decisionDigest)) then
      .error (.store "active segment mixes replacement decisions")
    else .ok ()

/-- The checks of the loader on the seals. -/
def validateSeals (limits : StoreLimits) (seals : List ReplacementRunSeal)
    (nextSealSequence : Nat) : Except StoreError Unit :=
  if seals.any fun runSeal => !runSeal.complete then
    .error (.store "replacement seal fields are invalid")
  else if limits.sealRetention < seals.length then
    .error (.store "replacement seal retention exceeded")
  else if rising seals = false then
    .error (.store "replacement seal sequence is not monotonic")
  else if (seals.map (·.restartRunId)).dedup.length ≠ seals.length then
    .error (.store "duplicate retained replacement seal")
  else if nextSealSequence = 0 ∨
      seals.getLast?.any (fun runSeal => decide (nextSealSequence ≤ runSeal.sealSequence)) then
    .error (.store "invalid next replacement seal sequence")
  else .ok ()

/-- `_load`. -/
def load (limits : StoreLimits) (d : Directory Envelope) : Except StoreError StoreContents :=
  if d.orphan then
    .error (.store "orphan replacement-store temp file requires operator review")
  else
    match d.main with
    | none => .ok {}
    | some raw =>
      if raw.formatVersion ≠ formatVersion then
        .error (.store "unsupported replacement store version")
      else if raw.payloadDigest ≠ H.payload raw.payload then
        .error (.store "replacement store digest mismatch")
      else do
        let records ← loadRecords Dict.empty [] raw.payload.records
        if limits.maxRecordsPerRun < records.size then
          throw (.store "replacement record cap exceeded")
        else do
          validateSegment raw.payload.activeRun records
          validateSeals limits raw.payload.seals raw.payload.nextSealSequence
          return ⟨raw.payload.activeRun, records, raw.payload.seals,
            raw.payload.nextSealSequence⟩

/-- A seal vouches for the records of the active run. -/
def vouches (runSeal : ReplacementRunSeal) (run : ActiveRun)
    (records : Dict RecordKey ReplacementReleaseRecord) : Bool :=
  decide (runSeal.recordCount = records.size) &&
    decide (runSeal.recordRootDigest = recordRoot H records) &&
    decide (runSeal.oldTopologyGenerationDigest = run.oldTopologyGenerationDigest) &&
    decide (runSeal.decisionDigest = run.decisionDigest)

/-- `_finish_sealed_gc_after_restart`. -/
def finishSealedGc : StoreM Unit := do
  let s := (← get).store
  match s.activeRun with
  | none => return ()
  | some run =>
    match sealForRun s.toStoreContents run.restartRunId with
    | none => return ()
    | some runSeal =>
      if vouches H runSeal run s.records then commitState H (collected s.toStoreContents)
      else throw (.raised (.store "sealed replacement segment root/count mismatch"))

/-- The constructor: an exception on the way makes the store refuse everything. -/
def openStore (limits : StoreLimits) : StoreM Unit := do
  modify fun h => { h with store := {} }
  tryCatch (do
    match load H limits (← get).directory with
    | .error e => throw (.raised e)
    | .ok c => do
        modify fun h => { h with store := { h.store with toStoreContents := c } }
        finishSealedGc H) fun stop =>
      match stop with
      | .raised e =>
        modify fun h => { h with store := { h.store with fatalError := some (e.rendered H) } }
      | .crashed => throw .crashed

end ReplacementDecisionStore

end PrismServe
