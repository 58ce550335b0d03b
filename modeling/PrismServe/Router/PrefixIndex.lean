import PrismServe.Lib.Dict
import PrismServe.Runtime

/-!
# The local view of the prefix caches

`PrefixIndex` maps the key of a prefix to the locations where it is cached.  An
owner is one incarnation of a worker; the index remembers which keys an owner
has entries under and the number of the last event of the owner it has seen.

`applyEvents` takes events in order and skips those it has seen.  When it raises,
the events before the failing one have already changed the entries, and the
cursor of the owner is still the old one.
-/

namespace PrismServe.Directory

open Lib

abbrev Owner := String × String

abbrev Key := String × String × String × Int

structure CacheLocation where
  instanceId : String
  instanceEpoch : String
  cacheNamespace : String
  kvCompatibilityId : String
  requestContextDigest : String
  chainHash : Int
  blockIndex : Int
  blockId : Int
  prefixTokens : Int
  lastUpdated : Time
  deriving DecidableEq, Repr

namespace CacheLocation

def owner (l : CacheLocation) : Owner := (l.instanceId, l.instanceEpoch)

def key (l : CacheLocation) : Key :=
  (l.cacheNamespace, l.kvCompatibilityId, l.requestContextDigest, l.chainHash)

end CacheLocation

inductive EventKind
  | hashAdded
  | evicted
  | unsupported (kind : String)
  deriving DecidableEq, Repr

structure PrefixEvent where
  kind : EventKind
  location : CacheLocation
  seqNo : Int
  deriving DecidableEq, Repr

inductive ReconcileError
  | cancelled
  | valueError (message : String)
  | fullReportRequired (message : String)
  | runtimeError (message : String)
  | assertionError (message : String)
  /-- Any other exception of a call. -/
  | failed (message : String)
  deriving DecidableEq, Repr

structure PrefixIndex where
  index : Dict Key (List CacheLocation)
  forward : Dict Owner (List Key)
  lastSeq : Dict Owner Int

namespace PrefixIndex

/-- A new index, and one that was cleared. -/
def empty : PrefixIndex := ⟨.empty, .empty, .empty⟩

/-- `self._index.get(key, set())` -/
def locations (x : PrefixIndex) (key : Key) : List CacheLocation := (x.index.get? key).getD []

/-- `self._forward.get(owner, set())` -/
def forwardKeys (x : PrefixIndex) (owner : Owner) : List Key := (x.forward.get? owner).getD []

/-- Replace the locations under a key; an empty set is popped. -/
def store (key : Key) (values : List CacheLocation) (x : PrefixIndex) : PrefixIndex :=
  { x with index := if values.isEmpty then x.index.erase key else x.index.set key values }

def add (location : CacheLocation) (x : PrefixIndex) : PrefixIndex :=
  { x with
    index := x.index.set location.key ((x.locations location.key).insert location)
    forward := x.forward.set location.owner
      ((x.forwardKeys location.owner).insert location.key) }

/-- `self._forward[owner].discard(key)`; reading the default dictionary makes an entry. -/
def discard (owner : Owner) (key : Key) (x : PrefixIndex) : PrefixIndex :=
  { x with forward := x.forward.set owner ((x.forwardKeys owner).filter (· ≠ key)) }

/-- The key is forgotten for an owner that has nothing under it. -/
def discardUnused (owner : Owner) (key : Key) (x : PrefixIndex) : PrefixIndex :=
  if (x.locations key).any fun l => l.owner = owner then x else x.discard owner key

def removeBlock (key : Key) (owner : Owner) (blockId : Int) (x : PrefixIndex) : PrefixIndex :=
  (x.store key ((x.locations key).filter fun l =>
    l.owner ≠ owner ∨ l.blockId ≠ blockId)).discardUnused
    owner key

/-- `_remove_owner` -/
def removeUnder (owner : Owner) (key : Key) (x : PrefixIndex) : PrefixIndex :=
  x.store key ((x.locations key).filter fun l => l.owner ≠ owner)

def removeOwner (owner : Owner) (x : PrefixIndex) : PrefixIndex :=
  let swept := (x.forwardKeys owner).foldl (fun y key => y.removeUnder owner key) x
  { swept with
    forward := swept.forward.erase owner
    lastSeq := swept.lastSeq.erase owner }

def removeInstance (instanceId : String) (x : PrefixIndex) : PrefixIndex :=
  (x.forward.keys.filter fun owner => owner.1 = instanceId).foldl
    (fun y owner => y.removeOwner owner) x

/-- The loop of `apply_events`, with the cursor it has reached. -/
def applyFrom (owner : Owner) :
    List PrefixEvent → Int → PrefixIndex → Except ReconcileError Int × PrefixIndex
  | [], cursor, x => (.ok cursor, x)
  | event :: rest, cursor, x =>
    if event.location.owner ≠ owner then
      (.error (.valueError "prefix event owner mismatch"), x)
    else if event.seqNo ≤ cursor then applyFrom owner rest cursor x
    else if event.seqNo ≠ cursor + 1 then
      (.error (.fullReportRequired
        s!"event gap: expected={cursor + 1}, got={event.seqNo}"), x)
    else
      match event.kind with
      | .hashAdded => applyFrom owner rest event.seqNo (x.add event.location)
      | .evicted =>
        applyFrom owner rest event.seqNo
          (x.removeBlock event.location.key owner event.location.blockId)
      | .unsupported kind =>
        (.error (.valueError ("unsupported prefix event: " ++ quoted kind)), x)

def applyEvents (owner : Owner) (events : List PrefixEvent) (x : PrefixIndex) :
    Except ReconcileError Int × PrefixIndex :=
  match applyFrom owner events ((x.lastSeq.get? owner).getD 0) x with
  | (.error e, y) => (.error e, y)
  | (.ok cursor, y) => (.ok cursor, { y with lastSeq := y.lastSeq.set owner cursor })

/-- Add the locations of a report of the owner. -/
def addReported (owner : Owner) :
    List CacheLocation → PrefixIndex → Except ReconcileError Unit × PrefixIndex
  | [], x => (.ok (), x)
  | location :: rest, x =>
    if location.owner ≠ owner then
      (.error (.valueError "full report owner mismatch"), x)
    else addReported owner rest (x.add location)

def installFullReport (owner : Owner) (snapshotSeqNo : Int) (locations : List CacheLocation)
    (x : PrefixIndex) : Except ReconcileError Unit × PrefixIndex :=
  match addReported owner locations (x.removeOwner owner) with
  | (.error e, y) => (.error e, y)
  | (.ok _, y) => (.ok (), { y with lastSeq := y.lastSeq.set owner snapshotSeqNo })

end PrefixIndex

structure PrefixReport where
  instanceId : String
  instanceEpoch : String
  snapshotSeqNo : Int
  locations : List CacheLocation
  deriving DecidableEq, Repr

def PrefixReport.owner (r : PrefixReport) : Owner := (r.instanceId, r.instanceEpoch)

namespace PrefixIndex

/-- `staged_forward[owner]` makes an entry also for an owner without locations. -/
def touch (owner : Owner) (x : PrefixIndex) : PrefixIndex :=
  { x with forward := x.forward.set owner (x.forwardKeys owner) }

/-- One report of a world, staged after the ones before it. -/
def stage (staged : PrefixIndex) (r : PrefixReport) : Except ReconcileError PrefixIndex :=
  if staged.lastSeq.contains r.owner then
    .error (.valueError ("duplicate full report owner: (" ++ quoted r.instanceId ++ ", " ++
      quoted r.instanceEpoch ++ ")"))
  else if r.snapshotSeqNo < 0 then
    .error (.valueError "full report snapshot sequence must be non-negative")
  else
    match addReported r.owner r.locations (staged.touch r.owner) with
    | (.error e, _) => .error e
    | (.ok _, y) => .ok { y with lastSeq := y.lastSeq.set r.owner r.snapshotSeqNo }

/-- The index that the reports of a whole world make, when they are those expected. -/
def installWorldFullReports (reports : List PrefixReport) (expectedOwners : List Owner) :
    Except ReconcileError PrefixIndex := do
  let staged ← reports.foldlM stage empty
  if (∀ owner ∈ staged.lastSeq.keys, owner ∈ expectedOwners) ∧
      ∀ owner ∈ expectedOwners, owner ∈ staged.lastSeq.keys then
    .ok staged
  else .error (.valueError "full report world does not match expected owners")

end PrefixIndex

end PrismServe.Directory
