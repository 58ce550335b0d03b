import PrismServe.Lib.Coroutine
import PrismServe.Worldctl.HelmValues
import PrismServe.Worldctl.PodWatch

/-!
# An exact Helm upgrade

An upgrade reads the deployed revision, runs the command and then looks at what it
has done: the response of the command may be lost, so that a failure says nothing.
If the next revision is there but pending or failed, its secret is deleted and the
command is run once more; if the history is unchanged, it is run once more as well.

Every command of the process is awaited and may be answered in any way: it may fail
after it has taken effect, and what is read may change between two commands.
-/

namespace PrismServe.Worldctl.Helm

open Lib

/-! ## Commands -/

inductive HelmError
  | runtimeError (message : String)
  /-- Another exception, with its class and the return code of a command. -/
  | exception (name : String) (returncode : Option Int)
  /-- The process is interrupted; `except Exception` does not catch this. -/
  | interrupted
  deriving DecidableEq, Repr

inductive HelmCall
  /-- Run a command and parse its output. -/
  | json (command : List String)
  | mutate (command : List String) (input : Option String)
  | print (event : Json)

inductive HelmReply
  | json (value : Json)
  | done
  | raised (e : HelmError)

/-- What is not computed here. -/
structure HelmSettings where
  context : String
  digest : Json.Digest
  parseInt : String → Option Int
  /-- `str.lower` -/
  lower : String → String
  /-- `quote(text, safe='')` -/
  quote : String → String

/-- The arguments of `_run_helm_upgrade`. -/
structure Upgrade where
  release : String
  kubeNamespace : String
  command : List String
  overrides : List (List String × Json)

abbrev HelmProg (α : Type) := Prog Unit HelmCall HelmReply HelmError Empty α

namespace HelmProg

variable {α : Type}

/-- What a check returns or raises. -/
def lift (x : Except HelmError α) : HelmProg α :=
  match x with
  | .ok a => .ret a
  | .error e => .raise e

/-- A reply that is not of the kind of the call. -/
def unexpected : HelmReply → HelmError
  | .raised e => e
  | _ => .exception "Exception" none

def readJson (command : List String) : HelmProg Json :=
  .await (.json command) fun
    | .json value => .ret value
    | reply => .raise (unexpected reply)

/-- `_run_mutation` -/
def runMutation (command : List String) (input : Option String) : HelmProg Unit :=
  .await (.mutate command input) fun
    | .done => .ret ()
    | reply => .raise (unexpected reply)

def print (event : Json) : HelmProg Unit :=
  .await (.print event) fun
    | .done => .ret ()
    | reply => .raise (unexpected reply)

end HelmProg

open HelmProg

section Upgrades

variable (cfg : HelmSettings) (u : Upgrade)

/-- `_kubectl_args` -/
def kubectlArgs (args : List String) : List String :=
  "kubectl" :: (if cfg.context = "" then [] else ["--context", cfg.context]) ++ args

/-- `_helm_args` -/
def helmArgs (args : List String) : List String :=
  "helm" :: (if cfg.context = "" then [] else ["--kube-context", cfg.context]) ++ args

/-! ## The history of a release -/

structure Revision where
  revision : Int
  status : String
  deriving DecidableEq, Repr

/-- `int(raw.get("revision"))`; an `OverflowError` is not caught. -/
def revisionNumber (raw : JsonObject) : Except HelmError Int :=
  match ((raw.lookup "revision").getD .null).toInt cfg.parseInt with
  | .ok n => .ok n
  | .error .other => .error (.exception "OverflowError" none)
  | .error _ => .error (.runtimeError "Helm release history revision is invalid")

/-- An entry of the history that is not yet there. -/
def historyEntry (seen : List Revision) (raw : Json) : Except HelmError Revision :=
  match raw with
  | .object fields => do
      let revision ← revisionNumber cfg fields
      match fields.lookup "status" with
      | some (.string status) =>
        if revision ≤ 0 || seen.any (fun other => decide (other.revision = revision)) ||
            status.isEmpty then
          .error (.runtimeError "Helm release history entry is invalid")
        else .ok ⟨revision, cfg.lower status⟩
      | _ => .error (.runtimeError "Helm release history entry is invalid")
  | _ => .error (.runtimeError "Helm release history entry is invalid")

def historyEntries : List Json → List Revision → Except HelmError (List Revision)
  | [], seen => .ok seen
  | raw :: rest, seen => do
      let entry ← historyEntry cfg seen raw
      historyEntries rest (seen ++ [entry])

/-- The history that a listing tells, the latest revision last. -/
def parseHistory (value : Json) : Except HelmError (List Revision) :=
  match value with
  | .array (raw :: rest) =>
    (historyEntries cfg (raw :: rest) []).map fun history =>
      history.insertionSort fun a b => a.revision ≤ b.revision
  | _ => .error (.runtimeError "Helm release history is unavailable")

def historyArgs : List String :=
  helmArgs cfg ["history", u.release, "--namespace", u.kubeNamespace, "--output", "json"]

/-- `_helm_history` -/
def helmHistory : HelmProg (List Revision) := do
  let value ← readJson (historyArgs cfg u)
  lift (parseHistory cfg value)

/-- `str(revision)` -/
def revisionText (revision : Int) : String := String.ofList (Json.integerText revision)

def valuesArgs (revision : Int) : List String :=
  helmArgs cfg ["get", "values", u.release, "--namespace", u.kubeNamespace, "--revision",
    revisionText revision, "--output", "json"]

/-- `_helm_release_values` -/
def helmReleaseValues (revision : Int) : HelmProg JsonObject := do
  match ← readJson (valuesArgs cfg u revision) with
  | .object fields => .ret fields
  | _ => .raise (.runtimeError "Helm release values are invalid")

/-- `history[-1]` -/
def latestOf (history : List Revision) : Except HelmError Revision :=
  match history.getLast? with
  | some latest => .ok latest
  | none => .error (.exception "IndexError" none)

/-- `_HelmReleaseSnapshot` -/
structure Snapshot where
  revision : Int
  values : JsonObject

/-- `_helm_deployed_snapshot` -/
def helmDeployedSnapshot : HelmProg Snapshot := do
  let history ← helmHistory cfg u
  let latest ← lift (latestOf history)
  if latest.status ≠ "deployed" then
    .raise (.runtimeError ("Helm upgrade requires an exact deployed pre-attempt revision; " ++
      "observed revision=" ++ revisionText latest.revision ++ " status=" ++ latest.status))
  else
    (helmReleaseValues cfg u latest.revision).bind fun values => .ret ⟨latest.revision, values⟩

/-! ## What an upgrade has done -/

def HelmError.name : HelmError → String
  | runtimeError _ => "RuntimeError"
  | exception name _ => name
  | interrupted => "KeyboardInterrupt"

def HelmError.returncode : HelmError → Option Int
  | exception _ returncode => returncode
  | _ => none

/-- What a diagnostic is about. -/
structure Diagnostic where
  phase : String
  outcome : String
  snapshot : Snapshot
  expected : JsonObject
  history : List Revision
  comparison : Option JsonObject := none
  observed : Option JsonObject := none
  predecessorObserved : Option JsonObject := none
  error : Option HelmError

def errorFields : Option HelmError → JsonObject
  | none => []
  | some e =>
    ("error_type", .string e.name) ::
      (match e.returncode with
        | none => []
        | some n => [("error_returncode", .integer n)])

/-- The limit of a difference that is reported. -/
def diffLimit : Nat := 64

def predecessorFields (d : Diagnostic) : JsonObject :=
  match d.predecessorObserved with
  | none => []
  | some observed =>
    let diff := helmValueDiffPaths diffLimit (.object d.snapshot.values) (.object observed)
    [("predecessor_diff_paths", .array (diff.paths.map .string)),
      ("predecessor_diff_truncated", .bool diff.truncated),
      ("predecessor_values_sha256",
        .string (Watch.canonicalSha256 cfg.digest (.object observed)))]

def comparisonFields (d : Diagnostic) : JsonObject :=
  match d.comparison, d.observed with
  | some comparison, some observed =>
    let diff := helmValueDiffPaths diffLimit (.object comparison) (.object observed)
    [("observed_values_sha256", .string (Watch.canonicalSha256 cfg.digest (.object observed))),
      ("value_diff_paths", .array (diff.paths.map .string)),
      ("value_diff_truncated", .bool diff.truncated)]
  | _, _ => []

def Revision.toJson (r : Revision) : Json :=
  .object [("revision", .integer r.revision), ("status", .string r.status)]

/-- The event that a diagnostic prints about the latest revision. -/
def diagnosticEvent (d : Diagnostic) (latest : Revision) : Json :=
  .object ([
    ("event", .string "pd_worldctl.helm_upgrade_reconcile"),
    ("expected_values_sha256", .string (Watch.canonicalSha256 cfg.digest (.object d.expected))),
    ("history_tail", .array ((d.history.drop (d.history.length - 3)).map Revision.toJson)),
    ("latest_revision", .integer latest.revision),
    ("latest_status", .string latest.status),
    ("namespace", .string u.kubeNamespace),
    ("outcome", .string d.outcome),
    ("phase", .string d.phase),
    ("pre_revision", .integer d.snapshot.revision),
    ("pre_values_sha256", .string (Watch.canonicalSha256 cfg.digest (.object d.snapshot.values))),
    ("release", .string u.release)] ++
    errorFields d.error ++ predecessorFields cfg d ++ comparisonFields cfg d)

/-- `_emit_helm_reconcile_diagnostic` -/
def emitHelmReconcileDiagnostic (d : Diagnostic) : HelmProg Unit := do
  let latest ← lift (latestOf d.history)
  print (diagnosticEvent cfg u d latest)

inductive Outcome
  | unchanged
  | deployed
  | pending
  | failed
  deriving DecidableEq, Repr

section Inspection

variable (phase : String) (snapshot : Snapshot) (expected : JsonObject) (error : Option HelmError)

/-- The history still ends with the revision before the attempt. -/
def inspectSameRevision (history : List Revision) (latest : Revision) : HelmProg Outcome := do
  let observed ← helmReleaseValues cfg u latest.revision
  let unchanged := decide (latest.status = "deployed") &&
    valuesEqual cfg.digest (.object observed) (.object snapshot.values)
  emitHelmReconcileDiagnostic cfg u {
    phase := phase
    outcome := if unchanged then "history_unchanged" else "invalid"
    snapshot := snapshot
    expected := expected
    history := history
    comparison := some snapshot.values
    observed := some observed
    error := error }
  if unchanged then .ret .unchanged
  else .raise (.runtimeError "pre-attempt Helm revision status/values changed")

/-- The values of the two last revisions are those before the attempt and those expected. -/
def valuesExact (predecessorObserved observed : JsonObject) : Bool :=
  valuesEqual cfg.digest (.object predecessorObserved) (.object snapshot.values) &&
    valuesEqual cfg.digest (.object observed) (.object expected)

/-- Whether a new revision is the one that was meant, and how it is called. -/
def judge (latestStatus predecessorStatus : String) (exact : Bool) : Bool × String :=
  if latestStatus = "deployed" then
    let valid := decide (predecessorStatus = "superseded") && exact
    (valid, if valid then "new_deployed" else "invalid")
  else if latestStatus = "pending-upgrade" ∨ latestStatus = "failed" then
    let valid := decide (predecessorStatus = "deployed") && exact
    (valid,
      if !valid then "invalid"
      else if latestStatus = "pending-upgrade" then "new_pending"
      else "new_failed")
  else (false, "invalid")

/-- The history ends with the revision before the attempt and the next one. -/
def inspectNextRevision (history : List Revision) (predecessor latest : Revision) :
    HelmProg Outcome := do
  let predecessorObserved ← helmReleaseValues cfg u snapshot.revision
  let observed ← helmReleaseValues cfg u latest.revision
  let judged := judge latest.status predecessor.status
    (valuesExact cfg snapshot expected predecessorObserved observed)
  emitHelmReconcileDiagnostic cfg u {
    phase := phase
    outcome := judged.2
    snapshot := snapshot
    expected := expected
    history := history
    comparison := some expected
    observed := some observed
    predecessorObserved := some predecessorObserved
    error := error }
  if !judged.1 then
    .raise (.runtimeError "new Helm revision status/predecessor/values are invalid")
  else if latest.status = "deployed" then .ret .deployed
  else if latest.status = "pending-upgrade" then .ret .pending
  else .ret .failed

/-- `history[-2]`, if it is the revision before the attempt and the latest is the next one. -/
def exactPredecessor (history : List Revision) (latest : Revision) : Option Revision :=
  match history.dropLast.getLast? with
  | some predecessor =>
    if latest.revision = snapshot.revision + 1 ∧ predecessor.revision = snapshot.revision then
      some predecessor
    else none
  | none => none

/-- `_inspect_helm_upgrade_result` -/
def inspectHelmUpgradeResult : HelmProg Outcome := do
  let history ← helmHistory cfg u
  let latest ← lift (latestOf history)
  if latest.revision = snapshot.revision then
    inspectSameRevision cfg u phase snapshot expected error history latest
  else
    match exactPredecessor snapshot history latest with
    | some predecessor =>
      inspectNextRevision cfg u phase snapshot expected error history predecessor latest
    | none =>
      (emitHelmReconcileDiagnostic cfg u {
        phase := phase
        outcome := "invalid"
        snapshot := snapshot
        expected := expected
        history := history
        error := error }).bind fun _ =>
      .raise (.runtimeError "Helm response loss did not produce the exact next revision")

end Inspection

/-! ## The secret of a revision -/

def secretName (revision : Int) : String :=
  "sh.helm.release.v1." ++ u.release ++ ".v" ++ revisionText revision

/-- A text that is not empty. -/
def givenText : Option Json → Option String
  | some (.string s) => if s.isEmpty then none else some s
  | _ => none

def isText (value : Option Json) (text : String) : Bool :=
  match value with
  | some (.string s) => decide (s = text)
  | _ => false

/-- `secret.get("metadata")` -/
def secretMetadata : Json → Except HelmError JsonObject
  | .object secret =>
    match secret.lookup "metadata" with
    | some (.object metadata) => .ok metadata
    | _ => .error (.runtimeError "recoverable Helm metadata Secret is invalid")
  | _ => .error (.runtimeError "recoverable Helm metadata Secret is invalid")

/-- The identity of the secret and the version that was read, if it is the one of the revision. -/
def secretIdentity (revision : Int) (expectedStatus : String) (metadata : JsonObject) :
    Except HelmError (String × String) :=
  match metadata.lookup "labels", givenText (metadata.lookup "uid"),
    givenText (metadata.lookup "resourceVersion") with
  | some (.object labels), some uid, some resourceVersion =>
    if isText (metadata.lookup "name") (secretName u revision) &&
        isText (labels.lookup "owner") "helm" && isText (labels.lookup "name") u.release &&
        isText (labels.lookup "version") (revisionText revision) &&
        isText (labels.lookup "status") expectedStatus then
      .ok (uid, resourceVersion)
    else .error (.runtimeError "recoverable Helm metadata Secret identity changed")
  | _, _, _ => .error (.runtimeError "recoverable Helm metadata Secret identity changed")

def secretArgs (revision : Int) : List String :=
  kubectlArgs cfg ["-n", u.kubeNamespace, "get", "secret", secretName u revision, "-o", "json"]

def deleteArgs (revision : Int) : List String :=
  kubectlArgs cfg ["delete", "--raw",
    "/api/v1/namespaces/" ++ cfg.quote u.kubeNamespace ++ "/secrets/" ++
      cfg.quote (secretName u revision), "-f", "-"]

/-- The deletion goes through only for the object that was read, in the version that was read. -/
def deleteOptions (uid resourceVersion : String) : String :=
  Json.dumps cfg.digest.unicode (.object [
    ("apiVersion", .string "v1"),
    ("kind", .string "DeleteOptions"),
    ("preconditions", .object [
      ("uid", .string uid),
      ("resourceVersion", .string resourceVersion)])])

def deleteEvent (revision : Int) (expectedStatus uid resourceVersion : String) : Json :=
  .object [
    ("event", .string (if expectedStatus = "pending-upgrade"
      then "pd_worldctl.helm_pending_revision_delete"
      else "pd_worldctl.helm_failed_revision_delete")),
    ("namespace", .string u.kubeNamespace),
    ("release", .string u.release),
    ("resourceVersion", .string resourceVersion),
    ("revision", .integer revision),
    ("uid", .string uid)]

/-- `_delete_exact_helm_revision` -/
def deleteExactHelmRevision (revision : Int) (expectedStatus : String) : HelmProg Unit :=
  if expectedStatus ≠ "pending-upgrade" ∧ expectedStatus ≠ "failed" then
    .raise (.runtimeError "Helm recovery status is not deletable")
  else do
    let secret ← readJson (secretArgs cfg u revision)
    let metadata ← lift (secretMetadata secret)
    let identity ← lift (secretIdentity u revision expectedStatus metadata)
    print (deleteEvent u revision expectedStatus identity.1 identity.2)
    runMutation (deleteArgs cfg u revision) (some (deleteOptions cfg identity.1 identity.2))

def deleteExactPendingHelmRevision (revision : Int) : HelmProg Unit :=
  deleteExactHelmRevision cfg u revision "pending-upgrade"

def deleteExactFailedHelmRevision (revision : Int) : HelmProg Unit :=
  deleteExactHelmRevision cfg u revision "failed"

/-! ## The upgrade -/

/-- `try … except Exception as exc`: what was raised, if anything. -/
def attemptUpgrade : HelmProg (Option HelmError) :=
  ((runMutation u.command none).bind fun _ => .ret none).rescue fun
    | .interrupted => none
    | e => some (.ret (some e))

/-- Delete the new revision, if it is there. -/
def deleteNewRevision (revision : Int) : Outcome → HelmProg Unit
  | .pending => deleteExactPendingHelmRevision cfg u revision
  | .failed => deleteExactFailedHelmRevision cfg u revision
  | _ => .ret ()

/-- `_reconcile_helm_upgrade_response_loss` -/
def reconcileHelmUpgradeResponseLoss (snapshot : Snapshot) (expected : JsonObject)
    (originalError : HelmError) : HelmProg Unit := do
  let outcome ← inspectHelmUpgradeResult cfg u "after_initial_failure" snapshot expected
    (some originalError)
  if outcome = .deployed then .ret ()
  else do
    deleteNewRevision cfg u (snapshot.revision + 1) outcome
    let retryError ← attemptUpgrade u
    let retryOutcome ← inspectHelmUpgradeResult cfg u "after_bounded_retry" snapshot expected
      retryError
    if retryOutcome ≠ .deployed then
      .raise (.runtimeError "bounded Helm retry did not reach the exact deployed revision")
    else .ret ()

def overriddenValues (base : JsonObject) : Except HelmError JsonObject :=
  match applyHelmOverrides base u.overrides with
  | .ok expected => .ok expected
  | .error (.runtimeError message) => .error (.runtimeError message)
  | .error _ => .error (.exception "Exception" none)

/-- `_run_helm_upgrade` -/
def runHelmUpgrade : HelmProg Unit := do
  let snapshot ← helmDeployedSnapshot cfg u
  let expected ← lift (overriddenValues u snapshot.values)
  match ← attemptUpgrade u with
  | some e => reconcileHelmUpgradeResponseLoss cfg u snapshot expected e
  | none =>
    let outcome ← inspectHelmUpgradeResult cfg u "after_success" snapshot expected none
    if outcome ≠ .deployed then
      .raise (.runtimeError
        "successful Helm command did not produce the exact deployed revision")
    else .ret ()

end Upgrades

end PrismServe.Worldctl.Helm
