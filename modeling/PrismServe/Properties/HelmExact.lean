import PrismServe.Lib.Dialogue
import PrismServe.Lib.Lists
import PrismServe.Lib.Methods
import PrismServe.Worldctl.HelmUpgrade

/-!
# An upgrade is exact

Whatever its commands are answered, an upgrade runs its command at most twice and
deletes at most one secret; and if it returns, the last history that it has read
ends with the revision before the attempt and the one that was meant.

The exchanges of an upgrade are followed from its start.  Each part of it appends
to them what it has asked and heard (`Captured`, `Inspected`), and the protocol
says which command may be run after which exchanges: the upgrade as long as it was
run less than twice, and a deletion only after what warrants it.
-/

namespace PrismServe.Worldctl.Helm

open Lib Prog

abbrev HelmExchange := HelmCall × HelmReply

/-! ## Overrides -/

/-- The value at a path. -/
def valueAt (v : Json) : List String → Option Json
  | [] => some v
  | field :: rest =>
    match v with
    | .object fields =>
      match fields.lookup field with
      | some child => valueAt child rest
      | none => none
    | _ => none

/-- The result has the value at the path, and is unchanged at every other path. -/
def ReplacedAt (base : JsonObject) (path : List String) (value : Json) (result : JsonObject) :
    Prop :=
  (∀ rest, valueAt (.object result) (path ++ rest) = valueAt value rest) ∧
    ∀ other, ¬ path <+: other → ¬ other <+: path →
      valueAt (.object result) other = valueAt (.object base) other

/-- The overrides are made one after another, and nothing else changes. -/
inductive Overridden : JsonObject → List (List String × Json) → JsonObject → Prop
  | nil (base : JsonObject) : Overridden base [] base
  | cons {base next result : JsonObject} {path : List String} {value : Json}
      {rest : List (List String × Json)} (hfirst : ReplacedAt base path value next)
      (hrest : Overridden next rest result) : Overridden base ((path, value) :: rest) result

theorem lookup_eq_lookupEntries (key : String) (fields : JsonObject) :
    fields.lookup key = lookupEntries key fields := by
  induction fields with
  | nil =>
    rfl
  | cons e rest ih =>
    rw [Json.lookup_cons, lookupEntries, ih]
    simp only [eq_comm]

theorem lookup_assign (field key : String) (value : Json) (base : JsonObject) :
    (assign field value base).lookup key =
      if key = field then some value else base.lookup key := by
  rw [lookup_eq_lookupEntries, assign, lookupEntries_writeEntries, lookup_eq_lookupEntries]

/-- The value below the first field of a path. -/
theorem valueAt_cons (fields : JsonObject) (field : String) (rest : List String) :
    valueAt (.object fields) (field :: rest) =
      (fields.lookup field).bind fun child => valueAt child rest := by
  rw [valueAt]
  cases fields.lookup field <;> rfl

/-- A field is replaced by one in which a path was replaced. -/
theorem ReplacedAt.assign {base child child' : JsonObject} {field : String} {path : List String}
    {value : Json} (h : ReplacedAt child path value child')
    (hchild : ∀ rest, rest ≠ [] →
      ((base.lookup field).bind fun v => valueAt v rest) = valueAt (.object child) rest) :
    ReplacedAt base (field :: path) value (assign field (.object child') base) := by
  refine ⟨fun rest => ?_, fun other hother hother' => ?_⟩
  · rw [List.cons_append, valueAt_cons, lookup_assign, if_pos rfl]
    exact h.1 rest
  · cases other with
    | nil =>
      exact absurd List.nil_prefix hother'
    | cons key rest =>
      rw [valueAt_cons, valueAt_cons, lookup_assign]
      split_ifs with hkey
      · subst hkey
        rw [List.cons_prefix_cons, not_and] at hother hother'
        have hrest : rest ≠ [] := fun hnil => hother' rfl (hnil ▸ List.nil_prefix)
        rw [hchild rest hrest]
        exact h.2 rest (hother rfl) (hother' rfl)
      · rfl

theorem applyOverride_spec {base result : JsonObject} {path : List String} {value : Json}
    (h : applyOverride base path value = .ok result) : ReplacedAt base path value result := by
  induction path generalizing base result with
  | nil =>
    cases h
  | cons field path ih =>
    cases path with
    | nil =>
      cases h
      refine ⟨fun rest => ?_, fun other hother hother' => ?_⟩
      · rw [List.singleton_append, valueAt_cons, lookup_assign, if_pos rfl]
        rfl
      · cases other with
        | nil =>
          exact absurd List.nil_prefix hother'
        | cons key rest =>
          have hkey : key ≠ field := by
            rintro rfl
            exact hother (List.prefix_append [key] rest)
          rw [valueAt_cons, valueAt_cons, lookup_assign, if_neg hkey]
    | cons next path =>
      have hempty : ∀ rest, rest ≠ [] → valueAt (.object []) rest = none := by
        intro rest hrest
        cases rest with
        | nil =>
          exact absurd rfl hrest
        | cons key rest =>
          rfl
      have hmap : ∀ {x : Except CtlError JsonObject} {f : JsonObject → JsonObject},
          x.map f = .ok result → ∃ child, x = .ok child ∧ f child = result := by
        intro x f hx
        cases x with
        | error e =>
          cases hx
        | ok child =>
          cases hx
          exact ⟨child, rfl, rfl⟩
      rw [applyOverride] at h
      · split at h
        · rename_i hnone
          obtain ⟨child, hchild, rfl⟩ := hmap h
          refine (ih hchild).assign fun rest hrest => ?_
          rw [hnone, hempty rest hrest]
          rfl
        · rename_i hnull
          obtain ⟨child, hchild, rfl⟩ := hmap h
          refine (ih hchild).assign fun rest hrest => ?_
          rw [hnull, hempty rest hrest]
          cases rest with
          | nil =>
            exact absurd rfl hrest
          | cons key rest =>
            rfl
        · rename_i fields hfields
          obtain ⟨child, hchild, rfl⟩ := hmap h
          refine (ih hchild).assign fun rest hrest => ?_
          rw [hfields]
          rfl
        · cases h
      · simp

/-- `_apply_helm_overrides` makes the overrides, and changes nothing else. -/
theorem applyHelmOverrides_spec {base result : JsonObject} {overrides : List (List String × Json)}
    (h : applyHelmOverrides base overrides = .ok result) : Overridden base overrides result := by
  unfold applyHelmOverrides at h
  induction overrides generalizing base with
  | nil =>
    cases h
    exact .nil _
  | cons o rest ih =>
    rw [List.foldlM_cons] at h
    obtain ⟨next, hnext, hrest⟩ := bind_eq_ok.mp h
    exact .cons (applyOverride_spec hnext) (ih hrest)

/-! ## What the exchanges say -/

section Statements

variable (cfg : HelmSettings) (u : Upgrade)

/-- The first exchanges: the history ends with the deployed revision of the snapshot. -/
def Captured (snapshot : Snapshot) (h : List HelmExchange) : Prop :=
  ∃ raw earlier,
    h = [(.json (historyArgs cfg u), .json raw),
      (.json (valuesArgs cfg u snapshot.revision), .json (.object snapshot.values))] ∧
    parseHistory cfg raw = .ok (earlier ++ [⟨snapshot.revision, "deployed"⟩])

/-- An inspection that found the revision before the attempt, with its values unchanged, and the
next one, with the expected values. -/
def Inspected (snapshot : Snapshot) (expected : JsonObject)
    (predecessorStatus latestStatus : String)
    (seg : List HelmExchange) : Prop :=
  ∃ raw earlier predecessorObserved observed event,
    seg = [(.json (historyArgs cfg u), .json raw),
      (.json (valuesArgs cfg u snapshot.revision), .json (.object predecessorObserved)),
      (.json (valuesArgs cfg u (snapshot.revision + 1)), .json (.object observed)),
      (.print event, .done)] ∧
    parseHistory cfg raw = .ok (earlier ++
      [⟨snapshot.revision, predecessorStatus⟩, ⟨snapshot.revision + 1, latestStatus⟩]) ∧
    valuesEqual cfg.digest (.object predecessorObserved) (.object snapshot.values) = true ∧
    valuesEqual cfg.digest (.object observed) (.object expected) = true

/-- The expected values are those of the snapshot with the overrides made. -/
def Expects (snapshot : Snapshot) (expected : JsonObject) : Prop :=
  applyHelmOverrides snapshot.values u.overrides = .ok expected ∧
    Overridden snapshot.values u.overrides expected

/-- What warrants a deletion: the next revision was seen pending or failed, and the secret of that
revision was read; the deletion is for the object and the version that were read. -/
def Warranted (h : List HelmExchange) (command : List String) (input : String) : Prop :=
  ∃ snapshot expected first failure seg status secret metadata uid resourceVersion event,
    Captured cfg u snapshot first ∧ Expects u snapshot expected ∧
    failure ≠ .done ∧
    h = first ++ (.mutate u.command none, failure) :: (seg ++
      [(.json (secretArgs cfg u (snapshot.revision + 1)), .json secret), (.print event, .done)]) ∧
    Inspected cfg u snapshot expected "deployed" status seg ∧
    (status = "pending-upgrade" ∨ status = "failed") ∧
    secretMetadata secret = .ok metadata ∧
    secretIdentity u (snapshot.revision + 1) status metadata = .ok (uid, resourceVersion) ∧
    command = deleteArgs cfg u (snapshot.revision + 1) ∧
    input = deleteOptions cfg uid resourceVersion

/-- The last history that was read ends with the revision before the attempt, superseded and with
its values unchanged, and the next one, deployed and with the expected values. -/
def Exact (h : List HelmExchange) : Prop :=
  ∃ snapshot expected first between seg,
    Captured cfg u snapshot first ∧ Expects u snapshot expected ∧ h = first ++ between ++ seg ∧
    Inspected cfg u snapshot expected "superseded" "deployed" seg

/-- A mutation without an input is an upgrade, one with an input a deletion. -/
def isUpgrade : HelmCall → Bool
  | .mutate _ none => true
  | _ => false

def isDeletion : HelmCall → Bool
  | .mutate _ (some _) => true
  | _ => false

def upgrades (h : List HelmExchange) : Nat := h.countP fun x => isUpgrade x.1

/-- When a command may be run. -/
def mayRun (h : List HelmExchange) : HelmCall → Prop
  | .mutate command none => command = u.command ∧ upgrades h < 2
  | .mutate command (some input) => Warranted cfg u h command input
  | _ => True

def helmProtocol : Protocol HelmCall HelmReply where
  allows := mayRun cfg u
  rests _ := True

end Statements

/-! ## The parts of an upgrade -/

section Parts

variable {cfg : HelmSettings} {u : Upgrade} {α : Type} {h : List HelmExchange} {s : Unit}

/-- The program keeps to the protocol, and `Q` holds of the exchanges and of what it returns. -/
abbrev Does (cfg : HelmSettings) (u : Upgrade) (p : HelmProg α) (s : Unit) (h : List HelmExchange)
    (Q : List HelmExchange → α → Unit → Prop) : Prop :=
  Yields (helmProtocol cfg u) (fun _ _ _ => True) p s h Q

theorem does_lift {x : Except HelmError α} :
    Does cfg u (HelmProg.lift x) s h fun h' a _ => h' = h ∧ x = .ok a := by
  cases x with
  | ok a =>
    exact yields_ret ⟨rfl, rfl⟩
  | error e =>
    exact yields_raise e

theorem does_readJson (command : List String) :
    Does cfg u (HelmProg.readJson command) s h fun h' value _ =>
      h' = h ++ [(.json command, .json value)] := by
  refine ⟨trivial, fun reply s' _ => ?_⟩
  cases reply with
  | json value =>
    exact yields_ret rfl
  | _ =>
    exact yields_raise _

theorem does_print (event : Json) :
    Does cfg u (HelmProg.print event) s h fun h' _ _ => h' = h ++ [(.print event, .done)] := by
  refine ⟨trivial, fun reply s' _ => ?_⟩
  cases reply with
  | done =>
    exact yields_ret rfl
  | _ =>
    exact yields_raise _

theorem does_helmHistory :
    Does cfg u (helmHistory cfg u) s h fun h' history _ =>
      ∃ raw, h' = h ++ [(.json (historyArgs cfg u), .json raw)] ∧
        parseHistory cfg raw = .ok history := by
  refine Yields.bind (does_readJson _) ?_
  rintro h' raw t rfl
  refine does_lift.mono ?_
  rintro h' history t ⟨rfl, hparse⟩
  exact ⟨raw, rfl, hparse⟩

theorem does_helmReleaseValues (revision : Int) :
    Does cfg u (helmReleaseValues cfg u revision) s h fun h' values _ =>
      h' = h ++ [(.json (valuesArgs cfg u revision), .json (.object values))] := by
  refine Yields.bind (does_readJson _) ?_
  rintro h' value t rfl
  cases value with
  | object fields =>
    exact yields_ret rfl
  | _ =>
    exact yields_raise _

theorem does_emit (d : Diagnostic) :
    Does cfg u (emitHelmReconcileDiagnostic cfg u d) s h fun h' _ _ =>
      ∃ event, h' = h ++ [(.print event, .done)] := by
  refine Yields.bind does_lift ?_
  rintro h' latest t ⟨rfl, -⟩
  exact (does_print _).mono fun h' _ t heq => ⟨_, heq⟩

theorem latestOf_eq_ok {history : List Revision} {latest : Revision}
    (hlatest : latestOf history = .ok latest) : ∃ earlier, history = earlier ++ [latest] := by
  unfold latestOf at hlatest
  split at hlatest
  · rename_i last hlast
    cases hlatest
    exact List.getLast?_eq_some_iff.mp hlast
  · cases hlatest

theorem does_helmDeployedSnapshot :
    Does cfg u (helmDeployedSnapshot cfg u) s [] fun h' snapshot _ =>
      Captured cfg u snapshot h' := by
  refine Yields.bind does_helmHistory ?_
  rintro h' history t ⟨raw, rfl, hparse⟩
  refine Yields.bind does_lift ?_
  rintro h' latest t ⟨rfl, hlatest⟩
  obtain ⟨earlier, rfl⟩ := latestOf_eq_ok hlatest
  split_ifs with hstatus
  · exact yields_raise _
  · refine Yields.bind (does_helmReleaseValues _) ?_
    rintro h' values t rfl
    refine yields_ret ⟨raw, earlier, rfl, ?_⟩
    rw [hparse, ← not_not.mp hstatus]

/-- No upgrade is run. -/
def Silent (seg : List HelmExchange) : Prop := ∀ x ∈ seg, isUpgrade x.1 = false

theorem upgrades_append (h seg : List HelmExchange) :
    upgrades (h ++ seg) = upgrades h + upgrades seg := List.countP_append

theorem Silent.upgrades {seg : List HelmExchange} (hseg : Silent seg) : upgrades seg = 0 :=
  List.countP_eq_zero.mpr fun x hx => by simp [hseg x hx]

variable {snapshot : Snapshot} {expected : JsonObject} {first seg : List HelmExchange}
  {failure : HelmReply} {outcome : Outcome} {status predecessorStatus latestStatus : String}

theorem Captured.silent (hc : Captured cfg u snapshot h) : Silent h := by
  obtain ⟨raw, earlier, rfl, -⟩ := hc
  simp [Silent, isUpgrade]

theorem Inspected.silent
    (hi : Inspected cfg u snapshot expected predecessorStatus latestStatus h) : Silent h := by
  obtain ⟨raw, earlier, predecessorObserved, observed, event, rfl, -⟩ := hi
  simp [Silent, isUpgrade]

/-- What an inspection has seen. -/
def Shows (cfg : HelmSettings) (u : Upgrade) (snapshot : Snapshot) (expected : JsonObject)
    (seg : List HelmExchange) : Outcome → Prop
  | .unchanged => Silent seg
  | .deployed => Inspected cfg u snapshot expected "superseded" "deployed" seg
  | .pending => Inspected cfg u snapshot expected "deployed" "pending-upgrade" seg
  | .failed => Inspected cfg u snapshot expected "deployed" "failed" seg

theorem Shows.silent (hs : Shows cfg u snapshot expected h outcome) : Silent h := by
  cases outcome with
  | unchanged =>
    exact hs
  | _ =>
    exact Inspected.silent hs

/-- A valid new revision: its status and that of its predecessor go together. -/
theorem judge_valid {exact : Bool}
    (hvalid : (judge latestStatus predecessorStatus exact).1 = true) :
    exact = true ∧
      (latestStatus = "deployed" ∧ predecessorStatus = "superseded" ∨
        predecessorStatus = "deployed" ∧
          (latestStatus = "pending-upgrade" ∨ latestStatus = "failed")) := by
  unfold judge at hvalid
  by_cases hdeployed : latestStatus = "deployed"
  · rw [if_pos hdeployed, Bool.and_eq_true, decide_eq_true_iff] at hvalid
    exact ⟨hvalid.2, .inl ⟨hdeployed, hvalid.1⟩⟩
  rw [if_neg hdeployed] at hvalid
  by_cases hother : latestStatus = "pending-upgrade" ∨ latestStatus = "failed"
  · rw [if_pos hother, Bool.and_eq_true, decide_eq_true_iff] at hvalid
    exact ⟨hvalid.2, .inr ⟨hvalid.1, hother⟩⟩
  · rw [if_neg hother] at hvalid
    cases hvalid

theorem exactPredecessor_eq_some {earlier : List Revision} {latest predecessor : Revision}
    (hexact : exactPredecessor snapshot (earlier ++ [latest]) latest = some predecessor) :
    latest.revision = snapshot.revision + 1 ∧ predecessor.revision = snapshot.revision ∧
      ∃ before, earlier = before ++ [predecessor] := by
  unfold exactPredecessor at hexact
  rw [List.dropLast_concat] at hexact
  split at hexact
  · rename_i last hlast
    split_ifs at hexact with hrevisions
    cases hexact
    exact ⟨hrevisions.1, hrevisions.2, List.getLast?_eq_some_iff.mp hlast⟩
  · cases hexact

section Inspection

variable {phase : String} {snapshot : Snapshot} {expected : JsonObject} {error : Option HelmError}

theorem does_inspectSameRevision (history : List Revision) (latest : Revision) :
    Does cfg u (inspectSameRevision cfg u phase snapshot expected error history latest) s h
      fun h' outcome _ => outcome = .unchanged ∧ ∃ seg, h' = h ++ seg ∧ Silent seg := by
  refine Yields.bind (does_helmReleaseValues _) ?_
  rintro h' observed t rfl
  refine Yields.bind (does_emit _) ?_
  rintro h' - t ⟨event, rfl⟩
  split_ifs
  · refine yields_ret ⟨rfl, [_, _], List.append_assoc .., ?_⟩
    simp [Silent, isUpgrade]
  · exact yields_raise _

theorem does_inspectNextRevision {raw : Json} {before : List Revision}
    {predecessor latest : Revision} (hlatest : latest.revision = snapshot.revision + 1)
    (hpredecessor : predecessor.revision = snapshot.revision)
    (hparse : parseHistory cfg raw = .ok (before ++ [predecessor, latest]))
    (history : List Revision) :
    Does cfg u (inspectNextRevision cfg u phase snapshot expected error history predecessor latest)
      s (h ++ [(.json (historyArgs cfg u), .json raw)]) fun h' outcome _ =>
        ∃ seg, h' = h ++ seg ∧ Shows cfg u snapshot expected seg outcome := by
  refine Yields.bind (does_helmReleaseValues _) ?_
  rintro h' predecessorObserved t rfl
  refine Yields.bind (does_helmReleaseValues _) ?_
  rintro h' observed t rfl
  refine Yields.bind (does_emit _) ?_
  rintro h' - t ⟨event, rfl⟩
  have hseg : ∀ status predecessorStatus, latest.status = status →
      predecessor.status = predecessorStatus →
      valuesExact cfg snapshot expected predecessorObserved observed = true →
      Inspected cfg u snapshot expected predecessorStatus status
        [(.json (historyArgs cfg u), .json raw),
          (.json (valuesArgs cfg u snapshot.revision), .json (.object predecessorObserved)),
          (.json (valuesArgs cfg u latest.revision), .json (.object observed)),
          (.print event, .done)] := by
    rintro status predecessorStatus rfl rfl hexact
    rw [valuesExact, Bool.and_eq_true] at hexact
    refine ⟨raw, before, predecessorObserved, observed, event, by rw [hlatest], ?_, hexact⟩
    rw [hparse, ← hlatest, ← hpredecessor]
  split_ifs with hinvalid hdeployed hpending
  · exact yields_raise _
  all_goals
    obtain ⟨hexact, hcases⟩ := judge_valid (by simpa using hinvalid)
  · have hsuperseded : predecessor.status = "superseded" := by
      simpa [hdeployed] using hcases
    exact yields_ret ⟨_, by simp, hseg _ _ hdeployed hsuperseded hexact⟩
  · have hbefore : predecessor.status = "deployed" := by
      simpa [hpending] using hcases
    exact yields_ret ⟨_, by simp, hseg _ _ hpending hbefore hexact⟩
  · have hstatus : predecessor.status = "deployed" ∧ latest.status = "failed" := by
      simpa [hdeployed, hpending] using hcases
    exact yields_ret ⟨_, by simp, hseg _ _ hstatus.2 hstatus.1 hexact⟩

/-- An inspection returns what it has seen. -/
theorem does_inspect :
    Does cfg u (inspectHelmUpgradeResult cfg u phase snapshot expected error) s h
      fun h' outcome _ => ∃ seg, h' = h ++ seg ∧ Shows cfg u snapshot expected seg outcome := by
  refine Yields.bind does_helmHistory ?_
  rintro h' history t ⟨raw, rfl, hparse⟩
  refine Yields.bind does_lift ?_
  rintro h' latest t ⟨rfl, hlatest⟩
  obtain ⟨earlier, rfl⟩ := latestOf_eq_ok hlatest
  split_ifs
  · refine (does_inspectSameRevision _ _).mono ?_
    rintro h' outcome t ⟨rfl, seg, rfl, hseg⟩
    refine ⟨_ :: seg, List.append_assoc .., ?_⟩
    exact List.forall_mem_cons.mpr ⟨rfl, hseg⟩
  · split
    · rename_i predecessor hexact
      obtain ⟨hnext, hsame, before, rfl⟩ := exactPredecessor_eq_some hexact
      exact does_inspectNextRevision hnext hsame (by simpa using hparse) _
    · refine Yields.bind (does_emit _) ?_
      rintro h' - t -
      exact yields_raise _

end Inspection

/-- A failed upgrade was inspected, and has left a revision that may be deleted. -/
def Recoverable (cfg : HelmSettings) (u : Upgrade) (snapshot : Snapshot) (status : String)
    (h : List HelmExchange) : Prop :=
  ∃ expected first failure seg, Captured cfg u snapshot first ∧ Expects u snapshot expected ∧
    failure ≠ .done ∧ h = first ++ (.mutate u.command none, failure) :: seg ∧
    Inspected cfg u snapshot expected "deployed" status seg ∧
    (status = "pending-upgrade" ∨ status = "failed")

theorem does_deleteExact (hr : Recoverable cfg u snapshot status h) :
    Does cfg u (deleteExactHelmRevision cfg u (snapshot.revision + 1) status) s h
      fun h' _ _ => ∃ seg, h' = h ++ seg ∧ Silent seg := by
  obtain ⟨expected, first, failure, seg, hcaptured, hexpects, hfailure, rfl, hinspected, hstatus⟩ :=
    hr
  unfold deleteExactHelmRevision
  split_ifs with hnot
  · exact yields_raise _
  · refine Yields.bind (does_readJson _) ?_
    rintro h' secret t rfl
    refine Yields.bind does_lift ?_
    rintro h' metadata t ⟨rfl, hmetadata⟩
    refine Yields.bind does_lift ?_
    rintro h' ⟨uid, resourceVersion⟩ t ⟨rfl, hidentity⟩
    refine Yields.bind (does_print _) ?_
    rintro h' - t rfl
    refine ⟨⟨snapshot, expected, first, failure, seg, status, secret, metadata, uid,
      resourceVersion, deleteEvent u (snapshot.revision + 1) status uid resourceVersion,
      hcaptured, hexpects, hfailure, by simp, hinspected, hstatus, hmetadata,
      hidentity, rfl, rfl⟩, fun reply t' _ => ?_⟩
    cases reply with
    | done =>
      refine yields_ret ⟨[(.json (secretArgs cfg u (snapshot.revision + 1)), .json secret),
        (.print (deleteEvent u (snapshot.revision + 1) status uid resourceVersion), .done),
        (.mutate (deleteArgs cfg u (snapshot.revision + 1))
          (some (deleteOptions cfg uid resourceVersion)), .done)], by simp, ?_⟩
      simp [Silent, isUpgrade]
    | _ =>
      exact yields_raise _

theorem does_attemptUpgrade (hcount : upgrades h < 2) :
    Does cfg u (attemptUpgrade u) s h fun h' e _ =>
      ∃ reply, h' = h ++ [(.mutate u.command none, reply)] ∧ (e ≠ none → reply ≠ .done) := by
  refine ⟨⟨rfl, hcount⟩, fun reply t _ => ?_⟩
  cases reply with
  | done =>
    exact yields_ret ⟨_, rfl, fun hne => absurd rfl hne⟩
  | json value =>
    exact yields_ret ⟨_, rfl, fun _ => by simp⟩
  | raised e =>
    cases e with
    | interrupted =>
      exact yields_raise _
    | _ =>
      exact yields_ret ⟨_, rfl, fun _ => by simp⟩

/-- After an inspection, the new revision is deleted if it is pending or failed. -/
theorem does_deleteNewRevision (hcaptured : Captured cfg u snapshot first)
    (hexpects : Expects u snapshot expected) (hfailure : failure ≠ .done)
    (hseg : Shows cfg u snapshot expected seg outcome) :
    Does cfg u (deleteNewRevision cfg u (snapshot.revision + 1) outcome) s
      (first ++ (.mutate u.command none, failure) :: seg)
      fun h' _ _ => ∃ seg', h' = first ++ (.mutate u.command none, failure) :: seg ++ seg' ∧
        Silent seg' := by
  cases outcome with
  | pending =>
    exact does_deleteExact
      ⟨expected, first, failure, seg, hcaptured, hexpects, hfailure, rfl, hseg, .inl rfl⟩
  | failed =>
    exact does_deleteExact
      ⟨expected, first, failure, seg, hcaptured, hexpects, hfailure, rfl, hseg, .inr rfl⟩
  | _ =>
    exact yields_ret ⟨[], by simp, by simp [Silent]⟩

/-- A retry, if there is one, is the second upgrade. -/
theorem does_reconcile (hcaptured : Captured cfg u snapshot first)
    (hexpects : Expects u snapshot expected) (hfailure : failure ≠ .done) (error : HelmError) :
    Does cfg u (reconcileHelmUpgradeResponseLoss cfg u snapshot expected error) s
      (first ++ [(.mutate u.command none, failure)]) fun h' _ _ => Exact cfg u h' := by
  refine Yields.bind does_inspect ?_
  rintro h' outcome t ⟨seg, rfl, hseg⟩
  rw [List.append_assoc, List.singleton_append]
  split_ifs with hdeployed
  · subst hdeployed
    exact yields_ret ⟨snapshot, expected, first, [(.mutate u.command none, failure)], seg,
      hcaptured, hexpects, by simp, hseg⟩
  · refine Yields.bind (does_deleteNewRevision hcaptured hexpects hfailure hseg) ?_
    rintro h' - t ⟨seg', rfl, hseg'⟩
    have hcount : upgrades (first ++ (.mutate u.command none, failure) :: seg ++ seg') < 2 := by
      have hone : upgrades [((.mutate u.command none, failure) : HelmExchange)] = 1 := rfl
      rw [upgrades_append, hseg'.upgrades, ← List.singleton_append, upgrades_append,
        upgrades_append, hcaptured.silent.upgrades, hseg.silent.upgrades, hone]
      decide
    refine Yields.bind (does_attemptUpgrade hcount) ?_
    rintro h' retryError t ⟨reply, rfl, -⟩
    refine Yields.bind does_inspect ?_
    rintro h' retryOutcome t ⟨last, rfl, hlast⟩
    split_ifs with hretry
    · exact yields_raise _
    · rw [not_not] at hretry
      subst hretry
      exact yields_ret ⟨snapshot, expected, first,
        (.mutate u.command none, failure) :: (seg ++ seg') ++ [(.mutate u.command none, reply)],
        last, hcaptured, hexpects, by simp, hlast⟩

theorem overriddenValues_eq_ok (hok : overriddenValues u snapshot.values = .ok expected) :
    Expects u snapshot expected := by
  unfold overriddenValues at hok
  split at hok
  · rename_i hvalues
    cases hok
    exact ⟨hvalues, applyHelmOverrides_spec hvalues⟩
  · cases hok
  · cases hok

theorem does_runHelmUpgrade :
    Does cfg u (runHelmUpgrade cfg u) () [] fun h' _ _ => Exact cfg u h' := by
  refine Yields.bind does_helmDeployedSnapshot ?_
  rintro first snapshot t hcaptured
  refine Yields.bind does_lift ?_
  rintro h' expected t ⟨rfl, hexpected⟩
  have hexpects := overriddenValues_eq_ok hexpected
  have hcount : upgrades h' < 2 := by
    rw [hcaptured.silent.upgrades]
    decide
  refine Yields.bind (does_attemptUpgrade hcount) ?_
  rintro h'' e t ⟨reply, rfl, hreply⟩
  cases e with
  | some e =>
    exact does_reconcile hcaptured hexpects (hreply (by simp)) e
  | none =>
    refine Yields.bind does_inspect ?_
    rintro h'' outcome t ⟨seg, rfl, hseg⟩
    split_ifs with hdeployed
    · exact yields_raise _
    · rw [not_not] at hdeployed
      subst hdeployed
      exact yields_ret ⟨snapshot, expected, h', [_], seg, hcaptured, hexpects, rfl, hseg⟩

end Parts

/-! ## Every run of an upgrade -/

section Runs

variable {cfg : HelmSettings} {u : Upgrade} {h : List HelmExchange} {c : HelmCall}

theorem Warranted.deletions {command : List String} {input : String}
    (hw : Warranted cfg u h command input) : (h.countP fun x => isDeletion x.1) = 0 := by
  obtain ⟨snapshot, expected, first, failure, seg, status, secret, metadata, uid, resourceVersion,
    event, ⟨raw, earlier, rfl, -⟩, -, -, rfl, ⟨raw', earlier', predecessorObserved, observed,
    event', rfl, -⟩, -⟩ := hw
  rfl

/-- The commands that were run, with one that is still running. -/
def commandsRun (run : List HelmExchange × Standing HelmCall HelmError Unit) : List HelmCall :=
  run.1.map Prod.fst ++
    (match run.2 with
      | .waiting c => [c]
      | _ => [])

theorem countP_commandsRun {run : List HelmExchange × Standing HelmCall HelmError Unit}
    {p : HelmCall → Bool} {n : Nat}
    (hcalls : ∀ before c x after, run.1 = before ++ (c, x) :: after → p c = true →
      (before.countP fun x => p x.1) < n)
    (hwaiting : ∀ c, run.2 = .waiting c → p c = true → (run.1.countP fun x => p x.1) < n) :
    (commandsRun run).countP p ≤ n := by
  have hanswered : (run.1.countP fun x => p x.1) ≤ n :=
    countP_le_of_forall_before fun before x after heq hx => hcalls before x.1 x.2 after heq hx
  rw [commandsRun, List.countP_append, List.countP_map]
  change (run.1.countP fun x => p x.1) + _ ≤ n
  cases hstanding : run.2 with
  | waiting c =>
    rw [List.countP_singleton]
    split_ifs with hc
    · exact hwaiting c hstanding hc
    · exact hanswered
  | _ =>
    exact hanswered

theorem upgrades_lt_of_mayRun (hmay : mayRun cfg u h c) (hc : isUpgrade c = true) :
    upgrades h < 2 := by
  cases c with
  | mutate command input =>
    cases input with
    | none =>
      exact hmay.2
    | some input =>
      cases hc
  | _ =>
    cases hc

theorem deletions_lt_of_mayRun (hmay : mayRun cfg u h c) (hc : isDeletion c = true) :
    (h.countP fun x => isDeletion x.1) < 1 := by
  cases c with
  | mutate command input =>
    cases input with
    | none =>
      cases hc
    | some input =>
      exact Nat.lt_one_iff.mpr (Warranted.deletions hmay)
  | _ =>
    cases hc

/-- What holds of a run of an upgrade. -/
structure ExactRun (cfg : HelmSettings) (u : Upgrade)
    (run : List HelmExchange × Standing HelmCall HelmError Unit) : Prop where
  exact_of_returned : run.2 = .returned () → Exact cfg u run.1
  upgrades_le_two : (commandsRun run).countP isUpgrade ≤ 2
  upgrade_is_command : ∀ command, .mutate command none ∈ commandsRun run → command = u.command
  deletions_le_one : (commandsRun run).countP isDeletion ≤ 1
  warranted : ∀ before command input reply after,
    run.1 = before ++ (.mutate command (some input), reply) :: after →
      Warranted cfg u before command input
  warranted_waiting : ∀ command input, run.2 = .waiting (.mutate command (some input)) →
    Warranted cfg u run.1 command input

/-- For all answers to its commands: if an upgrade returns, it was exact; its command is run at
most twice; and at most one deletion is run, which is warranted by what was read before. -/
theorem helm_upgrade_exact (cfg : HelmSettings) (u : Upgrade)
    (answers : List (HelmCall → HelmReply × (Unit → Unit))) :
    ExactRun cfg u ((runHelmUpgrade cfg u).converse () answers) := by
  have habides : Does cfg u (runHelmUpgrade cfg u) () [] fun h' _ _ => Exact cfg u h' :=
    does_runHelmUpgrade
  have hanswers : ∀ f ∈ answers, ∀ (c : HelmCall) (t : Unit), True := fun _ _ _ _ => trivial
  obtain ⟨hcalls, hstanding⟩ := Abides.converse habides hanswers
  generalize (runHelmUpgrade cfg u).converse () answers = run at hcalls hstanding
  simp only [List.nil_append] at hcalls hstanding
  have hmay : ∀ before c x after,
      run.1 = before ++ (c, x) :: after → mayRun cfg u before c := hcalls
  have hwaiting : ∀ c, run.2 = .waiting c → mayRun cfg u run.1 c := by
    intro c hc
    rw [hc] at hstanding
    exact hstanding
  refine ⟨fun hreturned => ?_, ?_, fun command hmem => ?_, ?_, ?_, ?_⟩
  · rw [hreturned] at hstanding
    obtain ⟨t, hexact⟩ := hstanding
    exact hexact () rfl
  · exact countP_commandsRun
      (fun before c x after heq hc => upgrades_lt_of_mayRun (hmay before c x after heq) hc)
      fun c heq hc => upgrades_lt_of_mayRun (hwaiting c heq) hc
  · rcases List.mem_append.mp hmem with hmem | hmem
    · obtain ⟨⟨c, x⟩, hx, rfl⟩ := List.mem_map.mp hmem
      obtain ⟨before, after, heq⟩ := List.append_of_mem hx
      exact (hmay before _ x after heq).1
    · split at hmem
      · rename_i c hc
        rw [List.mem_singleton] at hmem
        subst hmem
        exact (hwaiting _ hc).1
      · cases hmem
  · exact countP_commandsRun
      (fun before c x after heq hc => deletions_lt_of_mayRun (hmay before c x after heq) hc)
      fun c heq hc => deletions_lt_of_mayRun (hwaiting c heq) hc
  · exact fun before command input reply after heq => hmay before _ reply after heq
  · exact fun command input heq => hwaiting _ heq

end Runs

/-! ## A response that is lost -/

def plainHelm : HelmSettings where
  context := ""
  digest := ⟨id, fun _ => []⟩
  parseInt := fun _ => none
  lower := id
  quote := id

def renameGeneration : Upgrade where
  release := "prism"
  kubeNamespace := "serving"
  command := ["helm", "upgrade"]
  overrides := [(["topology", "generation"], .string "g2")]

def valuesOf (generation : String) : Json :=
  .object [("topology", .object [("generation", .string generation)])]

/-- A history whose last two revisions have the given states. -/
def historyOf (states : List String) : Json :=
  .array (states.zipIdx.map fun (status, n) =>
    .object [("revision", .integer (n + 1)), ("status", .string status)])

/-- The secret of the second revision. -/
def pendingSecret : Json :=
  .object [("metadata", .object [("name", .string "sh.helm.release.v1.prism.v2"),
    ("uid", .string "u"), ("resourceVersion", .string "7"), ("labels", .object [
      ("owner", .string "helm"), ("name", .string "prism"), ("version", .string "2"),
      ("status", .string "pending-upgrade")])])]

/-- The command fails but leaves a pending revision; it is deleted, and the command is run again. -/
def lostUpgrade : List HelmReply :=
  [.json (historyOf ["deployed"]), .json (valuesOf "g1"),
    .raised (.exception "CalledProcessError" (some 1)),
    .json (historyOf ["deployed", "pending-upgrade"]), .json (valuesOf "g1"),
    .json (valuesOf "g2"), .done, .json pendingSecret, .done, .done,
    .done, .json (historyOf ["superseded", "deployed"]), .json (valuesOf "g1"),
    .json (valuesOf "g2"), .done]

example :
    let run := (runHelmUpgrade plainHelm renameGeneration).converse ()
      (lostUpgrade.map fun reply _ => (reply, id))
    run.2 = .returned () ∧
      (commandsRun run).countP isUpgrade = 2 ∧ (commandsRun run).countP isDeletion = 1 :=
  ⟨rfl, by decide +kernel⟩

end PrismServe.Worldctl.Helm
