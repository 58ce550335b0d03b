import PrismServe.Properties.Admission

/-!
# The world that a staged request describes

A request is staged when its proofs are about the members of the old world, its four
identities are those of the expected members under new pods, and its reports exclude
all old ids.  That a pod is new is checked member by member only: two members may
still exchange their pods.

The evidence that is recorded later is made of the digests of the proofs and of
reports that are pulled from the new workers.  Its own validator wants four different
reports.  Reports differ in their epochs, and an epoch joins the pod and the process
by a colon: different pods may share an epoch.
-/

namespace PrismServe

open Lib

variable {D : Digests} {now : Nat} {old candidate : WorkerRegistry} {body : AcceptBody}

/-- The identities of a request. -/
def AcceptBody.workers (body : AcceptBody) : List WorkerIdentity := body.identities.map (·.identity)

/-! ## What a staged request has passed -/

/-- What is established when a candidate is built. -/
structure Built (D : Digests) (now : Nat) (old : WorkerRegistry) (body : AcceptBody)
    (candidate : WorkerRegistry) : Prop where
  renamed : body.newTopologyGeneration ≠ body.oldTopologyGeneration
  proofs : body.terminationRecords.length = 4
  proven : ∀ name, name ∈ body.terminationRecords.map (·.logicalInstanceId) ↔ name ∈ memberNames
  proofPods : (body.terminationRecords.map (·.podUid)).Nodup
  names : (body.workers.map (·.instanceId)).Perm memberNames
  fresh : ∀ i ∈ body.workers, requireFreshPod old i = .ok ()
  reported : ∀ name, name ∈ body.resourceReports.map (·.1) ↔ name ∈ memberNames
  installed : ∃ base,
    (emptyCandidate old body.newTopologyGeneration).installWorld body.workers
      body.pairCapabilities = (true, base) ∧
    takeReports now (body.oldOperationIds.getD []) (body.oldResourceIds.getD []) base
      body.resourceReports = .ok candidate

theorem mapM_parseWorkerIdentity :
    ∀ {l : List WireIdentity} {identities : List WorkerIdentity},
      l.mapM parseWorkerIdentity = .ok identities → identities = l.map (·.identity)
  | [], identities, h => by
      cases h
      rfl
  | value :: rest, identities, h => by
      rw [List.mapM_cons] at h
      obtain ⟨i, hi, h⟩ := bind_eq_ok.mp h
      obtain ⟨others, hothers, h⟩ := bind_eq_ok.mp h
      cases h
      obtain ⟨_, _, hi⟩ := bind_eq_ok.mp hi
      cases hi
      rw [mapM_parseWorkerIdentity hothers]
      rfl

/-- Four names that are the expected ones are distinct. -/
theorem perm_memberNames {l : List String} (hlength : l.length = 4)
    (h : sameNames l memberNames = true) : l.Perm memberNames := by
  have hsub : memberNames.Subperm l :=
    List.subperm_of_subset (by decide) fun name hname => (mem_of_sameNames h name).mpr hname
  refine (hsub.perm_of_length_le ?_).symm
  rw [hlength]
  decide

theorem validatePhysical_ok (h : validatePhysicalTerminationRecords D body = .ok ()) :
    body.terminationRecords.length = 4 ∧
      sameNames (body.terminationRecords.map (·.logicalInstanceId)) memberNames = true ∧
      (body.terminationRecords.map (·.podUid)).Nodup := by
  obtain ⟨_, _, h⟩ := bind_eq_ok.mp h
  obtain ⟨_, _, h⟩ := bind_eq_ok.mp (mapError_eq_ok.mp h)
  obtain ⟨hnames, h⟩ := ensure_bind_eq_ok.mp h
  obtain ⟨hpods, _⟩ := ensure_bind_eq_ok.mp h
  obtain ⟨hlength, hnames⟩ := of_decide_eq_true hnames
  refine ⟨hlength, hnames, nodup_of_dedup_length ?_⟩
  rw [(of_decide_eq_true hpods).1, List.length_map, hlength]

theorem buildCandidate_ok (h : buildCandidate D now old body = .ok candidate) :
    Built D now old body candidate := by
  unfold buildCandidate at h
  simp only [bind_eq_ok] at h
  obtain ⟨_, -, _, hrenamed, _, hphysical, _, -, _, hlength, identities, hidentities, h⟩ := h
  obtain ⟨_, hnames, _, -, _, hfresh, _, -, _, hreported, h⟩ := h
  obtain rfl : identities = body.workers := mapM_parseWorkerIdentity hidentities
  obtain ⟨hproofs, hproven, hpods⟩ := validatePhysical_ok hphysical
  have hfour : (body.workers.map (·.instanceId)).length = 4 := by
    simpa [AcceptBody.workers] using of_decide_eq_true (ensure_eq_ok.mp hlength)
  refine ⟨of_decide_eq_true (ensure_eq_ok.mp hrenamed), hproofs,
    mem_of_sameNames hproven, hpods, perm_memberNames hfour (ensure_eq_ok.mp hnames),
    forM_eq_ok.mp hfresh, mem_of_sameNames (ensure_eq_ok.mp hreported), ?_⟩
  split at h
  · rename_i operations resources hoperations hresources
    obtain ⟨_, _, h⟩ := bind_eq_ok.mp h
    split at h
    · cases h
    split at h
    · cases h
    · rename_i base hbase
      rw [hoperations, hresources]
      exact ⟨base, hbase, h⟩
  · cases h

/-! ## Reports -/

/-- The report of an instance can be taken, whatever reports were taken before. -/
structure Reportable (r : WorkerRegistry) (name : String) (report : ResourceReport)
    (i : WorkerIdentity) : Prop where
  member : r.members.get? name = some i
  epoch : report.instanceEpoch = i.instanceEpoch
  complete : report.complete = true
  hasResources : report.hasResources = true
  schema : r.reportSchemaValid report i = true

variable {i : WorkerIdentity} {operations resources : List String} {report : ResourceReport}
  {name : String} {r : WorkerRegistry}

theorem reportable_taken (taken : Dict String (Nat × ResourceReport)) :
    Reportable { r with resources := taken } name report i ↔ Reportable r name report i :=
  ⟨fun h => ⟨h.member, h.epoch, h.complete, h.hasResources, h.schema⟩,
    fun h => ⟨h.member, h.epoch, h.complete, h.hasResources, h.schema⟩⟩

theorem updateResourceReport_true {r r' : WorkerRegistry} {receivedAt : Option Nat}
    (h : r.updateResourceReport now name report receivedAt = (true, r')) :
    (∃ i, Reportable r name report i) ∧ ∃ taken, r' = { r with resources := taken } := by
  unfold WorkerRegistry.updateResourceReport at h
  split at h
  · cases h
  rename_i i hi
  split at h
  · rename_i hvalid
    cases h
    exact ⟨⟨i, hi, hvalid.1, hvalid.2.1, hvalid.2.2.1, hvalid.2.2.2.1⟩, _, rfl⟩
  · cases h

theorem Reportable.update (h : Reportable r name report i) (now : Nat) :
    r.updateResourceReport now name report (some now) =
      (true, { r with resources := r.resources.set name (now, report) }) := by
  unfold WorkerRegistry.updateResourceReport
  rw [h.member]
  dsimp only
  rw [if_pos ⟨h.epoch, h.complete, h.hasResources, h.schema, le_rfl⟩]
  rfl

/-- The ids of a report can be read, and none of them is excluded. -/
def ResourceReport.ListsNone (operations resources : List String)
    (report : ResourceReport) : Prop :=
  ∃ o r, report.operationIds.iterated = .ok o ∧ report.resourceIds.iterated = .ok r ∧
    (∀ x ∈ o, x ∉ operations) ∧ ∀ x ∈ r, x ∉ resources

/-- The reports of a request are taken, and list nothing that is excluded. -/
theorem takeReports_ok :
    ∀ {l : List (String × ResourceReport)} {r r' : WorkerRegistry},
      takeReports now operations resources r l = .ok r' →
      (∃ taken, r' = { r with resources := taken }) ∧
        ∀ entry ∈ l, (∃ i, Reportable r entry.1 entry.2 i) ∧
          entry.2.ListsNone operations resources
  | [], r, r', h => by
      cases h
      exact ⟨⟨_, rfl⟩, by simp⟩
  | entry :: rest, r, r', h => by
      obtain ⟨r₁, hone, hrest⟩ := bind_eq_ok.mp h
      unfold takeReport at hone
      split at hone
      · cases hone
      rename_i updated hupdate
      obtain ⟨o, ho, hone⟩ := bind_eq_ok.mp hone
      obtain ⟨r, hr, hone⟩ := bind_eq_ok.mp hone
      obtain ⟨_, hexcluded, hone⟩ := bind_eq_ok.mp hone
      obtain ⟨_, _, hone⟩ := bind_eq_ok.mp hone
      obtain ⟨_, _, hone⟩ := bind_eq_ok.mp hone
      cases hone
      obtain ⟨htakes, taken, rfl⟩ := updateResourceReport_true hupdate
      obtain ⟨⟨taken', rfl⟩, hall⟩ := takeReports_ok hrest
      obtain ⟨hoperations, hresources⟩ := Bool.and_eq_true_iff.mp
        (ensure_eq_ok.mp hexcluded)
      refine ⟨⟨taken', rfl⟩, List.forall_mem_cons.mpr ⟨⟨htakes, o, r, mapError_eq_ok.mp ho,
        mapError_eq_ok.mp hr, ?_, ?_⟩, fun e he => ?_⟩⟩
      · simpa using hoperations
      · simpa using hresources
      · obtain ⟨⟨i, hi⟩, hids⟩ := hall e he
        exact ⟨⟨i, (reportable_taken _).mp hi⟩, hids⟩

/-! ## The new world -/

/-- The world of a candidate: the identities of the request, in their order. -/
structure NewWorld (body : AcceptBody) (candidate : WorkerRegistry) : Prop where
  members : candidate.members = memberMap body.workers
  values : candidate.members.values = body.workers
  keys : candidate.members.keys.Perm memberNames
  pods : (body.workers.map (·.podUid)).Nodup
  ready : candidate.state = .ready
  compatible : ∀ i ∈ body.workers, ∀ j ∈ body.workers, i.kvCompatibilityId = j.kvCompatibilityId
  reports : ∀ entry ∈ body.resourceReports, (∃ i, Reportable candidate entry.1 entry.2 i) ∧
    entry.2.ListsNone (body.oldOperationIds.getD []) (body.oldResourceIds.getD [])

theorem entries_memberMap {l : List WorkerIdentity} (h : (l.map (·.instanceId)).Nodup) :
    (memberMap l).entries = l.map fun i => (i.instanceId, i) := by
  have hentries : (l.foldl (fun d i => d.set i.instanceId (id i)) Dict.empty).entries =
      Dict.empty.entries ++ l.map fun i => (i.instanceId, id i) :=
    Dict.entries_foldl_set h (by simp)
  simpa [memberMap, Dict.empty] using hentries

theorem Built.distinctNames (h : Built D now old body candidate) :
    (body.workers.map (·.instanceId)).Nodup :=
  h.names.nodup_iff.mpr (by decide)

theorem Built.newWorld (h : Built D now old body candidate) : NewWorld body candidate := by
  obtain ⟨base, hinstall, htake⟩ := h.installed
  obtain ⟨⟨taken, rfl⟩, hreports⟩ := takeReports_ok htake
  cases hvalid : (emptyCandidate old body.newTopologyGeneration).validWorld
      (memberMap body.workers) (pairMap body.pairCapabilities) with
  | false =>
    rw [ClockedRegistry.installWorld_invalid hvalid] at hinstall
    cases hinstall
  | true =>
    rw [ClockedRegistry.installWorld_valid hvalid] at hinstall
    cases hinstall
    have hentries := entries_memberMap h.distinctNames
    have hvalues : (memberMap body.workers).values = body.workers := by
      rw [Dict.values, hentries, List.map_map]
      exact List.map_id' _
    have hsound := validWorld_sound hvalid
    simp only [WorkerRegistry.validWorld, Bool.and_eq_true, decide_eq_true_eq] at hvalid
    obtain ⟨kv, hkv⟩ := constant_of_dedup_length hvalid.1.1.1.1.2
    rw [hvalues] at hkv
    refine ⟨rfl, hvalues, ?_, ?_, rfl, fun i hi j hj => ?_, fun entry hentry => ?_⟩
    · rw [Dict.keys, hentries, List.map_map]
      exact h.names
    · rw [← hvalues]
      exact hsound.pods.2
    · rw [hkv _ (List.mem_map_of_mem hi), hkv _ (List.mem_map_of_mem hj)]
    · obtain ⟨⟨i, hi⟩, hids⟩ := hreports entry hentry
      exact ⟨⟨i, (reportable_taken _).mpr hi⟩, hids⟩

/-- A request that is staged as a new run has built its candidate from the current world. -/
theorem stage_built {heap heap' : Registries} {L L' : TopologyLedger}
    {staged : TopologyLedger.Staged} (h : L.stage D now body heap = .ok (staged, heap', L'))
    (hnew : staged.replay = false) :
    ∃ old candidate, heap[L.registry]? = some old ∧
      heap'[staged.candidate]? = some candidate ∧ staged.record = recordOf D body ∧
      Built D now old body candidate := by
  unfold TopologyLedger.stage at h
  split at h
  · split at h
    · cases h
    · cases h
      cases hnew
  · split at h
    · cases h
    rename_i old hold
    obtain ⟨candidate, hbuild, h⟩ := bind_eq_ok.mp h
    cases h
    exact ⟨old, candidate, hold, by simp, rfl, buildCandidate_ok hbuild⟩

theorem requireFreshPod_ok (h : requireFreshPod old i = .ok ()) :
    ∃ member, old.members.get? i.instanceId = some member ∧ i.podUid ≠ member.podUid := by
  unfold requireFreshPod at h
  split at h
  · cases h
  · rename_i member hmember
    exact ⟨member, hmember, of_decide_eq_true (ensure_eq_ok.mp h)⟩

/-! ## Fresh pods -/

/-- No worker is announced under the pod that another member has in the old world. -/
def PodsStay (old : WorkerRegistry) (body : AcceptBody) : Prop :=
  ∀ i ∈ body.workers, ∀ name ∈ memberNames, name ≠ i.instanceId →
    ∀ member, old.members.get? name = some member → i.podUid ≠ member.podUid

/-- The pods are new member by member; they are new as a whole exactly when none of them moves to
another member. -/
theorem fresh_iff_podsStay (hbuilt : Built D now old body candidate)
    (hbinds : ∀ t ∈ body.terminationRecords, ∃ member,
      old.members.get? t.logicalInstanceId = some member ∧ t.podUid = member.podUid ∧
        t.processGeneration = member.processGeneration) :
    (∀ i ∈ body.workers, ∀ t ∈ body.terminationRecords, i.podUid ≠ t.podUid) ↔
      PodsStay old body := by
  constructor
  · intro h i hi name hname _ member hmember
    obtain ⟨t, ht, rfl⟩ := List.mem_map.mp ((hbuilt.proven name).mpr hname)
    obtain ⟨member', hmember', hpod, -⟩ := hbinds t ht
    cases hmember.symm.trans hmember'
    rw [← hpod]
    exact h i hi t ht
  · intro h i hi t ht
    obtain ⟨member, hmember, hpod, -⟩ := hbinds t ht
    rw [hpod]
    by_cases hsame : t.logicalInstanceId = i.instanceId
    · obtain ⟨member', hmember', hfresh⟩ := requireFreshPod_ok (hbuilt.fresh i hi)
      rw [← hsame] at hmember'
      cases hmember.symm.trans hmember'
      exact hfresh
    · have hname := (hbuilt.proven _).mp (List.mem_map_of_mem ht)
      exact h i hi _ hname hsame member hmember

/-- A request that is staged as a new run: its members are distinct and have distinct pods, its
proofs are about the pods and processes of the old world, and its reports list no old id; its pods
differ from all terminated ones exactly when none of them is announced for another member. -/
theorem staged_world_fresh (D : Digests) (now : Nat) (body : AcceptBody) (heap heap' : Registries)
    (L L' : TopologyLedger) (staged : TopologyLedger.Staged)
    (hstage : L.stage D now body heap = .ok (staged, heap', L')) (hnew : staged.replay = false) :
    ∃ old candidate, heap[L.registry]? = some old ∧ heap'[staged.candidate]? = some candidate ∧
      (candidate.members.values.map (·.instanceId)).Nodup ∧
      (candidate.members.values.map (·.podUid)).Nodup ∧
      (∀ t ∈ body.terminationRecords, ∃ member,
        old.members.get? t.logicalInstanceId = some member ∧ t.podUid = member.podUid ∧
          t.processGeneration = member.processGeneration) ∧
      (∀ entry ∈ body.resourceReports,
        entry.2.ListsNone (body.oldOperationIds.getD []) (body.oldResourceIds.getD [])) ∧
      ((∀ i ∈ candidate.members.values, ∀ t ∈ body.terminationRecords, i.podUid ≠ t.podUid) ↔
        PodsStay old body) := by
  obtain ⟨old, candidate, hold, hcandidate, -, hbuilt⟩ := stage_built hstage hnew
  have hworld := hbuilt.newWorld
  have hbinds : ∀ t ∈ body.terminationRecords, ∃ member,
      old.members.get? t.logicalInstanceId = some member ∧ t.podUid = member.podUid ∧
        t.processGeneration = member.processGeneration := by
    rcases TopologyLedger.stage_cases hstage with ⟨hreplay, -⟩ | ⟨-, -, -, -, -, hbinds, -⟩
    · rw [hnew] at hreplay
      cases hreplay
    intro t ht
    obtain ⟨world, member, hworld, hmember⟩ := hbinds t ht
    cases hold.symm.trans hworld
    exact ⟨member, hmember⟩
  refine ⟨old, candidate, hold, hcandidate, ?_, ?_, hbinds, ?_, ?_⟩
  · rw [hworld.values]
    exact hbuilt.distinctNames
  · rw [hworld.values]
    exact hworld.pods
  · exact fun entry hentry => (hworld.reports entry hentry).2
  · rw [hworld.values]
    exact fresh_iff_podsStay hbuilt hbinds

/-! ### Exchanged pods -/

/-- The epoch of a worker by its name. -/
def epochIn (workers : List WorkerIdentity) (name : String) : String :=
  ((workers.find? fun i => i.instanceId = name).map (·.instanceEpoch)).getD ""

/-- A request to replace the pods of a tag by given workers. -/
def requestFor (oldTag oldGeneration newGeneration : String) (workers : List WorkerIdentity) :
    AcceptBody where
  restartRunId := "run"
  oldTopologyGeneration := oldGeneration
  newTopologyGeneration := newGeneration
  terminationRecords := (membersOf oldTag oldGeneration).map
    (TopologyLedger.terminationOf oldGeneration)
  identities := workers.map fun i => ⟨i, none⟩
  pairCapabilities := expectedPairs.map fun (name, source, target) =>
    ⟨name, epochIn workers source, epochIn workers target, "CUDA_IPC", "probe", true, "evidence"⟩
  resourceReports := workers.map fun i =>
    (i.instanceId, { instanceEpoch := i.instanceEpoch, excludedOperationIds := some []
                     excludedResourceIds := some [] })
  oldOperationIds := some []
  oldResourceIds := some []
  digest := "sha256:request"

/-- What comes of a request in a first world of pods with a tag. -/
def stagedIn (D : Digests) (tag generation : String) (body : AcceptBody) :
    Except Exc (TopologyLedger.Staged × Registries × TopologyLedger) :=
  TopologyLedger.stage D 0 body [TopologyLedger.worldOf tag generation] ⟨0, Dict.empty, 4096⟩

/-- The pods of the first world, each for another member. -/
def exchangedWorkers : List WorkerIdentity :=
  (membersOf "a" "g1").zipWith (fun i pod => { i with podUid := pod })
    ["a-p1", "a-p0", "a-d1", "a-d0"]

/-- A request with exchanged pods is staged: its pods are those that have terminated. -/
theorem exchanged_pods_staged :
    ((stagedIn TopologyLedger.plainDigests "a" "g0" (requestFor "a" "g0" "g1"
        exchangedWorkers)).toOption.map fun x => (x.1.replay, (x.2.1[x.1.candidate]?).map
          fun candidate => candidate.members.values.map (·.podUid))) =
      some (false, some ["a-p1", "a-p0", "a-d1", "a-d0"]) ∧
    (requestFor "a" "g0" "g1" exchangedWorkers).terminationRecords.map (·.podUid) =
      ["a-p0", "a-p1", "a-d0", "a-d1"] := by
  decide +kernel

theorem staged_of_toOption {D : Digests} {tag generation : String} {body : AcceptBody}
    (h : ((stagedIn D tag generation body).toOption.map fun x => x.1.replay) = some false) :
    ∃ staged heap' L', stagedIn D tag generation body = .ok (staged, heap', L') ∧
      staged.replay = false := by
  cases hstage : stagedIn D tag generation body with
  | error e =>
    rw [hstage] at h
    cases h
  | ok x =>
    obtain ⟨staged, heap', L'⟩ := x
    rw [hstage] at h
    exact ⟨staged, heap', L', rfl, Option.some.inj h⟩

theorem plain_staged :
    ((stagedIn TopologyLedger.plainDigests "a" "g0" (requestFor "a" "g0" "g1"
      (membersOf "b" "g1"))).toOption.map fun x => x.1.replay) = some false := by
  decide +kernel

/-- With new pods for all members, the pods are new as a whole. -/
theorem staged_world_fresh_plain :
    ∃ staged heap' L', stagedIn TopologyLedger.plainDigests "a" "g0"
        (requestFor "a" "g0" "g1" (membersOf "b" "g1")) =
          .ok (staged, heap', L') ∧ staged.replay = false ∧
      ∃ old candidate, heap'[staged.candidate]? = some candidate ∧
        ((∀ i ∈ candidate.members.values, ∀ t ∈ (requestFor "a" "g0" "g1"
            (membersOf "b" "g1")).terminationRecords, i.podUid ≠ t.podUid) ↔
          PodsStay old (requestFor "a" "g0" "g1" (membersOf "b" "g1"))) := by
  obtain ⟨staged, heap', L', hstage, hnew⟩ := staged_of_toOption plain_staged
  obtain ⟨old, candidate, -, hcandidate, -, -, -, -, hiff⟩ :=
    staged_world_fresh _ _ _ _ _ _ _ _ hstage hnew
  exact ⟨staged, heap', L', hstage, hnew, old, candidate, hcandidate, hiff⟩

/-! ## Evidence of the new world -/

open Accept (takeSamples evidenceOf)

/-- Reports that are pulled from the workers of a world, one from each, whatever reports it has
taken before. -/
def Pulled (body : AcceptBody) (world : WorkerRegistry) (reports : List (String × ResourceReport)) :
    Prop :=
  ∃ (taken : Dict String (Nat × ResourceReport)) (now : Nat)
    (samples : List (Option ResourceReport × Nat)) (after : WorkerRegistry),
    samples.length = world.members.size ∧
    takeSamples now (body.oldOperationIds.getD []) (body.oldResourceIds.getD [])
      ((sortedNames world.members.keys).zip samples) { world with resources := taken } =
        (.ok reports, after) ∧
    after.worldFresh now = true

/-- The samples that are taken, under their names, and each a report of its instance. -/
theorem takeSamples_ok :
    ∀ {samples : List (String × Option ResourceReport × Nat)} {r r' : WorkerRegistry}
      {reports : List (String × ResourceReport)},
      takeSamples now operations resources samples r = (.ok reports, r') →
      reports.map (·.1) = samples.map (·.1) ∧
        ∀ entry ∈ reports, ∃ i, Reportable r entry.1 entry.2 i
  | [], r, r', reports, h => by
      cases h
      simp
  | (name, none, _) :: _, r, r', reports, h => by
      cases h
  | (name, some report, receivedAt) :: rest, r, r', reports, h => by
      unfold takeSamples at h
      split at h
      · cases h
      rename_i r₁ hupdate
      obtain ⟨htakes, taken, rfl⟩ := updateResourceReport_true hupdate
      split at h
      · split at h
        · cases h
        split at h
        · cases h
        split at h
        · rename_i others r₂ hrest
          cases h
          obtain ⟨hnames, hall⟩ := takeSamples_ok hrest
          refine ⟨by rw [List.map_cons, List.map_cons, hnames], ?_⟩
          refine List.forall_mem_cons.mpr ⟨htakes, fun entry hentry => ?_⟩
          obtain ⟨i, hi⟩ := hall entry hentry
          exact ⟨i, (reportable_taken taken).mp hi⟩
        · cases h
      · cases h

/-- A report that lists nothing is taken. -/
theorem takeSamples_cons (h : Reportable r name report i)
    (hoperations : report.operationIds = .list []) (hresources : report.resourceIds = .list [])
    {rest : List (String × Option ResourceReport × Nat)} {reports : List (String × ResourceReport)}
    {r' : WorkerRegistry}
    (hrest : takeSamples now operations resources rest
      { r with resources := r.resources.set name (now, report) } = (.ok reports, r')) :
    takeSamples now operations resources ((name, some report, now) :: rest) r =
      (.ok ((name, report) :: reports), r') := by
  simp [takeSamples, h.update, hoperations, hresources, hrest]

/-- Reports that list nothing are taken one after the other, and are fresh then. -/
theorem takeSamples_live (operations resources : List String) {live : String → ResourceReport}
    (hoperations : ∀ name, (live name).operationIds = .list [])
    (hresources : ∀ name, (live name).resourceIds = .list []) :
    ∀ (names : List String) {r : WorkerRegistry},
      (∀ name ∈ names, ∃ i, Reportable r name (live name) i) →
      ∃ taken, takeSamples now operations resources
          (names.map fun name => (name, some (live name), now)) r =
            (.ok (names.map fun name => (name, live name)), { r with resources := taken }) ∧
        ∀ name, name ∈ names ∨ (∃ report, r.resources.get? name = some (now, report)) →
          ∃ report, taken.get? name = some (now, report)
  | [], r, _ => ⟨r.resources, rfl, by simp⟩
  | name :: rest, r, h => by
      obtain ⟨i, hi⟩ := h name List.mem_cons_self
      have hrest : ∀ n ∈ rest, ∃ i,
          Reportable { r with resources := r.resources.set name (now, live name) }
            n (live n) i := by
        intro n hn
        obtain ⟨j, hj⟩ := h n (List.mem_cons_of_mem name hn)
        exact ⟨j, (reportable_taken _).mpr hj⟩
      obtain ⟨taken, hrest, hfresh⟩ :=
        takeSamples_live operations resources hoperations hresources rest hrest
      refine ⟨taken, takeSamples_cons hi (hoperations name) (hresources name) hrest, ?_⟩
      intro n hn
      refine hfresh n ?_
      by_cases hsame : n = name
      · exact Or.inr ⟨live name, by rw [hsame]; exact Dict.get?_set_self _ _ _⟩
      · rcases hn with hn | ⟨report, hreport⟩
        · exact Or.inl ((List.mem_cons.mp hn).resolve_left hsame)
        · exact Or.inr ⟨report, by rw [← hreport]; exact Dict.get?_set_of_ne _ _ hsame⟩

theorem four_distinct_iff {α : Type} [DecidableEq α] {l : List α} (hlength : l.length = 4) :
    l.dedup.length = 4 ↔ l.Nodup := by
  constructor
  · intro h
    exact nodup_of_dedup_length (h.trans hlength.symm)
  · intro h
    rw [h.dedup, hlength]

/-- Evidence passes when it is made of four different proofs and four different reports. -/
theorem validate_iff {e : ReplacementEvidence} (haccepted : e.accepted = true)
    (hrenamed : e.oldTopologyGeneration ≠ e.newTopologyGeneration)
    (hproofs : e.oldTerminationProofDigests.length = 4)
    (hreports : e.freshResourceReportDigests.length = 4)
    (hdigests : e.excludedOldOperationDigest ≠ "" ∧ e.decisionDigest ≠ "") :
    e.validate = .ok () ↔
      e.oldTerminationProofDigests.Nodup ∧ e.freshResourceReportDigests.Nodup := by
  simp only [ReplacementEvidence.validate, require, ensure_bind_eq_ok, ensure_eq_ok, haccepted,
    Bool.and_eq_true, decide_eq_true_eq, four_distinct_iff hproofs, four_distinct_iff hreports]
  exact ⟨fun h => ⟨h.2.2.2.1, h.2.2.2.2.2.1⟩,
    fun h => ⟨trivial, hrenamed, hproofs, h.1, hreports, h.2, hdigests⟩⟩

variable {cfg : GatewayConfig} {reports : List (String × ResourceReport)}

/-- A member of the new world is a worker of the request, under its name. -/
theorem Built.worker (h : Built D now old body candidate) :
    candidate.members.get? name = some i ↔ i ∈ body.workers ∧ i.instanceId = name := by
  rw [← Dict.mem_entries_iff, h.newWorld.members, entries_memberMap h.distinctNames]
  constructor
  · intro hmem
    obtain ⟨j, hj, heq⟩ := List.mem_map.mp hmem
    cases heq
    exact ⟨hj, rfl⟩
  · rintro ⟨hi, rfl⟩
    exact List.mem_map_of_mem (f := fun i : WorkerIdentity => (i.instanceId, i)) hi

theorem Pulled.names (h : Pulled body candidate reports) :
    reports.map (·.1) = sortedNames candidate.members.keys ∧
      ∀ entry ∈ reports, ∃ i, Reportable candidate entry.1 entry.2 i := by
  obtain ⟨taken, now, samples, after, hlength, htake, -⟩ := h
  obtain ⟨hnames, hall⟩ := takeSamples_ok htake
  refine ⟨?_, fun entry hentry => ?_⟩
  · rw [hnames]
    refine List.map_fst_zip ?_
    rw [hlength, sortedNames, List.length_insertionSort, Dict.keys_length]
  · obtain ⟨i, hi⟩ := hall entry hentry
    exact ⟨i, (reportable_taken taken).mp hi⟩

theorem Built.perm_sortedNames (h : Built D now old body candidate) :
    (sortedNames candidate.members.keys).Perm memberNames :=
  (List.perm_insertionSort _ _).trans h.newWorld.keys

/-- The validator of the evidence decides by the reports alone. -/
theorem evidence_validate_iff (hbuilt : Built D now old body candidate)
    (hproofs : Function.Injective cfg.digests.termination)
    (hdigest : body.digest ≠ "") (hpulled : Pulled body candidate reports) :
    (evidenceOf cfg body (recordOf cfg.digests body) reports).validate = .ok () ↔
      (reports.map fun entry => cfg.digests.report entry.2).Nodup := by
  have hfour : reports.length = 4 := by
    have hlength := congrArg List.length hpulled.names.1
    rw [List.length_map, hbuilt.perm_sortedNames.length_eq] at hlength
    exact hlength
  rw [validate_iff rfl hbuilt.renamed.symm (by simpa [evidenceOf, recordOf] using hbuilt.proofs)
    (by simpa [evidenceOf] using hfour) ⟨cfg.exclusion_ne_empty _ _, hdigest⟩]
  refine and_iff_right (List.Nodup.map hproofs ?_)
  exact hbuilt.proofPods.of_map _

/-- Workers with different epochs give different reports. -/
theorem reports_distinct (hbuilt : Built D now old body candidate)
    (hreport : Function.Injective cfg.digests.report)
    (hepochs : (body.workers.map (·.instanceEpoch)).Nodup)
    (hpulled : Pulled body candidate reports) :
    (reports.map fun entry => cfg.digests.report entry.2).Nodup := by
  obtain ⟨hnames, hall⟩ := hpulled.names
  have hdistinct : (reports.map (·.1)).Nodup := by
    rw [hnames, hbuilt.perm_sortedNames.nodup_iff]
    decide
  refine List.Nodup.map_on (fun e he e' he' heq => ?_) (hdistinct.of_map _)
  have hsame := congrArg ResourceReport.instanceEpoch (hreport heq)
  obtain ⟨i, hi⟩ := hall e he
  obtain ⟨j, hj⟩ := hall e' he'
  rw [hi.epoch, hj.epoch] at hsame
  obtain ⟨himem, hi⟩ := hbuilt.worker.mp hi.member
  obtain ⟨hjmem, hj⟩ := hbuilt.worker.mp hj.member
  have hij : i = j := List.inj_on_of_nodup_map hepochs himem hjmem hsame
  refine List.inj_on_of_nodup_map hdistinct he he' ?_
  rw [← hi, ← hj, hij]

/-! ### Workers that share an epoch -/

/-- A report of an epoch: one of the request, without the ids that it lists. -/
def liveReport (body : AcceptBody) (epoch : String) : ResourceReport :=
  match body.resourceReports.find? fun entry => entry.2.instanceEpoch = epoch with
  | some entry => { entry.2 with operationIds := .list [], resourceIds := .list [] }
  | none => { instanceEpoch := epoch }

theorem liveReport_lists (body : AcceptBody) (epoch : String) :
    (liveReport body epoch).operationIds = .list [] ∧
      (liveReport body epoch).resourceIds = .list [] := by
  unfold liveReport
  split <;> exact ⟨rfl, rfl⟩

/-- Reports are told apart by their epochs only, so a worker can send any report of its epoch. -/
theorem reportable_liveReport (hbuilt : Built D now old body candidate)
    (hi : candidate.members.get? name = some i) :
    Reportable candidate name (liveReport body i.instanceEpoch) i := by
  have hworld := hbuilt.newWorld
  obtain ⟨himem, hiname⟩ := hbuilt.worker.mp hi
  have hname : name ∈ memberNames := by
    rw [← hiname]
    exact hbuilt.names.mem_iff.mp (List.mem_map_of_mem himem)
  obtain ⟨own, hown, rfl⟩ := List.mem_map.mp ((hbuilt.reported name).mpr hname)
  obtain ⟨⟨j, hj⟩, -⟩ := hworld.reports own hown
  cases hi.symm.trans hj.member
  unfold liveReport
  split
  case h_1 entry hfound =>
    obtain ⟨⟨k, hk⟩, -⟩ := hworld.reports entry (List.mem_of_find?_eq_some hfound)
    have hkmem := (hbuilt.worker.mp hk.member).1
    have hkv := hworld.compatible i himem k hkmem
    have hepoch : entry.2.instanceEpoch = i.instanceEpoch := by
      simpa using List.find?_some hfound
    refine ⟨hi, hepoch, hk.complete, hk.hasResources, ?_⟩
    rw [← hk.schema]
    unfold WorkerRegistry.reportSchemaValid
    rw [hkv]
  case h_2 hnone =>
    refine absurd hj.epoch ?_
    simpa using List.find?_eq_none.mp hnone own hown

/-- Every worker sends a report of its epoch. -/
theorem pulled_live (hbuilt : Built D now old body candidate) :
    Pulled body candidate ((sortedNames candidate.members.keys).map fun name =>
      (name, liveReport body (((candidate.members.get? name).map (·.instanceEpoch)).getD ""))) := by
  have htakes : ∀ name ∈ sortedNames candidate.members.keys, ∃ i, Reportable candidate name
      (liveReport body (((candidate.members.get? name).map (·.instanceEpoch)).getD "")) i := by
    intro name hname
    have hsome := (Dict.mem_keys_iff _ _).mp ((List.mem_insertionSort _).mp hname)
    obtain ⟨i, hi⟩ := Option.isSome_iff_exists.mp hsome
    rw [hi]
    exact ⟨i, reportable_liveReport hbuilt hi⟩
  obtain ⟨taken, htaken, hfresh⟩ : ∃ taken, takeSamples 0 _ _ _ candidate = _ ∧ _ :=
    takeSamples_live (body.oldOperationIds.getD []) (body.oldResourceIds.getD [])
      (fun _ => (liveReport_lists body _).1) (fun _ => (liveReport_lists body _).2) _ htakes
  refine ⟨candidate.resources, 0, (sortedNames candidate.members.keys).map fun name =>
    (some (liveReport body (((candidate.members.get? name).map (·.instanceEpoch)).getD "")), 0),
    _, ?_, Eq.trans (congrArg (fun l => takeSamples 0 _ _ l candidate) ?_) htaken, ?_⟩
  · rw [List.length_map, sortedNames, List.length_insertionSort, Dict.keys_length]
  · generalize sortedNames candidate.members.keys = names
    induction names with
    | nil =>
      rfl
    | cons name rest ih =>
      rw [List.map_cons, List.zip_cons_cons, ih, List.map_cons]
  · have hworld := hbuilt.newWorld
    have hkeys : sameNames candidate.members.keys memberNames = true := by
      simp only [sameNames, Bool.and_eq_true, List.all_eq_true, List.contains_iff_mem]
      exact ⟨fun _ h => hworld.keys.mem_iff.mp h, fun _ h => hworld.keys.mem_iff.mpr h⟩
    simp only [WorkerRegistry.worldFresh, WorkerRegistry.canAdmit, WorkerRegistry.fresh,
      Bool.and_eq_true, decide_eq_true_eq, List.all_eq_true]
    refine ⟨⟨hworld.ready, hkeys⟩, fun name hname => ⟨hworld.ready, ?_⟩⟩
    obtain ⟨report, hreport⟩ := hfresh name (Or.inl (hbuilt.perm_sortedNames.mem_iff.mpr hname))
    simp [hreport]

/-- When all evidence passes, no two workers share an epoch. -/
theorem epochs_of_evidence (hbuilt : Built D now old body candidate)
    (hproofs : Function.Injective cfg.digests.termination) (hdigest : body.digest ≠ "")
    (h : ∀ reports, Pulled body candidate reports →
      (evidenceOf cfg body (recordOf cfg.digests body) reports).validate = .ok ()) :
    (body.workers.map (·.instanceEpoch)).Nodup := by
  have hpulled := pulled_live hbuilt
  have hdistinct := (evidence_validate_iff hbuilt hproofs hdigest hpulled).mp (h _ hpulled)
  rw [List.map_map] at hdistinct
  refine List.Nodup.map_on (fun i hi j hj heq => ?_) (hbuilt.distinctNames.of_map _)
  have hmember {k : WorkerIdentity} (hk : k ∈ body.workers) :
      candidate.members.get? k.instanceId = some k := hbuilt.worker.mpr ⟨hk, rfl⟩
  have hkey {k : WorkerIdentity} (hk : k ∈ body.workers) :
      k.instanceId ∈ sortedNames candidate.members.keys :=
    hbuilt.perm_sortedNames.mem_iff.mpr (hbuilt.names.mem_iff.mp (List.mem_map_of_mem hk))
  have hname : i.instanceId = j.instanceId := by
    refine List.inj_on_of_nodup_map hdistinct (hkey hi) (hkey hj) ?_
    simp [hmember hi, hmember hj, heq]
  exact List.inj_on_of_nodup_map hbuilt.distinctNames hi hj hname

theorem takeWhile_colon {pod rest : List Char} (h : ':' ∉ pod) :
    (pod ++ ':' :: rest).takeWhile (· ≠ ':') = pod := by
  rw [List.takeWhile_append_of_pos fun c hc => by
    simpa using fun heq : c = ':' => h (heq ▸ hc)]
  simp

/-- An epoch of a pod without a colon tells the pod. -/
theorem podUid_of_epoch {i j : WorkerIdentity} (hi : ':' ∉ i.podUid.toList)
    (hj : ':' ∉ j.podUid.toList) (h : i.instanceEpoch = j.instanceEpoch) :
    i.podUid = j.podUid := by
  have hchars : i.podUid.toList ++ ':' :: i.processGeneration.toList =
      j.podUid.toList ++ ':' :: j.processGeneration.toList := by
    simpa [WorkerIdentity.instanceEpoch, String.toList_append] using congrArg String.toList h
  refine String.toList_injective ?_
  rw [← takeWhile_colon hi, hchars, takeWhile_colon hj]

/-- The evidence of a staged request passes, whatever reports are pulled from the new workers,
exactly when no two of the workers share an epoch; they share none when no pod has a colon. -/
theorem replacement_evidence_passes (cfg : GatewayConfig)
    (hproofs : Function.Injective cfg.digests.termination)
    (hreport : Function.Injective cfg.digests.report) (now : Nat) (body : AcceptBody)
    (hdigest : body.digest ≠ "") (heap heap' : Registries) (L L' : TopologyLedger)
    (staged : TopologyLedger.Staged)
    (hstage : L.stage cfg.digests now body heap = .ok (staged, heap', L'))
    (hnew : staged.replay = false) :
    ∃ candidate, heap'[staged.candidate]? = some candidate ∧
      ((∀ reports, Pulled body candidate reports →
          (evidenceOf cfg body staged.record reports).validate = .ok ()) ↔
        (body.workers.map (·.instanceEpoch)).Nodup) ∧
      ((∀ i ∈ body.workers, ':' ∉ i.podUid.toList) →
        (body.workers.map (·.instanceEpoch)).Nodup) := by
  obtain ⟨old, candidate, -, hcandidate, hrecord, hbuilt⟩ := stage_built hstage hnew
  have hworld := hbuilt.newWorld
  refine ⟨candidate, hcandidate, ?_, fun hcolon => ?_⟩
  · rw [hrecord]
    constructor
    · exact epochs_of_evidence hbuilt hproofs hdigest
    · intro hepochs reports hpulled
      exact (evidence_validate_iff hbuilt hproofs hdigest hpulled).mpr
        (reports_distinct hbuilt hreport hepochs hpulled)
  · refine List.Nodup.map_on (fun i hi j hj heq => ?_) (hworld.pods.of_map _)
    exact List.inj_on_of_nodup_map hworld.pods hi hj
      (podUid_of_epoch (hcolon i hi) (hcolon j hj) heq)

/-! ### Digests that do not collide -/

instance countableChar : Countable Char :=
  Function.Injective.countable fun _ _ h => Char.toNat_inj.mp h

instance countableString : Countable String :=
  Function.Injective.countable fun _ _ h => String.toList_injective h

deriving instance Countable for TerminatedState, TerminationPayload, TerminationRecord, ReportedIds,
  ResourceReport

/-- The values of a countable type have texts that differ. -/
theorem exists_injective_text (α : Type) [Countable α] :
    ∃ f : α → String, Function.Injective f := by
  obtain ⟨f, hf⟩ := exists_injective_nat α
  exact ⟨fun a => Infinite.natEmbedding String (f a),
    (Infinite.natEmbedding String).injective.comp hf⟩

/-- A gateway with given digests of proofs and reports. -/
def gatewayWith (termination : TerminationRecord → String) (report : ResourceReport → String) :
    GatewayConfig :=
  { plainGateway with
    digests := { TopologyLedger.plainDigests with termination := termination, report := report } }

theorem buildCandidate_congr {D' : Digests} (h : D.observation = D'.observation) :
    buildCandidate D now old body = buildCandidate D' now old body := by
  unfold buildCandidate validatePhysicalTerminationRecords validateTerminationRecords
    TerminationRecord.validate
  rw [h]

/-- Whether a request is staged does not depend on the digests that are recorded. -/
theorem stagedIn_replay {D' : Digests} (h : D.observation = D'.observation)
    (tag generation : String) :
    ((stagedIn D tag generation body).toOption.map fun x => x.1.replay) =
      ((stagedIn D' tag generation body).toOption.map fun x => x.1.replay) := by
  simp only [stagedIn, TopologyLedger.stage, Dict.get?_empty, List.getElem?_cons_zero,
    buildCandidate_congr h]
  cases buildCandidate D' 0 (TopologyLedger.worldOf tag generation) body <;> rfl

/-- With digests that do not collide, the evidence of four plain pods passes. -/
theorem replacement_evidence_passes_plain :
    ∃ termination report, Function.Injective termination ∧ Function.Injective report ∧
      ∃ staged heap' L', stagedIn (gatewayWith termination report).digests "a" "g0"
          (requestFor "a" "g0" "g1" (membersOf "b" "g1")) =
            .ok (staged, heap', L') ∧ staged.replay = false ∧
        ∃ candidate, heap'[staged.candidate]? = some candidate ∧
          ∀ reports, Pulled (requestFor "a" "g0" "g1" (membersOf "b" "g1"))
              candidate reports →
            (evidenceOf (gatewayWith termination report) (requestFor "a" "g0" "g1"
              (membersOf "b" "g1")) staged.record reports).validate = .ok () := by
  obtain ⟨termination, htermination⟩ := exists_injective_text TerminationRecord
  obtain ⟨report, hreport⟩ := exists_injective_text ResourceReport
  have hsame : (gatewayWith termination report).digests.observation =
      TopologyLedger.plainDigests.observation := rfl
  obtain ⟨staged, heap', L', hstage, hnew⟩ := staged_of_toOption
    ((stagedIn_replay hsame "a" "g0").trans plain_staged)
  obtain ⟨candidate, hcandidate, hiff, -⟩ := replacement_evidence_passes
    (gatewayWith termination report) htermination hreport 0 (requestFor "a" "g0" "g1"
      (membersOf "b" "g1")) (by decide) _ _ _ _ staged hstage hnew
  exact ⟨termination, report, htermination, hreport, staged, heap', L', hstage, hnew, candidate,
    hcandidate, hiff.mpr (by decide +kernel)⟩

/-- Two workers with different pods and one epoch. -/
def colonWorkers : List WorkerIdentity :=
  (membersOf "b" "g1").zipWith
    (fun i pod => { i with podUid := pod.1, processGeneration := pod.2 })
    [("u", "v:w"), ("u:v", "w"), ("b-d0", "1"), ("b-d1", "1")]

/-- What the workers answer: each a report of its epoch, with nothing in it. -/
def colonSamples : List (Option ResourceReport × Nat) :=
  ["b-d0:1", "b-d1:1", "u:v:w", "u:v:w"].map fun epoch => (some { instanceEpoch := epoch }, 0)

/-- The reports that are pulled, and why the evidence with them is refused. -/
def colonOutcome (staged : TopologyLedger.Staged) (candidate : WorkerRegistry) :
    Option (List (String × ResourceReport) × Option Exc) :=
  match takeSamples 0 [] [] ((sortedNames candidate.members.keys).zip colonSamples) candidate with
  | (.ok reports, after) =>
    match after.worldFresh 0, (evidenceOf plainGateway (requestFor "a" "g0" "g1" colonWorkers)
        staged.record reports).validate with
    | true, .error e => some (reports, some e)
    | true, .ok _ => some (reports, none)
    | false, _ => none
  | (.error _, _) => none

/-- A request with such workers is staged; the reports of the two are one and the same, and the
evidence is refused. -/
theorem shared_epoch_refused :
    (colonWorkers.map (·.podUid)).Nodup ∧
    ((stagedIn plainGateway.digests "a" "g0" (requestFor "a" "g0" "g1" colonWorkers)).toOption.bind
      fun x => (x.2.1[x.1.candidate]?).bind fun candidate => colonOutcome x.1 candidate) =
      some ([("d0", { instanceEpoch := "b-d0:1" }), ("d1", { instanceEpoch := "b-d1:1" }),
          ("p0", { instanceEpoch := "u:v:w" }), ("p1", { instanceEpoch := "u:v:w" })],
        some (.value "resource reports must identify four members")) := by
  decide +kernel

end PrismServe
