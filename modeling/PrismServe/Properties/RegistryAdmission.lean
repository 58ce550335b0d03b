import PrismServe.Lib.Lists
import PrismServe.Router.WorkerRegistry

/-!
# What an admission rests on

Worlds are installed, identities and capabilities are observed and reports are
taken in any order, while the clock goes on.  A failure clears the capabilities
and the reports but not the members, and reports are taken while the registry
is failed.

A registry is ready only as the last installation has left it, and its reports
are those that were taken since; an instance is therefore admitted only on a
valid world, an uncontradicted one, and a report of its present epoch.
-/

namespace PrismServe

open Lib

inductive RegistryCall
  | installWorld (identities : List WorkerIdentity) (capabilities : List PairCapability)
  | observeIdentity (identity : WorkerIdentity)
  | observeCapabilities (capabilities : List PairCapability)
  | updateResourceReport (instanceId : String) (report : ResourceReport) (receivedAt : Option Nat)
  /-- Time passes. -/
  | tick (duration : Nat)
  deriving DecidableEq, Repr

/-- A registry and its clock. -/
structure ClockedRegistry where
  registry : WorkerRegistry
  now : Nat

/-- The members of a world by their names; the last of two counts. -/
def memberMap (identities : List WorkerIdentity) : Dict String WorkerIdentity :=
  identities.foldl (fun d i => d.set i.instanceId i) Dict.empty

/-- The probes of a world by their pairs. -/
def pairMap (capabilities : List PairCapability) : Dict String PairCapability :=
  capabilities.foldl (fun d c => d.set c.pairId c) Dict.empty

namespace ClockedRegistry

/-- What a call answers and leaves behind. -/
def call (c : RegistryCall) (r : ClockedRegistry) : Bool × ClockedRegistry :=
  match c with
  | .installWorld identities capabilities =>
    ((r.registry.installWorld identities capabilities).1,
      { r with registry := (r.registry.installWorld identities capabilities).2 })
  | .observeIdentity identity =>
    ((r.registry.observeIdentity identity).1,
      { r with registry := (r.registry.observeIdentity identity).2 })
  | .observeCapabilities capabilities =>
    ((r.registry.observeCapabilities capabilities).1,
      { r with registry := (r.registry.observeCapabilities capabilities).2 })
  | .updateResourceReport instanceId report receivedAt =>
    ((r.registry.updateResourceReport r.now instanceId report receivedAt).1,
      { r with registry :=
          (r.registry.updateResourceReport r.now instanceId report receivedAt).2 })
  | .tick duration => (true, { r with now := r.now + duration })

def afterAll (calls : List RegistryCall) (r : ClockedRegistry) : ClockedRegistry :=
  calls.foldl (fun r c => (r.call c).2) r

def canAdmit (r : ClockedRegistry) (instanceId : String) : Bool :=
  r.registry.canAdmit r.now instanceId

/-- A registry as it is constructed. -/
def new (generation : String) (compatibilityId : Option String)
    (profile : Option (List (String × String))) (rdma : Bool) (staleAfter now : Nat) :
    ClockedRegistry where
  registry :=
    { expectedTopologyGeneration := generation
      expectedKvCompatibilityId := compatibilityId
      expectedModelProfile := profile
      requireGpudirectRdma := rdma
      resourceReportStaleAfter := staleAfter }
  now := now

end ClockedRegistry

/-- The call neither installs a world nor contradicts the given one. -/
def RegistryCall.Agrees (members : Dict String WorkerIdentity)
    (pairs : Dict String PairCapability) :
    RegistryCall → Prop
  | .installWorld _ _ => False
  | .observeIdentity identity => members.get? identity.instanceId = some identity
  | .observeCapabilities capabilities =>
    WorkerRegistry.sameCapabilities (pairMap capabilities) pairs = true
  | _ => True

/-- A failed installation or a contradicting observation. -/
def RegistryCall.fails (r : ClockedRegistry) (c : RegistryCall) : Bool :=
  match c with
  | .installWorld _ _ => !(r.call c).1
  | .observeIdentity _ => !(r.call c).1
  | .observeCapabilities _ => !(r.call c).1
  | _ => false

/-- Four expected members of the expected generation, of one digest and on four pods, with five
passed probes that are bound to their epochs. -/
structure SoundWorld (generation : String) (world : Dict String WorkerIdentity)
    (probes : Dict String PairCapability) : Prop where
  members : ∀ name, name ∈ world.keys ↔ name ∈ memberNames
  generation : ∀ i ∈ world.values, i.topologyGeneration = generation
  digest : ∃ digest, ∀ i ∈ world.values, i.topologyDigest = digest
  pods : world.size = 4 ∧ (world.values.map (·.podUid)).Nodup
  pairs : probes.size = 5 ∧ ∀ name, name ∈ probes.keys ↔ name ∈ pairNames
  bound : ∀ c ∈ probes.values, c.probePassed = true ∧ ∃ source target i j,
    (c.pairId, source, target) ∈ expectedPairs ∧
    world.get? source = some i ∧ c.sourceEpoch = i.instanceEpoch ∧
    world.get? target = some j ∧ c.targetEpoch = j.instanceEpoch

/-- A complete, valid report of the present epoch that is received at a time up to now. -/
structure SoundReport (r : ClockedRegistry) (report : ResourceReport)
    (receivedAt : Option Nat) (identity : WorkerIdentity) : Prop where
  epoch : report.instanceEpoch = identity.instanceEpoch
  complete : report.complete = true ∧ report.hasResources = true
  schemaValid : r.registry.reportSchemaValid report identity = true
  received : receivedAt.getD r.now ≤ r.now

/-- The calls so far: the last installation, which was sound, and what came after it. -/
structure LastInstalled (start : ClockedRegistry) (calls before after : List RegistryCall)
    (identities : List WorkerIdentity) (capabilities : List PairCapability) : Prop where
  split : calls = before ++ .installWorld identities capabilities :: after
  valid : (start.afterAll before).registry.validWorld (memberMap identities)
    (pairMap capabilities) = true
  agrees : ∀ c ∈ after, c.Agrees (memberMap identities) (pairMap capabilities)

namespace ClockedRegistry

variable {start r : ClockedRegistry} {c : RegistryCall} {calls before after : List RegistryCall}
variable {identities : List WorkerIdentity} {capabilities : List PairCapability}
variable {members : Dict String WorkerIdentity} {pairs : Dict String PairCapability}

@[simp] theorem afterAll_nil : r.afterAll [] = r := rfl

@[simp] theorem afterAll_cons : r.afterAll (c :: calls) = (r.call c).2.afterAll calls := rfl

theorem afterAll_append (calls calls' : List RegistryCall) :
    r.afterAll (calls ++ calls') = (r.afterAll calls).afterAll calls' :=
  List.foldl_append

/-! ## The configuration -/

/-- The expectations of a registry never change. -/
structure SameExpectations (r r' : WorkerRegistry) : Prop where
  generation : r'.expectedTopologyGeneration = r.expectedTopologyGeneration
  compatibilityId : r'.expectedKvCompatibilityId = r.expectedKvCompatibilityId
  profile : r'.expectedModelProfile = r.expectedModelProfile
  rdma : r'.requireGpudirectRdma = r.requireGpudirectRdma
  staleAfter : r'.resourceReportStaleAfter = r.resourceReportStaleAfter

theorem SameExpectations.refl (r : WorkerRegistry) : SameExpectations r r :=
  ⟨rfl, rfl, rfl, rfl, rfl⟩

theorem SameExpectations.trans {r r' r'' : WorkerRegistry} (h : SameExpectations r r')
    (h' : SameExpectations r' r'') : SameExpectations r r'' :=
  ⟨h'.generation.trans h.generation, h'.compatibilityId.trans h.compatibilityId,
    h'.profile.trans h.profile, h'.rdma.trans h.rdma, h'.staleAfter.trans h.staleAfter⟩

theorem call_expectations (c : RegistryCall) (r : ClockedRegistry) :
    SameExpectations r.registry (r.call c).2.registry := by
  cases c with
  | installWorld identities capabilities =>
    simp only [call, WorkerRegistry.installWorld]
    split
    · exact ⟨rfl, rfl, rfl, rfl, rfl⟩
    · exact ⟨rfl, rfl, rfl, rfl, rfl⟩
  | observeIdentity identity =>
    simp only [call, WorkerRegistry.observeIdentity]
    split
    · exact .refl _
    · exact ⟨rfl, rfl, rfl, rfl, rfl⟩
  | observeCapabilities capabilities =>
    simp only [call, WorkerRegistry.observeCapabilities]
    split
    · exact .refl _
    · exact ⟨rfl, rfl, rfl, rfl, rfl⟩
  | updateResourceReport instanceId report receivedAt =>
    simp only [call, WorkerRegistry.updateResourceReport]
    split
    · exact .refl _
    · split
      · exact ⟨rfl, rfl, rfl, rfl, rfl⟩
      · exact .refl _
  | tick duration =>
    exact .refl _

theorem afterAll_expectations :
    ∀ (calls : List RegistryCall) (r : ClockedRegistry),
      SameExpectations r.registry (r.afterAll calls).registry
  | [], r => .refl r.registry
  | c :: rest, r => (call_expectations c r).trans (afterAll_expectations rest (r.call c).2)

/-! ## A world that is not contradicted -/

/-- The world of a ready registry. -/
structure Shows (members : Dict String WorkerIdentity) (pairs : Dict String PairCapability)
    (r : WorkerRegistry) : Prop where
  ready : r.state = .ready
  members : r.members = members
  pairs : r.capabilities = pairs

/-- What a call that agrees with the world may still do. -/
theorem Shows.call_cases (h : Shows members pairs r.registry) (hc : c.Agrees members pairs) :
    r.call c = (true, r) ∨ (∃ duration, c = .tick duration) ∨
      ∃ instanceId report receivedAt, c = .updateResourceReport instanceId report receivedAt := by
  cases c with
  | installWorld identities capabilities =>
    exact hc.elim
  | observeIdentity identity =>
    have hsame : r.registry.members.get? identity.instanceId = some identity := by
      rw [h.members]
      exact hc
    left
    simp [ClockedRegistry.call, WorkerRegistry.observeIdentity, hsame]
  | observeCapabilities capabilities =>
    have hsame : WorkerRegistry.sameCapabilities (pairMap capabilities)
        r.registry.capabilities = true := by
      rw [h.pairs]
      exact hc
    unfold pairMap at hsame
    left
    simp [ClockedRegistry.call, WorkerRegistry.observeCapabilities, hsame]
  | updateResourceReport instanceId report receivedAt =>
    exact .inr (.inr ⟨instanceId, report, receivedAt, rfl⟩)
  | tick duration =>
    exact .inr (.inl ⟨duration, rfl⟩)

theorem Shows.call (h : Shows members pairs r.registry) (hc : c.Agrees members pairs) :
    Shows members pairs (r.call c).2.registry := by
  rcases h.call_cases hc with heq | ⟨duration, rfl⟩ | ⟨instanceId, report, receivedAt, rfl⟩
  · rw [heq]
    exact h
  · exact h
  · simp only [ClockedRegistry.call, WorkerRegistry.updateResourceReport]
    split
    · exact h
    · split
      · exact ⟨h.ready, h.members, h.pairs⟩
      · exact h

/-- A call that agrees with the world does not fail. -/
theorem Shows.not_fails (h : Shows members pairs r.registry) (hc : c.Agrees members pairs) :
    c.fails r = false := by
  rcases h.call_cases hc with heq | ⟨duration, rfl⟩ | ⟨instanceId, report, receivedAt, rfl⟩
  · cases c <;> simp [RegistryCall.fails, heq]
  · rfl
  · rfl

theorem Shows.afterAll (h : Shows members pairs r.registry)
    (hcalls : ∀ c ∈ calls, c.Agrees members pairs) :
    Shows members pairs (r.afterAll calls).registry := by
  induction calls generalizing r with
  | nil =>
    exact h
  | cons c rest ih =>
    rw [List.forall_mem_cons] at hcalls
    exact ih (h.call hcalls.1) hcalls.2

/-- A registry that is ready after a call other than an installation agrees with the call. -/
theorem ready_call (h : (r.call c).2.registry.state = .ready)
    (hc : ∀ identities capabilities, c ≠ .installWorld identities capabilities) :
    r.registry.state = .ready ∧ c.Agrees r.registry.members r.registry.capabilities := by
  cases c with
  | installWorld identities capabilities =>
    exact absurd rfl (hc identities capabilities)
  | observeIdentity identity =>
    simp only [call, WorkerRegistry.observeIdentity] at h
    split at h
    · rename_i hsame
      exact ⟨h, hsame⟩
    · cases h
  | observeCapabilities capabilities =>
    simp only [call, WorkerRegistry.observeCapabilities] at h
    split at h
    · rename_i hsame
      exact ⟨h, hsame⟩
    · cases h
  | updateResourceReport instanceId report receivedAt =>
    simp only [call, WorkerRegistry.updateResourceReport] at h
    split at h
    · exact ⟨h, trivial⟩
    · split at h
      · exact ⟨h, trivial⟩
      · exact ⟨h, trivial⟩
  | tick duration =>
    exact ⟨h, trivial⟩

/-! ## The last installation -/

theorem installWorld_valid {r : WorkerRegistry}
    (h : r.validWorld (memberMap identities) (pairMap capabilities) = true) :
    r.installWorld identities capabilities = (true, { r with
      members := memberMap identities, capabilities := pairMap capabilities,
      resources := Dict.empty, state := .ready }) := by
  unfold memberMap pairMap at h
  simp only [WorkerRegistry.installWorld, h, if_true, memberMap, pairMap]

theorem installWorld_invalid {r : WorkerRegistry}
    (h : r.validWorld (memberMap identities) (pairMap capabilities) = false) :
    r.installWorld identities capabilities = (false, r.fail) := by
  unfold memberMap pairMap at h
  simp [WorkerRegistry.installWorld, h]

theorem call_valid
    (h : r.registry.validWorld (memberMap identities) (pairMap capabilities) = true) :
    Shows (memberMap identities) (pairMap capabilities)
        (r.call (.installWorld identities capabilities)).2.registry ∧
      (r.call (.installWorld identities capabilities)).2.registry.resources = Dict.empty := by
  simp only [call, installWorld_valid h]
  exact ⟨⟨rfl, rfl, rfl⟩, trivial⟩

end ClockedRegistry

open ClockedRegistry

variable {start r : ClockedRegistry} {c : RegistryCall} {calls before after : List RegistryCall}
variable {identities : List WorkerIdentity} {capabilities : List PairCapability}
variable {members : Dict String WorkerIdentity} {pairs : Dict String PairCapability}
variable {instanceId : String}

/-- The registry right after the last installation. -/
def installedWith (start : ClockedRegistry) (before : List RegistryCall)
    (identities : List WorkerIdentity) (capabilities : List PairCapability) : ClockedRegistry :=
  ((start.afterAll before).call (.installWorld identities capabilities)).2

theorem LastInstalled.afterAll_eq
    (h : LastInstalled start calls before after identities capabilities) :
    start.afterAll calls = (installedWith start before identities capabilities).afterAll after := by
  rw [h.split, afterAll_append, afterAll_cons]
  rfl

theorem LastInstalled.shows
    (h : LastInstalled start calls before after identities capabilities) :
    Shows (memberMap identities) (pairMap capabilities) (start.afterAll calls).registry := by
  rw [h.afterAll_eq]
  exact (call_valid h.valid).1.afterAll h.agrees

theorem LastInstalled.snoc
    (h : LastInstalled start calls before after identities capabilities)
    (hc : c.Agrees (memberMap identities) (pairMap capabilities)) :
    LastInstalled start (calls ++ [c]) before (after ++ [c]) identities capabilities where
  split := by
    simp [h.split]
  valid := h.valid
  agrees := by
    intro c' hc'
    rcases List.mem_append.mp hc' with hc' | hc'
    · exact h.agrees c' hc'
    · rw [List.mem_singleton.mp hc']
      exact hc

theorem LastInstalled.of_valid
    (h : (start.afterAll calls).registry.validWorld (memberMap identities)
      (pairMap capabilities) = true) :
    LastInstalled start (calls ++ [.installWorld identities capabilities]) calls [] identities
      capabilities where
  split := rfl
  valid := h
  agrees := by simp

/-- A ready registry owes its state to an installation. -/
theorem exists_lastInstalled (hstart : start.registry.state ≠ .ready) (calls : List RegistryCall) :
    (start.afterAll calls).registry.state = .ready → ∃ before after identities capabilities,
      LastInstalled start calls before after identities capabilities := by
  -- the history grows at its end
  induction calls using List.reverseRecOn with
  | nil =>
    intro h
    exact absurd h hstart
  | append_singleton calls c ih =>
    intro h
    rw [afterAll_append, afterAll_cons, afterAll_nil] at h
    by_cases hc : ∃ identities capabilities, c = .installWorld identities capabilities
    · obtain ⟨identities, capabilities, rfl⟩ := hc
      cases hvalid : (start.afterAll calls).registry.validWorld (memberMap identities)
          (pairMap capabilities) with
      | true =>
        exact ⟨calls, [], identities, capabilities, .of_valid hvalid⟩
      | false =>
        simp [call, installWorld_invalid hvalid, WorkerRegistry.fail] at h
    · have hother : ∀ identities capabilities, c ≠ .installWorld identities capabilities :=
        fun identities capabilities heq => hc ⟨identities, capabilities, heq⟩
      obtain ⟨hready, hagrees⟩ := ready_call h hother
      obtain ⟨before, after, identities, capabilities, hlast⟩ := ih hready
      have hshows := hlast.shows
      rw [hshows.members, hshows.pairs] at hagrees
      exact ⟨before, after ++ [c], identities, capabilities, hlast.snoc hagrees⟩

/-! ## Reports -/

/-- Among the calls a report of the instance was taken, as received at the given time. -/
def Reported (r : ClockedRegistry) (calls : List RegistryCall) (instanceId : String)
    (identity : WorkerIdentity) (time : Nat) : Prop :=
  ∃ mid report receivedAt rest,
    calls = mid ++ .updateResourceReport instanceId report receivedAt :: rest ∧
    SoundReport (r.afterAll mid) report receivedAt identity ∧
    receivedAt.getD (r.afterAll mid).now = time

theorem Reported.cons {identity : WorkerIdentity} {time : Nat}
    (h : Reported (r.call c).2 calls instanceId identity time) :
    Reported r (c :: calls) instanceId identity time := by
  obtain ⟨mid, report, receivedAt, rest, rfl, hsound, htime⟩ := h
  exact ⟨c :: mid, report, receivedAt, rest, rfl, hsound, htime⟩

/-- A call that agrees with the world takes at most one report. -/
theorem call_resources (h : Shows members pairs r.registry) (hc : c.Agrees members pairs)
    {entry : Nat × ResourceReport}
    (hentry : (r.call c).2.registry.resources.get? instanceId = some entry) :
    r.registry.resources.get? instanceId = some entry ∨
      ∃ receivedAt identity, c = .updateResourceReport instanceId entry.2 receivedAt ∧
        members.get? instanceId = some identity ∧
        SoundReport r entry.2 receivedAt identity ∧
        receivedAt.getD r.now = entry.1 := by
  rcases h.call_cases hc with heq | ⟨duration, rfl⟩ | ⟨other, report, receivedAt, rfl⟩
  · rw [heq] at hentry
    exact .inl hentry
  · exact .inl hentry
  · simp only [call, WorkerRegistry.updateResourceReport] at hentry
    split at hentry
    · exact .inl hentry
    rename_i identity hidentity
    split at hentry
    · rename_i hvalid
      rw [Dict.get?_set] at hentry
      split at hentry
      · rename_i hsame
        cases hentry
        subst hsame
        obtain ⟨hepoch, hcomplete, hresources, hschema, hreceived⟩ := hvalid
        rw [h.members] at hidentity
        exact .inr ⟨receivedAt, identity, rfl, hidentity,
          ⟨hepoch, ⟨hcomplete, hresources⟩, hschema, hreceived⟩, rfl⟩
      · exact .inl hentry
    · exact .inl hentry

/-- The reports of a world are those that were taken since its installation. -/
theorem reported_of_resources (h : Shows members pairs r.registry)
    (hcalls : ∀ c ∈ calls, c.Agrees members pairs) {entry : Nat × ResourceReport}
    (hentry : (r.afterAll calls).registry.resources.get? instanceId = some entry) :
    r.registry.resources.get? instanceId = some entry ∨
      ∃ identity, members.get? instanceId = some identity ∧
        Reported r calls instanceId identity entry.1 := by
  induction calls generalizing r with
  | nil =>
    exact .inl hentry
  | cons c rest ih =>
    rw [List.forall_mem_cons] at hcalls
    rcases ih (h.call hcalls.1) hcalls.2 hentry with hfirst | ⟨identity, hidentity, hrest⟩
    · rcases call_resources h hcalls.1 hfirst with hold | ⟨receivedAt, identity, rfl, hnew⟩
      · exact .inl hold
      · obtain ⟨hidentity, hsound, htime⟩ := hnew
        exact .inr ⟨identity, hidentity, [], entry.2, receivedAt, rest, rfl, hsound, htime⟩
    · exact .inr ⟨identity, hidentity, hrest.cons⟩

/-! ## Valid worlds -/

theorem mem_of_sameNames {a b : List String} (h : sameNames a b = true) (name : String) :
    name ∈ a ↔ name ∈ b := by
  simp only [sameNames, Bool.and_eq_true, List.all_eq_true, List.contains_iff_mem] at h
  exact ⟨h.1 name, h.2 name⟩

theorem size_of_sameNames {ν : Type} {d : Dict String ν} {names : List String}
    (h : sameNames d.keys names = true) (hnames : names.Nodup) : d.size = names.length := by
  have hperm : d.keys.Perm names :=
    (List.perm_ext_iff_of_nodup d.keys_nodup hnames).mpr (mem_of_sameNames h)
  rw [← d.keys_length, hperm.length_eq]

theorem admitCapability_bound {r : WorkerRegistry} {world : Dict String WorkerIdentity}
    {c : PairCapability} (h : r.admitCapability world c = true) :
    c.probePassed = true ∧ ∃ source target i j, (c.pairId, source, target) ∈ expectedPairs ∧
      world.get? source = some i ∧ c.sourceEpoch = i.instanceEpoch ∧
      world.get? target = some j ∧ c.targetEpoch = j.instanceEpoch := by
  unfold WorkerRegistry.admitCapability at h
  split at h
  · cases h
  rename_i name source target hfind
  have hmem := List.mem_of_find?_eq_some hfind
  have hname : name = c.pairId := by
    simpa using List.find?_some hfind
  simp only [Bool.and_eq_true, Option.any_eq_true, decide_eq_true_eq] at h
  obtain ⟨⟨⟨⟨hpassed, _⟩, i, hi, hsource⟩, j, hj, htarget⟩, _⟩ := h
  rw [hname] at hmem
  exact ⟨hpassed, source, target, i, j, hmem, hi, hsource, hj, htarget⟩

theorem validWorld_sound {r : WorkerRegistry} {world : Dict String WorkerIdentity}
    {probes : Dict String PairCapability} (h : r.validWorld world probes = true) :
    SoundWorld r.expectedTopologyGeneration world probes := by
  simp only [WorkerRegistry.validWorld, Bool.and_eq_true, List.all_eq_true,
    decide_eq_true_eq] at h
  obtain ⟨⟨⟨⟨⟨⟨⟨⟨⟨hmembers, hpairs⟩, hgeneration⟩, hdigests⟩, hpods⟩, _⟩, _⟩, _⟩, _⟩, hprobes⟩ := h
  have hsize : world.size = 4 := size_of_sameNames hmembers (by decide)
  exact {
    members := mem_of_sameNames hmembers
    generation := hgeneration
    digest := by
      obtain ⟨digest, hdigest⟩ := constant_of_dedup_length hdigests
      exact ⟨digest, fun i hi => hdigest _ (List.mem_map_of_mem hi)⟩
    pods := by
      refine ⟨hsize, nodup_of_dedup_length ?_⟩
      rw [hpods, List.length_map, Dict.values, List.length_map]
      exact hsize.symm
    pairs := ⟨size_of_sameNames hpairs (by decide), mem_of_sameNames hpairs⟩
    bound := fun c hc => admitCapability_bound (hprobes c hc) }

/-! ## Admission -/

/-- What an admission of an instance rests on: the last installation of a world, and a report. -/
structure Grounds (start : ClockedRegistry) (calls before after : List RegistryCall)
    (identities : List WorkerIdentity) (capabilities : List PairCapability)
    (instanceId : String) : Prop where
  split : calls = before ++ .installWorld identities capabilities :: after
  accepted : ((start.afterAll before).call (.installWorld identities capabilities)).1 = true
  sound : SoundWorld start.registry.expectedTopologyGeneration (memberMap identities)
    (pairMap capabilities)
  agrees : ∀ c ∈ after, c.Agrees (memberMap identities) (pairMap capabilities)
  reported : ∃ identity time, (memberMap identities).get? instanceId = some identity ∧
    Reported (installedWith start before identities capabilities) after instanceId identity time ∧
    (start.afterAll calls).now ≤ time + start.registry.resourceReportStaleAfter

theorem grounds_of_canAdmit (hstart : start.registry.state ≠ .ready)
    (h : (start.afterAll calls).canAdmit instanceId = true) :
    ∃ before after identities capabilities,
      Grounds start calls before after identities capabilities instanceId := by
  simp only [canAdmit, WorkerRegistry.canAdmit, WorkerRegistry.fresh, Bool.and_eq_true,
    decide_eq_true_eq, Option.any_eq_true] at h
  obtain ⟨hready, entry, hentry, hfresh⟩ := h
  obtain ⟨before, after, identities, capabilities, hlast⟩ :=
    exists_lastInstalled hstart calls hready
  obtain ⟨hshows, hempty⟩ := call_valid hlast.valid
  rw [hlast.afterAll_eq] at hentry
  refine ⟨before, after, identities, capabilities, {
    split := hlast.split
    accepted := by
      simp [call, installWorld_valid hlast.valid]
    sound := by
      rw [← (afterAll_expectations before start).generation]
      exact validWorld_sound hlast.valid
    agrees := hlast.agrees
    reported := ?_ }⟩
  rcases reported_of_resources hshows hlast.agrees hentry with hold |
    ⟨identity, hidentity, hreported⟩
  · rw [hempty, Dict.get?_empty] at hold
    cases hold
  · have hbound := (afterAll_expectations calls start).staleAfter
    exact ⟨identity, entry.1, hidentity, hreported, by omega⟩

theorem lastInstalled_of_grounds
    (h : Grounds start calls before after identities capabilities instanceId) :
    LastInstalled start calls before after identities capabilities where
  split := h.split
  valid := by
    have haccepted := h.accepted
    cases hvalid : (start.afterAll before).registry.validWorld (memberMap identities)
        (pairMap capabilities) with
    | true =>
      rfl
    | false =>
      simp [call, installWorld_invalid hvalid] at haccepted
  agrees := h.agrees

/-- The grounds of an admission come after every failure. -/
theorem Grounds.after_failure {first rest : List RegistryCall}
    (h : Grounds start (first ++ c :: rest) before after identities capabilities instanceId)
    (hc : c.fails (start.afterAll first) = true) :
    ∃ mid, before = first ++ c :: mid := by
  have hlast := lastInstalled_of_grounds h
  rcases List.append_eq_append_iff.mp h.split with ⟨mid, hbefore, hrest⟩ | ⟨mid, hfirst, hafter⟩
  · cases mid with
    | nil =>
      -- the failure would be the installation itself
      simp only [List.nil_append, List.cons.injEq] at hrest
      rw [hrest.1] at hc
      rw [List.append_nil] at hbefore
      rw [hbefore] at h
      simp [RegistryCall.fails, h.accepted] at hc
    | cons c' mid =>
      simp only [List.cons_append, List.cons.injEq] at hrest
      rw [← hrest.1] at hbefore
      exact ⟨mid, hbefore⟩
  · cases mid with
    | nil =>
      simp only [List.nil_append, List.cons.injEq] at hafter
      rw [← hafter.1] at hc
      rw [hfirst, List.append_nil] at hc
      simp [RegistryCall.fails, h.accepted] at hc
    | cons c' mid =>
      -- the failure would contradict the world that is installed
      simp only [List.cons_append, List.cons.injEq] at hafter
      obtain ⟨rfl, rfl⟩ := hafter
      have hmid : LastInstalled start first before mid identities capabilities :=
        ⟨hfirst, hlast.valid, fun c' hc' => h.agrees c' (by simp [hc'])⟩
      rw [hmid.shows.not_fails (h.agrees c (by simp))] at hc
      cases hc

/-- Whenever an instance is admitted, the last installed world was accepted and is sound, nothing
has contradicted it since, and a sound report of the present epoch was taken since and is no older
than the stale bound; and a failed installation or a contradicting observation is followed by
another installation and another report before any instance is admitted. -/
theorem admission_is_grounded (generation : String) (compatibilityId : Option String)
    (profile : Option (List (String × String))) (rdma : Bool) (staleAfter now : Nat) :
    (∀ calls instanceId,
      ((new generation compatibilityId profile rdma staleAfter now).afterAll calls).canAdmit
          instanceId = true →
        ∃ before after identities capabilities,
          Grounds (new generation compatibilityId profile rdma staleAfter now) calls before after
            identities capabilities instanceId) ∧
    ∀ first c rest instanceId,
      c.fails ((new generation compatibilityId profile rdma staleAfter now).afterAll first)
          = true →
      ((new generation compatibilityId profile rdma staleAfter now).afterAll
          (first ++ c :: rest)).canAdmit instanceId = true →
        ∃ mid after identities capabilities,
          rest = mid ++ .installWorld identities capabilities :: after ∧
          Grounds (new generation compatibilityId profile rdma staleAfter now) (first ++ c :: rest)
            (first ++ c :: mid) after identities capabilities instanceId := by
  have hstart : (new generation compatibilityId profile rdma staleAfter now).registry.state
      ≠ .ready := by
    simp [new]
  refine ⟨fun calls instanceId => grounds_of_canAdmit hstart, ?_⟩
  intro first c rest instanceId hc hadmit
  obtain ⟨before, after, identities, capabilities, h⟩ := grounds_of_canAdmit hstart hadmit
  obtain ⟨mid, rfl⟩ := h.after_failure hc
  refine ⟨mid, after, identities, capabilities, ?_, h⟩
  simpa using h.split

/-! ### A world that is contradicted -/

def memberOf (tag generation : String) (entry : String × String × Int) : WorkerIdentity where
  instanceId := entry.1
  role := entry.2.1
  topologyGeneration := generation
  podUid := tag ++ "-" ++ entry.1
  processGeneration := "1"
  rpcEndpoint := "http://" ++ entry.1
  globalRank := entry.2.2
  topologyDigest := "topology"
  kvCompatibilityId := "kv"

def membersOf (tag generation : String) : List WorkerIdentity :=
  expectedMembers.map (memberOf tag generation)

def capabilitiesOf (tag : String) : List PairCapability :=
  expectedPairs.map fun (name, source, target) =>
    ⟨name, tag ++ "-" ++ source ++ ":1", tag ++ "-" ++ target ++ ":1", "CUDA_IPC", "probe", true,
      "evidence"⟩

/-- An installed world with one report. -/
def oneReport : List RegistryCall :=
  [.installWorld (membersOf "a" "g1") (capabilitiesOf "a"),
    .updateResourceReport "p0" { instanceEpoch := "a-p0:1" } none]

/-- The world of the last member is contradicted, and the report comes once more. -/
def contradicted : List RegistryCall :=
  oneReport ++ [.observeIdentity (memberOf "b" "g1" ("d1", "decode", 3)),
    .updateResourceReport "p0" { instanceEpoch := "a-p0:1" } none]

-- a report counts until it is stale, and after a contradiction only once a world is installed again
example : [oneReport, oneReport ++ [.tick 3], contradicted, contradicted ++ oneReport.take 1,
      contradicted ++ oneReport].map
    (fun calls => ((new "g1" none none false 2 0).afterAll calls).canAdmit "p0") =
      [true, false, false, false, true] := by
  decide +kernel

end PrismServe
