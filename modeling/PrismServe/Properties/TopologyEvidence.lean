import PrismServe.Gateway.TopologyLedger
import PrismServe.Properties.RegistryAdmission

/-!
# Which world a commit replaces

The evidence of a request is checked by `stage` against the members of the
current world, but `commit` recognises that world only by the name of its
generation.  When every generation that is committed has a name that no earlier
world had, the name tells the worlds apart: a commit then replaces the very world
whose members the evidence names.  When a name comes back, it need not.
-/

namespace PrismServe

open Lib

namespace TopologyLedger

/-! ## Runs of the ledger -/

/-- A staged request, with the world it was checked against and when. -/
structure StagedRun where
  record : RestartRunRecord
  evidence : List TerminationRecord
  candidate : RegistryRef
  against : RegistryRef
  since : Nat

/-- A record that was committed: the world its evidence names, the world it replaced, and how many
worlds there had been when it was staged and when it was committed. -/
structure Publication where
  record : RestartRunRecord
  evidence : List TerminationRecord
  against : RegistryRef
  replaced : RegistryRef
  since : Nat
  position : Nat

/-- A ledger with the requests that are staged, and its history: `worlds` lists the registries that
were current, the present one last. -/
structure LedgerRun where
  heap : Registries
  ledger : TopologyLedger
  staged : List StagedRun := []
  worlds : List RegistryRef
  publications : List Publication := []

inductive LedgerCall
  | stage (now : Nat) (body : AcceptBody)
  | commit (i : Nat)
  | rollback (i : Nat) (oldRegistry : RegistryRef)
  | recover (record : RestartRunRecord)
  | accept (now : Nat) (body : AcceptBody)

/-- Commit a staged request and note what it replaced. -/
def commitRun (w : LedgerRun) (s : StagedRun) : LedgerRun :=
  match w.ledger.commit s.record s.candidate w.heap with
  | .error _ => w
  | .ok ledger =>
    if (w.ledger.records.get? s.record.restartRunId).isSome then { w with ledger := ledger }
    else { w with
      ledger := ledger
      worlds := w.worlds ++ [s.candidate]
      publications := w.publications ++
        [⟨s.record, s.evidence, s.against, w.ledger.registry, s.since, w.worlds.length⟩] }

/-- The staged request that a new candidate gives. -/
def LedgerRun.entry (w : LedgerRun) (body : AcceptBody) (staged : Staged) : StagedRun :=
  ⟨staged.record, body.terminationRecords, staged.candidate, w.ledger.registry, w.worlds.length⟩

def LedgerRun.step (D : Digests) (w : LedgerRun) : LedgerCall → LedgerRun
  | .stage now body =>
    match w.ledger.stage D now body w.heap with
    | .error _ => w
    | .ok (staged, heap, ledger) =>
      if staged.replay then { w with heap := heap, ledger := ledger }
      else { w with heap := heap, ledger := ledger, staged := w.staged ++ [w.entry body staged] }
  | .commit i =>
    match w.staged[i]? with
    | none => w
    | some s => commitRun w s
  | .rollback i oldRegistry =>
    match w.staged[i]? with
    | none => w
    | some s =>
      match w.ledger.rollback s.record s.candidate oldRegistry with
      | .error _ => w
      | .ok ledger => { w with ledger := ledger, worlds := w.worlds ++ [ledger.registry] }
  | .recover record =>
    match w.ledger.recoverCommittedRun record w.heap with
    | .error _ => w
    | .ok ledger => { w with ledger := ledger }
  | .accept now body =>
    match w.ledger.stage D now body w.heap with
    | .error _ => w
    | .ok (staged, heap, ledger) =>
      if staged.replay then { w with heap := heap, ledger := ledger }
      else commitRun { w with heap := heap, ledger := ledger } (w.entry body staged)

def LedgerRun.run (D : Digests) (w : LedgerRun) (calls : List LedgerCall) : LedgerRun :=
  calls.foldl (LedgerRun.step D) w

/-- A ledger over a first world. -/
def started (first : WorkerRegistry) (cap : Nat) : LedgerRun where
  heap := [first]
  ledger := ⟨0, Dict.empty, cap⟩
  worlds := [0]

/-- No world so far had this name. -/
def LedgerRun.newName (w : LedgerRun) (name : String) : Bool :=
  w.worlds.all fun ref => decide (generation w.heap ref ≠ some name)

/-- The run has its record already, or the name is new. -/
def LedgerRun.renews (w : LedgerRun) (record : RestartRunRecord) : Bool :=
  (w.ledger.records.get? record.restartRunId).isSome || w.newName record.newTopologyGeneration

/-- A call that publishes brings a new name, and one that rolls back restores a former world. -/
def LedgerRun.orderly (D : Digests) (w : LedgerRun) : LedgerCall → Bool
  | .commit i => (w.staged[i]?).all fun s => w.renews s.record
  | .accept _ body => w.renews (recordOf D body)
  | .rollback _ oldRegistry => w.worlds.contains oldRegistry
  | _ => true

def LedgerRun.Orderly (D : Digests) : LedgerRun → List LedgerCall → Prop
  | _, [] => True
  | w, call :: rest => w.orderly D call = true ∧ (w.step D call).Orderly D rest

/-- The proofs are about the pods and processes of a world. -/
def Binds (heap : Registries) (ref : RegistryRef) (evidence : List TerminationRecord) : Prop :=
  ∀ t ∈ evidence, ∃ world member, heap[ref]? = some world ∧
    world.members.get? t.logicalInstanceId = some member ∧ t.podUid = member.podUid ∧
      t.processGeneration = member.processGeneration

/-! ## What each method does -/

variable {w : LedgerRun} {L L' : TopologyLedger} {D : Digests} {record : RestartRunRecord}
  {body : AcceptBody} {s : StagedRun}

/-- A candidate is built only from evidence about the members of the current world. -/
theorem buildCandidate_binds {now : Nat} {old candidate : WorkerRegistry}
    (h : buildCandidate D now old body = .ok candidate) :
    body.oldTopologyGeneration = old.expectedTopologyGeneration ∧
      ∀ t ∈ body.terminationRecords, ∃ member,
        old.members.get? t.logicalInstanceId = some member ∧ t.podUid = member.podUid ∧
          t.processGeneration = member.processGeneration := by
  unfold buildCandidate at h
  obtain ⟨_, hold, h⟩ := bind_eq_ok.mp h
  obtain ⟨_, _, h⟩ := bind_eq_ok.mp h
  obtain ⟨_, _, h⟩ := bind_eq_ok.mp h
  obtain ⟨_, hbinds, _⟩ := bind_eq_ok.mp h
  refine ⟨of_decide_eq_true (ensure_eq_ok.mp hold), fun t ht => ?_⟩
  have hbound := forM_eq_ok.mp hbinds t ht
  unfold bindsOldWorld at hbound
  split at hbound
  · cases hbound
  rename_i member hmember
  obtain ⟨_, hpod, hprocess⟩ := bind_eq_ok.mp hbound
  exact ⟨member, hmember, of_decide_eq_true (ensure_eq_ok.mp hpod),
    of_decide_eq_true (ensure_eq_ok.mp hprocess)⟩

theorem stage_cases {now : Nat} {heap heap' : Registries} {staged : Staged}
    (h : L.stage D now body heap = .ok (staged, heap', L')) :
    (staged.replay = true ∧ heap' = heap ∧ L'.registry = L.registry) ∨
      (staged.replay = false ∧ L' = L ∧ staged.record = recordOf D body ∧
        staged.candidate = heap.length ∧ (∃ candidate, heap' = heap ++ [candidate]) ∧
        Binds heap L.registry body.terminationRecords ∧
        generation heap L.registry = some body.oldTopologyGeneration) := by
  unfold stage at h
  split at h
  · split at h
    · cases h
    · cases h
      exact .inl ⟨rfl, rfl, rfl⟩
  · split at h
    · cases h
    rename_i old hold
    obtain ⟨candidate, hbuild, h⟩ := bind_eq_ok.mp h
    cases h
    obtain ⟨hname, hbinds⟩ := buildCandidate_binds hbuild
    refine .inr ⟨rfl, rfl, rfl, rfl, ⟨candidate, rfl⟩, ?_, ?_⟩
    · intro t ht
      obtain ⟨member, hmember⟩ := hbinds t ht
      exact ⟨old, member, hold, hmember⟩
    · simp [generation, hold, hname]

theorem commit_cases {candidate : RegistryRef} {heap : Registries}
    (h : L.commit record candidate heap = .ok L') :
    ((L.records.get? record.restartRunId).isSome = true ∧ L' = L) ∨
      (L.records.get? record.restartRunId = none ∧
        generation heap L.registry = some record.oldTopologyGeneration ∧
        generation heap candidate = some record.newTopologyGeneration ∧
        L'.registry = candidate) := by
  unfold commit at h
  split at h
  · rename_i existing hexisting
    split at h
    · cases h
    · cases h
      exact .inl ⟨by simp [hexisting], rfl⟩
  · rename_i hnone
    split at h
    · cases h
    split at h
    · cases h
    · rename_i hold hnew
      cases h
      exact .inr ⟨hnone, not_not.mp hold, not_not.mp hnew, rfl⟩

theorem recoverCommittedRun_registry {heap : Registries}
    (h : L.recoverCommittedRun record heap = .ok L') : L'.registry = L.registry := by
  unfold recoverCommittedRun at h
  split at h
  · split at h
    · cases h
    · cases h
      rfl
  · split at h
    · cases h
    split at h
    · cases h
    · cases h
      rfl

theorem rollback_registry {candidate oldRegistry : RegistryRef}
    (h : L.rollback record candidate oldRegistry = .ok L') :
    L'.registry = L.registry ∨ L'.registry = oldRegistry := by
  unfold rollback at h
  split at h
  · cases h
    exact .inl rfl
  split at h
  · cases h
  · cases h
    exact .inr rfl

/-! ## The invariant -/

/-- What a staged request brings along. -/
structure Fits (worlds : List RegistryRef) (heap : Registries) (s : StagedRun) : Prop where
  against : s.against ∈ worlds
  candidate : s.candidate < heap.length
  name : generation heap s.against = some s.record.oldTopologyGeneration
  binds : Binds heap s.against s.evidence

structure LedgerInv (w : LedgerRun) : Prop where
  current : w.ledger.registry ∈ w.worlds
  valid : ∀ ref ∈ w.worlds, ref < w.heap.length
  named : ∀ a ∈ w.worlds, ∀ b ∈ w.worlds, generation w.heap a = generation w.heap b → a = b
  staged : ∀ s ∈ w.staged, Fits w.worlds w.heap s
  published : ∀ p ∈ w.publications, p.against = p.replaced ∧ Binds w.heap p.replaced p.evidence

theorem generation_append {heap : Registries} {ref : RegistryRef} (h : ref < heap.length)
    (r : WorkerRegistry) : generation (heap ++ [r]) ref = generation heap ref := by
  simp [generation, List.getElem?_append_left h]

theorem Binds.append {heap : Registries} {ref : RegistryRef} {evidence : List TerminationRecord}
    (h : Binds heap ref evidence) (r : WorkerRegistry) : Binds (heap ++ [r]) ref evidence := by
  intro t ht
  obtain ⟨world, member, hworld, hmember⟩ := h t ht
  refine ⟨world, member, ?_, hmember⟩
  rw [List.getElem?_append_left (List.getElem?_eq_some_iff.mp hworld).1]
  exact hworld

theorem started_inv (first : WorkerRegistry) (cap : Nat) : LedgerInv (started first cap) where
  current := by simp [started]
  valid := by simp [started]
  named := by simp [started]
  staged := by simp [started]
  published := by simp [started]

/-- A new candidate changes nothing for the worlds that are there. -/
theorem LedgerInv.grow (h : LedgerInv w) (r : WorkerRegistry) :
    LedgerInv { w with heap := w.heap ++ [r] } where
  current := h.current
  valid ref href := by
    rw [List.length_append]
    exact Nat.lt_succ_of_lt (h.valid ref href)
  named a ha b hb heq := by
    simp only [generation_append (h.valid a ha), generation_append (h.valid b hb)] at heq
    exact h.named a ha b hb heq
  staged s hs := by
    obtain ⟨hmem, hcandidate, hname, hbinds⟩ := h.staged s hs
    refine ⟨hmem, ?_, ?_, hbinds.append r⟩
    · rw [List.length_append]
      exact Nat.lt_succ_of_lt hcandidate
    · rw [← hname]
      exact generation_append (h.valid _ hmem) r
  published p hp := ⟨(h.published p hp).1, (h.published p hp).2.append r⟩

theorem LedgerInv.withLedger (h : LedgerInv w) {L : TopologyLedger}
    (hL : L.registry = w.ledger.registry) : LedgerInv { w with ledger := L } :=
  ⟨by simpa [hL] using h.current, h.valid, h.named, h.staged, h.published⟩

/-- The name of a run without a record is new. -/
theorem generation_ne_of_renews (h : w.renews record = true)
    (hnone : w.ledger.records.get? record.restartRunId = none) {ref : RegistryRef}
    (href : ref ∈ w.worlds) : generation w.heap ref ≠ some record.newTopologyGeneration := by
  simp only [LedgerRun.renews, hnone, Option.isSome_none, Bool.false_or] at h
  exact of_decide_eq_true (List.all_eq_true.mp h ref href)

/-- A new candidate leaves a new name new. -/
theorem LedgerInv.renews_grow (h : LedgerInv w) (r : WorkerRegistry)
    (hnew : w.renews record = true) :
    LedgerRun.renews { w with heap := w.heap ++ [r] } record = true := by
  simp only [LedgerRun.renews, Bool.or_eq_true] at hnew ⊢
  refine hnew.imp_right fun hnew => List.all_eq_true.mpr fun ref href => ?_
  rw [generation_append (h.valid ref href)]
  exact List.all_eq_true.mp hnew ref href

/-- A commit under a new name replaces the world that the evidence names. -/
theorem LedgerInv.commit (h : LedgerInv w) (hs : Fits w.worlds w.heap s)
    (hnew : w.renews s.record = true) :
    LedgerInv (commitRun w s) := by
  unfold commitRun
  split
  · exact h
  rename_i ledger hcommit
  rcases commit_cases hcommit with ⟨hsome, rfl⟩ | ⟨hnone, hold, hname, hregistry⟩
  · rw [if_pos hsome]
    exact h
  have hnames : ∀ ref ∈ w.worlds, generation w.heap ref ≠ generation w.heap s.candidate := by
    intro ref href
    rw [hname]
    exact generation_ne_of_renews hnew hnone href
  have hworld : s.against = w.ledger.registry :=
    h.named _ hs.against _ h.current (hs.name.trans hold.symm)
  rw [if_neg (by simp [hnone])]
  refine ⟨by simp [hregistry], ?_, ?_, ?_, ?_⟩
  · exact List.forall_mem_append.mpr ⟨h.valid, List.forall_mem_singleton.mpr hs.candidate⟩
  · intro a ha b hb heq
    rcases List.mem_append.mp ha with ha | ha
    · rcases List.mem_append.mp hb with hb | hb
      · exact h.named a ha b hb heq
      · cases List.mem_singleton.mp hb
        exact absurd heq (hnames a ha)
    · cases List.mem_singleton.mp ha
      rcases List.mem_append.mp hb with hb | hb
      · exact absurd heq.symm (hnames b hb)
      · exact (List.mem_singleton.mp hb).symm
  · exact fun x hx =>
      { h.staged x hx with against := List.mem_append_left _ (h.staged x hx).against }
  · exact List.forall_mem_append.mpr
      ⟨h.published, List.forall_mem_singleton.mpr ⟨hworld, hworld ▸ hs.binds⟩⟩

/-- The request that a stage adds fits the world it was checked against. -/
theorem LedgerInv.fits_entry (h : LedgerInv w) {staged : Staged} (candidate : WorkerRegistry)
    (hrecord : staged.record = recordOf D body) (hcandidate : staged.candidate = w.heap.length)
    (hbinds : Binds w.heap w.ledger.registry body.terminationRecords)
    (hname : generation w.heap w.ledger.registry = some body.oldTopologyGeneration) :
    Fits w.worlds (w.heap ++ [candidate]) (w.entry body staged) where
  against := h.current
  candidate := by simp [LedgerRun.entry, hcandidate]
  name := by
    simp only [LedgerRun.entry, hrecord, recordOf]
    rw [generation_append (h.valid _ h.current), hname]
  binds := hbinds.append candidate

theorem LedgerInv.step (h : LedgerInv w) {call : LedgerCall} (hcall : w.orderly D call = true) :
    LedgerInv (w.step D call) := by
  cases call with
  | stage now body =>
    simp only [LedgerRun.step]
    split
    · exact h
    rename_i staged heap ledger hstage
    rcases stage_cases hstage with ⟨hreplay, rfl, hregistry⟩ |
      ⟨hreplay, rfl, hrecord, hcandidate, ⟨candidate, rfl⟩, hbinds, hname⟩
    · rw [if_pos hreplay]
      exact h.withLedger hregistry
    rw [if_neg (by simp [hreplay])]
    have hgrown := h.grow candidate
    have hfits := h.fits_entry candidate hrecord hcandidate hbinds hname
    refine ⟨hgrown.current, hgrown.valid, hgrown.named, ?_, hgrown.published⟩
    exact List.forall_mem_append.mpr ⟨hgrown.staged, List.forall_mem_singleton.mpr hfits⟩
  | commit i =>
    simp only [LedgerRun.step]
    split
    · exact h
    · rename_i s hs
      refine h.commit (h.staged s (List.mem_of_getElem? hs)) ?_
      simpa [LedgerRun.orderly, hs] using hcall
  | rollback i oldRegistry =>
    simp only [LedgerRun.step]
    split
    · exact h
    split
    · exact h
    rename_i ledger hrollback
    have hformer : ledger.registry ∈ w.worlds := by
      rcases rollback_registry hrollback with hsame | hsame
      · rw [hsame]
        exact h.current
      · rw [hsame]
        simpa [LedgerRun.orderly] using hcall
    have hworlds : ∀ ref ∈ w.worlds ++ [ledger.registry], ref ∈ w.worlds :=
      List.forall_mem_append.mpr ⟨fun _ h => h, List.forall_mem_singleton.mpr hformer⟩
    refine ⟨by simp, fun ref href => h.valid ref (hworlds ref href), ?_, ?_, h.published⟩
    · intro a ha b hb heq
      exact h.named a (hworlds a ha) b (hworlds b hb) heq
    · exact fun s hs =>
        { h.staged s hs with against := List.mem_append_left _ (h.staged s hs).against }
  | recover record =>
    simp only [LedgerRun.step]
    split
    · exact h
    · rename_i ledger hrecover
      exact h.withLedger (recoverCommittedRun_registry hrecover)
  | accept now body =>
    simp only [LedgerRun.step]
    split
    · exact h
    rename_i staged heap ledger hstage
    rcases stage_cases hstage with ⟨hreplay, rfl, hregistry⟩ |
      ⟨hreplay, rfl, hrecord, hcandidate, ⟨candidate, rfl⟩, hbinds, hname⟩
    · rw [if_pos hreplay]
      exact h.withLedger hregistry
    rw [if_neg (by simp [hreplay])]
    have hnew : w.renews staged.record = true := by rwa [hrecord]
    exact (h.grow candidate).commit
      (h.fits_entry candidate hrecord hcandidate hbinds hname) (h.renews_grow candidate hnew)

theorem LedgerInv.run :
    ∀ {calls : List LedgerCall} {w : LedgerRun}, LedgerInv w → w.Orderly D calls →
      LedgerInv (w.run D calls)
  | [], _, h, _ => h
  | _ :: _, _, h, hcalls => (h.step hcalls.1).run hcalls.2

/-! ## Runs without a rollback -/

/-- Without a rollback every world is new, and only the last one is replaced. -/
structure ChainInv (w : LedgerRun) : Prop where
  nodup : w.worlds.Nodup
  last : w.worlds.getLast? = some w.ledger.registry
  staged : ∀ s ∈ w.staged, 0 < s.since ∧ w.worlds[s.since - 1]? = some s.against
  replaced : w.publications.map (·.replaced) = w.worlds.dropLast
  prompt : ∀ p ∈ w.publications, p.since = p.position

theorem started_chain (first : WorkerRegistry) (cap : Nat) : ChainInv (started first cap) where
  nodup := by simp [started]
  last := by simp [started]
  staged := by simp [started]
  replaced := by simp [started]
  prompt := by simp [started]

theorem ChainInv.congr {w w' : LedgerRun} (h : ChainInv w) (hworlds : w'.worlds = w.worlds)
    (hregistry : w'.ledger.registry = w.ledger.registry) (hstaged : w'.staged = w.staged)
    (hpublications : w'.publications = w.publications) : ChainInv w' where
  nodup := hworlds ▸ h.nodup
  last := by rw [hworlds, hregistry]; exact h.last
  staged := by rw [hworlds, hstaged]; exact h.staged
  replaced := by rw [hworlds, hpublications]; exact h.replaced
  prompt := hpublications ▸ h.prompt

theorem ChainInv.position (h : ChainInv w) :
    0 < w.worlds.length ∧ w.worlds[w.worlds.length - 1]? = some w.ledger.registry := by
  have hlast := h.last
  rw [List.getLast?_eq_getElem?] at hlast
  refine ⟨List.length_pos_of_mem (List.mem_of_getElem? hlast), hlast⟩

/-- In a chain the world that is replaced is the one that was last when the request was staged. -/
theorem ChainInv.commit (h : ChainInv w) (hinv : LedgerInv w) (hs : Fits w.worlds w.heap s)
    (hposition : 0 < s.since ∧ w.worlds[s.since - 1]? = some s.against)
    (hnew : w.renews s.record = true) : ChainInv (commitRun w s) := by
  unfold commitRun
  split
  · exact h
  rename_i ledger hcommit
  rcases commit_cases hcommit with ⟨hsome, rfl⟩ | ⟨hnone, hold, hname, hregistry⟩
  · rw [if_pos hsome]
    exact h
  rw [if_neg (by simp [hnone])]
  have hfresh : s.candidate ∉ w.worlds :=
    fun hmem => generation_ne_of_renews hnew hnone hmem hname
  have hworld : s.against = w.ledger.registry :=
    hinv.named _ hs.against _ hinv.current (hs.name.trans hold.symm)
  have hsince : s.since = w.worlds.length := by
    obtain ⟨hpos, hlast⟩ := h.position
    obtain ⟨hpos', hget⟩ := hposition
    obtain ⟨hlt, hget⟩ := List.getElem?_eq_some_iff.mp hget
    obtain ⟨hlt', hlast⟩ := List.getElem?_eq_some_iff.mp hlast
    have hindex := h.nodup.getElem_inj_iff.mp (hget.trans (hworld.trans hlast.symm))
    omega
  refine ⟨?_, by simp [hregistry], ?_, ?_, ?_⟩
  · exact h.nodup.append (List.nodup_singleton _) (by simpa using hfresh)
  · intro x hx
    obtain ⟨hpos, hget⟩ := h.staged x hx
    refine ⟨hpos, ?_⟩
    rw [List.getElem?_append_left (List.getElem?_eq_some_iff.mp hget).1]
    exact hget
  · rw [List.map_append, h.replaced, List.dropLast_concat]
    exact List.dropLast_append_getLast? _ h.last
  · exact List.forall_mem_append.mpr ⟨h.prompt, List.forall_mem_singleton.mpr hsince⟩

/-- A call that is no rollback. -/
def LedgerCall.isForward : LedgerCall → Bool
  | .rollback _ _ => false
  | _ => true

theorem ChainInv.step (h : ChainInv w) (hinv : LedgerInv w) {call : LedgerCall}
    (hcall : w.orderly D call = true) (hforward : call.isForward = true) :
    ChainInv (w.step D call) := by
  cases call with
  | stage now body =>
    simp only [LedgerRun.step]
    split
    · exact h
    rename_i staged heap ledger hstage
    rcases stage_cases hstage with ⟨hreplay, rfl, hregistry⟩ | ⟨hreplay, rfl, _⟩
    · rw [if_pos hreplay]
      exact h.congr rfl hregistry rfl rfl
    rw [if_neg (by simp [hreplay])]
    refine ⟨h.nodup, h.last, ?_, h.replaced, h.prompt⟩
    exact List.forall_mem_append.mpr ⟨h.staged, List.forall_mem_singleton.mpr h.position⟩
  | commit i =>
    simp only [LedgerRun.step]
    split
    · exact h
    rename_i s hs
    have hmem := List.mem_of_getElem? hs
    refine h.commit hinv (hinv.staged s hmem) (h.staged s hmem) ?_
    simpa [LedgerRun.orderly, hs] using hcall
  | rollback i oldRegistry =>
    cases hforward
  | recover record =>
    simp only [LedgerRun.step]
    split
    · exact h
    · rename_i ledger hrecover
      exact h.congr rfl (recoverCommittedRun_registry hrecover) rfl rfl
  | accept now body =>
    simp only [LedgerRun.step]
    split
    · exact h
    rename_i staged heap ledger hstage
    rcases stage_cases hstage with ⟨hreplay, rfl, hregistry⟩ |
      ⟨hreplay, rfl, hrecord, hcandidate, ⟨candidate, rfl⟩, hbinds, hname⟩
    · rw [if_pos hreplay]
      exact h.congr rfl hregistry rfl rfl
    rw [if_neg (by simp [hreplay])]
    have hgrown : ChainInv { w with heap := w.heap ++ [candidate] } :=
      h.congr rfl rfl rfl rfl
    have hnew : w.renews staged.record = true := by rwa [hrecord]
    exact hgrown.commit (hinv.grow candidate)
      (hinv.fits_entry candidate hrecord hcandidate hbinds hname) h.position
      (hinv.renews_grow candidate hnew)

theorem ChainInv.run :
    ∀ {calls : List LedgerCall} {w : LedgerRun}, ChainInv w → LedgerInv w → w.Orderly D calls →
      (∀ call ∈ calls, call.isForward = true) → ChainInv (w.run D calls)
  | [], _, h, _, _, _ => h
  | call :: _, _, h, hinv, hcalls, hforward =>
    (h.step hinv hcalls.1 (hforward call (by simp))).run (hinv.step hcalls.1) hcalls.2
      fun x hx => hforward x (by simp [hx])

/-- In every run whose publications bring new names and whose rollbacks restore former worlds, a
commit that publishes replaces the very world that the evidence of its record was checked
against.  Where nothing is rolled back, at most one record is committed out of each world, and none
after another world was published since it was staged. -/
theorem commit_replaces_staged_world (D : Digests) (first : WorkerRegistry) (cap : Nat)
    (calls : List LedgerCall) (horderly : (started first cap).Orderly D calls) :
    (∀ p ∈ ((started first cap).run D calls).publications,
      p.against = p.replaced ∧ Binds ((started first cap).run D calls).heap p.replaced p.evidence) ∧
    ((∀ call ∈ calls, call.isForward = true) →
      (((started first cap).run D calls).publications.map (·.replaced)).Nodup ∧
      ∀ p ∈ ((started first cap).run D calls).publications, p.since = p.position) := by
  have hinv := (started_inv first cap).run horderly
  refine ⟨hinv.published, fun hforward => ?_⟩
  have hchain := (started_chain first cap).run (started_inv first cap) horderly hforward
  refine ⟨?_, hchain.prompt⟩
  rw [hchain.replaced]
  exact hchain.nodup.sublist (List.dropLast_sublist _)

/-! ## A name that comes back -/

def aDigest : String :=
  "sha256:0000000000000000000000000000000000000000000000000000000000000000"

def terminationOf (generation : String) (i : WorkerIdentity) : TerminationRecord where
  logicalInstanceId := i.instanceId
  topologyGeneration := generation
  podUid := i.podUid
  nodeUid := "node"
  containerName := "worker"
  capturedContainerId := i.podUid ++ "-container"
  processGeneration := i.processGeneration
  watchStartResourceVersion := "1"
  observedResourceVersion := "2"
  deletionResourceVersion := "3"
  restartCountBefore := 0
  restartCountObserved := 0
  terminationSource := "state.terminated"
  terminationEventType := "MODIFIED"
  deletionEventType := "DELETED"
  terminated := ⟨0, "", none, "start", "end"⟩
  adjacentCurrentContainerId := none
  podDeletionObserved := true
  rawPodJsonSha256 := aDigest
  terminationRawObservationSequence := some (2 * i.globalRank + 1)
  deletionRawPodJsonSha256 := aDigest
  deletionRawObservationSequence := some (2 * i.globalRank + 2)
  observationSha256 := aDigest

/-- A request that replaces the pods of one tag by those of another. -/
def requestOf (run : String) (oldTag oldGeneration newTag newGeneration : String) : AcceptBody where
  restartRunId := run
  oldTopologyGeneration := oldGeneration
  newTopologyGeneration := newGeneration
  terminationRecords := (membersOf oldTag oldGeneration).map (terminationOf oldGeneration)
  identities := (membersOf newTag newGeneration).map fun i => ⟨i, none⟩
  pairCapabilities := capabilitiesOf newTag
  resourceReports := (membersOf newTag newGeneration).map fun i =>
    (i.instanceId, { instanceEpoch := i.instanceEpoch, excludedOperationIds := some []
                     excludedResourceIds := some [] })
  oldOperationIds := some []
  oldResourceIds := some []
  digest := run

def plainDigests : Digests where
  observation _ := aDigest
  termination t := "sha256:" ++ t.logicalInstanceId
  report r := "sha256:" ++ r.instanceEpoch
  capability c := "sha256:" ++ c.pairId

/-- A first world of pods with a tag. -/
def worldOf (tag generation : String) : WorkerRegistry :=
  (WorkerRegistry.installWorld (membersOf tag generation) (capabilitiesOf tag)
    { expectedTopologyGeneration := generation }).2

/-- One replacement under a new name, staged and committed. -/
theorem single_replacement_binds :
    (started (worldOf "a" "g0") 4096).Orderly plainDigests
      [.stage 0 (requestOf "run 1" "a" "g0" "b" "g1"), .commit 0] ∧
    ((started (worldOf "a" "g0") 4096).run plainDigests
      [.stage 0 (requestOf "run 1" "a" "g0" "b" "g1"), .commit 0]).publications.length = 1 ∧
    ∀ p ∈ ((started (worldOf "a" "g0") 4096).run plainDigests
      [.stage 0 (requestOf "run 1" "a" "g0" "b" "g1"), .commit 0]).publications,
      p.against = p.replaced := by
  have horderly : (started (worldOf "a" "g0") 4096).Orderly plainDigests
      [.stage 0 (requestOf "run 1" "a" "g0" "b" "g1"), .commit 0] :=
    ⟨by decide +kernel, by decide +kernel, trivial⟩
  refine ⟨horderly, by decide +kernel, fun p hp => ?_⟩
  exact ((commit_replaces_staged_world plainDigests (worldOf "a" "g0") 4096 _ horderly).1 p hp).1

/-- A request is staged in the first world; two other runs are accepted, the second under the name
of the first world but with new pods; then the staged request is committed out of that world. -/
theorem recurring_name_misbinds :
    ((started (worldOf "a" "g0") 4096).run plainDigests
      [.stage 0 (requestOf "run 1" "a" "g0" "b" "g1"),
        .accept 0 (requestOf "run 2" "a" "g0" "c" "g2"),
        .accept 0 (requestOf "run 3" "c" "g2" "d" "g0"),
        .commit 0]).publications.map
      (fun p => (p.record.restartRunId, p.against, p.replaced, p.since, p.position)) =
      [("run 2", 0, 0, 1, 1), ("run 3", 2, 2, 2, 2), ("run 1", 0, 3, 1, 3)] := by
  decide +kernel

end TopologyLedger

end PrismServe
