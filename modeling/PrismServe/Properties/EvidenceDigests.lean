import PrismServe.Router.EvidenceDigests
import PrismServe.Lib.Methods

/-!
# What the digests of evidence determine

With a hash that is injective a digest determines the document it was made from, up
to the order of fields.  Both documents list their entries in an order in which only
equal entries tie, so that the list is determined by the entries and not by the order
in which they came.
-/

namespace PrismServe

open Lib

/-- Equal digests with an injective hash are digests of one document, up to the order of
fields. -/
theorem digest_eq_iff {d : Json.Digest} (hsha : Function.Injective d.sha256) {v w : Json}
    (hv : v.Proper) (hw : w.Proper) :
    "sha256:" ++ d.sha256 (Json.dumps d.ascii v) = "sha256:" ++ d.sha256 (Json.dumps d.ascii w) ↔
      v.sortKeys = w.sortKeys := by
  rw [String.append_right_inj, hsha.eq_iff, Json.dumps_eq_iff hv hw]

/-! ## Listed operations -/

theorem EndpointState.text_injective : Function.Injective EndpointState.text := by
  intro a b h
  cases a <;> cases b <;> first | rfl | exact absurd h (by decide)

namespace EndpointOperationRef

theorem toJson_proper (ref : EndpointOperationRef) : ref.toJson.Proper := by
  refine .object (by simp) ?_
  simp only [List.mem_cons, List.not_mem_nil, or_false, forall_eq_or_imp, forall_eq]
  exact ⟨.string _, .string _, .integer _, .string _, .string _, .string _, .string _⟩

theorem toJson_sortKeys_injective {a b : EndpointOperationRef}
    (h : a.toJson.sortKeys = b.toJson.sortKeys) : a = b := by
  replace h := (Json.sortKeys_eq_iff_of_keys (by simp) (by rfl)).mp h
  cases a
  cases b
  simp_all [Json.sortKeys]

theorem sortKey_injective : Function.Injective sortKey := by
  intro a b h
  cases a
  cases b
  simp_all [sortKey]

end EndpointOperationRef

namespace ParsedOperationSnapshot

theorem toJson_proper (value : ParsedOperationSnapshot) : value.toJson.Proper := by
  refine .object (by simp) ?_
  simp only [List.mem_cons, List.not_mem_nil, or_false, forall_eq_or_imp, forall_eq]
  refine ⟨value.endpointRef.toJson_proper, .string _, .bool _, .array fun v hv => ?_⟩
  obtain ⟨kind, -, rfl⟩ := List.mem_map.mp hv
  exact .string kind

theorem toJson_sortKeys_injective {a b : ParsedOperationSnapshot}
    (h : a.toJson.sortKeys = b.toJson.sortKeys) : a = b := by
  replace h := (Json.sortKeys_eq_iff_of_keys (by simp) (by rfl)).mp h
  simp only [List.map_cons, List.map_nil, List.cons.injEq, and_true, Json.sortKeys_array,
    Json.array.injEq, List.map_map] at h
  obtain ⟨href, hstate, hheld, hkinds⟩ := h
  have href := EndpointOperationRef.toJson_sortKeys_injective href
  have hstate := EndpointState.text_injective (Json.string.inj hstate)
  have hkinds : a.heldResourceKinds = b.heldResourceKinds :=
    List.map_injective_iff.mpr (fun s t h => Json.string.inj h) hkinds
  cases a
  cases b
  simp_all [Json.sortKeys]

end ParsedOperationSnapshot

theorem operationListPayload_proper (epoch : String) (snapshots : List ParsedOperationSnapshot) :
    (operationListPayload epoch snapshots).Proper := by
  refine .object (by simp) ?_
  simp only [List.mem_cons, List.not_mem_nil, or_false, forall_eq_or_imp, forall_eq]
  refine ⟨.string _, .bool _, .array fun v hv => ?_⟩
  obtain ⟨value, -, rfl⟩ := List.mem_map.mp hv
  exact value.toJson_proper

theorem operationListPayload_sortKeys_iff (epoch : String)
    (snapshots snapshots' : List ParsedOperationSnapshot) :
    (operationListPayload epoch snapshots).sortKeys =
        (operationListPayload epoch snapshots').sortKeys ↔ snapshots = snapshots' := by
  refine ⟨fun h => ?_, fun h => by rw [h]⟩
  replace h := (Json.sortKeys_eq_iff_of_keys (by simp) (by rfl)).mp h
  simp only [List.map_cons, List.map_nil, List.cons.injEq, and_true, Json.sortKeys_array,
    Json.array.injEq, List.map_map] at h
  exact List.map_injective_iff.mpr
    (fun a b h => ParsedOperationSnapshot.toJson_sortKeys_injective h) h.2.2

/-- The digests of operations with distinct references are the same exactly when the operations
are, up to their order. -/
theorem reportDigest_eq_iff_perm {d : Json.Digest} (hsha : Function.Injective d.sha256)
    {w w' : OldWorker} (hepoch : w.epoch = w'.epoch) {ops ops' : List ParsedOperationSnapshot}
    (hdistinct : (ops.map (·.endpointRef)).Nodup) :
    (operationListEvidence d w ops).reportDigest =
        (operationListEvidence d w' ops').reportDigest ↔ ops.Perm ops' := by
  simp only [operationListEvidence]
  rw [digest_eq_iff hsha (operationListPayload_proper _ _) (operationListPayload_proper _ _),
    hepoch, operationListPayload_sortKeys_iff]
  refine insertionSort_key_eq_iff fun a ha b hb hkey => ?_
  exact List.inj_on_of_nodup_map hdistinct ha hb (EndpointOperationRef.sortKey_injective hkey)

/-! ### Operations as they are listed -/

/-- The kinds of resources in the order in which an entry lists them. -/
def listedKinds (fields : JsonObject) : Option (List String) :=
  (fields.lookup "held_resource_kinds").bind Json.texts?

/-- Two entries describe the same operation, up to the order of the held kinds. -/
def SameOperation (x y : Json) : Prop :=
  ∃ fields fields' ref ref' kinds kinds', x = .object fields ∧ y = .object fields' ∧
    fields.lookup "endpoint_ref" = some (.object ref) ∧
    fields'.lookup "endpoint_ref" = some (.object ref') ∧
    (∀ field ∈ endpointRefFields, ref.lookup field = ref'.lookup field) ∧
    fields.lookup "state" = fields'.lookup "state" ∧
    fields.lookup "resources_held" = fields'.lookup "resources_held" ∧
    listedKinds fields = some kinds ∧ listedKinds fields' = some kinds' ∧ kinds.Perm kinds'

/-- The fields of a reference. -/
structure RefFields (fields : JsonObject) (ref : EndpointOperationRef) : Prop where
  topologyGeneration : fields.lookup "topology_generation" = some (.string ref.topologyGeneration)
  ownerGeneration : fields.lookup "owner_generation" = some (.string ref.ownerGeneration)
  operationSeq : fields.lookup "operation_seq" = some (.integer ref.operationSeq)
  targetInstance : fields.lookup "target_instance" = some (.string ref.targetInstance)
  targetWorkerEpoch : fields.lookup "target_worker_epoch" = some (.string ref.targetWorkerEpoch)
  operationId : fields.lookup "operation_id" = some (.string ref.operationId)
  payloadDigest : fields.lookup "payload_digest" = some (.string ref.payloadDigest)

/-- The entry from which a snapshot was parsed. -/
structure Describes (fields ref : JsonObject) (kinds : List String)
    (a : ParsedOperationSnapshot) : Prop where
  endpointRef : fields.lookup "endpoint_ref" = some (.object ref)
  refFields : RefFields ref a.endpointRef
  state : fields.lookup "state" = some (.string a.state.text)
  resourcesHeld : fields.lookup "resources_held" = some (.bool a.resourcesHeld)
  listed : listedKinds fields = some kinds
  heldResourceKinds : a.heldResourceKinds = kinds.insertionSort (· ≤ ·)

section Parsed

variable {context : String}

theorem refText_eq_ok {object : JsonObject} {field s : String}
    (h : refText context object field = .ok s) : object.lookup field = some (.string s) := by
  unfold refText at h
  split at h
  · rename_i hlookup
    split at h
    · cases h
    · cases h
      exact hlookup
  · cases h

theorem refSequence_eq_ok {object : JsonObject} {n : Int}
    (h : refSequence context object = .ok n) :
    object.lookup "operation_seq" = some (.integer n) := by
  unfold refSequence at h
  split at h
  · rename_i hlookup
    split at h
    · cases h
    · cases h
      exact hlookup
  · cases h

theorem parseEndpointRef_eq_ok {value : Option Json} {ref : EndpointOperationRef}
    (h : parseEndpointRef context value = .ok ref) :
    ∃ fields, value = some (.object fields) ∧ RefFields fields ref := by
  unfold parseEndpointRef at h
  split at h
  · rename_i fields
    split at h
    · simp only [bind_eq_ok, return_eq_ok, Except.ok.injEq] at h
      obtain
        ⟨_, htopology, _, howner, _, hinstance, _, hepoch, _, hid, _, hdigest, _, hseq, rfl⟩ := h
      exact ⟨fields, rfl, refText_eq_ok htopology, refText_eq_ok howner, refSequence_eq_ok hseq,
        refText_eq_ok hinstance, refText_eq_ok hepoch, refText_eq_ok hid, refText_eq_ok hdigest⟩
    · cases h
  · cases h

theorem parseOperationState_eq_ok {value : Option Json} {state : EndpointState}
    (h : parseOperationState context value = .ok state) : value = some (.string state.text) := by
  unfold parseOperationState at h
  split at h <;> cases h <;> rfl

theorem parseHeldKinds_eq_ok {value : Option Json} {kinds : List String}
    (h : parseHeldKinds context value = .ok kinds) :
    ∃ listed, value.bind Json.texts? = some listed ∧ kinds = listed.insertionSort (· ≤ ·) := by
  unfold parseHeldKinds at h
  split at h
  · rename_i listed hlisted
    split at h
    · cases h
    · cases h
      exact ⟨listed, hlisted, rfl⟩
  · cases h

theorem parseOperationSnapshot_eq_ok {w : OldWorker} {value : Json} {a : ParsedOperationSnapshot}
    (h : parseOperationSnapshot context w none value = .ok a) :
    ∃ fields ref kinds, value = .object fields ∧ Describes fields ref kinds a := by
  cases value with
  | object fields =>
    rw [parseOperationSnapshot] at h
    obtain ⟨ref, href, hrest⟩ := bind_eq_ok.mp h
    simp only [Option.any_none, Bool.false_eq_true, if_false] at hrest
    split at hrest
    · cases hrest
    obtain ⟨state, hstate, hrest⟩ := bind_eq_ok.mp hrest
    split at hrest
    · rename_i held hheld
      simp only [ok_bind] at hrest
      obtain ⟨kinds, hkinds, hrest⟩ := bind_eq_ok.mp hrest
      split at hrest
      · cases hrest
      cases hrest
      obtain ⟨refFields, hobject, hfields⟩ := parseEndpointRef_eq_ok href
      obtain ⟨listed, hlisted, rfl⟩ := parseHeldKinds_eq_ok hkinds
      exact ⟨fields, refFields, listed, rfl, hobject, hfields,
        parseOperationState_eq_ok hstate, hheld, hlisted, rfl⟩
    · cases hrest
  | _ =>
    cases h

/-- References with the same fields are the same. -/
theorem RefFields.eq_iff {fields fields' : JsonObject} {ref ref' : EndpointOperationRef}
    (h : RefFields fields ref) (h' : RefFields fields' ref') :
    (∀ field ∈ endpointRefFields, fields.lookup field = fields'.lookup field) ↔ ref = ref' := by
  simp only [endpointRefFields, List.mem_cons, List.not_mem_nil, or_false, forall_eq_or_imp,
    forall_eq, h.topologyGeneration, h.ownerGeneration, h.operationSeq, h.targetInstance,
    h.targetWorkerEpoch, h.operationId, h.payloadDigest, h'.topologyGeneration,
    h'.ownerGeneration, h'.operationSeq, h'.targetInstance, h'.targetWorkerEpoch, h'.operationId,
    h'.payloadDigest, Option.some.injEq, Json.string.injEq, Json.integer.injEq]
  cases ref
  cases ref'
  simp

/-- Entries describe the same operation exactly when they are parsed to the same snapshot. -/
theorem sameOperation_iff {w w' : OldWorker} {x y : Json} {a b : ParsedOperationSnapshot}
    (hx : parseOperationSnapshot context w none x = .ok a)
    (hy : parseOperationSnapshot context w' none y = .ok b) : SameOperation x y ↔ a = b := by
  obtain ⟨fields, ref, kinds, rfl, ha⟩ := parseOperationSnapshot_eq_ok hx
  obtain ⟨fields', ref', kinds', rfl, hb⟩ := parseOperationSnapshot_eq_ok hy
  have hkinds : kinds.Perm kinds' ↔ a.heldResourceKinds = b.heldResourceKinds := by
    rw [ha.heldResourceKinds, hb.heldResourceKinds]
    exact (insertionSort_key_eq_iff fun _ _ _ _ h => h).symm
  have href := ha.refFields.eq_iff hb.refFields
  constructor
  · rintro ⟨_, _, r, r', k, k', ⟨⟩, ⟨⟩, hr, hr', hfields, hstate, hheld, hk, hk', hperm⟩
    rw [ha.endpointRef] at hr
    rw [hb.endpointRef] at hr'
    rw [ha.listed] at hk
    rw [hb.listed] at hk'
    cases hr
    cases hr'
    cases hk
    cases hk'
    rw [ha.state, hb.state, Option.some.injEq, Json.string.injEq] at hstate
    rw [ha.resourcesHeld, hb.resourcesHeld, Option.some.injEq, Json.bool.injEq] at hheld
    have href := href.mp hfields
    have hstate := EndpointState.text_injective hstate
    have hkinds := hkinds.mp hperm
    cases a
    cases b
    simp_all
  · rintro rfl
    exact ⟨fields, fields', ref, ref', kinds, kinds', rfl, rfl, ha.endpointRef, hb.endpointRef,
      href.mpr rfl, by rw [ha.state, hb.state], by rw [ha.resourcesHeld, hb.resourcesHeld],
      ha.listed, hb.listed, hkinds.mpr rfl⟩

end Parsed

/-- The operations that a report lists. -/
theorem parseCompleteOperationReport_eq_ok {w : OldWorker} {cap : Option Nat} {report : JsonObject}
    {ops : List ParsedOperationSnapshot} {raw : List Json}
    (h : parseCompleteOperationReport w cap report = .ok ops)
    (hraw : report.lookup "operations" = some (.array raw)) :
    List.Forall₂ (fun x a => parseOperationSnapshot "old-owner operation list" w none x = .ok a)
      raw ops := by
  unfold parseCompleteOperationReport at h
  split at h
  · split at h
    · split at h
      · cases h
      rw [hraw] at h
      simp only at h
      split at h
      · cases h
      · exact mapM_eq_ok.mp h
    · cases h
  · cases h

/-! ## Prefix reports -/

namespace Directory

namespace CacheLocation

/-- A location without the time of its last update. -/
def ignoringUpdate (l : CacheLocation) : CacheLocation := { l with lastUpdated := 0 }

theorem toJson_proper (l : CacheLocation) : l.toJson.Proper := by
  refine .object (by simp) ?_
  simp only [List.mem_cons, List.not_mem_nil, or_false, forall_eq_or_imp, forall_eq]
  exact ⟨.string _, .string _, .string _, .string _, .string _, .integer _, .integer _,
    .integer _, .integer _⟩

theorem toJson_sortKeys_iff {a b : CacheLocation} :
    a.toJson.sortKeys = b.toJson.sortKeys ↔ a.ignoringUpdate = b.ignoringUpdate := by
  refine (Json.sortKeys_eq_iff_of_keys (by simp) (by rfl)).trans ?_
  cases a
  cases b
  simp [Json.sortKeys, ignoringUpdate]

theorem toJson_eq_iff {a b : CacheLocation} :
    a.toJson = b.toJson ↔ a.ignoringUpdate = b.ignoringUpdate := by
  cases a
  cases b
  simp [toJson, ignoringUpdate]

end CacheLocation

namespace PrefixReport

variable {d : Json.Digest} {r r' : PrefixReport}

theorem mem_orderedLocations {v : Json} :
    v ∈ r.orderedLocations d ↔ ∃ l ∈ r.locations, l.toJson = v := by
  rw [orderedLocations, List.mem_insertionSort, List.mem_map]

theorem payload_proper (d : Json.Digest) (r : PrefixReport) : (r.payload d).Proper := by
  refine .object (by simp) ?_
  simp only [List.mem_cons, List.not_mem_nil, or_false, forall_eq_or_imp, forall_eq]
  refine ⟨.string _, .string _, .integer _, .array fun v hv => ?_⟩
  obtain ⟨l, -, rfl⟩ := mem_orderedLocations.mp hv
  exact l.toJson_proper

/-- The texts of locations tie only when the locations are the same. -/
theorem orderedLocations_eq_iff :
    r.orderedLocations d = r'.orderedLocations d ↔
      (r.locations.map CacheLocation.ignoringUpdate).Perm
        (r'.locations.map CacheLocation.ignoringUpdate) := by
  rw [← map_perm_map_congr fun a b => CacheLocation.toJson_eq_iff]
  refine insertionSort_key_eq_iff fun v hv w hw htext => ?_
  obtain ⟨a, -, rfl⟩ := List.mem_map.mp hv
  obtain ⟨b, -, rfl⟩ := List.mem_map.mp hw
  rw [Json.dumps_eq_iff a.toJson_proper b.toJson_proper] at htext
  rw [CacheLocation.toJson_eq_iff, ← CacheLocation.toJson_sortKeys_iff]
  exact htext

theorem orderedLocations_eq_map (d : Json.Digest) (r : PrefixReport) :
    ∃ l : List CacheLocation, r.orderedLocations d = l.map CacheLocation.toJson := by
  refine ⟨r.locations.insertionSort fun a b =>
    Json.dumps d.ascii a.toJson ≤ Json.dumps d.ascii b.toJson, ?_⟩
  exact (List.map_insertionSort _ _ CacheLocation.toJson _ fun _ _ _ _ => Iff.rfl).symm

theorem payload_sortKeys_iff :
    (r.payload d).sortKeys = (r'.payload d).sortKeys ↔
      r.instanceId = r'.instanceId ∧ r.instanceEpoch = r'.instanceEpoch ∧
      r.snapshotSeqNo = r'.snapshotSeqNo ∧ r.orderedLocations d = r'.orderedLocations d := by
  obtain ⟨l, hl⟩ := orderedLocations_eq_map d r
  obtain ⟨l', hl'⟩ := orderedLocations_eq_map d r'
  -- sorting the keys of locations identifies no more of them than their texts do
  have hmap := map_eq_map_congr (f := fun a : CacheLocation => a.toJson.sortKeys)
    (g := CacheLocation.toJson)
    (fun a b => CacheLocation.toJson_sortKeys_iff.trans CacheLocation.toJson_eq_iff.symm) l l'
  refine (Json.sortKeys_eq_iff_of_keys (by simp) (by rfl)).trans ?_
  simp only [List.map_cons, List.map_nil, List.cons.injEq, and_true, hl, hl', Json.sortKeys_array,
    List.map_map, Function.comp_def, Json.array.injEq, hmap]
  simp only [Json.sortKeys, Json.string.injEq, Json.integer.injEq]

theorem contentDigest_eq_iff (hsha : Function.Injective d.sha256) (r r' : PrefixReport) :
    r.contentDigest d = r'.contentDigest d ↔
      r.instanceId = r'.instanceId ∧ r.instanceEpoch = r'.instanceEpoch ∧
      r.snapshotSeqNo = r'.snapshotSeqNo ∧
      (r.locations.map CacheLocation.ignoringUpdate).Perm
        (r'.locations.map CacheLocation.ignoringUpdate) := by
  rw [contentDigest, contentDigest, digest_eq_iff hsha (payload_proper d r) (payload_proper d r'),
    payload_sortKeys_iff, orderedLocations_eq_iff]

end PrefixReport

end Directory

/-! ## The digests -/

/-- With an injective hash, the digests of complete operation lists with distinct references are
the same exactly when the lists are, up to the order of operations and of their held kinds; and
the digests of prefix reports are the same exactly when the reports are, up to the order of
locations and the times of their updates. -/
theorem evidence_digests_iff (d : Json.Digest) (hsha : Function.Injective d.sha256) :
    (∀ (w w' : OldWorker) (cap cap' : Option Nat) (report report' : JsonObject)
      (ops ops' : List ParsedOperationSnapshot) (raw raw' : List Json),
      w.epoch = w'.epoch → parseCompleteOperationReport w cap report = .ok ops →
      parseCompleteOperationReport w' cap' report' = .ok ops' →
      report.lookup "operations" = some (.array raw) →
      report'.lookup "operations" = some (.array raw') →
      (ops.map (·.endpointRef)).Nodup → (ops'.map (·.endpointRef)).Nodup →
      ((operationListEvidence d w ops).reportDigest =
          (operationListEvidence d w' ops').reportDigest ↔
        ∃ mid, raw.Perm mid ∧ List.Forall₂ SameOperation mid raw')) ∧
    ∀ r r' : Directory.PrefixReport, r.contentDigest d = r'.contentDigest d ↔
      r.instanceId = r'.instanceId ∧ r.instanceEpoch = r'.instanceEpoch ∧
      r.snapshotSeqNo = r'.snapshotSeqNo ∧
      (r.locations.map Directory.CacheLocation.ignoringUpdate).Perm
        (r'.locations.map Directory.CacheLocation.ignoringUpdate) := by
  refine ⟨?_, Directory.PrefixReport.contentDigest_eq_iff hsha⟩
  intro w w' cap cap' report report' ops ops' raw raw' hepoch hops hops' hraw hraw' hdistinct _
  rw [reportDigest_eq_iff_perm hsha hepoch hdistinct]
  refine (exists_perm_forall₂_iff ?_ (parseCompleteOperationReport_eq_ok hops hraw)
    (parseCompleteOperationReport_eq_ok hops' hraw')).symm
  exact fun x y a b hx hy => sameOperation_iff hx hy

/-- An entry of a worker's list, with its kinds in the given order. -/
def listedEntry (seq : Int) (kinds : List String) : Json :=
  .object [
    ("endpoint_ref", .object [
      ("topology_generation", .string "topology"), ("owner_generation", .string "owner"),
      ("operation_seq", .integer seq), ("target_instance", .string "d0"),
      ("target_worker_epoch", .string "epoch"), ("operation_id", .string "operation"),
      ("payload_digest", .string "payload")]),
    ("state", .string "RUNNING"), ("resources_held", .bool true),
    ("held_resource_kinds", .array (kinds.map .string))]

def listedSnapshot (seq : Int) (kinds : List String) : ParsedOperationSnapshot :=
  ⟨⟨"topology", "owner", seq, "d0", "epoch", "operation", "payload"⟩, .running, true, kinds⟩

def completeReport (entries : List Json) : JsonObject :=
  [("complete", .bool true), ("instance_epoch", .string "epoch"), ("operations", .array entries)]

/-- Two operations listed in another order, the first with its kinds in another order. -/
theorem evidence_digests_iff_reordered :
    Function.Injective (id : String → String) ∧
      (operationListEvidence ⟨id, fun _ => []⟩ ⟨"d0", "owner", "epoch"⟩
          [listedSnapshot 1 ["kv", "slot"], listedSnapshot 2 ["kv"]]).reportDigest =
        (operationListEvidence ⟨id, fun _ => []⟩ ⟨"d0", "owner", "epoch"⟩
          [listedSnapshot 2 ["kv"], listedSnapshot 1 ["kv", "slot"]]).reportDigest := by
  refine ⟨Function.injective_id, ?_⟩
  refine ((evidence_digests_iff ⟨id, fun _ => []⟩ Function.injective_id).1
    ⟨"d0", "owner", "epoch"⟩ ⟨"d0", "owner", "epoch"⟩ none none
    (completeReport [listedEntry 1 ["slot", "kv"], listedEntry 2 ["kv"]])
    (completeReport [listedEntry 2 ["kv"], listedEntry 1 ["kv", "slot"]])
    _ _ _ _ rfl rfl rfl rfl rfl
    (by decide) (by decide)).mpr ?_
  have hsame : ∀ {x y : Json} {a : ParsedOperationSnapshot},
      parseOperationSnapshot "" ⟨"d0", "owner", "epoch"⟩ none x = .ok a →
      parseOperationSnapshot "" ⟨"d0", "owner", "epoch"⟩ none y = .ok a → SameOperation x y :=
    fun hx hy => (sameOperation_iff hx hy).mpr rfl
  exact ⟨_, .swap _ _ _, .cons (hsame rfl rfl) (.cons (hsame rfl rfl) .nil)⟩

end PrismServe
