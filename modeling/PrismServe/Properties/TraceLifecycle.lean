import PrismServe.Gateway.PerformanceHarness

/-!
# The life of a performance trace

Seen from one request, the registry is a small machine: the request is unknown,
active with a trace, finished with its evidence, or acknowledged.  `Phase.next` is
that machine, and every call of the registry follows it (`Phase.Holds.after`).  What
the registry guarantees over any sequence of calls is read off the machine: nothing
leads back from a finished request, the evidence stays until it is acknowledged, and
a trace carries exactly the marks that were made since its reservation.
-/

namespace PrismServe.Performance

open Lib

/-! ## Calls -/

/-- A call of the registry. -/
inductive TraceCall
  | reserve (request : PerformanceRequest) (worldIdentity : JsonObject)
  | rollbackUncommitted (requestId : String)
  | observeStreamTerminal (requestId : String)
  | markDetached (requestId : String)
  | markStreamError (requestId error : String)
  | finalize (requestId : String) (outputTokenIds : List Json) (runtimeError : Option String)
      (routeEvidence : Json)
  | acknowledge (requestId : String)

/-- The registry that a method leaves, whether it returns or raises. -/
def leaves {α : Type} (m : TraceM α) (r : TraceRegistry) : TraceRegistry :=
  match m.run r with
  | .ok _ r' => r'
  | .error _ r' => r'

namespace TraceCall

def after (cfg : EvidenceSettings) (r : TraceRegistry) : TraceCall → TraceRegistry
  | reserve request worldIdentity => leaves (TraceRegistry.reserve request worldIdentity) r
  | rollbackUncommitted id => leaves (TraceRegistry.rollbackUncommitted id) r
  | observeStreamTerminal id => leaves (TraceRegistry.observeStreamTerminal id) r
  | markDetached id => leaves (TraceRegistry.markDetached id) r
  | markStreamError id error => leaves (TraceRegistry.markStreamError id error) r
  | finalize id output runtimeError route =>
    leaves (TraceRegistry.finalize cfg id output runtimeError route) r
  | acknowledge id => leaves (TraceRegistry.acknowledge id) r

/-- The registry after a sequence of calls. -/
def afterAll (cfg : EvidenceSettings) (r : TraceRegistry) (calls : List TraceCall) :
    TraceRegistry :=
  calls.foldl (after cfg) r

/-- The registry of a gateway after a sequence of calls. -/
def registryAfter (cfg : EvidenceSettings) (calls : List TraceCall) : TraceRegistry :=
  afterAll cfg {} calls

end TraceCall

open TraceCall

/-! ## What the methods do -/

namespace TraceRegistry

theorem run_check {α : Type} (x : Except Exc α) (r : TraceRegistry) :
    (check x).run r = match x with
      | .ok a => .ok a r
      | .error e => .error e r := by
  cases x with
  | ok a =>
    rfl
  | error e =>
    rfl

theorem run_reserve (request : PerformanceRequest) (worldIdentity : JsonObject)
    (r : TraceRegistry) :
    (reserve request worldIdentity).run r =
      if r.contains request.requestId then
        .error (.runtime "performance request id already exists") r
      else if performanceTraceCap ≤ r.total then
        .error (.runtime "performance trace capacity exhausted") r
      else
        match freezeWorldIdentity worldIdentity with
        | .ok identity => .ok () { r with
            active := r.active.set request.requestId
              { request := request, worldIdentity := identity } }
        | .error e => .error e r := by
  simp only [reserve, EStateM.run_bind, EStateM.run_get]
  split_ifs
  · rfl
  · rfl
  · simp only [EStateM.run_bind, run_check]
    cases freezeWorldIdentity worldIdentity with
    | ok identity =>
      rfl
    | error e =>
      rfl

theorem run_finalize (cfg : EvidenceSettings) (id : String) (output : List Json)
    (runtimeError : Option String) (route : Json) (r : TraceRegistry) :
    (finalize cfg id output runtimeError route).run r =
      match r.terminal.get? id with
      | some existing => .ok existing r
      | none =>
        match r.active.get? id with
        | none => .error (.key id) r
        | some trace =>
          match evidenceOf cfg trace id output runtimeError route with
          | .ok value => .ok value { r with
              active := r.active.erase id
              terminal := r.terminal.set id value }
          | .error e => .error e r := by
  simp only [finalize, EStateM.run_bind, EStateM.run_get]
  cases r.terminal.get? id with
  | some existing =>
    rfl
  | none =>
    cases r.active.get? id with
    | none =>
      rfl
    | some trace =>
      simp only [EStateM.run_bind, run_check]
      cases evidenceOf cfg trace id output runtimeError route with
      | ok value =>
        rfl
      | error e =>
        rfl

theorem leaves_updateActive (id : String) (change : ActiveTrace → ActiveTrace)
    (r : TraceRegistry) :
    leaves (updateActive id change) r =
      match r.active.get? id with
      | none => r
      | some trace => { r with active := r.active.set id (change trace) } := rfl

theorem leaves_acknowledge (id : String) (r : TraceRegistry) :
    leaves (acknowledge id) r =
      if r.active.contains id then r
      else if r.tombstones.contains id then r
      else if !r.terminal.contains id then r
      else { r with
        terminal := r.terminal.erase id
        tombstones := r.tombstones.set id () } := by
  simp only [leaves, acknowledge, EStateM.run_bind, EStateM.run_get]
  split_ifs <;> rfl

end TraceRegistry

/-! ## The machine of one request -/

/-- Where a request stands. -/
inductive Phase
  | unknown
  | active (trace : ActiveTrace)
  | terminal (evidence : PerformanceEvidence)
  | acked

namespace Phase

def trace? : Phase → Option ActiveTrace
  | active trace => some trace
  | _ => none

def evidence? : Phase → Option PerformanceEvidence
  | terminal evidence => some evidence
  | _ => none

def tombstone? : Phase → Option Unit
  | acked => some ()
  | _ => none

/-- The request stands there in the registry. -/
structure Holds (id : String) (p : Phase) (r : TraceRegistry) : Prop where
  active : r.active.get? id = p.trace?
  terminal : r.terminal.get? id = p.evidence?
  tombstones : r.tombstones.get? id = p.tombstone?

/-- What a call marks in the trace of a request. -/
def mark (id : String) (call : TraceCall) (trace : ActiveTrace) : ActiveTrace :=
  match call with
  | .observeStreamTerminal id' =>
    if id' = id then { trace with streamTerminalObserved := true } else trace
  | .markDetached id' => if id' = id then { trace with detached := true } else trace
  | .markStreamError id' error =>
    if id' = id then { trace with streamError := some error } else trace
  | _ => trace

/-- Where a call takes a request; a reservation also needs room in the registry. -/
def next (cfg : EvidenceSettings) (room : Bool) (id : String) (call : TraceCall) : Phase → Phase
  | unknown =>
    match call with
    | .reserve request worldIdentity =>
      if request.requestId = id ∧ room = true then
        match freezeWorldIdentity worldIdentity with
        | .ok identity => active { request := request, worldIdentity := identity }
        | .error _ => unknown
      else unknown
    | _ => unknown
  | active trace =>
    match call with
    | .rollbackUncommitted id' => if id' = id then unknown else active trace
    | .finalize id' output runtimeError route =>
      if id' = id then
        match evidenceOf cfg trace id output runtimeError route with
        | .ok evidence => terminal evidence
        | .error _ => active trace
      else active trace
    | _ => active (mark id call trace)
  | terminal evidence =>
    match call with
    | .acknowledge id' => if id' = id then acked else terminal evidence
    | _ => terminal evidence
  | acked => acked

/-- The trace changes if the call is about this request. -/
def updated (id' id : String) (change : ActiveTrace → ActiveTrace) : Phase → Phase
  | active trace => active (if id' = id then change trace else trace)
  | p => p

section Calls

variable {cfg : EvidenceSettings} {id : String} {p : Phase} {r : TraceRegistry}

theorem Holds.contains_iff (h : Holds id p r) : r.contains id = true ↔ p ≠ unknown := by
  simp only [TraceRegistry.contains, Dict.contains, h.active, h.terminal, h.tombstones]
  cases p <;> simp [trace?, evidence?, tombstone?]

/-- Changes under another key are not seen. -/
theorem Holds.congr {r' : TraceRegistry} (h : Holds id p r)
    (hactive : r'.active.get? id = r.active.get? id)
    (hterminal : r'.terminal.get? id = r.terminal.get? id)
    (htombstones : r'.tombstones.get? id = r.tombstones.get? id) : Holds id p r' :=
  ⟨hactive.trans h.active, hterminal.trans h.terminal, htombstones.trans h.tombstones⟩

theorem Holds.after_reserve (h : Holds id p r) (request : PerformanceRequest)
    (worldIdentity : JsonObject) :
    Holds id
      (next cfg (decide (r.total < performanceTraceCap)) id (.reserve request worldIdentity) p)
      (after cfg r (.reserve request worldIdentity)) := by
  by_cases hid : request.requestId = id
  · subst hid
    have hcontains := h.contains_iff
    rw [after, leaves, TraceRegistry.run_reserve]
    cases p with
    | unknown =>
      rw [if_neg (by simpa using hcontains)]
      by_cases hroom : performanceTraceCap ≤ r.total
      · simp only [if_pos hroom, next, decide_eq_true_eq]
        rw [if_neg (by omega)]
        exact h
      · simp only [if_neg hroom, next, decide_eq_true_eq]
        rw [if_pos ⟨trivial, by omega⟩]
        cases freezeWorldIdentity worldIdentity with
        | ok identity =>
          exact ⟨Dict.get?_set_self .., h.terminal, h.tombstones⟩
        | error e =>
          exact h
    | _ =>
      rw [if_pos (hcontains.mpr (by simp))]
      exact h
  · have hnext : next cfg (decide (r.total < performanceTraceCap)) id
        (.reserve request worldIdentity) p = p := by
      cases p <;> simp [next, hid, mark]
    rw [hnext, after, leaves, TraceRegistry.run_reserve]
    split_ifs
    · exact h
    · exact h
    · cases freezeWorldIdentity worldIdentity with
      | ok identity =>
        exact h.congr (Dict.get?_set_of_ne _ _ (Ne.symm hid)) rfl rfl
      | error e =>
        exact h

/-- A mark is made in the trace of its request. -/
theorem Holds.after_update (h : Holds id p r) (id' : String)
    (change : ActiveTrace → ActiveTrace) :
    Holds id (updated id' id change p) (leaves (TraceRegistry.updateActive id' change) r) := by
  rw [TraceRegistry.leaves_updateActive]
  by_cases hid : id' = id
  · subst hid
    rw [h.active]
    cases p with
    | active trace =>
      simp only [trace?, updated, if_true]
      exact ⟨Dict.get?_set_self .., h.terminal, h.tombstones⟩
    | _ =>
      exact h
  · have hsame : updated id' id change p = p := by
      cases p <;> simp [updated, hid]
    rw [hsame]
    cases r.active.get? id' with
    | none =>
      exact h
    | some trace =>
      exact h.congr (Dict.get?_set_of_ne _ _ (Ne.symm hid)) rfl rfl

theorem Holds.after_finalize (h : Holds id p r) (id' : String) (output : List Json)
    (runtimeError : Option String) (route : Json) (room : Bool) :
    Holds id (next cfg room id (.finalize id' output runtimeError route) p)
      (after cfg r (.finalize id' output runtimeError route)) := by
  rw [after, leaves, TraceRegistry.run_finalize]
  by_cases hid : id' = id
  · subst hid
    rw [h.terminal, h.active]
    cases p with
    | active trace =>
      simp only [trace?, evidence?, next, if_true]
      cases evidenceOf cfg trace id' output runtimeError route with
      | ok evidence =>
        exact ⟨Dict.get?_erase_self .., Dict.get?_set_self .., h.tombstones⟩
      | error e =>
        exact h
    | _ =>
      exact h
  · have hnext : next cfg room id (.finalize id' output runtimeError route) p = p := by
      cases p <;> simp [next, hid]
    rw [hnext]
    cases r.terminal.get? id' with
    | some existing =>
      exact h
    | none =>
      cases r.active.get? id' with
      | none =>
        exact h
      | some trace =>
        simp only
        cases evidenceOf cfg trace id' output runtimeError route with
        | ok evidence =>
          exact h.congr (Dict.get?_erase_of_ne _ (Ne.symm hid))
            (Dict.get?_set_of_ne _ _ (Ne.symm hid)) rfl
        | error e =>
          exact h

theorem Holds.after_acknowledge (h : Holds id p r) (id' : String) (room : Bool) :
    Holds id (next cfg room id (.acknowledge id') p) (after cfg r (.acknowledge id')) := by
  rw [after, TraceRegistry.leaves_acknowledge]
  by_cases hid : id' = id
  · subst hid
    simp only [Dict.contains, h.active, h.terminal, h.tombstones]
    cases p with
    | terminal evidence =>
      simp only [next, if_true]
      exact ⟨h.active, Dict.get?_erase_self .., Dict.get?_set_self ..⟩
    | _ =>
      exact h
  · have hnext : next cfg room id (.acknowledge id') p = p := by
      cases p <;> simp [next, hid, mark]
    rw [hnext]
    split_ifs
    · exact h
    · exact h
    · exact h
    · exact h.congr rfl (Dict.get?_erase_of_ne _ (Ne.symm hid))
        (Dict.get?_set_of_ne _ _ (Ne.symm hid))

/-- Every call follows the machine. -/
theorem Holds.after (h : Holds id p r) (call : TraceCall) :
    Holds id (next cfg (decide (r.total < performanceTraceCap)) id call p)
      (call.after cfg r) := by
  cases call with
  | reserve request worldIdentity =>
    exact h.after_reserve request worldIdentity
  | rollbackUncommitted id' =>
    by_cases hid : id' = id
    · subst hid
      have hterminal := h.terminal
      have htombstones := h.tombstones
      cases p with
      | active trace =>
        simp only [next, if_true]
        exact ⟨Dict.get?_erase_self .., hterminal, htombstones⟩
      | _ =>
        exact ⟨Dict.get?_erase_self .., hterminal, htombstones⟩
    · have hnext : next cfg (decide (r.total < performanceTraceCap)) id
          (.rollbackUncommitted id') p = p := by
        cases p <;> simp [next, hid]
      rw [hnext]
      exact h.congr (Dict.get?_erase_of_ne _ (Ne.symm hid)) rfl rfl
  | observeStreamTerminal id' =>
    have hafter := h.after_update id' fun trace => { trace with streamTerminalObserved := true }
    cases p <;> exact hafter
  | markDetached id' =>
    have hafter := h.after_update id' fun trace => { trace with detached := true }
    cases p <;> exact hafter
  | markStreamError id' error =>
    have hafter := h.after_update id' fun trace => { trace with streamError := some error }
    cases p <;> exact hafter
  | finalize id' output runtimeError route =>
    exact h.after_finalize id' output runtimeError route _
  | acknowledge id' =>
    exact h.after_acknowledge id' _

end Calls

end Phase

/-! ## Sequences of calls -/

section Sequences

variable {cfg : EvidenceSettings} {id : String}

theorem registryAfter_concat (calls : List TraceCall) (call : TraceCall) :
    registryAfter cfg (calls ++ [call]) = call.after cfg (registryAfter cfg calls) := by
  simp [registryAfter, afterAll]

theorem registryAfter_append (calls more : List TraceCall) :
    registryAfter cfg (calls ++ more) = afterAll cfg (registryAfter cfg calls) more := by
  simp [registryAfter, afterAll]

/-- What was marked in a trace by the calls since its reservation. -/
structure Since (id : String) (request : PerformanceRequest) (mid : List TraceCall)
    (trace : ActiveTrace) : Prop where
  request : trace.request = request
  kept : TraceCall.rollbackUncommitted id ∉ mid
  detached : trace.detached = true ↔ TraceCall.markDetached id ∈ mid
  failed : trace.streamError.isSome = true ↔ ∃ error, TraceCall.markStreamError id error ∈ mid
  observed : trace.streamTerminalObserved = true ↔ TraceCall.observeStreamTerminal id ∈ mid

theorem Since.start (request : PerformanceRequest) (identity : WorldIdentity) :
    Since id request [] { request := request, worldIdentity := identity } := by
  refine ⟨rfl, ?_, ?_, ?_, ?_⟩ <;> simp

variable {evidence : PerformanceEvidence} {trace : ActiveTrace} {calls : List TraceCall} {p : Phase}

theorem Since.call {request : PerformanceRequest} {mid : List TraceCall}
    (h : Since id request mid trace) {call : TraceCall} (hcall : call ≠ .rollbackUncommitted id) :
    Since id request (mid ++ [call]) (Phase.mark id call trace) := by
  obtain ⟨hrequest, hkept, hdetached, hfailed, hobserved⟩ := h
  cases call with
  | observeStreamTerminal id' =>
    by_cases hid : id' = id
    · subst hid
      refine ⟨?_, ?_, ?_, ?_, ?_⟩ <;> simp_all [Phase.mark]
    · have hne : ¬ id = id' := Ne.symm hid
      refine ⟨?_, ?_, ?_, ?_, ?_⟩ <;> simp_all [Phase.mark]
  | markDetached id' =>
    by_cases hid : id' = id
    · subst hid
      refine ⟨?_, ?_, ?_, ?_, ?_⟩ <;> simp_all [Phase.mark]
    · have hne : ¬ id = id' := Ne.symm hid
      refine ⟨?_, ?_, ?_, ?_, ?_⟩ <;> simp_all [Phase.mark]
  | markStreamError id' error =>
    by_cases hid : id' = id
    · subst hid
      refine ⟨?_, ?_, ?_, ?_, ?_⟩ <;> simp_all [Phase.mark]
    · have hne : ¬ id = id' := Ne.symm hid
      refine ⟨?_, ?_, ?_, ?_, ?_⟩ <;> simp_all [Phase.mark]
  | rollbackUncommitted id' =>
    have hne : ¬ id = id' := fun heq => hcall (by rw [heq])
    refine ⟨?_, ?_, ?_, ?_, ?_⟩ <;> simp_all [Phase.mark]
  | _ =>
    refine ⟨?_, ?_, ?_, ?_, ?_⟩ <;> simp_all [Phase.mark]

/-- The trace is that of the last reservation, with the marks made since. -/
def Reserved (cfg : EvidenceSettings) (calls : List TraceCall) (id : String)
    (trace : ActiveTrace) : Prop :=
  ∃ pre request worldIdentity mid, calls = pre ++ .reserve request worldIdentity :: mid ∧
    request.requestId = id ∧
    (∃ r, (TraceRegistry.reserve request worldIdentity).run (registryAfter cfg pre) = .ok () r) ∧
    Since id request mid trace

/-- The evidence was made by one of the calls, from the trace that the request had then. -/
def Finalized (cfg : EvidenceSettings) (calls : List TraceCall) (id : String)
    (evidence : PerformanceEvidence) : Prop :=
  ∃ pre trace output runtimeError route post,
    calls = pre ++ .finalize id output runtimeError route :: post ∧
    (Phase.active trace).Holds id (registryAfter cfg pre) ∧ Reserved cfg pre id trace ∧
    evidenceOf cfg trace id output runtimeError route = .ok evidence

/-- The calls explain where the request stands. -/
def Explained (cfg : EvidenceSettings) (calls : List TraceCall) (id : String) : Phase → Prop
  | .active trace => Reserved cfg calls id trace
  | .terminal evidence => Finalized cfg calls id evidence
  | _ => True

theorem Reserved.call (h : Reserved cfg calls id trace) {call : TraceCall}
    (hcall : call ≠ .rollbackUncommitted id) :
    Reserved cfg (calls ++ [call]) id (Phase.mark id call trace) := by
  obtain ⟨pre, request, worldIdentity, mid, rfl, hid, hreserve, hsince⟩ := h
  exact ⟨pre, request, worldIdentity, mid ++ [call], by simp, hid, hreserve, hsince.call hcall⟩

theorem Finalized.call (h : Finalized cfg calls id evidence) (call : TraceCall) :
    Finalized cfg (calls ++ [call]) id evidence := by
  obtain ⟨pre, trace, output, runtimeError, route, post, rfl, hrest⟩ := h
  exact ⟨pre, trace, output, runtimeError, route, post ++ [call], by simp, hrest⟩

theorem Explained.call (hp : p.Holds id (registryAfter cfg calls)) (h : Explained cfg calls id p)
    (call : TraceCall) :
    Explained cfg (calls ++ [call]) id
      (p.next cfg (decide ((registryAfter cfg calls).total < performanceTraceCap)) id call) := by
  cases p with
  | unknown =>
    cases call with
    | reserve request worldIdentity =>
      simp only [Phase.next, decide_eq_true_eq]
      split_ifs with hid
      · cases hfreeze : freezeWorldIdentity worldIdentity with
        | ok identity =>
          have hfresh : ¬ (registryAfter cfg calls).contains request.requestId = true := by
            rw [hid.1, hp.contains_iff]
            exact not_not.mpr rfl
          have hreserve := TraceRegistry.run_reserve request worldIdentity
            (registryAfter cfg calls)
          rw [if_neg hfresh, if_neg (by omega), hfreeze] at hreserve
          exact ⟨calls, request, worldIdentity, [], rfl, hid.1, ⟨_, hreserve⟩, .start _ _⟩
        | error e =>
          trivial
      · trivial
    | _ =>
      trivial
  | active trace =>
    cases call with
    | rollbackUncommitted id' =>
      simp only [Phase.next]
      split_ifs with hid
      · trivial
      · exact Reserved.call h (by simpa using hid)
    | finalize id' output runtimeError route =>
      simp only [Phase.next]
      split_ifs with hid
      · subst hid
        cases hevidence : evidenceOf cfg trace id' output runtimeError route with
        | ok evidence =>
          exact ⟨calls, trace, output, runtimeError, route, [], rfl, hp, h, hevidence⟩
        | error e =>
          exact Reserved.call h (by simp)
      · exact Reserved.call h (by simp)
    | _ =>
      exact Reserved.call h (by simp)
  | terminal evidence =>
    cases call with
    | acknowledge id' =>
      simp only [Phase.next]
      split_ifs
      · trivial
      · exact Finalized.call h _
    | _ =>
      exact Finalized.call h _
  | acked =>
    trivial

/-- After any calls a request stands somewhere, and the calls explain it. -/
theorem exists_phase (cfg : EvidenceSettings) (calls : List TraceCall) (id : String) :
    ∃ p : Phase, p.Holds id (registryAfter cfg calls) ∧ Explained cfg calls id p := by
  induction calls using List.reverseRecOn with
  | nil =>
    exact ⟨.unknown, ⟨rfl, rfl, rfl⟩, trivial⟩
  | append_singleton calls call ih =>
    obtain ⟨p, hp, hexplained⟩ := ih
    refine ⟨_, ?_, hexplained.call hp call⟩
    rw [registryAfter_concat]
    exact hp.after call

/-! ### What stays -/

/-- The request is finished. -/
def Phase.spent : Phase → Bool
  | terminal _ => true
  | acked => true
  | _ => false

theorem Phase.spent_next (h : p.spent = true) (room : Bool) (call : TraceCall) :
    (p.next cfg room id call).spent = true := by
  cases p with
  | terminal evidence =>
    cases call with
    | acknowledge id' =>
      simp only [next]
      split_ifs <;> rfl
    | _ =>
      rfl
  | acked =>
    rfl
  | _ =>
    cases h

/-- A finished request stays finished. -/
theorem Phase.Holds.afterAll_spent {r : TraceRegistry} (hp : p.Holds id r) (hspent : p.spent = true)
    (more : List TraceCall) :
    ∃ p' : Phase, p'.Holds id (afterAll cfg r more) ∧ p'.spent = true := by
  induction more generalizing p r with
  | nil =>
    exact ⟨p, hp, hspent⟩
  | cons call rest ih =>
    exact ih (hp.after call) (Phase.spent_next hspent _ call)

/-- Evidence stays until it is acknowledged. -/
theorem Phase.Holds.afterAll_terminal {r : TraceRegistry}
    (hp : (Phase.terminal evidence).Holds id r) {more : List TraceCall}
    (hmore : TraceCall.acknowledge id ∉ more) :
    (Phase.terminal evidence).Holds id (afterAll cfg r more) := by
  induction more generalizing r with
  | nil =>
    exact hp
  | cons call rest ih =>
    rw [List.mem_cons, not_or] at hmore
    have hnext : ∀ room, (Phase.terminal evidence).next cfg room id call = .terminal evidence := by
      intro room
      cases call with
      | acknowledge id' =>
        exact if_neg fun heq => hmore.1 (by rw [heq])
      | _ =>
        rfl
    have hcall : (Phase.terminal evidence).Holds id (call.after cfg r) := by
      rw [← hnext]
      exact hp.after call
    exact ih hcall hmore.2

/-! ### How many there are -/

theorem total_after (r : TraceRegistry) (call : TraceCall) (h : r.total ≤ performanceTraceCap) :
    (call.after cfg r).total ≤ performanceTraceCap := by
  have hupdate : ∀ id change,
      (leaves (TraceRegistry.updateActive id change) r).total = r.total := by
    intro id change
    rw [TraceRegistry.leaves_updateActive]
    cases hget : r.active.get? id with
    | none =>
      rfl
    | some trace =>
      simp only [TraceRegistry.total, Dict.size_set_of_get? _ hget]
  cases call with
  | reserve request worldIdentity =>
    rw [after, leaves, TraceRegistry.run_reserve]
    split_ifs with hcontains hroom
    · exact h
    · exact h
    · cases freezeWorldIdentity worldIdentity with
      | ok identity =>
        have hfresh : r.active.get? request.requestId = none := by
          simp [TraceRegistry.contains, Dict.contains] at hcontains
          exact hcontains.1.1
        simp only [TraceRegistry.total, Dict.size_set_of_fresh _ hfresh] at hroom ⊢
        omega
      | error e =>
        exact h
  | rollbackUncommitted id =>
    have hle := r.active.size_erase_le id
    change (r.active.erase id).size + r.terminal.size + r.tombstones.size ≤ _
    unfold TraceRegistry.total at h
    omega
  | observeStreamTerminal id =>
    exact (hupdate id _).trans_le h
  | markDetached id =>
    exact (hupdate id _).trans_le h
  | markStreamError id error =>
    exact (hupdate id _).trans_le h
  | finalize id output runtimeError route =>
    rw [after, leaves, TraceRegistry.run_finalize]
    cases hterminal : r.terminal.get? id with
    | some existing =>
      exact h
    | none =>
      cases hactive : r.active.get? id with
      | none =>
        exact h
      | some trace =>
        simp only
        cases evidenceOf cfg trace id output runtimeError route with
        | ok evidence =>
          -- the entry moves from one dictionary to another
          have herase := r.active.size_erase_of_get? hactive
          simp only [TraceRegistry.total, Dict.size_set_of_fresh _ hterminal] at h ⊢
          omega
        | error e =>
          exact h
  | acknowledge id =>
    rw [after, TraceRegistry.leaves_acknowledge]
    split_ifs with hactive htombstones hterminal
    · exact h
    · exact h
    · exact h
    · have hfresh : r.tombstones.get? id = none := by
        simpa [Dict.contains] using htombstones
      obtain ⟨evidence, hevidence⟩ : ∃ evidence, r.terminal.get? id = some evidence := by
        simpa using hterminal
      have herase := r.terminal.size_erase_of_get? hevidence
      simp only [TraceRegistry.total, Dict.size_set_of_fresh _ hfresh] at h ⊢
      omega

theorem total_registryAfter (calls : List TraceCall) :
    (registryAfter cfg calls).total ≤ performanceTraceCap := by
  induction calls using List.reverseRecOn with
  | nil =>
    exact Nat.zero_le _
  | append_singleton calls call ih =>
    rw [registryAfter_concat]
    exact total_after _ call ih

/-! ### What a pass means -/

theorem verdict_eq_pass {outputTokens : Nat} {runtimeError : Option String}
    (h : (verdict trace outputTokens runtimeError).1 = .pass) :
    trace.detached = false ∧ trace.streamError = none ∧
      (outputTokens : Int) = trace.request.expectedOutputTokens ∧
      trace.streamTerminalObserved = true := by
  simp only [verdict] at h
  split_ifs at h with hdetached herror hcount hobserved
  refine ⟨by simpa using hdetached, ?_, not_not.mp hcount, by simpa using hobserved⟩
  cases runtimeError with
  | none =>
    simpa [orText] using herror
  | some text =>
    by_cases htext : text = ""
    · simpa [orText, htext] using herror
    · simp [orText, htext] at herror

theorem evidenceOf_pass {output : List Json} {runtimeError : Option String} {route : Json}
    (h : evidenceOf cfg trace id output runtimeError route = .ok evidence)
    (hpass : evidence.status = .pass) :
    trace.detached = false ∧ trace.streamError = none ∧
      (output.length : Int) = trace.request.expectedOutputTokens ∧
      trace.streamTerminalObserved = true := by
  simp only [evidenceOf, bind_eq_ok, return_eq_ok, Except.ok.injEq] at h
  obtain ⟨tokens, htokens, _, -, _, -, _, -, _, -, rfl⟩ := h
  rw [(mapM_eq_ok.mp htokens).length_eq]
  exact verdict_eq_pass hpass

end Sequences

/-! ## The guarantees -/

/-- A call made the evidence of a request that passed: since its reservation the end of the
stream was observed, neither a detach nor a stream error was marked, and that call was given the
expected number of tokens. -/
def Passed (cfg : EvidenceSettings) (calls : List TraceCall) (id : String)
    (evidence : PerformanceEvidence) : Prop :=
  ∃ pre request worldIdentity mid output runtimeError route post,
    calls = (pre ++ .reserve request worldIdentity :: mid) ++
      .finalize id output runtimeError route :: post ∧
    request.requestId = id ∧
    (∃ r, (TraceRegistry.reserve request worldIdentity).run (registryAfter cfg pre) = .ok () r) ∧
    (registryAfter cfg (pre ++ .reserve request worldIdentity :: mid)).terminal.get? id = none ∧
    (∃ r, (TraceRegistry.finalize cfg id output runtimeError route).run
      (registryAfter cfg (pre ++ .reserve request worldIdentity :: mid)) = .ok evidence r) ∧
    TraceCall.rollbackUncommitted id ∉ mid ∧ TraceCall.markDetached id ∉ mid ∧
    (∀ error, TraceCall.markStreamError id error ∉ mid) ∧
    TraceCall.observeStreamTerminal id ∈ mid ∧
    (output.length : Int) = request.expectedOutputTokens

/-- What holds of a registry after a sequence of calls. -/
structure Guarantees (cfg : EvidenceSettings) (calls : List TraceCall) : Prop where
  /-- A request is active, finished or acknowledged, and only one of these. -/
  apart : ∀ id, [(registryAfter cfg calls).active.contains id,
    (registryAfter cfg calls).terminal.contains id,
    (registryAfter cfg calls).tombstones.contains id].count true ≤ 1
  bounded : (registryAfter cfg calls).total ≤ performanceTraceCap
  /-- A finished request is never reserved again. -/
  spent : ∀ id, (registryAfter cfg calls).terminal.contains id = true →
    ∀ more request worldIdentity, request.requestId = id →
      (TraceRegistry.reserve request worldIdentity).run (registryAfter cfg (calls ++ more)) =
        .error (.runtime "performance request id already exists")
          (registryAfter cfg (calls ++ more))
  /-- A `finalize` that raises changes nothing. -/
  atomic : ∀ id output runtimeError route e r,
    (TraceRegistry.finalize cfg id output runtimeError route).run (registryAfter cfg calls) =
      .error e r → r = registryAfter cfg calls
  /-- A `finalize` that returned returns the same until the acknowledgement. -/
  repeated : ∀ id output runtimeError route evidence r,
    (TraceRegistry.finalize cfg id output runtimeError route).run (registryAfter cfg calls) =
      .ok evidence r →
    ∀ more, TraceCall.acknowledge id ∉ more → ∀ output' runtimeError' route',
      (TraceRegistry.finalize cfg id output' runtimeError' route').run (afterAll cfg r more) =
        .ok evidence (afterAll cfg r more)
  passed : ∀ id output runtimeError route evidence r,
    (TraceRegistry.finalize cfg id output runtimeError route).run (registryAfter cfg calls) =
      .ok evidence r →
    evidence.status = .pass →
      Passed cfg (calls ++ [.finalize id output runtimeError route]) id evidence

section Guarantees

variable {cfg : EvidenceSettings} {id : String}

theorem Finalized.passed {calls : List TraceCall} {evidence : PerformanceEvidence}
    (h : Finalized cfg calls id evidence) (hpass : evidence.status = .pass) :
    Passed cfg calls id evidence := by
  obtain ⟨_, trace, output, runtimeError, route, post, hcalls, hholds,
    ⟨pre, request, worldIdentity, mid, rfl, hid, hreserve, hsince⟩, hevidence⟩ := h
  obtain ⟨hdetached, herror, hcount, hobserved⟩ := evidenceOf_pass hevidence hpass
  have hterminal := hholds.terminal
  have hfinalize := TraceRegistry.run_finalize cfg id output runtimeError route
    (registryAfter cfg (pre ++ .reserve request worldIdentity :: mid))
  simp only [hholds.terminal, hholds.active, Phase.trace?, Phase.evidence?, hevidence] at hfinalize
  refine ⟨pre, request, worldIdentity, mid, output, runtimeError, route, post, hcalls, hid,
    hreserve, hterminal, ⟨_, hfinalize⟩, hsince.kept, ?_, ?_, hsince.observed.mp hobserved, ?_⟩
  · rw [← hsince.detached, hdetached]
    exact Bool.false_ne_true
  · intro error hmem
    have hsome := hsince.failed.mpr ⟨error, hmem⟩
    rw [herror] at hsome
    cases hsome
  · rw [hcount, hsince.request]

/-- A `finalize` that returns leaves its result as the evidence of the request. -/
theorem finalize_ok {calls : List TraceCall} {output : List Json} {runtimeError : Option String}
    {route : Json} {evidence : PerformanceEvidence} {r : TraceRegistry}
    (h : (TraceRegistry.finalize cfg id output runtimeError route).run
      (registryAfter cfg calls) = .ok evidence r) :
    (Phase.terminal evidence).Holds id r ∧
      Finalized cfg (calls ++ [.finalize id output runtimeError route]) id evidence := by
  obtain ⟨p, hp, hexplained⟩ := exists_phase cfg
    (calls ++ [.finalize id output runtimeError route]) id
  have hr : registryAfter cfg (calls ++ [.finalize id output runtimeError route]) = r := by
    rw [registryAfter_concat, after, leaves, h]
  rw [hr] at hp
  have hterminal : r.terminal.get? id = some evidence := by
    rw [TraceRegistry.run_finalize] at h
    cases hexisting : (registryAfter cfg calls).terminal.get? id with
    | some existing =>
      rw [hexisting] at h
      cases h
      exact hexisting
    | none =>
      rw [hexisting] at h
      cases hactive : (registryAfter cfg calls).active.get? id with
      | none =>
        rw [hactive] at h
        cases h
      | some trace =>
        simp only [hactive] at h
        split at h
        · cases h
          exact Dict.get?_set_self ..
        · cases h
  rw [hp.terminal] at hterminal
  cases p with
  | terminal evidence' =>
    cases hterminal
    exact ⟨hp, hexplained⟩
  | _ =>
    cases hterminal

/-- After every sequence of calls, those that raise included, the registry keeps its
guarantees. -/
theorem trace_guarantees (cfg : EvidenceSettings) (calls : List TraceCall) :
    Guarantees cfg calls := by
  refine ⟨?_, total_registryAfter calls, ?_, ?_, ?_, ?_⟩
  · intro id
    obtain ⟨p, hp, -⟩ := exists_phase cfg calls id
    simp only [Dict.contains, hp.active, hp.terminal, hp.tombstones]
    cases p <;> simp [Phase.trace?, Phase.evidence?, Phase.tombstone?]
  · intro id hterminal more request worldIdentity hid
    obtain ⟨p, hp, -⟩ := exists_phase cfg calls id
    have hspent : p.spent = true := by
      rw [Dict.contains, hp.terminal] at hterminal
      cases p with
      | terminal evidence =>
        rfl
      | _ =>
        cases hterminal
    obtain ⟨p', hp', hspent'⟩ := hp.afterAll_spent hspent more
    rw [← registryAfter_append] at hp'
    have hcontains : (registryAfter cfg (calls ++ more)).contains request.requestId = true := by
      rw [hid, hp'.contains_iff]
      rintro rfl
      cases hspent'
    rw [TraceRegistry.run_reserve, if_pos hcontains]
  · intro id output runtimeError route e r h
    rw [TraceRegistry.run_finalize] at h
    split at h
    · cases h
    split at h
    · cases h
      rfl
    split at h
    · cases h
    · cases h
      rfl
  · intro id output runtimeError route evidence r h more hmore output' runtimeError' route'
    have hstays : (Phase.terminal evidence).Holds id (afterAll cfg r more) :=
      (finalize_ok h).1.afterAll_terminal hmore
    rw [TraceRegistry.run_finalize, hstays.terminal]
    rfl
  · intro id output runtimeError route evidence r h hpass
    exact (finalize_ok h).2.passed hpass

end Guarantees

end PrismServe.Performance
