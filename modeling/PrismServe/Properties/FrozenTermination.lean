import PrismServe.Worldctl.PodWatch

/-!
# The termination that a watch proves is frozen

A proof that the loop returns is made of two events of the captured pod.  The first
termination of the captured container, in a MODIFIED event, is frozen, unless there
was a prior one; every candidate in an event after it is the same termination, which
may have moved from the current state to the last one with one restart.  The later
DELETED event adds its own fields and nothing else.

One event does one of three things to what is frozen (`Absorbs`), and the result
about the loop is an induction over its rounds with that.
-/

namespace PrismServe.Worldctl.Watch

open Lib

/-! ## The same termination -/

/-- The candidate is the frozen termination, in the same place or moved on by one restart. -/
structure Agrees (candidate frozen : TerminationProof) : Prop where
  place :
    (candidate.terminationSource = frozen.terminationSource ∧
        candidate.restartCountObserved = frozen.restartCountObserved ∧
        candidate.adjacentCurrentContainerId = frozen.adjacentCurrentContainerId) ∨
      (frozen.terminationSource = "state.terminated" ∧
        frozen.restartCountObserved = frozen.restartCountBefore ∧
        frozen.adjacentCurrentContainerId = none ∧
        candidate.terminationSource = "lastState.terminated" ∧
        candidate.restartCountObserved = frozen.restartCountBefore + 1 ∧
        ∃ c, candidate.adjacentCurrentContainerId = some c ∧ c ≠ frozen.containerId)
  /-- Everything but where and when it was seen. -/
  rest : comparable candidate frozen = frozen

theorem matchesFrozenTermination_iff {candidate frozen : TerminationProof} :
    matchesFrozenTermination candidate frozen = true ↔ Agrees candidate frozen := by
  simp only [matchesFrozenTermination, sameProjection, advancedToLastState, Bool.and_eq_true,
    Bool.or_eq_true, decide_eq_true_eq, Option.isNone_iff_eq_none, Option.any_eq_true]
  constructor
  · rintro ⟨hplace, hrest⟩
    refine ⟨hplace.imp ?_ ?_, hrest⟩
    · rintro ⟨⟨h₁, h₂⟩, h₃⟩
      exact ⟨h₁, h₂, h₃⟩
    · rintro ⟨⟨⟨⟨⟨h₁, h₂⟩, h₃⟩, h₄⟩, h₅⟩, h₆⟩
      exact ⟨h₁, h₂, h₃, h₄, h₅, h₆⟩
  · rintro ⟨hplace, hrest⟩
    refine ⟨hplace.imp ?_ ?_, hrest⟩
    · rintro ⟨h₁, h₂, h₃⟩
      exact ⟨⟨h₁, h₂⟩, h₃⟩
    · rintro ⟨h₁, h₂, h₃, h₄, h₅, h₆⟩
      exact ⟨⟨⟨⟨⟨h₁, h₂⟩, h₃⟩, h₄⟩, h₅⟩, h₆⟩

/-- A candidate with the digest and the number of a raw event. -/
def withJournal (cfg : WatchSettings) (candidate : TerminationProof) (pod : JsonObject) (n : Int) :
    TerminationProof :=
  { candidate with
    terminationRawPodJsonSha256 := canonicalSha256 cfg.digest (.object pod)
    terminationRawObservationSequence := some n }

/-- The proof that freezing a candidate of the event makes. -/
def Journaled (cfg : WatchSettings) (e : SeenEvent) (candidate frozen : TerminationProof) : Prop :=
  (e.raw = none ∧ frozen = candidate) ∨
    ∃ raw pod n, e.raw = some raw ∧ podOf raw = some pod ∧ raw.rawObservationSequence = some n ∧
      frozen = withJournal cfg candidate pod n

section Steps

variable {cfg : WatchSettings} {sink : Bool} {expected : ProcessIdentity} {st st' : WatchState}
variable {e : SeenEvent} {candidate frozen : TerminationProof} {observation : Observation}

theorem Journaled.agrees (h : Journaled cfg e candidate frozen) : Agrees candidate frozen := by
  rcases h with ⟨-, rfl⟩ | ⟨raw, pod, n, -, -, -, rfl⟩
  · exact ⟨.inl ⟨rfl, rfl, rfl⟩, rfl⟩
  · exact ⟨.inl ⟨rfl, rfl, rfl⟩, rfl⟩

theorem Journaled.agrees_iff {other : TerminationProof} (h : Journaled cfg e candidate frozen) :
    Agrees frozen other ↔ Agrees candidate other := by
  rcases h with ⟨-, rfl⟩ | ⟨raw, pod, n, -, -, -, rfl⟩
  · exact Iff.rfl
  · exact ⟨fun h => ⟨h.place, h.rest⟩, fun h => ⟨h.place, h.rest⟩⟩

theorem journaledCandidate_spec (h : journaledCandidate cfg st e candidate = .ok frozen) :
    Journaled cfg e candidate frozen := by
  unfold journaledCandidate at h
  split at h
  · rename_i hraw
    exact .inl ⟨hraw, (Except.ok.inj h).symm⟩
  rename_i raw hraw
  split at h
  · cases h
  rename_i pod hpod
  split at h
  · cases h
  · rename_i n hn
    exact .inr ⟨raw, pod, n, hraw, hpod, hn, (Except.ok.inj h).symm⟩

/-- What an event does to the frozen termination. -/
inductive Absorbs (cfg : WatchSettings) (expected : ProcessIdentity) (e : SeenEvent) :
    Option TerminationProof → Option TerminationProof → Prop
  /-- It has no candidate. -/
  | none {o : Option TerminationProof} (h : eventTermination cfg e.fields expected = .ok none) :
      Absorbs cfg expected e o o
  | agrees {candidate frozen : TerminationProof}
      (h : eventTermination cfg e.fields expected = .ok (some candidate))
      (hagrees : Agrees candidate frozen) : Absorbs cfg expected e (some frozen) (some frozen)
  | freezes {candidate frozen : TerminationProof}
      (h : eventTermination cfg e.fields expected = .ok (some candidate))
      (hmodified : e.fields.eventType = "MODIFIED") (hfrozen : Journaled cfg e candidate frozen) :
      Absorbs cfg expected e Option.none (some frozen)

theorem freeze_spec (hc : eventTermination cfg e.fields expected = .ok (some candidate))
    (h : freeze cfg expected st e candidate = .ok st') :
    Absorbs cfg expected e st.observed st'.observed := by
  unfold freeze at h
  split at h
  · rename_i frozen _ hobserved
    split at h
    · rename_i hmatches
      obtain rfl := Except.ok.inj h
      rw [hobserved]
      exact .agrees hc (matchesFrozenTermination_iff.mp hmatches)
    · cases h
  · split at h
    · cases h
    rename_i hmodified
    obtain ⟨journaled, hjournaled, h⟩ := bind_eq_ok.mp h
    have hspec := journaledCandidate_spec hjournaled
    split at h
    · rename_i frozen hobserved
      split at h
      · rename_i hmatches
        obtain rfl := Except.ok.inj h
        rw [hobserved]
        exact .agrees hc (hspec.agrees_iff.mp (matchesFrozenTermination_iff.mp hmatches))
      · cases h
    · rename_i hobserved
      obtain rfl := Except.ok.inj h
      rw [hobserved]
      exact .freezes hc (by simpa using hmodified) hspec

theorem orFail_eq_ok {α : Type} {event : Option DecodedWatchEvent} {x : Except CtlError α} {a : α} :
    orFail st event x = .ok a ↔ x = .ok a := by
  cases x with
  | ok b =>
    simp [orFail]
  | error b =>
    simp [orFail]

theorem absorb_spec (h : absorb cfg expected st e = .ok st') :
    Absorbs cfg expected e st.observed st'.observed := by
  obtain ⟨found, hfound, h⟩ := bind_eq_ok.mp h
  rw [orFail_eq_ok] at hfound
  cases found with
  | none =>
    obtain rfl := Except.ok.inj h
    exact .none hfound
  | some candidate =>
    exact freeze_spec hfound h

/-- The event is about the captured pod on its node. -/
def OfPod (expected : ProcessIdentity) (e : SeenEvent) : Prop :=
  e.fields.podUid = expected.podUid ∧ e.fields.nodeName = expected.nodeName

theorem checkSeen_spec {u : Unit} (h : checkSeen expected st e = .ok u) : OfPod expected e := by
  unfold checkSeen at h
  split at h
  · cases h
  split at h
  · cases h
  split at h
  · cases h
  rename_i huid
  split at h
  · cases h
  · rename_i hnode
    exact ⟨not_not.mp huid, not_not.mp hnode⟩

/-- The observation is the frozen proof with the fields of the deletion. -/
def Completes (cfg : WatchSettings) (deletion : SeenEvent) (frozen : TerminationProof)
    (observation : Observation) : Prop :=
  deletion.fields.eventType = "DELETED" ∧ frozen.terminationEventType = "MODIFIED" ∧
    ∃ raw pod n m, deletion.raw = some raw ∧ podOf raw = some pod ∧
      raw.rawObservationSequence = some n ∧ frozen.terminationRawObservationSequence = some m ∧
      observation.proof = withDeletion frozen deletion.fields.resourceVersion
        (canonicalSha256 cfg.digest (.object pod)) n

theorem finish_spec (hdeleted : e.fields.eventType = "DELETED")
    (h : finish cfg expected st e = .ok observation) :
    ∃ frozen, st.observed = some frozen ∧ Completes cfg e frozen observation := by
  unfold finish at h
  split at h
  · cases h
  rename_i frozen hobserved
  split at h
  · cases h
  rename_i pod n hpod
  split at h
  · cases h
  rename_i hlinked
  push Not at hlinked
  obtain ⟨hmodified, hsequence⟩ := hlinked
  obtain ⟨m, hm⟩ := Option.ne_none_iff_exists'.mp hsequence
  obtain rfl := Except.ok.inj h
  simp only [journaledPod, Option.bind_eq_some_iff, Option.map_eq_some_iff,
    Prod.mk.injEq] at hpod
  obtain ⟨raw, hraw, pod', hpod', n', hn', rfl, rfl⟩ := hpod
  exact ⟨frozen, hobserved, hdeleted, hmodified, raw, pod', n', m, hraw, hpod', hn', hm, rfl⟩

/-- One event, when the deletion is required. -/
theorem consumeEvent_spec {r : Observation ⊕ WatchState}
    (h : consumeEvent cfg expected true st e = .ok r) :
    OfPod expected e ∧ ∃ o, Absorbs cfg expected e st.observed o ∧
      match r with
      | .inr st' => st'.observed = o
      | .inl observation => ∃ frozen, o = some frozen ∧ Completes cfg e frozen observation := by
  obtain ⟨u, hseen, h⟩ := bind_eq_ok.mp h
  refine ⟨checkSeen_spec hseen, ?_⟩
  obtain ⟨st', habsorb, h⟩ := bind_eq_ok.mp h
  refine ⟨st'.observed, absorb_spec habsorb, ?_⟩
  split at h
  · cases h
  split at h
  · rename_i hrequired
    cases hrequired
  split at h
  · rename_i hdeleted
    obtain ⟨observation, hfinish, h⟩ := bind_eq_ok.mp h
    obtain rfl := Except.ok.inj h
    exact finish_spec hdeleted hfinish
  · obtain rfl := Except.ok.inj h
    rfl

end Steps

/-! ## Rounds and events -/

/-- An item of the queue as an event, when it can be read. -/
def seenOf (cfg : WatchSettings) (sink : Bool) (expected : ProcessIdentity) (i : WatchItem) :
    Option SeenEvent := (readItem cfg sink expected { observed := none } i).toOption

/-- The rounds were read as the events: the queue was empty or had the next one. -/
inductive Consumed (cfg : WatchSettings) (sink : Bool) (expected : ProcessIdentity) :
    List Round → List SeenEvent → Prop
  | nil : Consumed cfg sink expected [] []
  | idle {r : Round} {rest : List Round} {events : List SeenEvent} (h : r.polled = .empty none)
      (hrest : Consumed cfg sink expected rest events) :
      Consumed cfg sink expected (r :: rest) events
  | event {r : Round} {rest : List Round} {events : List SeenEvent} {i : WatchItem} {e : SeenEvent}
      (h : r.polled = .item i) (he : seenOf cfg sink expected i = some e)
      (hrest : Consumed cfg sink expected rest events) :
      Consumed cfg sink expected (r :: rest) (e :: events)

/-- Where the frozen termination comes from. -/
def Origin (cfg : WatchSettings) (expected : ProcessIdentity) (prior : Option TerminationProof)
    (events : List SeenEvent) (frozen : TerminationProof) : Prop :=
  prior = some frozen ∨
    prior = none ∧ ∃ before e after candidate, events = before ++ e :: after ∧
      (∀ b ∈ before, eventTermination cfg b.fields expected = .ok none) ∧
      eventTermination cfg e.fields expected = .ok (some candidate) ∧
      e.fields.eventType = "MODIFIED" ∧ Journaled cfg e candidate frozen

/-- The events lead to the frozen termination, and all of them agree with it. -/
structure Freezes (cfg : WatchSettings) (expected : ProcessIdentity)
    (prior : Option TerminationProof) (events : List SeenEvent) (deletion : SeenEvent)
    (frozen : TerminationProof) : Prop where
  pod : ∀ e ∈ events ++ [deletion], OfPod expected e
  origin : Origin cfg expected prior events frozen
  agreement : ∀ e ∈ events ++ [deletion], ∀ candidate,
    eventTermination cfg e.fields expected = .ok (some candidate) → Agrees candidate frozen

section Runs

variable {cfg : WatchSettings} {sink : Bool} {expected : ProcessIdentity} {st : WatchState}
variable {prior next : Option TerminationProof} {events : List SeenEvent} {e deletion : SeenEvent}
variable {frozen : TerminationProof} {observation : Observation}

/-- Whether an item can be read does not depend on what was observed before. -/
theorem seenOf_of_readItem {i : WatchItem} (h : readItem cfg sink expected st i = .ok e) :
    seenOf cfg sink expected i = some e := by
  suffices hread : readItem cfg sink expected { observed := none } i = .ok e by
    rw [seenOf, hread]
    rfl
  cases i with
  | line normalized =>
    simpa only [readItem, bind_eq_ok, orFail_eq_ok] using h
  | raw event reply =>
    simp only [readItem, readRaw, bind_eq_ok, orFail_eq_ok] at h ⊢
    obtain ⟨raw, ⟨sequence, hsequence, hraw⟩, hfields⟩ := h
    refine ⟨raw, ⟨sequence, hsequence, ?_⟩, hfields⟩
    split at hraw
    · exact hraw
    · cases hraw

/-- The last event. -/
theorem Freezes.last (hpod : OfPod expected deletion)
    (hdeleted : deletion.fields.eventType = "DELETED")
    (habsorbs : Absorbs cfg expected deletion prior (some frozen)) :
    Freezes cfg expected prior [] deletion frozen := by
  refine ⟨by simpa using hpod, ?_, ?_⟩
  · cases habsorbs with
    | freezes h hmodified hfrozen =>
      -- a candidate of the deletion cannot be the first one
      rw [hdeleted] at hmodified
      exact absurd hmodified (by decide)
    | _ =>
      exact .inl rfl
  · intro e he candidate hcandidate
    obtain rfl : e = deletion := by simpa using he
    cases habsorbs with
    | none h =>
      rw [hcandidate] at h
      cases h
    | agrees h hagrees =>
      rw [hcandidate] at h
      cases h
      exact hagrees
    | freezes h hmodified hfrozen =>
      rw [hcandidate] at h
      cases h
      exact hfrozen.agrees

/-- One event before the others. -/
theorem Freezes.cons (hpod : OfPod expected e) (habsorbs : Absorbs cfg expected e prior next)
    (h : Freezes cfg expected next events deletion frozen) :
    Freezes cfg expected prior (e :: events) deletion frozen := by
  refine ⟨by simpa using ⟨hpod, by simpa using h.pod⟩, ?_, ?_⟩
  · cases habsorbs with
    | none hnone =>
      rcases h.origin with hprior | ⟨hprior, before, first, after, candidate, rfl, hbefore, hrest⟩
      · exact .inl hprior
      · refine .inr ⟨hprior, e :: before, first, after, candidate, rfl, ?_, hrest⟩
        exact List.forall_mem_cons.mpr ⟨hnone, hbefore⟩
    | agrees hcandidate hagrees =>
      rcases h.origin with hprior | ⟨hprior, -⟩
      · exact .inl hprior
      · cases hprior
    | freezes hcandidate hmodified hfrozen =>
      rcases h.origin with hprior | ⟨hprior, -⟩
      · obtain rfl := Option.some.inj hprior
        exact .inr ⟨rfl, [], e, events, _, rfl, by simp, hcandidate, hmodified, hfrozen⟩
      · cases hprior
  · intro e' he' candidate hcandidate
    rcases List.mem_cons.mp he' with rfl | he'
    · cases habsorbs with
      | none hnone =>
        rw [hcandidate] at hnone
        cases hnone
      | agrees hfound hagrees =>
        rw [hcandidate] at hfound
        cases hfound
        rcases h.origin with hprior | ⟨hprior, -⟩
        · obtain rfl := Option.some.inj hprior
          exact hagrees
        · cases hprior
      | freezes hfound hmodified hfrozen =>
        rw [hcandidate] at hfound
        cases hfound
        rcases h.origin with hprior | ⟨hprior, -⟩
        · obtain rfl := Option.some.inj hprior
          exact hfrozen.agrees
        · cases hprior
    · exact h.agreement e' he' candidate hcandidate

/-- The loop. -/
theorem watchRounds_spec {rounds : List Round}
    (h : watchRounds cfg sink expected true rounds st = .ok observation) :
    ∃ consumed rest events deletion frozen, rounds = consumed ++ rest ∧
      Consumed cfg sink expected consumed (events ++ [deletion]) ∧
      Freezes cfg expected st.observed events deletion frozen ∧
      Completes cfg deletion frozen observation := by
  induction rounds generalizing st with
  | nil =>
    cases h
  | cons r rounds ih =>
    obtain ⟨result, hround, h⟩ := bind_eq_ok.mp h
    unfold watchRound at hround
    split at hround
    · cases hround
    split at hround
    · rename_i hidle
      obtain rfl := Except.ok.inj hround
      obtain ⟨consumed, rest, events, deletion, frozen, rfl, hconsumed, hrest⟩ := ih h
      exact ⟨r :: consumed, rest, events, deletion, frozen, rfl, .idle hidle hconsumed, hrest⟩
    · cases hround
    · cases hround
    · cases hround
    · rename_i i hitem
      obtain ⟨e, hread, hround⟩ := bind_eq_ok.mp hround
      have hseen := seenOf_of_readItem hread
      obtain ⟨hpod, o, habsorbs, hresult⟩ := consumeEvent_spec hround
      cases result with
      | inl found =>
        obtain rfl := Except.ok.inj h
        obtain ⟨frozen, rfl, hcompletes⟩ := hresult
        exact ⟨[r], rounds, [], e, frozen, rfl, .event hitem hseen .nil,
          .last hpod hcompletes.1 habsorbs, hcompletes⟩
      | inr st' =>
        obtain rfl := hresult
        obtain ⟨consumed, rest, events, deletion, frozen, rfl, hconsumed, hfreezes, hrest⟩ :=
          ih h
        exact ⟨r :: consumed, rest, e :: events, deletion, frozen, rfl,
          .event hitem hseen hconsumed, .cons hpod habsorbs hfreezes, hrest⟩

end Runs

/-! ## The journal -/

/-- The number that the sink returns for an item. -/
def sinkNumber : WatchItem → Option Int
  | .raw _ (.ok (n, _)) => some n
  | _ => none

/-- The numbers that the sink returns, in the order of the rounds. -/
def sinkNumbers (rounds : List Round) : List Int :=
  rounds.filterMap fun r =>
    match r.polled with
    | .item i => sinkNumber i
    | _ => none

/-- The number of the raw event, if it was journaled. -/
def SeenEvent.sequence (e : SeenEvent) : Option Int := e.raw.bind (·.rawObservationSequence)

section Journal

variable {cfg : WatchSettings} {expected : ProcessIdentity}

theorem decodeObservedWatchEvent_sequence {event : KubernetesWatchEvent} {sequence : Option Int}
    {raw : DecodedWatchEvent}
    (h : decodeObservedWatchEvent cfg expected event sequence = .ok raw) :
    raw.rawObservationSequence = sequence := by
  unfold decodeObservedWatchEvent at h
  split at h
  · cases h
  · dsimp only at h
    split at h
    · obtain rfl := Except.ok.inj h
      rfl
    · cases h
    · cases h
  · cases h

theorem journalRaw_sequence {event : KubernetesWatchEvent}
    {reply : Except CtlError (Int × String)} {sequence : Option Int}
    (h : journalRaw true event reply = .ok sequence) :
    sequence = sinkNumber (.raw event reply) := by
  unfold journalRaw at h
  rw [if_pos rfl] at h
  split at h
  · cases h
  · split at h
    · cases h
    · exact (Except.ok.inj h).symm

theorem sequence_of_seenOf {i : WatchItem} {e : SeenEvent}
    (h : seenOf cfg true expected i = some e) : e.sequence = sinkNumber i := by
  have hread : readItem cfg true expected { observed := none } i = .ok e := by
    unfold seenOf at h
    cases hread : readItem cfg true expected { observed := none } i with
    | ok e' =>
      rw [hread] at h
      exact congrArg Except.ok (Option.some.inj h)
    | error x =>
      rw [hread] at h
      cases h
  cases i with
  | line normalized =>
    obtain ⟨fields, -, hread⟩ := bind_eq_ok.mp hread
    obtain rfl := Except.ok.inj hread
    rfl
  | raw event reply =>
    obtain ⟨raw, hraw, hread⟩ := bind_eq_ok.mp hread
    obtain ⟨fields, -, hread⟩ := bind_eq_ok.mp hread
    obtain rfl := Except.ok.inj hread
    obtain ⟨sequence, hsequence, hraw⟩ := bind_eq_ok.mp hraw
    rw [← journalRaw_sequence hsequence]
    split at hraw
    · rename_i decoded hdecoded
      obtain rfl := Except.ok.inj hraw
      exact decodeObservedWatchEvent_sequence hdecoded
    · cases hraw

theorem Consumed.sequences {rounds : List Round} {events : List SeenEvent}
    (h : Consumed cfg true expected rounds events) :
    events.filterMap SeenEvent.sequence = sinkNumbers rounds := by
  induction h with
  | nil =>
    rfl
  | idle h _ ih =>
    simp only [sinkNumbers, List.filterMap_cons, h]
    exact ih
  | event h he _ ih =>
    simp only [sinkNumbers, List.filterMap_cons, h, sequence_of_seenOf he]
    unfold sinkNumbers at ih
    rw [ih]

theorem terminationCandidate_sequence {f : WatchFields} {last : Bool} {c : TerminationProof}
    (h : terminationCandidate cfg f expected last = .ok c) :
    c.terminationRawObservationSequence = none := by
  simp only [terminationCandidate, bind_eq_ok] at h
  obtain ⟨exitCode, -, signal, -, restarts, -, adjacent, -, h⟩ := h
  obtain rfl := Except.ok.inj h
  rfl

/-- A candidate has no number before it is journaled. -/
theorem eventTermination_sequence {f : WatchFields} {c : TerminationProof}
    (h : eventTermination cfg f expected = .ok (some c)) :
    c.terminationRawObservationSequence = none := by
  have hmap : ∀ last, (terminationCandidate cfg f expected last).map some = .ok (some c) →
      c.terminationRawObservationSequence = none := by
    intro last hlast
    cases hcandidate : terminationCandidate cfg f expected last with
    | ok c' =>
      rw [hcandidate] at hlast
      obtain rfl : c' = c := Option.some.inj (Except.ok.inj hlast)
      exact terminationCandidate_sequence hcandidate
    | error x =>
      rw [hcandidate] at hlast
      cases hlast
  unfold eventTermination at h
  dsimp only at h
  split at h
  · cases h
  · cases h
  · exact hmap false h
  · exact hmap true h

/-- The number of the frozen termination is an earlier one, or that of an event before the
deletion. -/
theorem Freezes.sequence_mem {prior : Option TerminationProof} {events : List SeenEvent}
    {deletion : SeenEvent} {frozen : TerminationProof} {m : Int}
    (h : Freezes cfg expected prior events deletion frozen)
    (hm : frozen.terminationRawObservationSequence = some m) :
    prior = some frozen ∨ m ∈ events.filterMap SeenEvent.sequence := by
  rcases h.origin with hprior | ⟨-, before, e, after, candidate, rfl, -, hcandidate, -, hfrozen⟩
  · exact .inl hprior
  refine .inr (List.mem_filterMap.mpr ⟨e, by simp, ?_⟩)
  rcases hfrozen with ⟨-, rfl⟩ | ⟨raw, pod, n, hraw, -, hn, rfl⟩
  · rw [eventTermination_sequence hcandidate] at hm
    cases hm
  · simp only [SeenEvent.sequence, hraw, Option.bind_some, hn]
    simpa [withJournal] using hm

theorem sinkNumbers_append (consumed rest : List Round) :
    sinkNumbers (consumed ++ rest) = sinkNumbers consumed ++ sinkNumbers rest :=
  List.filterMap_append

end Journal

/-- What the loop returns, when the deletion is required and the sink counts upwards: the events
that were consumed are about the captured pod; the proof is the prior termination or the first one
of the captured container, in a MODIFIED event, and only the fields of the deletion are added, from
a later DELETED event; all candidates agree with it; and the numbers are in this order. -/
theorem termination_is_frozen (cfg : WatchSettings) (expected watched : ProcessIdentity)
    (prior : Option TerminationProof) (rounds : List Round) (observation : Observation)
    (h : consumeTerminationObservation cfg true expected watched prior true rounds =
      .ok observation) :
    ∃ consumed rest events deletion frozen, rounds = consumed ++ rest ∧
      Consumed cfg true expected consumed (events ++ [deletion]) ∧
      Freezes cfg expected prior events deletion frozen ∧
      Completes cfg deletion frozen observation ∧
      ∃ m n, observation.proof.terminationRawObservationSequence = some m ∧
        observation.proof.deletionRawObservationSequence = some n ∧
        ∀ earlier, (earlier ++ sinkNumbers rounds).Pairwise (· < ·) →
          (∀ p, prior = some p → ∀ k, p.terminationRawObservationSequence = some k → k ∈ earlier) →
          m < n := by
  unfold consumeTerminationObservation at h
  split at h
  · cases h
  obtain ⟨consumed, rest, events, deletion, frozen, rfl, hconsumed, hfreezes, hcompletes⟩ :=
    watchRounds_spec h
  refine ⟨consumed, rest, events, deletion, frozen, rfl, hconsumed, hfreezes, hcompletes, ?_⟩
  obtain ⟨-, -, raw, pod, n, m, hraw, -, hn, hm, hproof⟩ := hcompletes
  refine ⟨m, n, by rw [hproof]; exact hm, by rw [hproof]; rfl, fun earlier hsink hprior => ?_⟩
  have hdeletion : deletion.sequence = some n := by
    simp [SeenEvent.sequence, hraw, hn]
  -- the numbers up to the deletion, which comes last
  have hnumbers : sinkNumbers consumed = events.filterMap SeenEvent.sequence ++ [n] := by
    rw [← hconsumed.sequences, List.filterMap_append]
    simp [hdeletion]
  rw [sinkNumbers_append, hnumbers, List.append_assoc, ← List.append_assoc,
    List.pairwise_append] at hsink
  have hmem : m ∈ earlier ++ events.filterMap SeenEvent.sequence := by
    rcases hfreezes.sequence_mem hm with hfrozen | hevent
    · exact List.mem_append_left _ (hprior frozen hfrozen m hm)
    · exact List.mem_append_right _ hevent
  exact hsink.2.2 m hmem n (by simp)

/-! ## A worker that ends and is deleted -/

/-- The document of an event about the pod, with its worker terminated. -/
def podEvent (eventType version : String) : Json :=
  .object [("type", .string eventType), ("object", .object [
    ("metadata", .object [("uid", .string "pod"), ("resourceVersion", .string version)]),
    ("spec", .object [("nodeName", .string "node")]),
    ("status", .object [("containerStatuses", .array [.object [
      ("name", .string "worker"), ("containerID", .string "container"),
      ("state", .object [("terminated", .object [("containerID", .string "container"),
        ("exitCode", .integer 9)])])]])])])]

/-- A watch with two documents. -/
def podSettings : WatchSettings where
  loads := fun text =>
    if text = "modified" then some (podEvent "MODIFIED" "8")
    else if text = "deleted" then some (podEvent "DELETED" "9")
    else none
  toText := fun _ => ""
  parseInt := fun text => if text = "9" then some 9 else none
  digest := ⟨fun _ => "", fun _ => []⟩

def podRounds : List Round :=
  [⟨none, .item (.raw ⟨"modified", "m"⟩ (.ok (1, "m")))⟩,
    ⟨none, .item (.raw ⟨"deleted", "d"⟩ (.ok (2, "d")))⟩]

def podIdentity : ProcessIdentity :=
  { member := "p0", podUid := "pod", nodeUid := "n", containerId := "container",
    processGeneration := "g", nodeName := "node" }

/-- The worker is seen terminated, then its pod is seen deleted. -/
theorem termination_is_frozen_two_events :
    ∃ observation, consumeTerminationObservation podSettings true podIdentity podIdentity none true
        podRounds = .ok observation ∧
      ∃ m n, observation.proof.terminationRawObservationSequence = some m ∧
        observation.proof.deletionRawObservationSequence = some n ∧ m < n := by
  have hreturns : (consumeTerminationObservation podSettings true podIdentity podIdentity none true
      podRounds).isOk = true := by decide +kernel
  cases h : consumeTerminationObservation podSettings true podIdentity podIdentity none true
      podRounds with
  | error e =>
    rw [h] at hreturns
    cases hreturns
  | ok observation =>
    obtain ⟨-, -, -, -, -, -, -, -, -, m, n, hm, hn, horder⟩ := termination_is_frozen podSettings
      podIdentity podIdentity none podRounds observation h
    exact ⟨observation, rfl, m, n, hm, hn, horder [] (by decide) (by simp)⟩

end PrismServe.Worldctl.Watch
