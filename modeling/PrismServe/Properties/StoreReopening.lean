import PrismServe.Scheduler.StoreWorld

/-!
# Reopening the replacement store

A store is read back as it was, and a crash loses or keeps a call as a whole:
the file is that of before the call, of after it, or, between the two writes of
a seal, one that the next construction completes.
-/

namespace PrismServe

open Lib

namespace ReplacementDecisionStore

/-! ## Reopening -/

variable {limits : StoreLimits} {H : Hashing} {c : StoreContents} {w : StoreWorld}

theorem load_holds {d : Directory Envelope} (hd : Holds H d c) (hc : Consistent limits c)
    (hcomplete : Complete c) (horphan : d.orphan = false) : ∃ c', load H limits d = .ok c' := by
  rcases hd with hmain | ⟨hmain, _⟩
  · exact ⟨_, load_envelopeOf hc hcomplete H horphan hmain⟩
  · exact ⟨{}, by simp [load, horphan, hmain]⟩

/-- A construction whose writes succeed gives the contents of the file, collected. -/
theorem construct_undisturbed {d : Directory Envelope} {f : StoreContents} (hd : Holds H d f)
    (hf : OnFile H limits f) (hcomplete : Complete f) (horphan : d.orphan = false)
    (p : Option StoreProcess) :
    ∃ d' c, Same f c ∧ (StoreEvent.construct limits []).apply H ⟨d, p⟩ =
      ⟨d', some ⟨limits, ⟨(dueCommits c).getLastD c, none⟩⟩⟩ := by
  obtain ⟨c, hload⟩ := load_holds hd hf.consistent hcomplete horphan
  obtain ⟨_, hsame, hd', hc⟩ := hd.load hf.consistent hload
  obtain ⟨_, d', _, _, hrun⟩ := openStore_loaded hload
    (hf.collectable.imp hsame.settled (hsame.uncollected hf.consistent)) hd' p []
  exact ⟨d', c, hsame, hrun⟩

/-- A store in order whose directory is in order too. -/
structure Undisturbed (H : Hashing) (limits : StoreLimits) (d : Directory Envelope)
    (c : StoreContents) : Prop where
  consistent : Consistent limits c
  settled : Settled c
  complete : Complete c
  holds : Holds H d c
  orphan : d.orphan = false

theorem Undisturbed.calls :
    ∀ (calls : List StoreCall) {d : Directory Envelope} {c : StoreContents},
      Undisturbed H limits d c → (∀ request ∈ calls, request.filled) →
      ∃ d' c', runEvents H ⟨d, some ⟨limits, ⟨c, none⟩⟩⟩
          (calls.map fun request => .call request []) = ⟨d', some ⟨limits, ⟨c', none⟩⟩⟩ ∧
        Undisturbed H limits d' c'
  | [], d, c, h, _ => ⟨d, c, rfl, h⟩
  | request :: rest, d, c, h, hfilled => by
      obtain ⟨cs, hcommits, hcomplete, _, d', hd', horphan, hrun⟩ :=
        call_cases h.consistent h.holds request []
      have hmem := getLastD_mem c cs
      have honFile := List.forall_mem_cons.mpr
        ⟨⟨h.consistent, .inl h.settled⟩, hcommits.onFile h.consistent⟩
      have hfull := List.forall_mem_cons.mpr
        ⟨h.complete, hcomplete (hfilled request (by simp)) h.complete⟩
      have h' : Undisturbed H limits d' (cs.getLastD c) :=
        ⟨(honFile _ hmem).consistent, hcommits.settled h.settled, hfull _ hmem, hd',
          horphan.trans h.orphan⟩
      obtain ⟨d'', c'', hrest, hlast⟩ := h'.calls rest fun r hr => hfilled r (by simp [hr])
      refine ⟨d'', c'', ?_, hlast⟩
      rw [← hrest, ← hrun]
      rfl

/-- After any calls whose writes succeed the store is consistent, and a new store on the same
directory has the same contents. -/
theorem store_reopens (H : Hashing) (limits : StoreLimits) (calls : List StoreCall)
    (hfilled : ∀ request ∈ calls, request.filled) :
    ∃ (d : Directory Envelope) (c : StoreContents),
      runEvents H {} (.construct limits [] :: calls.map fun request => .call request []) =
        ⟨d, some ⟨limits, ⟨c, none⟩⟩⟩ ∧
      Consistent limits c ∧
      ∃ (d' : Directory Envelope) (c' : StoreContents),
        (StoreEvent.construct limits []).apply H ⟨d, some ⟨limits, ⟨c, none⟩⟩⟩ =
          ⟨d', some ⟨limits, ⟨c', none⟩⟩⟩ ∧
        Same c c' := by
  have hstart : Undisturbed H limits {} {} :=
    ⟨consistent_empty _, settled_empty, complete_empty, .inr ⟨rfl, rfl⟩, rfl⟩
  have hopened : (StoreEvent.construct limits []).apply H {} =
      ⟨{}, some ⟨limits, ⟨{}, none⟩⟩⟩ := rfl
  obtain ⟨d, c, hrun, hend⟩ := hstart.calls calls hfilled
  refine ⟨d, c, ?_, hend.consistent, ?_⟩
  · rw [← hrun, ← hopened]
    rfl
  · obtain ⟨d', c', hsame, hrun'⟩ := construct_undisturbed hend.holds
      ⟨hend.consistent, .inl hend.settled⟩ hend.complete hend.orphan
      (some ⟨limits, ⟨c, none⟩⟩)
    rw [dueCommits_settled (hsame.settled hend.settled)] at hrun'
    exact ⟨d', c', hrun', hsame⟩

/-- Digests that are easy to read. -/
def plainHashing : Hashing where
  text s := "sha256:" ++ s
  records _ := "sha256:records"
  sealed _ := "sha256:seal"
  payload _ := "sha256:payload"
  text_ne_empty s h := by simpa using congrArg String.length h
  records_ne_empty _ := by decide

def releaseOf (run : String) : ReplacementReleaseRecord :=
  ⟨"cleanup", run, "operation digest", "operation", "lease", ["decode_slot"], "decision"⟩

/-- One release is recorded and its run is sealed. -/
def sealedOnce : List StoreCall :=
  [.persistRecord (releaseOf "run 1") "old", .sealRun "run 1" "old" "new" "decision"]

theorem sealedOnce_reopens :
    (∀ request ∈ sealedOnce, request.filled) ∧
    ∃ (d : Directory Envelope) (c : StoreContents),
      runEvents plainHashing {} (.construct {} [] :: sealedOnce.map fun request =>
        .call request []) = ⟨d, some ⟨{}, ⟨c, none⟩⟩⟩ ∧
      Consistent {} c ∧
      ∃ (d' : Directory Envelope) (c' : StoreContents),
        (StoreEvent.construct {} []).apply plainHashing ⟨d, some ⟨{}, ⟨c, none⟩⟩⟩ =
          ⟨d', some ⟨{}, ⟨c', none⟩⟩⟩ ∧
        Same c c' := by
  have hfilled : ∀ request ∈ sealedOnce, request.filled := by
    simp [sealedOnce, StoreCall.filled, releaseOf, ReplacementReleaseRecord.complete]
  exact ⟨hfilled, store_reopens plainHashing {} sealedOnce hfilled⟩

/-! ## Crashes -/

/-- Contents between the two writes of `seal_run`: sealed, with the records still there. -/
structure Between (H : Hashing) (pre post m : StoreContents) : Prop where
  activeRun : m.activeRun = pre.activeRun
  records : m.records = pre.records
  collected : collected m = post
  uncollected : Uncollected H m

/-- The file is that of before a call, of after it, or between the two writes of a seal. -/
def OneOf (H : Hashing) (d : Directory Envelope) (pre post : StoreContents) : Prop :=
  ∃ f, Holds H d f ∧ (Same f pre ∨ Same f post ∨ ∃ m, Same f m ∧ Between H pre post m)

theorem Commits.mem_cases {cs : List StoreContents} (h : Commits H limits c cs) {f : StoreContents}
    (hf : f ∈ c :: cs) : f = c ∨ f = cs.getLastD c ∨ Between H c (cs.getLastD c) f := by
  cases h with
  | nothing =>
    exact .inl (List.mem_singleton.mp hf)
  | segment run records continued unsealed kept consistent =>
    rcases List.mem_cons.mp hf with rfl | hf
    · exact .inl rfl
    · exact .inr (.inl (List.mem_singleton.mp hf))
  | seals run runSeal active unsealed sealsRun number vouched =>
    rcases List.mem_cons.mp hf with rfl | hf
    · exact .inl rfl
    rcases List.mem_cons.mp hf with rfl | hf
    · refine .inr (.inr ⟨rfl, rfl, rfl, run, runSeal, active, ?_, vouched⟩)
      rw [← sealsRun]
      exact sealForRun_withSeal (sealsRun ▸ unsealed)
    · exact .inr (.inl (List.mem_singleton.mp hf))

/-- What a commit that fails leaves in memory. -/
theorem Commits.memory_cases {cs : List StoreContents} (h : Commits H limits c cs)
    {m : StoreContents} (hm : m ∈ (c :: cs).dropLast) : m = c ∨ Between H c (cs.getLastD c) m := by
  cases h with
  | nothing =>
    cases hm
  | segment run records continued unsealed kept consistent =>
    exact .inl (List.mem_singleton.mp hm)
  | seals run runSeal active unsealed sealsRun number vouched =>
    rcases List.mem_cons.mp hm with rfl | hm
    · exact .inl rfl
    cases List.mem_singleton.mp hm
    refine .inr ⟨rfl, rfl, rfl, run, runSeal, active, ?_, vouched⟩
    rw [← sealsRun]
    exact sealForRun_withSeal (sealsRun ▸ unsealed)

/-- A directory from which one of two contents can be recovered. -/
structure Recoverable (H : Hashing) (limits : StoreLimits) (pre post : StoreContents)
    (w : StoreWorld) (f : StoreContents) : Prop where
  holds : Holds H w.directory f
  onFile : OnFile H limits f
  complete : Complete f
  oneOf : Same f pre ∨ Same f post ∨ ∃ m, Same f m ∧ Between H pre post m

theorem collected_congr {c c' : StoreContents} (h : Same c c') :
    collected c = collected c' := by
  unfold collected
  rw [h.seals, h.nextSealSequence]

theorem Same.trans {a b c : StoreContents} (h : Same a b) (h' : Same b c) : Same a c :=
  ⟨h.activeRun.trans h'.activeRun, fun k => (h.records k).trans (h'.records k),
    h.seals.trans h'.seals, h.nextSealSequence.trans h'.nextSealSequence⟩

/-- What a construction makes of such a file, on the way and in the end. -/
theorem Recoverable.due {pre post f c : StoreContents} (h : Recoverable H limits pre post w f)
    (hpre : Settled pre) (hpost : Settled post) (hsame : Same f c) :
    (∀ c' ∈ c :: dueCommits c,
      Same c' pre ∨ Same c' post ∨ ∃ m, Same c' m ∧ Between H pre post m) ∧
    (Same ((dueCommits c).getLastD c) pre ∨ Same ((dueCommits c).getLastD c) post) := by
  rcases h.oneOf with hf | hf | ⟨m, hf, hm⟩
  · have hc := hsame.symm.trans hf
    rw [dueCommits_settled (hc.symm.settled hpre)]
    exact ⟨by simpa using .inl hc, .inl hc⟩
  · have hc := hsame.symm.trans hf
    rw [dueCommits_settled (hc.symm.settled hpost)]
    exact ⟨by simpa using .inr (.inl hc), .inr hc⟩
  · have hc := hsame.symm.trans hf
    have hconsistent := hf.consistent h.onFile.consistent
    have hcollected : collected c = post := (collected_congr hc).trans hm.collected
    rw [dueCommits_uncollected (hc.symm.uncollected hconsistent hm.uncollected), hcollected]
    refine ⟨List.forall_mem_cons.mpr ⟨.inr (.inr ⟨m, hc, hm⟩), ?_⟩, .inr (Same.refl post)⟩
    intro c' hc'
    cases List.mem_singleton.mp hc'
    exact .inr (.inl (Same.refl _))

/-- An attempt to construct a store, however it ends, loses nothing. -/
theorem Recoverable.attempt {pre post f : StoreContents} (h : Recoverable H limits pre post w f)
    (hpre : Settled pre) (hpost : Settled post) (writes : List WriteOutcome) :
    ∃ f', Recoverable H limits pre post ((StoreEvent.construct limits writes).apply H w) f' := by
  obtain ⟨d, process⟩ := w
  cases hload : load H limits d with
  | error e =>
    rw [openStore_refused hload]
    exact ⟨f, h.holds, h.onFile, h.complete, h.oneOf⟩
  | ok c =>
    obtain ⟨_, hsame, hd, hc⟩ := h.holds.load h.onFile.consistent hload
    have hcollectable : Settled c ∨ Uncollected H c :=
      h.onFile.collectable.imp hsame.settled (hsame.uncollected h.onFile.consistent)
    obtain ⟨honFile, _⟩ := dueCommits_onFile ⟨hc, hcollectable⟩
    have hcomplete := dueCommits_complete (hsame.complete h.complete)
    have hdue := (h.due hpre hpost hsame).1
    obtain ⟨hwritten, _⟩ := openStore_loaded hload hcollectable hd process writes
    generalize (StoreEvent.construct limits writes).apply H ⟨d, process⟩ = w' at hwritten ⊢
    cases hwritten with
    | done d' holds same =>
      have hmem := getLastD_mem c (dueCommits c)
      exact ⟨_, holds, honFile _ hmem, hcomplete _ hmem, hdue _ hmem⟩
    | failed d' f' m error holds file memory =>
      exact ⟨f', holds, honFile _ file, hcomplete _ file, hdue _ file⟩
    | crashed d' f' holds file =>
      exact ⟨f', holds, honFile _ file, hcomplete _ file, hdue _ file⟩

theorem Recoverable.attempts {pre post : StoreContents} (hpre : Settled pre)
    (hpost : Settled post) :
    ∀ (attempts : List (List WriteOutcome)) {w : StoreWorld} {f : StoreContents},
      Recoverable H limits pre post w f →
      ∃ f', Recoverable H limits pre post (runEvents H w (attempts.map (.construct limits))) f'
  | [], _, f, h => ⟨f, h⟩
  | writes :: rest, w, f, h => by
      obtain ⟨f', h'⟩ := h.attempt hpre hpost writes
      exact Recoverable.attempts hpre hpost rest h'

/-- A construction over a temporary file is refused and leaves the directory alone. -/
theorem construct_orphan (h : w.directory.orphan = true) (writes : List WriteOutcome) :
    ∃ q, (StoreEvent.construct limits writes).apply H w = ⟨w.directory, some q⟩ ∧ Refuses H q := by
  obtain ⟨d, process⟩ := w
  have hload : load H limits d =
      .error (.store "orphan replacement-store temp file requires operator review") := by
    unfold load
    rw [if_pos h]
  refine ⟨_, openStore_refused hload writes process, refuses_of_fatal H rfl⟩

/-- A crash inside a call, and any number of constructions that are cut short after it, leave a
file that is that of before the call, of after it, or between the two writes of a seal.  A
construction that is not cut short recovers the contents of before or of after, or refuses because
of a temporary file.  A write that fails leaves the memory as it was and closes the store. -/
theorem crash_keeps_call_whole (H : Hashing) (events : List StoreEvent)
    (hevents : ∀ event ∈ events, event.filled) (p : StoreProcess)
    (hp : (runEvents H {} events).process = some p) (hok : p.store.fatalError = none)
    (request : StoreCall) (hrequest : request.filled) (writes : List WriteOutcome) :
    ∃ post, ((StoreEvent.call request []).apply H (runEvents H {} events)).process =
        some ⟨p.limits, ⟨post, none⟩⟩ ∧
      (((StoreEvent.call request writes).apply H (runEvents H {} events)).process = none →
        ∀ attempts : List (List WriteOutcome),
          ∃ v, v = runEvents H ((StoreEvent.call request writes).apply H (runEvents H {} events))
              (attempts.map (.construct p.limits)) ∧
            OneOf H v.directory p.store.toStoreContents post ∧
            (v.directory.orphan = false → ∃ d c,
              (StoreEvent.construct p.limits []).apply H v =
                ⟨d, some ⟨p.limits, ⟨c, none⟩⟩⟩ ∧
              (Same c p.store.toStoreContents ∨ Same c post)) ∧
            (v.directory.orphan = true → ∀ more, ∃ q,
              (StoreEvent.construct p.limits more).apply H v = ⟨v.directory, some q⟩ ∧
              Refuses H q)) ∧
      (∀ q, ((StoreEvent.call request writes).apply H (runEvents H {} events)).process = some q →
        q.store.fatalError ≠ none →
        (q.store.toStoreContents = p.store.toStoreContents ∨
          Between H p.store.toStoreContents post q.store.toStoreContents) ∧ Refuses H q) ∧
      (∀ (c : StoreContents) (h h' : Host) (e : StoreError),
        (commitState H c).run h = .error (.raised e) h' →
        h'.store.toStoreContents = h.store.toStoreContents ∧ h'.store.fatalError ≠ none) := by
  obtain ⟨f, hinv⟩ := (storeInv_initial H True).run events fun _ => hevents
  generalize runEvents H {} events = w at *
  obtain ⟨hc, hsettled, horphan, hd⟩ := hinv.process p hp hok
  obtain ⟨limits₀, hfile⟩ := hinv.file
  have hcomplete : Complete p.store.toStoreContents :=
    (hinv.holds.same hd hfile.consistent hc).complete (hinv.complete trivial)
  obtain ⟨d, process⟩ := w
  obtain ⟨limits, ⟨c, fatal⟩⟩ := p
  cases hp
  cases hok
  obtain ⟨cs, hcommits, hfull, hwritten, d', _, _, hdone⟩ := call_cases hc hd request writes
  refine ⟨cs.getLastD c, by rw [hdone], ?_, ?_, ?_⟩
  · intro hcrashed attempts
    refine ⟨_, rfl, ?_⟩
    -- the crash left one of the contents of the plan on file
    have hstart : ∃ f, Recoverable H limits c (cs.getLastD c)
        ((StoreEvent.call request writes).apply H ⟨d, some ⟨limits, ⟨c, none⟩⟩⟩) f := by
      have honFile := List.forall_mem_cons.mpr ⟨⟨hc, .inl hsettled⟩, hcommits.onFile hc⟩
      have hall := List.forall_mem_cons.mpr ⟨hcomplete, hfull hrequest hcomplete⟩
      generalize (StoreEvent.call request writes).apply H ⟨d, some ⟨limits, ⟨c, none⟩⟩⟩ = w'
        at hwritten hcrashed ⊢
      cases hwritten with
      | done => cases hcrashed
      | failed => cases hcrashed
      | crashed d' f holds file =>
        refine ⟨f, holds, honFile f file, hall f file, ?_⟩
        rcases hcommits.mem_cases file with rfl | rfl | hm
        · exact .inl (Same.refl _)
        · exact .inr (.inl (Same.refl _))
        · exact .inr (.inr ⟨f, Same.refl f, hm⟩)
    obtain ⟨f₀, hf₀⟩ := hstart
    have hpost := hcommits.settled hsettled
    obtain ⟨f', hf'⟩ := Recoverable.attempts hsettled hpost attempts hf₀
    refine ⟨⟨f', hf'.holds, hf'.oneOf⟩, ?_, fun horphan more => construct_orphan horphan more⟩
    intro hclean
    obtain ⟨d'', c'', hsame, hrun⟩ := construct_undisturbed hf'.holds hf'.onFile hf'.complete
      hclean _
    exact ⟨d'', _, hrun, (hf'.due hsettled hpost hsame).2⟩
  · intro q hq hfatal
    generalize (StoreEvent.call request writes).apply H ⟨d, some ⟨limits, ⟨c, none⟩⟩⟩ = w'
      at hwritten hq
    cases hwritten with
    | done =>
      cases hq
      exact absurd rfl hfatal
    | failed d' f m error holds file memory =>
      cases hq
      exact ⟨hcommits.memory_cases memory, refuses_of_fatal H rfl⟩
    | crashed =>
      cases hq
  · intro c' h h' e hrun
    obtain ⟨left, hcases⟩ := commitState_cases H c' h
    rcases hcases with hcase | ⟨effect, error, hcase⟩ | ⟨effect, hcase⟩
    · rw [hcase] at hrun
      cases hrun
    · rw [hcase] at hrun
      cases hrun
      exact ⟨rfl, by simp⟩
    · rw [hcase] at hrun
      cases hrun

/-- One release is recorded. -/
def recordedOnce : List StoreEvent :=
  [.construct {} [], .call (.persistRecord (releaseOf "run 1") "old") []]

def sealFirst : StoreCall := .sealRun "run 1" "old" "new" "decision"

/-- The process of a world, with an empty store where there is none. -/
def storeIn (w : StoreWorld) : StoreProcess := w.process.getD ⟨{}, {}⟩

/-- A crash while the second write of a seal fills its temporary file. -/
theorem crash_in_collection_kept_whole :
    (∀ event ∈ recordedOnce, event.filled) ∧ sealFirst.filled ∧
    (runEvents plainHashing {} recordedOnce).process =
      some (storeIn (runEvents plainHashing {} recordedOnce)) ∧
    ∃ post, OneOf plainHashing
      ((StoreEvent.call sealFirst [.done, .crashes .orphaned]).apply plainHashing
        (runEvents plainHashing {} recordedOnce)).directory
      (storeIn (runEvents plainHashing {} recordedOnce)).store.toStoreContents post := by
  have hevents : ∀ event ∈ recordedOnce, event.filled := by
    simp [recordedOnce, StoreEvent.filled, StoreCall.filled, releaseOf,
      ReplacementReleaseRecord.complete]
  have hseal : sealFirst.filled := by simp [sealFirst, StoreCall.filled]
  obtain ⟨post, _, hcrash, _⟩ := crash_keeps_call_whole plainHashing recordedOnce hevents
    (storeIn (runEvents plainHashing {} recordedOnce)) rfl rfl sealFirst hseal
    [.done, .crashes .orphaned]
  obtain ⟨v, hv, hfile, _⟩ := hcrash rfl []
  subst hv
  exact ⟨hevents, hseal, rfl, post, hfile⟩

/-- In that crash the file holds neither what it held before the call nor what it would hold after
it.  And a seal of an empty generation is written without complaint, to a file that no later store
can load, though no temporary file is left. -/
theorem crash_leaves_neither :
    (let w := runEvents plainHashing {} recordedOnce
     let crashed := (StoreEvent.call sealFirst [.done, .crashes .orphaned]).apply plainHashing w
     let finished := (StoreEvent.call sealFirst []).apply plainHashing w
     crashed.process.isNone = true ∧ crashed.directory.orphan = true ∧
     crashed.directory.main.isSome = true ∧
     crashed.directory.main ≠
       some (envelopeOf plainHashing (storeIn w).store.toStoreContents) ∧
     crashed.directory.main ≠
       some (envelopeOf plainHashing (storeIn finished).store.toStoreContents)) ∧
    (let w := runEvents plainHashing {} recordedOnce
     let crashed := (StoreEvent.call (.sealRun "run 1" "old" "" "decision")
       [.done, .crashes .replaced]).apply plainHashing w
     let reopened := (StoreEvent.construct {} []).apply plainHashing crashed
     crashed.process.isNone = true ∧ crashed.directory.orphan = false ∧
     (storeIn reopened).store.fatalError =
       some "ReplacementStoreError: replacement seal fields are invalid") := by
  decide +kernel

end ReplacementDecisionStore

end PrismServe
