import PrismServe.Lib.Lists
import PrismServe.Properties.RestartEvidence

/-!
# What a restart does only after the old world is gone

From the four proofs on: the generation is patched, the members are started, a
permit for the fresh pods is written and then published, and the evidence of the
fresh world is checked against it.  The old world is captured once, or restored
from the file.  Over all attempts,

* nothing of the new world is touched before the proofs of the captured world are
  in the file, and the checkpoint only moves forward;
* one permit is published, the one in the file, for fresh pods, and the evidence
  is checked against it.
-/

namespace PrismServe.Worldctl

open Lib Prog Restart

/-! ## Starting the new world -/

/-- A dictionary of the four members with four different values has no value twice. -/
theorem values_nodup {d : Dict String String} (hkeys : ∀ m ∈ d.keys, m ∈ members)
    (hfour : d.values.dedup.length = 4) : d.values.Nodup := by
  refine nodup_of_dedup_length (le_antisymm (List.dedup_sublist _).length_le ?_)
  have hle : d.keys.length ≤ members.length :=
    (d.keys_nodup.subperm fun m hm => hkeys m hm).length_le
  have hlength : d.values.length = d.keys.length := by simp [Dict.values, Dict.keys]
  rw [hfour, hlength]
  exact hle

/-- What is checked of the members of a permit. -/
theorem validateStartupPermit_ok {sha : UnsignedPermit → String} {g m : Option String}
    {p : StartupPermit} {u : Unit} (h : validateStartupPermit sha g m p = .ok u) :
    ((∀ m ∈ p.members.keys, m ∈ members) ∧ ∀ m ∈ members, m ∈ p.members.keys) ∧
      p.members.values.Nodup := by
  unfold validateStartupPermit at h
  simp only [bind_eq_ok] at h
  obtain ⟨_, -, _, -, _, -, _, -, _, -, _, -, _, hkeys, _, -, _, hfour, -⟩ := h
  have hkeys := of_decide_eq_true (ensure_eq_ok.mp hkeys)
  exact ⟨hkeys, values_nodup hkeys.1 (of_decide_eq_true (ensure_eq_ok.mp hfour))⟩

theorem buildStartupPermit_ok {sha : UnsignedPermit → String} {g mode permitId : String}
    {uids : Dict String String} {p : StartupPermit}
    (h : buildStartupPermit sha g uids mode permitId = .ok p) :
    p.members = uids ∧ validateStartupPermit sha (some g) (some mode) p = .ok () := by
  obtain ⟨_, hvalid, h⟩ := bind_eq_ok.mp h
  cases h
  exact ⟨rfl, hvalid⟩

theorem mem_values_inMemberOrder {observed : Dict String String} {uid : String}
    (h : uid ∈ (inMemberOrder observed).values) :
    ∃ m ∈ members, uid = (observed.get? m).getD "" := by
  obtain ⟨m, hm⟩ := (Dict.mem_values_iff _ uid).mp h
  have hget := Dict.get?_foldl_set id (fun m => (observed.get? m).getD "") m members .empty
  obtain ⟨x, hx, huid⟩ : ∃ x, members.reverse.find? (fun x => decide (x = m)) = some x ∧
      (observed.get? x).getD "" = uid := by
    simpa using hget.symm.trans hm
  exact ⟨x, List.mem_reverse.mp (List.mem_of_find?_eq_some hx), huid.symm⟩

/-- The pods that are found in the end are none of the forbidden ones. -/
theorem waitWorkerPodUids_ok {generation : String} {forbidden : List String} {polls : List PodPoll}
    {fresh : Dict String String} (h : waitWorkerPodUids generation forbidden polls = .ok fresh) :
    ∀ uid ∈ fresh.values, uid ∉ forbidden := by
  induction polls with
  | nil =>
    cases h
  | cons poll rest ih =>
    cases poll with
    | failed =>
      exact ih h
    | items pods =>
      unfold waitWorkerPodUids at h
      cases hobserved : observePods generation pods .empty with
      | error e =>
        rw [hobserved] at h
        cases h
      | ok observed =>
        rw [hobserved] at h
        dsimp only at h
        split_ifs at h with hkeys hfour hreused
        · cases h
          intro uid huid hforbidden
          obtain ⟨m, hm, rfl⟩ := mem_values_inMemberOrder huid
          obtain ⟨v, hv⟩ := Option.isSome_iff_exists.mp
            ((observed.mem_keys_iff m).mp (hkeys.2 m hm))
          rw [hv] at hforbidden
          exact hreused ⟨v, (observed.mem_values_iff v).mpr ⟨m, hv⟩, hforbidden⟩
        · exact ih h

section Starting

variable {cfg : RestartSettings} {old : Dict String ProcessIdentity} {s : RestartState}
variable {r r' : RunState} {permit : StartupPermit} {evidence : Evidence} {α : Type}

/-- The run with the four proofs in its guard. -/
structure Proven (cfg : RestartSettings) (old : Dict String ProcessIdentity) (r : RunState)
    (s : RestartState) : Prop where
  holding : Holding cfg old r.checkpoint none s
  file : s.file = some r
  rank : r.checkpoint.rank ≤ 6
  four : hasFourTerminationProofs s.guard = true

theorem quiet_proven : Quiet cfg (Proven cfg old r) :=
  ⟨fun h => h.holding.sound, fun h hc => ⟨h.holding.note hc, h.file, h.rank, h.four⟩,
    fun w h => ⟨quiet_holding.watches w h.holding, h.file, h.rank, h.four⟩⟩

theorem Proven.onward (h : Proven cfg old r s) (hon : Onward r r')
    (hrank : r'.checkpoint.rank ≤ 6) : Proven cfg old r' (s.saved r') :=
  ⟨h.holding.onward h.file hon, rfl, hrank, h.four⟩

/-- The proofs of the guard are those of the file. -/
theorem Proven.dead (h : Proven cfg old r s) : ProvenDead cfg r := by
  obtain ⟨r₀, ids, hfile, -, hids, hworld, hguard⟩ := h.holding.run
  obtain rfl : r₀ = r := Option.some.inj (hfile.symm.trans h.file)
  refine ⟨ids, hids, fun m hm => ?_⟩
  have hfour := of_decide_eq_true h.four
  obtain ⟨p, hp⟩ := Option.isSome_iff_exists.mp ((s.guard.mem_keys_iff m).mp (hfour.2.1 m hm))
  obtain ⟨-, ⟨i, hi, hbinds⟩, hdurable⟩ := hguard m p hp
  refine ⟨i, (hworld.mem i).mpr ⟨m, hm, hi⟩, hworld.named m i hi, p, ?_, hbinds⟩
  rcases hdurable with hdurable | hwaits
  · exact hdurable
  · cases hwaits

/-- A step of the run: calls that leave the file alone, then the next checkpoint. -/
theorem goes_advance {p : Restart Unit} {k : Checkpoint} (h : Proven cfg old r s)
    (hp : Stays cfg (Proven cfg old r) p) (hk : r.checkpoint.rank ≤ k.rank) (hrank : k.rank ≤ 6) :
    Goes cfg (do p; save { r with checkpoint := k }) s fun _ t => ∃ r, Proven cfg old r t := by
  refine goes_bind (Stays.goes quiet_proven hp h) fun _ t ht => ?_
  exact runs_save ht.holding.sound ⟨_, ht.onward (onward_checkpoint hk) hrank⟩

variable (a : RestartArguments)

theorem runs_patchGeneration (h : Proven cfg old r s) :
    Goes cfg (patchGeneration a) s fun _ t => ∃ r, Proven cfg old r t := by
  refine (runs_withRun h.file).mpr ?_
  split
  case isTrue hk =>
    exact goes_advance h (stays_perform quiet_proven fun t ht => ⟨r, ht.file, ht.dead⟩)
      (by simp [hk, Checkpoint.rank]) (by simp [Checkpoint.rank])
  case isFalse =>
    exact ⟨r, h⟩

theorem runs_startMembers (h : Proven cfg old r s) :
    Goes cfg startMembers s fun _ t => ∃ r, Proven cfg old r t := by
  refine (runs_withRun h.file).mpr ?_
  split
  case isTrue hk =>
    exact goes_advance h
      (Retains.forEach fun m _ => stays_perform quiet_proven fun t ht => ⟨r, ht.file, ht.dead⟩)
      (by simp [hk, Checkpoint.rank]) (by simp [Checkpoint.rank])
  case isFalse =>
    exact ⟨r, h⟩

/-- The fresh pods are none of the captured ones. -/
theorem runs_waitFreshPodUids {P : RestartState → Prop} (hP : Quiet cfg P) (h : P s) :
    Goes cfg (waitFreshPodUids a old) s fun fresh t =>
      P t ∧ ∀ uid ∈ fresh.values, uid ∉ oldPodUids old := by
  refine goes_bind (Stays.goes hP (stays_call hP (c := .listPods a.newGeneration (oldPodUids old))
    fun _ => trivial) h) fun reply t ht => ?_
  cases reply with
  | pods polls =>
    refine (runs_lift _).mpr ?_
    cases hfresh : waitWorkerPodUids a.newGeneration (oldPodUids old) polls with
    | ok fresh =>
      exact ⟨ht, waitWorkerPodUids_ok hfresh⟩
    | error e =>
      exact hP.sound ht
  | _ =>
    exact hP.sound ht

/-- The permit is in the file. -/
structure Issued (cfg : RestartSettings) (old : Dict String ProcessIdentity)
    (permit : StartupPermit) (r : RunState) (s : RestartState) : Prop where
  proven : Proven cfg old r s
  permit : r.startupPermit = some permit

theorem quiet_issued : Quiet cfg (Issued cfg old permit r) :=
  ⟨fun h => h.proven.holding.sound, fun h hc => ⟨quiet_proven.note h.proven hc, h.permit⟩,
    fun w h => ⟨quiet_proven.watches w h.proven, h.permit⟩⟩

theorem Issued.onward (h : Issued cfg old permit r s) (hon : Onward r r')
    (hrank : r'.checkpoint.rank ≤ 6) : Issued cfg old permit r' (s.saved r') :=
  ⟨h.proven.onward hon hrank, hon.permit.trans h.permit⟩

theorem durablePermit_ok {a : RestartArguments} (h : durablePermit cfg a r = .ok permit) :
    r.startupPermit = some permit := by
  unfold durablePermit at h
  cases hfresh : r.freshPodUids with
  | none =>
    simp [hfresh] at h
  | some fresh =>
    rw [hfresh] at h
    obtain ⟨_, -, h⟩ := bind_eq_ok.mp h
    cases hpermit : r.startupPermit with
    | none =>
      simp [hpermit] at h
    | some p =>
      rw [hpermit] at h
      obtain ⟨_, -, h⟩ := bind_eq_ok.mp h
      obtain ⟨_, -, h⟩ := bind_eq_ok.mp h
      cases h
      rfl

/-- A permit for fresh pods is written. -/
theorem Proven.issue (fresh : Dict String String) (h : Proven cfg old r s)
    (hk : r.checkpoint = .started)
    (hkeys : (∀ m ∈ permit.members.keys, m ∈ members) ∧ ∀ m ∈ members, m ∈ permit.members.keys)
    (hdistinct : permit.members.values.Nodup)
    (hfresh : ∀ uid ∈ permit.members.values, uid ∉ oldPodUids old) :
    Issued cfg old permit
      { r with
        freshPodUids := some fresh
        startupPermit := some permit
        checkpoint := .permitReady }
      (s.saved { r with
        freshPodUids := some fresh
        startupPermit := some permit
        checkpoint := .permitReady }) := by
  obtain ⟨r₀, ids, hfile, -, hids, hworld, hguard⟩ := h.holding.run
  obtain rfl : r₀ = r := Option.some.inj (hfile.symm.trans h.file)
  have hwf := (h.holding.sound.current r₀ hfile).1
  have hnone : r₀.startupPermit = none := hwf.unissued (by simp [hk, Checkpoint.rank])
  have hdisjoint : ∀ i ∈ ids, i.podUid ∉ permit.members.values := by
    intro i hi hmem
    obtain ⟨m, hm, hget⟩ := (hworld.mem i).mp hi
    exact hfresh _ hmem (List.mem_filterMap.mpr ⟨m, hm, by rw [hget]; rfl⟩)
  refine ⟨⟨⟨h.holding.sound.saved (fun r₁ hr₁ => ?_) ⟨?_, ?_, ?_⟩, _, ids, rfl, rfl, hids, hworld,
    hguard⟩, rfl, by simp [Checkpoint.rank], h.four⟩, rfl⟩
  · obtain rfl : r₁ = r₀ := Option.some.inj (hr₁.symm.trans hfile)
    refine ⟨by simp [hk, Checkpoint.rank], fun _ hx => hx, fun p hp => ?_⟩
    rw [hnone] at hp
    cases hp
  · exact fun hzero => by simp [Checkpoint.rank] at hzero
  · exact fun hle => by simp [Checkpoint.rank] at hle
  · intro p hp
    cases hp
    exact ⟨hkeys, hdistinct, ids, hids, hdisjoint⟩

theorem runs_preparePermit (h : Proven cfg old r s) :
    Goes cfg (preparePermit cfg a old) s fun permit t => ∃ r, Issued cfg old permit r t := by
  refine (runs_withRun h.file).mpr ?_
  split
  case isTrue hk =>
    refine goes_bind (runs_waitFreshPodUids a quiet_proven h) fun fresh t ⟨ht, hfresh⟩ => ?_
    have hu : Proven cfg old r { t with drawn := t.drawn + 1 } :=
      ⟨⟨ht.holding.sound.congr rfl rfl, ht.holding.run⟩, ht.file, ht.rank, ht.four⟩
    refine goes_lift hu.holding.sound fun permit hpermit => ?_
    obtain ⟨hmembers, hvalid⟩ := buildStartupPermit_ok hpermit
    obtain ⟨hkeys, hdistinct⟩ := validateStartupPermit_ok hvalid
    have hissued := hu.issue fresh hk hkeys hdistinct (by rwa [hmembers])
    exact runs_saveThen hu.holding.sound ⟨_, hissued⟩
  case isFalse =>
    refine (runs_lift _).mpr ?_
    cases hpermit : durablePermit cfg a r with
    | ok permit =>
      exact ⟨r, h, durablePermit_ok hpermit⟩
    | error e =>
      exact h.holding.sound

/-- The published permit is the one in the file. -/
theorem runs_announcePermit (hk : r.checkpoint = .permitReady) (h : Issued cfg old permit r s) :
    Goes cfg (announcePermit cfg a permit r) s fun _ t => ∃ r, Issued cfg old permit r t := by
  have hsound := h.proven.holding.sound
  have hok : CallOk cfg (.publishStartupPermit permit) s.file :=
    ⟨r, h.proven.file, h.proven.dead, h.permit,
      (hsound.current r h.proven.file).1.permit permit h.permit⟩
  refine runs_hear hsound hok fun reply => ?_
  have ht := quiet_issued.note h hok
  cases reply with
  | permit published =>
    refine goes_lift ht.proven.holding.sound fun _ _ => ?_
    refine goes_lift ht.proven.holding.sound fun _ _ => ?_
    have hon := onward_checkpoint (r := r) (c := .permitPublished) (by simp [hk, Checkpoint.rank])
    exact runs_save ht.proven.holding.sound ⟨_, ht.onward hon (by simp [Checkpoint.rank])⟩
  | _ =>
    exact ht.proven.holding.sound

theorem runs_confirmFreshPods (entry : Checkpoint)
    (fresh : Dict String String) (h : Issued cfg old permit r s) :
    Goes cfg (confirmFreshPods a old entry fresh) s fun _ => Issued cfg old permit r := by
  unfold confirmFreshPods
  split
  · refine goes_bind (runs_waitFreshPodUids a quiet_issued h) fun observed t ⟨ht, _⟩ => ?_
    exact Stays.goes quiet_issued (stays_lift _ _) ht
  · exact h

theorem runs_publishPermit (entry : Checkpoint) (h : Issued cfg old permit r s) :
    Goes cfg (publishPermit cfg a old entry permit) s
      fun _ t => ∃ r, Issued cfg old permit r t := by
  refine (runs_withRun h.proven.file).mpr ?_
  split
  case isTrue hk =>
    exact goes_bind (runs_confirmFreshPods a entry _ h) fun _ _ ht => runs_announcePermit a hk ht
  case isFalse =>
    exact ⟨r, h⟩

/-- The file is known, and the log is sound. -/
structure Knows (cfg : RestartSettings) (r : RunState) (s : RestartState) : Prop where
  sound : Sound cfg s
  file : s.file = some r

theorem quiet_knows : Quiet cfg (Knows cfg r) :=
  ⟨fun h => h.sound, fun h hc => ⟨h.sound.note hc, h.file⟩,
    fun _ h => ⟨h.sound.congr rfl rfl, h.file⟩⟩

/-- The last checkpoints come after all that leave the old world and the permit alone. -/
theorem Knows.later (h : Knows cfg r s) (hmild : Mild r r') {p : Phase} {c : Checkpoint}
    (hc : 7 ≤ c.rank) (hle : r.checkpoint.rank ≤ c.rank) {e : Option Evidence}
    {response : Option AcceptedResponse} :
    Sound cfg (s.saved { r' with
      phase := p
      checkpoint := c
      evidence := e
      acceptedResponse := response }) := by
  refine h.sound.onward h.file ⟨hle, hmild.onward.captured, hmild.onward.permit,
    hmild.onward.proofs⟩ ?_
  change 0 < c.rank
  omega

/-- Events that are noted only for the watchdog leave the rest alone. -/
theorem mild_noted {c : Prop} [Decidable c] {x : Except CtlError RunState}
    (hx : ∀ r', x = .ok r' → Mild r r') (h : (if c then x else .ok r) = .ok r') : Mild r r' := by
  split at h
  · exact hx r' h
  · cases h
    exact mild_of_eq rfl rfl rfl rfl

/-- The gateway is given evidence that was checked against the permit in the file. -/
theorem runs_acceptEvidence (h : Knows cfg r s) (hpermit : r.startupPermit = some permit)
    (hvalid : validatePermittedIdentities cfg.permitSha evidence permit = .ok ()) :
    Goes cfg (acceptEvidence a evidence permit) s fun _ => Sound cfg := by
  have hok : CallOk cfg (.acceptTopology evidence) s.file := ⟨r, permit, h.file, hpermit, hvalid⟩
  refine runs_hear h.sound hok fun reply => ?_
  have ht := quiet_knows.note h hok
  cases reply with
  | accepted response =>
    refine goes_lift ht.sound fun _ _ => ?_
    refine (runs_withRun ht.file).mpr (goes_lift ht.sound fun noted hnoted => ?_)
    have hmild := mild_noted (fun _ => mild_recordProtocolEvent) hnoted
    refine goes_bind (Stays.goes quiet_knows (stays_perform quiet_knows
      (c := .persistStartedWorld permit) fun _ _ => trivial) ht) fun _ t ht => ?_
    have hle : r.checkpoint.rank ≤ Checkpoint.accepted.rank := by
      cases r.checkpoint <;> decide
    exact runs_saveThen ht.sound (ht.later hmild (by decide) hle)
  | _ =>
    exact ht.sound

theorem checkEvidence_ok {a : RestartArguments} {guard : Guard} {e e' : Evidence}
    (h : checkEvidence cfg a r guard permit e = .ok e') :
    validatePermittedIdentities cfg.permitSha e' permit = .ok () := by
  unfold checkEvidence at h
  simp only [bind_eq_ok] at h
  obtain ⟨_, -, _, -, _, -, _, -, _, -, _, -, _, hvalid, h⟩ := h
  cases h
  exact hvalid

theorem runs_gatherEvidence (h : Issued cfg old permit r s) :
    Goes cfg (gatherEvidence cfg a permit) s fun evidence t =>
      ∃ r, Knows cfg r t ∧ r.startupPermit = some permit ∧
        validatePermittedIdentities cfg.permitSha evidence permit = .ok () := by
  have hknows : Knows cfg r s := ⟨h.proven.holding.sound, h.proven.file⟩
  refine goes_lift hknows.sound fun _ _ => ?_
  refine runs_hear hknows.sound (c := .waitAcceptanceEvidence) trivial fun reply => ?_
  have ht : Knows cfg r (s.note .waitAcceptanceEvidence) := quiet_knows.note hknows trivial
  cases reply with
  | evidence found =>
    refine (runs_withRun ht.file).mpr (goes_lift ht.sound fun e he => ?_)
    refine goes_lift ht.sound fun noted hnoted => ?_
    have hmild : Mild r noted := by
      refine mild_noted (fun r₂ hr₂ => ?_) hnoted
      obtain ⟨r₁, hr₁, hr₂⟩ := bind_eq_ok.mp hr₂
      exact (mild_recordProtocolEvent hr₁).trans (mild_recordProtocolEvent hr₂)
    have hle : r.checkpoint.rank ≤ Checkpoint.evidenceReady.rank :=
      h.proven.rank.trans (by decide)
    refine runs_saveThen ht.sound ⟨_, ⟨ht.later hmild (by decide) hle, rfl⟩, ?_,
      checkEvidence_ok he⟩
    exact hmild.onward.permit.trans h.permit
  | _ =>
    exact ht.sound

/-- Nothing is patched, started or published without the four proofs. -/
theorem runs_continueAfterTermination {k : Checkpoint} (h : Holding cfg old k none s) :
    Goes cfg (continueAfterTermination cfg a old) s fun _ => Sound cfg := by
  obtain ⟨r, ids, hfile, hk, -⟩ := h.run
  refine (runs_withRun hfile).mpr (goes_lift h.sound fun _ hrank => ?_)
  have hrank := of_decide_eq_true (ensure_eq_ok.mp hrank)
  refine goes_lift h.sound fun _ hfour => ?_
  have hproven : Proven cfg old r s := ⟨hk ▸ h, hfile, hrank.2, ensure_eq_ok.mp hfour⟩
  refine goes_bind (runs_patchGeneration a hproven) fun _ t ⟨r₁, h₁⟩ => ?_
  refine goes_bind (runs_startMembers h₁) fun _ t ⟨r₂, h₂⟩ => ?_
  refine goes_bind (runs_preparePermit a h₂) fun permit t ⟨r₃, h₃⟩ => ?_
  refine goes_bind (runs_publishPermit a _ h₃) fun _ t ⟨r₄, h₄⟩ => ?_
  refine goes_bind (runs_gatherEvidence a h₄) fun e t ⟨r₅, h₅, hpermit, hvalid⟩ => ?_
  exact runs_acceptEvidence a h₅ hpermit hvalid

end Starting

/-! ## Capturing the old world, and restoring it -/

section Capturing

variable {cfg : RestartSettings} {old : Dict String ProcessIdentity} {s : RestartState}
variable {r r' : RunState} {k : Checkpoint} {a : RestartArguments} {world : OldWorld} {α : Type}

/-- A run that has not captured anything. -/
structure Begun (cfg : RestartSettings) (r : RunState) (s : RestartState) : Prop where
  knows : Knows cfg r s
  created : r.checkpoint = .created
  guard : s.guard = .empty

theorem quiet_begun : Quiet cfg (Begun cfg r) :=
  ⟨fun h => h.knows.sound, fun h hc => ⟨quiet_knows.note h.knows hc, h.created, h.guard⟩,
    fun w h => ⟨quiet_knows.watches w h.knows, h.created, h.guard⟩⟩

/-- The constructor of the guard has looked at the names. -/
theorem checkOldWorld_ok {g g' : String} {u : Unit} (h : checkOldWorld g g' old = .ok u) :
    ∀ m i, old.get? m = some i → i.member = m := by
  unfold checkOldWorld at h
  obtain ⟨_, -, h⟩ := bind_eq_ok.mp h
  obtain ⟨_, -, h⟩ := bind_eq_ok.mp h
  obtain ⟨_, hnamed, -⟩ := bind_eq_ok.mp h
  intro m i hi
  exact (of_decide_eq_true (ensure_eq_ok.mp hnamed) (m, i) ((old.mem_entries_iff m i).mpr hi)).1

/-- The old world is written before anything is stopped. -/
theorem Begun.capture (h : Begun cfg r s)
    (hnamed : ∀ m i, world.processes.get? m = some i → i.member = m)
    (hr' : captureState a world r = .ok r') :
    Holding cfg world.processes .captured none (s.saved r') := by
  have hwf := (h.knows.sound.current r h.knows.file).1
  obtain ⟨hnone, -, -⟩ := hwf.created (by simp [h.created, Checkpoint.rank])
  have hunissued := hwf.unissued (by simp [h.created, Checkpoint.rank])
  have hmild : Mild (withOldWorld a world r) r' :=
    mild_noted (fun _ => mild_recordProtocolEvent) hr'
  have hids : r'.capturedIdentities = some (members.filterMap world.processes.get?) :=
    hmild.onward.captured
  have hpermit : r'.startupPermit = none := hmild.onward.permit.trans hunissued
  have hk : r'.checkpoint = .captured := hmild.checkpoint
  refine ⟨h.knows.sound.saved (fun r₀ hr₀ => ?_) ⟨?_, fun _ => hpermit, ?_⟩, r', _, rfl, hk, hids,
    ⟨fun i => List.mem_filterMap, hnamed⟩, ?_⟩
  · obtain rfl : r₀ = r := Option.some.inj (hr₀.symm.trans h.knows.file)
    refine ⟨by simp [h.created, Checkpoint.rank], fun ids hids => ?_, fun p hp => ?_⟩
    · rw [hnone] at hids
      cases hids
    · rw [hunissued] at hp
      cases hp
  · intro hzero
    simp [hk, Checkpoint.rank] at hzero
  · intro p hp
    rw [hpermit] at hp
    cases hp
  · intro m p hp
    have hguard : (s.saved r').guard = .empty := h.guard
    rw [hguard] at hp
    cases hp

/-- The members of a list, filed under their names. -/
theorem restored_get? {g : String} {message : String} {l : List ProcessIdentity} :
    ∀ {d d' : Dict String ProcessIdentity},
      l.foldlM (fun (d : Dict String ProcessIdentity) i => do
        insist (i.member ∈ members ∧ ¬ d.contains i.member ∧ i.topologyGeneration = g) message
        return d.set i.member i) d = .ok d' →
      (∀ i ∈ l, i.member ∈ members) ∧
        ∀ m i, d'.get? m = some i ↔ d.get? m = some i ∨ (i ∈ l ∧ i.member = m) := by
  induction l with
  | nil =>
    intro d d' h
    cases h
    simp
  | cons x rest ih =>
    intro d d' h
    obtain ⟨d₁, hd₁, hrest⟩ := bind_eq_ok.mp h
    obtain ⟨_, hx, hd₁⟩ := bind_eq_ok.mp hd₁
    cases hd₁
    obtain ⟨hmem, hnew, -⟩ := of_decide_eq_true (ensure_eq_ok.mp hx)
    obtain ⟨hrest, hget⟩ := ih hrest
    have hnone : d.get? x.member = none := by
      simpa [Dict.contains] using hnew
    refine ⟨List.forall_mem_cons.mpr ⟨hmem, hrest⟩, fun m i => ?_⟩
    have hset : (d.set x.member x).get? m = some i ↔
        d.get? m = some i ∨ (i = x ∧ i.member = m) := by
      rw [Dict.get?_set]
      by_cases hm : m = x.member
      · subst hm
        rw [if_pos rfl, hnone]
        simp only [Option.some.injEq, reduceCtorEq, false_or]
        exact ⟨fun h => ⟨h.symm, by rw [h]⟩, fun h => h.1.symm⟩
      · rw [if_neg hm]
        refine ⟨Or.inl, fun h => h.resolve_right ?_⟩
        rintro ⟨rfl, hname⟩
        exact hm hname.symm
    rw [hget, hset, List.mem_cons, or_assoc, or_and_right]

/-- The restored world is the captured one. -/
theorem restoreCapturedWorld_ok {g : String} (h : r.restoreCapturedWorld g = .ok old) :
    ∃ ids, r.capturedIdentities = some ids ∧ IsOldWorld old ids := by
  unfold RunState.restoreCapturedWorld at h
  cases hids : r.capturedIdentities with
  | none =>
    rw [hids] at h
    cases h
  | some ids =>
    rw [hids] at h
    obtain ⟨_, -, h⟩ := bind_eq_ok.mp h
    obtain ⟨d, hd, h⟩ := bind_eq_ok.mp h
    obtain ⟨_, -, h⟩ := bind_eq_ok.mp h
    cases h
    obtain ⟨hmembers, hget⟩ := restored_get? hd
    refine ⟨ids, rfl, fun i => ⟨fun hi => ?_, ?_⟩, fun m i hi => ?_⟩
    · exact ⟨i.member, hmembers i hi, (hget _ i).mpr (Or.inr ⟨hi, rfl⟩)⟩
    · rintro ⟨m, -, hi⟩
      rcases (hget m i).mp hi with hempty | ⟨hi, -⟩
      · cases hempty
      · exact hi
    · rcases (hget m i).mp hi with hempty | ⟨-, hname⟩
      · cases hempty
      · exact hname

/-- An attempt that knows its old world: captured just now, or in an earlier attempt. -/
def Entered (cfg : RestartSettings) (old : Dict String ProcessIdentity) (s : RestartState) : Prop :=
  (∃ r, Begun cfg r s) ∨ ∃ k, Holding cfg old k none s

theorem Entered.sound (h : Entered cfg old s) : Sound cfg s := by
  rcases h with ⟨r, hbegun⟩ | ⟨k, hholding⟩
  · exact hbegun.knows.sound
  · exact hholding.sound

theorem quiet_entered : Quiet cfg (Entered cfg old) where
  sound h := h.sound
  note h hc := h.imp (fun ⟨r, h⟩ => ⟨r, quiet_begun.note h hc⟩)
    fun ⟨k, h⟩ => ⟨k, quiet_holding.note h hc⟩
  watches w h := h.imp (fun ⟨r, h⟩ => ⟨r, quiet_begun.watches w h⟩)
    fun ⟨k, h⟩ => ⟨k, quiet_holding.watches w h⟩

/-- The proofs that the guard is given were written, or are written now. -/
theorem runs_restoreProofs (h : Entered cfg old s) :
    Goes cfg (restoreProofs cfg old) s fun _ => Entered cfg old := by
  rcases h with ⟨r, hbegun⟩ | ⟨k, hholding⟩
  · have hwf := (hbegun.knows.sound.current r hbegun.knows.file).1
    obtain ⟨-, hjournal, hproofs⟩ := hwf.created (by simp [hbegun.created, Checkpoint.rank])
    have hnothing : r.durableProofs cfg.proofSha = .ok .empty := by
      unfold RunState.durableProofs
      rw [hjournal, hproofs]
      rfl
    refine (runs_withRun hbegun.knows.file).mpr ?_
    rw [hnothing]
    exact Or.inl ⟨r, hbegun⟩
  · obtain ⟨r, ids, hfile, -⟩ := hholding.run
    refine (runs_withRun hfile).mpr (goes_lift hholding.sound fun durable _ => ?_)
    refine (goes_forEach (fun p t ht => ?_) hholding).mono fun x t ht => ?_
    · refine goes_lift ht.sound fun guard hguard => ?_
      exact runs_checkpointProof (ht.accept hguard)
    · cases x with
      | ok _ =>
        exact Or.inr ⟨k, ht⟩
      | error e =>
        exact ht

variable {P : RestartState → Prop}

theorem stays_startWatch (hP : Quiet cfg P) (m : String) : Stays cfg P (startWatch old m) := by
  refine (stays_oldProcess P m).bind fun identity => ?_
  refine (stays_perform hP (c := .startTerminationWatch identity) fun _ _ => trivial).bind
    fun _ => ?_
  exact Retains.sync fun s h => hP.watches _ h

theorem stays_closeWatches (hP : Quiet cfg P) : Stays cfg P closeWatches :=
  Retains.sync fun s h =>
    Retains.forEach (fun m _ => stays_perform hP (c := .closeTerminationWatch m)
      fun _ _ => trivial) s h

/-- The watches are closed, whatever happened. -/
theorem runs_ensuring {Q : α → RestartState → Prop} (hQ : ∀ x, Quiet cfg (Q x)) {p : Restart α}
    (hp : Goes cfg p s Q) : Goes cfg (ensuring p closeWatches) s Q := by
  refine goes_bind (Warrants.rescue hp (fun _ _ ht => ht) fun e t ht => ?_) fun b t ht => ?_
  · exact goes_bind (Stays.goes quiet_sound (stays_closeWatches quiet_sound) ht) fun _ _ hu => hu
  · exact goes_bind (Stays.goes (hQ b) (stays_closeWatches (hQ b)) ht) fun _ _ hu => hu

/-- What is known when the old world was stopped, in this attempt or before. -/
def Stopped (cfg : RestartSettings) (old : Dict String ProcessIdentity)
    (result : Option AcceptedResponse) (t : RestartState) : Prop :=
  match result with
  | none => Holding cfg old .terminated none t
  | some _ => Sound cfg t

theorem quiet_stopped (result : Option AcceptedResponse) : Quiet cfg (Stopped cfg old result) := by
  cases result with
  | none =>
    exact quiet_holding
  | some _ =>
    exact quiet_sound

theorem runs_terminateOrContinue (h : Holding cfg world.processes k none s) :
    Goes cfg (withRun fun r =>
      if r.checkpoint = .captured then
        (terminateOldWorld cfg a world.processes).bind fun _ => .ret none
      else (continueAfterTermination cfg a world.processes).bind fun x => .ret (some x)) s
      (Stopped cfg world.processes) := by
  obtain ⟨r, ids, hfile, hk, -⟩ := h.run
  refine (runs_withRun hfile).mpr ?_
  split
  case isTrue hcaptured =>
    have h : Holding cfg world.processes .captured none s := hcaptured ▸ hk.symm ▸ h
    exact goes_bind (runs_terminateOldWorld a h) fun _ _ ht => ht
  case isFalse =>
    exact goes_bind (runs_continueAfterTermination a h) fun _ _ ht => ht

theorem runs_stopOldWorld (hnamed : ∀ m i, world.processes.get? m = some i → i.member = m)
    (h : Entered cfg world.processes s) :
    Goes cfg (stopOldWorld cfg a world) s (Stopped cfg world.processes) := by
  rcases h with ⟨r, hbegun⟩ | ⟨k, hholding⟩
  · refine (runs_withRun hbegun.knows.file).mpr ?_
    refine goes_bind (Stays.goes quiet_begun (Retains.forEach fun m _ =>
      stays_startWatch quiet_begun m) hbegun) fun _ t ht => ?_
    unfold captureOnce
    rw [if_pos hbegun.created]
    refine goes_bind (Q := fun _ => Holding cfg world.processes .captured none) ?_
      fun _ u hu => runs_terminateOrContinue hu
    exact runs_update ht.knows.sound ht.knows.file (fun r' hr' => ht.capture hnamed hr')
      fun _ _ => ht.knows.sound
  · obtain ⟨r, ids, hfile, hk, hids, -⟩ := hholding.run
    refine (runs_withRun hfile).mpr ?_
    refine goes_bind (Stays.goes quiet_holding (Retains.forEach fun m _ =>
      stays_startWatch quiet_holding m) hholding) fun _ t ht => ?_
    have hnot : r.checkpoint ≠ .created := by
      intro hcreated
      have := (hholding.sound.current r hfile).1.rank_pos hids
      simp [hcreated, Checkpoint.rank] at this
    unfold captureOnce
    rw [if_neg hnot]
    exact runs_terminateOrContinue ht

theorem runs_restartFrom (h : Entered cfg world.processes s) :
    Goes cfg (restartFrom cfg a world) s fun _ => Sound cfg := by
  refine goes_bind (Stays.goes quiet_entered (stays_perform quiet_entered
    (c := .includeRequiredOldOperationIds _) fun _ _ => trivial) h) fun _ t ht => ?_
  refine goes_bind (Stays.goes quiet_entered (stays_perform quiet_entered
    (c := .includeRequiredOldResourceIds _) fun _ _ => trivial) ht) fun _ t ht => ?_
  refine goes_lift ht.sound fun _ hcheck => ?_
  refine goes_bind (runs_restoreProofs ht) fun _ t ht => ?_
  refine goes_bind (runs_ensuring quiet_stopped (runs_stopOldWorld (checkOldWorld_ok hcheck) ht))
    fun result t ht => ?_
  cases result with
  | none =>
    exact runs_continueAfterTermination a ht
  | some response =>
    exact ht

theorem runs_resumeEvidence (h : Knows cfg r s) :
    Goes cfg (resumeEvidence cfg a r) s fun _ => Sound cfg := by
  unfold resumeEvidence
  cases r.evidence with
  | none =>
    exact h.sound
  | some evidence =>
    cases hpermit : r.startupPermit with
    | none =>
      exact h.sound
    | some permit =>
      dsimp only
      refine goes_lift h.sound fun _ _ => ?_
      refine goes_lift h.sound fun _ hvalid => ?_
      cases evidence.terminationRecords with
      | none =>
        exact h.sound
      | some records =>
        refine goes_lift h.sound fun _ _ => ?_
        exact runs_acceptEvidence a h hpermit hvalid

theorem runs_captureOldWorld (hP : Quiet cfg P) (h : P s) :
    Goes cfg (captureOldWorld a) s fun _ => P := by
  refine goes_bind (Stays.goes hP (stays_call hP (c := .captureWorld a.oldGeneration)
    fun _ => trivial) h) fun reply t ht => ?_
  cases reply with
  | world old operationIds resourceIds =>
    refine goes_lift (hP.sound ht) fun _ _ => ?_
    refine goes_lift (hP.sound ht) fun _ _ => ?_
    exact ht
  | _ =>
    exact hP.sound ht

theorem restoreOldWorld_ok (h : restoreOldWorld a r = .ok world) :
    r.restoreCapturedWorld a.oldGeneration = .ok world.processes := by
  obtain ⟨old, hold, h⟩ := bind_eq_ok.mp h
  cases hops : r.capturedOperationIds with
  | none =>
    rw [hops] at h
    cases h
  | some operationIds =>
    cases hres : r.capturedResourceIds with
    | none =>
      rw [hops, hres] at h
      cases h
    | some resourceIds =>
      rw [hops, hres] at h
      obtain ⟨_, -, h⟩ := bind_eq_ok.mp h
      obtain ⟨_, -, h⟩ := bind_eq_ok.mp h
      cases h
      exact hold

end Capturing

/-! ## All attempts -/

section Attempts

variable {cfg : RestartSettings} {a : RestartArguments} {s : RestartState} {r : RunState}

theorem wf_new (identity : RunIdentity) (id : String) : (RunState.new identity id).Wf where
  created _ := ⟨rfl, rfl, rfl⟩
  unissued _ := rfl
  permit _ h := by cases h

/-- A run state that exists is of a phase that fits its checkpoint. -/
theorem check_ok {identity : RunIdentity} {u : Unit} (h : r.check identity = .ok u) :
    r.phase.allows r.checkpoint = true := by
  unfold RunState.check at h
  obtain ⟨_, -, h⟩ := bind_eq_ok.mp h
  obtain ⟨_, hallows, -⟩ := bind_eq_ok.mp h
  exact ensure_eq_ok.mp hallows

/-- A new file is written, or the one that exists is checked. -/
theorem runs_loadOrCreate (h : Sound cfg s) (hguard : s.guard = .empty) :
    Goes cfg (loadOrCreateRunState cfg a) s fun _ t => ∃ r, Knows cfg r t ∧ t.guard = .empty ∧
      r.phase.allows r.checkpoint = true := by
  unfold loadOrCreateRunState Goes Runs
  rw [warrants_sync]
  cases hfile : s.file with
  | none =>
    refine runs_save (h.congr rfl rfl) ⟨_, ⟨?_, rfl⟩, hguard, rfl⟩
    refine (h.congr (t := { s with drawn := s.drawn + 1 }) rfl rfl).saved (fun r hr => ?_)
      (wf_new _ _)
    rw [hfile] at hr
    cases hr
  | some r =>
    refine (runs_lift _).mpr ?_
    cases hcheck : r.check a.identity with
    | ok u =>
      exact ⟨r, ⟨h, hfile⟩, hguard, check_ok hcheck⟩
    | error e =>
      exact h

/-- One attempt keeps the log sound. -/
theorem runs_restart (h : Sound cfg s) (hguard : s.guard = .empty) :
    Goes cfg (restart cfg a) s fun _ => Sound cfg := by
  refine goes_lift h fun _ _ => ?_
  refine goes_bind (runs_loadOrCreate h hguard) fun _ t ⟨r, ht, hguard, hallows⟩ => ?_
  refine (runs_withRun ht.file).mpr ?_
  cases hphase : r.phase with
  | accepted =>
    dsimp only
    split
    · exact ht.sound
    · exact ht.sound
  | evidenceReady =>
    exact runs_resumeEvidence ht
  | created =>
    have hcreated : r.checkpoint = .created := by simpa [hphase, Phase.allows] using hallows
    exact goes_bind (runs_captureOldWorld quiet_begun ⟨ht, hcreated, hguard⟩)
      fun world u hu => runs_restartFrom (Or.inl ⟨r, hu⟩)
  | stopping =>
    refine goes_lift ht.sound fun world hworld => ?_
    obtain ⟨ids, hids, hold⟩ := restoreCapturedWorld_ok (restoreOldWorld_ok hworld)
    refine runs_restartFrom (Or.inr ⟨r.checkpoint, ht.sound, r, ids, ht.file, rfl, hids, hold, ?_⟩)
    intro m p hp
    rw [hguard] at hp
    cases hp

variable {t : RestartState}

/-- The log of all attempts is sound. -/
theorem resumes_sound (h : Resumes Anything RestartState.boot (restart cfg a) {} t) :
    Sound cfg t := by
  refine h.keeps (fun s hs => ?_) sound_start
  refine (runs_restart (s := s.boot) (hs.congr rfl rfl) rfl).mono fun x u hu => ?_
  cases x with
  | ok _ =>
    exact hu
  | error e =>
    exact hu

/-- Two files of the log precede the same file. -/
theorem Sound.precede (h : Sound cfg t) {r w : RunState} (hr : .wrote r ∈ t.log)
    (hw : .wrote w ∈ t.log) : ∃ current, Precedes r current ∧ Precedes w current := by
  obtain ⟨current, hcurrent, hprec⟩ := h.writes r hr
  obtain ⟨current', hcurrent', hprec'⟩ := h.writes w hw
  cases hcurrent.symm.trans hcurrent'
  exact ⟨current, hprec, hprec'⟩

theorem Sound.captured_eq (h : Sound cfg t) {r w : RunState} {ids ids' : List ProcessIdentity}
    (hr : .wrote r ∈ t.log) (hw : .wrote w ∈ t.log) (hids : r.capturedIdentities = some ids)
    (hids' : w.capturedIdentities = some ids') : ids = ids' := by
  obtain ⟨current, hprec, hprec'⟩ := h.precede hr hw
  exact Option.some.inj ((hprec.captured ids hids).symm.trans (hprec'.captured ids' hids'))

theorem Sound.permit_eq (h : Sound cfg t) {r w : RunState} {p q : StartupPermit}
    (hr : .wrote r ∈ t.log) (hw : .wrote w ∈ t.log) (hp : r.startupPermit = some p)
    (hq : w.startupPermit = some q) : p = q := by
  obtain ⟨current, hprec, hprec'⟩ := h.precede hr hw
  exact Option.some.inj ((hprec.permit p hp).symm.trans (hprec'.permit q hq))

/-- The calls that bring the new world up. -/
def RestartCall.launches : RestartCall → Bool
  | .patchGeneration _ => true
  | .startMember _ => true
  | .publishStartupPermit _ => true
  | _ => false

theorem CallOk.dead {c : RestartCall} {f : Option RunState} (h : CallOk cfg c f)
    (hc : c.launches = true) : ∃ r, f = some r ∧ ProvenDead cfg r := by
  cases c with
  | patchGeneration g =>
    exact h
  | startMember m =>
    exact h
  | publishStartupPermit p =>
    obtain ⟨r, hr, hdead, -⟩ := h
    exact ⟨r, hr, hdead⟩
  | _ =>
    cases hc

end Attempts

/-! ## A run of two attempts -/

/-- Digests and identifiers that are easy to compute. -/
def plainSettings : RestartSettings where
  payloadSha p := p.logicalInstanceId
  proofSha p := p.member
  permitSha _ := "permit"
  parseMessage _ := .notJson
  uuid _ := "run"
  sink := false

def plainArguments : RestartArguments where
  release := "prism"
  kubeNamespace := "serving"
  chart := "chart"
  oldGeneration := "g1"
  newGeneration := "g2"
  faultMember := none
  watchdogMember := none
  expectedOperationIds := []
  requiredOldOperationIds := []

def plainProcess (m : String) : ProcessIdentity where
  member := m
  podUid := m
  nodeUid := "node"
  containerId := m
  processGeneration := "1"
  topologyGeneration := "g1"

def plainWorld : Dict String ProcessIdentity :=
  members.foldl (fun d m => d.set m (plainProcess m)) .empty

def plainDigest : String :=
  "sha256:0000000000000000000000000000000000000000000000000000000000000000"

def plainProof (m : String) : TerminationProof where
  member := m
  podUid := m
  nodeUid := "node"
  containerId := m
  processGeneration := "1"
  exitCode := 0
  containerTerminated := true
  podDeleted := true
  finishedAt := "later"
  topologyGeneration := "g1"
  watchStartResourceVersion := "1"
  observedResourceVersion := "2"
  deletionResourceVersion := "3"
  terminationSource := "state.terminated"
  terminationEventType := "MODIFIED"
  deletionEventType := "DELETED"
  startedAt := "earlier"
  terminationRawPodJsonSha256 := plainDigest
  terminationRawObservationSequence := some 1
  deletionRawPodJsonSha256 := plainDigest
  deletionRawObservationSequence := some 2

def plainPods : RestartReply :=
  .pods [.items ((members.zip ["r0", "r1", "e0", "e1"]).map fun (m, uid) =>
    ⟨some m, false, some "g2", some uid⟩)]

/-- The replies to an attempt that captures the old world and stops one member. -/
def firstReplies : List RestartReply :=
  [.done, .world plainWorld [] [], .done, .done] ++ List.replicate 6 .done

/-- The replies to an attempt that goes on from there, up to the publication of the permit. -/
def secondReplies : List RestartReply :=
  List.replicate 10 .done ++
    members.flatMap (fun m =>
      [.observed [] (.ok { proof := plainProof m }), .done, .done, .done]) ++
    List.replicate 12 .done ++ [plainPods, .done]

/-- Two attempts; the first dies while it stops the old world, the second when it publishes. -/
def plainRun : RestartState :=
  follow (restart plainSettings plainArguments) secondReplies
    (RestartState.boot (follow (restart plainSettings plainArguments) firstReplies {}))

theorem plainRun_resumes :
    Resumes Anything RestartState.boot (restart plainSettings plainArguments) {} plainRun :=
  .again (.again .none (stands_follow (fun _ _ _ => trivial) _ firstReplies _))
    (stands_follow (fun _ _ _ => trivial) _ secondReplies _)

/-- The calls that bring the new world up, newest first. -/
def launchesOf (log : List RestartMoment) : List String :=
  log.filterMap fun
    | .called (.patchGeneration _) _ => some "patch"
    | .called (.startMember m) _ => some m
    | .called (.publishStartupPermit _) _ => some "publish"
    | _ => none

theorem plainRun_launches :
    launchesOf plainRun.log = ["publish", "d1", "d0", "p1", "p0", "patch"] := by
  decide +kernel

/-! ## All attempts together -/

section Together

variable {cfg : RestartSettings} {a : RestartArguments}

/-- However often the command is killed and given again, and whatever the backend answers:
the new world is brought up only with a file that has a complete and canonical proof for every
member, of a process that was written down before any member was stopped; and the checkpoints of
the files are in order. -/
theorem launched_after_proofs {t : RestartState}
    (h : Resumes Anything RestartState.boot (restart cfg a) {} t) :
    (∀ c f, .called c f ∈ t.log → c.launches = true → ∃ r, f = some r ∧ ProvenDead cfg r ∧
      ∀ m g, .called (.stopMember m) g ∈ t.log →
        ∃ w, g = some w ∧ w.capturedIdentities = r.capturedIdentities) ∧
    (writesOf t.log).Pairwise fun newer older =>
      older.checkpoint.rank ≤ newer.checkpoint.rank := by
  have hsound := resumes_sound h
  refine ⟨fun c f hcall hlaunches => ?_, hsound.sorted⟩
  obtain ⟨r, rfl, hdead⟩ := (hsound.calls c f hcall).dead hlaunches
  refine ⟨r, rfl, hdead, fun m g hstop => ?_⟩
  obtain ⟨w, ids, rfl, hids⟩ := hsound.calls _ _ hstop
  obtain ⟨ids', hids', -⟩ := hdead
  have hsame := hsound.captured_eq (hsound.files _ _ hcall) (hsound.files _ _ hstop) hids' hids
  exact ⟨w, rfl, by rw [hids, hids', hsame]⟩

theorem launched_after_proofs_plainRun :
    launchesOf plainRun.log = ["publish", "d1", "d0", "p1", "p0", "patch"] ∧
    ∀ c f, .called c f ∈ plainRun.log → c.launches = true →
      ∃ r, f = some r ∧ ProvenDead plainSettings r := by
  refine ⟨plainRun_launches, fun c f hcall hlaunches => ?_⟩
  obtain ⟨r, hr, hdead, -⟩ := (launched_after_proofs plainRun_resumes).1 c f hcall hlaunches
  exact ⟨r, hr, hdead⟩

/-- All attempts publish one permit.  It is in the file before, its pods are four and none of the
captured ones, and the evidence that the gateway is given was checked against it. -/
theorem one_permit_published {t : RestartState}
    (h : Resumes Anything RestartState.boot (restart cfg a) {} t) :
    (∀ p f, .called (.publishStartupPermit p) f ∈ t.log →
      (∃ r, f = some r ∧ r.startupPermit = some p ∧ FreshPermit r p) ∧
      ∀ q g, .called (.publishStartupPermit q) g ∈ t.log → q = p) ∧
    ∀ e f, .called (.acceptTopology e) f ∈ t.log → ∃ r p, f = some r ∧
      r.startupPermit = some p ∧ validatePermittedIdentities cfg.permitSha e p = .ok () ∧
      ∀ q g, .called (.publishStartupPermit q) g ∈ t.log → q = p := by
  have hsound := resumes_sound h
  have hsame : ∀ {p r c}, .called c (some r) ∈ t.log → r.startupPermit = some p →
      ∀ q g, .called (.publishStartupPermit q) g ∈ t.log → q = p := by
    intro p r c hcall hp q g hq
    obtain ⟨w, rfl, -, hwq, -⟩ := hsound.calls _ _ hq
    exact hsound.permit_eq (hsound.files _ _ hq) (hsound.files _ _ hcall) hwq hp
  refine ⟨fun p f hcall => ?_, fun e f hcall => ?_⟩
  · obtain ⟨r, rfl, -, hp, hfresh⟩ := hsound.calls _ _ hcall
    exact ⟨⟨r, rfl, hp, hfresh⟩, hsame hcall hp⟩
  · obtain ⟨r, p, rfl, hp, hvalid⟩ := hsound.calls _ _ hcall
    exact ⟨r, p, rfl, hp, hvalid, hsame hcall hp⟩

theorem one_permit_published_plainRun :
    launchesOf plainRun.log = ["publish", "d1", "d0", "p1", "p0", "patch"] ∧
    ∀ p f, .called (.publishStartupPermit p) f ∈ plainRun.log →
      ∃ r, f = some r ∧ r.startupPermit = some p ∧ FreshPermit r p :=
  ⟨plainRun_launches, fun p f hcall => ((one_permit_published plainRun_resumes).1 p f hcall).1⟩

end Together

end PrismServe.Worldctl
