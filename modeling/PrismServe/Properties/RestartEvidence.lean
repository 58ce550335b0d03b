import PrismServe.Lib.Resumption
import PrismServe.Worldctl.Restart

/-!
# What an attempt at a restart knows

Every invocation of `restart` may be cut short at any call, and the backend may
answer whatever it likes.  The log of all invocations is judged entry by entry:

* a call that changes the new world finds a file with four termination proofs
  that bind the processes captured before anything was stopped;
* a permit that is published is the one in the file;
* evidence that is given to the gateway was checked against that permit;
* the files that were written have checkpoints in order.

`Sound` is the invariant over all invocations, and `Holding` what one of them
knows about its guard while it works.  This module goes as far as the four proofs.
-/

namespace PrismServe.Worldctl

open Lib Prog Restart

/-! ## What the log must look like -/

/-- The proof is complete and canonical, and binds the process. -/
structure BindsProcess (cfg : RestartSettings) (i : ProcessIdentity) (p : TerminationProof) :
    Prop where
  member : p.member = i.member
  terminated : p.containerTerminated = true
  deleted : p.podDeleted = true
  canonical : ∃ record, terminationAuthorityRecord cfg.payloadSha p = .ok record
  physical : p.physical = i.physical

/-- The run state has a proof for every member, of the process that was captured. -/
def ProvenDead (cfg : RestartSettings) (r : RunState) : Prop :=
  ∃ ids, r.capturedIdentities = some ids ∧ ∀ m ∈ members, ∃ i ∈ ids, i.member = m ∧
    ∃ p, r.terminationProofs.get? m = some p ∧ BindsProcess cfg i p

/-- The permit is for four pods that are none of the captured ones. -/
structure FreshPermit (r : RunState) (p : StartupPermit) : Prop where
  keys : (∀ m ∈ p.members.keys, m ∈ members) ∧ ∀ m ∈ members, m ∈ p.members.keys
  distinct : p.members.values.Nodup
  disjoint : ∃ ids, r.capturedIdentities = some ids ∧
    ∀ i ∈ ids, i.podUid ∉ p.members.values

/-- A call is made with a file that allows it. -/
def CallOk (cfg : RestartSettings) : RestartCall → Option RunState → Prop
  | .stopMember _, f => ∃ r ids, f = some r ∧ r.capturedIdentities = some ids
  | .patchGeneration _, f => ∃ r, f = some r ∧ ProvenDead cfg r
  | .startMember _, f => ∃ r, f = some r ∧ ProvenDead cfg r
  | .publishStartupPermit p, f =>
    ∃ r, f = some r ∧ ProvenDead cfg r ∧ r.startupPermit = some p ∧ FreshPermit r p
  | .acceptTopology e, f => ∃ r p, f = some r ∧ r.startupPermit = some p ∧
      validatePermittedIdentities cfg.permitSha e p = .ok ()
  | _, _ => True

/-- What a later file keeps of an earlier one. -/
structure Precedes (w r : RunState) : Prop where
  rank : w.checkpoint.rank ≤ r.checkpoint.rank
  captured : ∀ ids, w.capturedIdentities = some ids → r.capturedIdentities = some ids
  permit : ∀ p, w.startupPermit = some p → r.startupPermit = some p

theorem Precedes.refl (r : RunState) : Precedes r r := ⟨le_rfl, fun _ h => h, fun _ h => h⟩

theorem Precedes.trans {r₁ r₂ r₃ : RunState} (h : Precedes r₁ r₂) (h' : Precedes r₂ r₃) :
    Precedes r₁ r₃ :=
  ⟨h.rank.trans h'.rank, fun ids hids => h'.captured ids (h.captured ids hids),
    fun p hp => h'.permit p (h.permit p hp)⟩

/-- What every file satisfies. -/
structure RunState.Wf (r : RunState) : Prop where
  created : r.checkpoint.rank = 0 →
    r.capturedIdentities = none ∧ r.observationJournal = [] ∧ r.terminationProofs = .empty
  unissued : r.checkpoint.rank ≤ 4 → r.startupPermit = none
  permit : ∀ p, r.startupPermit = some p → FreshPermit r p

/-- The files that were written, newest first. -/
def writesOf (log : List RestartMoment) : List RunState :=
  log.filterMap fun
    | .wrote r => some r
    | .called _ _ => none

/-- The log so far is as it must be, and the file is the last one written. -/
structure Sound (cfg : RestartSettings) (s : RestartState) : Prop where
  calls : ∀ c f, .called c f ∈ s.log → CallOk cfg c f
  files : ∀ c r, .called c (some r) ∈ s.log → .wrote r ∈ s.log
  writes : ∀ w, .wrote w ∈ s.log → ∃ r, s.file = some r ∧ Precedes w r
  current : ∀ r, s.file = some r → r.Wf ∧ .wrote r ∈ s.log
  sorted : (writesOf s.log).Pairwise fun newer older =>
    older.checkpoint.rank ≤ newer.checkpoint.rank

namespace RestartState

/-- A call is noted. -/
def note (c : RestartCall) (s : RestartState) : RestartState :=
  { s with log := .called c s.file :: s.log }

/-- The file is written. -/
def saved (r : RunState) (s : RestartState) : RestartState :=
  { s with file := some r, log := .wrote r :: s.log }

end RestartState

section Soundness

variable {cfg : RestartSettings} {s : RestartState} {r : RunState}

theorem Sound.congr {t : RestartState} (h : Sound cfg s) (hfile : t.file = s.file)
    (hlog : t.log = s.log) : Sound cfg t := by
  obtain ⟨hcalls, hfiles, hwrites, hcurrent, hsorted⟩ := h
  exact ⟨hlog ▸ hcalls, hlog ▸ hfiles, by rwa [hfile, hlog], by rwa [hfile, hlog], hlog ▸ hsorted⟩

theorem Sound.note {c : RestartCall} (h : Sound cfg s) (hc : CallOk cfg c s.file) :
    Sound cfg (s.note c) where
  calls c' f hmem := by
    rcases List.mem_cons.mp hmem with heq | hmem
    · cases heq
      exact hc
    · exact h.calls c' f hmem
  files c' r' hmem := by
    rcases List.mem_cons.mp hmem with heq | hmem
    · have hfile : s.file = some r' := (RestartMoment.called.inj heq).2.symm
      exact List.mem_cons_of_mem _ (h.current r' hfile).2
    · exact List.mem_cons_of_mem _ (h.files c' r' hmem)
  writes w hmem := by
    rcases List.mem_cons.mp hmem with heq | hmem
    · cases heq
    · exact h.writes w hmem
  current r' hr' := ⟨(h.current r' hr').1, List.mem_cons_of_mem _ (h.current r' hr').2⟩
  sorted := h.sorted

theorem mem_writesOf {log : List RestartMoment} {w : RunState} :
    w ∈ writesOf log ↔ .wrote w ∈ log := by
  unfold writesOf
  rw [List.mem_filterMap]
  constructor
  · rintro ⟨m, hm, hw⟩
    cases m with
    | wrote r =>
      cases hw
      exact hm
    | called c f =>
      cases hw
  · exact fun h => ⟨_, h, rfl⟩

/-- A file is written that keeps what the file before it says. -/
theorem Sound.saved (h : Sound cfg s) (hprec : ∀ r', s.file = some r' → Precedes r' r)
    (hwf : r.Wf) : Sound cfg (s.saved r) where
  calls c f hmem := by
    rcases List.mem_cons.mp hmem with heq | hmem
    · cases heq
    · exact h.calls c f hmem
  files c r' hmem := by
    rcases List.mem_cons.mp hmem with heq | hmem
    · cases heq
    · exact List.mem_cons_of_mem _ (h.files c r' hmem)
  writes w hmem := by
    rcases List.mem_cons.mp hmem with heq | hmem
    · cases heq
      exact ⟨r, rfl, .refl r⟩
    · obtain ⟨r', hr', hw⟩ := h.writes w hmem
      exact ⟨r, rfl, hw.trans (hprec r' hr')⟩
  current r' hr' := by
    cases hr'
    exact ⟨hwf, List.mem_cons_self⟩
  sorted := by
    refine List.pairwise_cons.mpr ⟨fun w hw => ?_, h.sorted⟩
    obtain ⟨r', hr', hprec'⟩ := h.writes w (mem_writesOf.mp hw)
    exact hprec'.rank.trans (hprec r' hr').rank

theorem sound_start : Sound cfg {} where
  calls := by simp
  files := by simp
  writes := by simp
  current := by simp
  sorted := by simp [writesOf]

end Soundness

/-! ## Rules for the steps of a run -/

/-- The backend may answer whatever it likes. -/
abbrev Anything : RestartCall → RestartState → RestartReply → Prop := fun _ _ _ => True

/-- The log is sound at every call. -/
abbrev Runs (cfg : RestartSettings) {α : Type} (p : Restart α) (s : RestartState)
    (Φ : Except CtlError α → RestartState → Prop) : Prop :=
  Warrants Anything (fun _ => Sound cfg) p s Φ

abbrev Stays (cfg : RestartSettings) (P : RestartState → Prop) {α : Type} (p : Restart α) : Prop :=
  Retains Anything (Sound cfg) P p

section Steps

variable {cfg : RestartSettings} {s : RestartState} {r : RunState} {α β : Type}
variable {Φ : Except CtlError α → RestartState → Prop}

@[simp] theorem runs_lift (x : Except CtlError α) : Runs cfg (lift x) s Φ ↔ Φ x s := by
  cases x <;> rfl

variable {c : RestartCall}

theorem runs_call {Φ : Except CtlError RestartReply → RestartState → Prop} (h : Sound cfg s)
    (hc : CallOk cfg c s.file) (hΦ : ∀ reply, Φ (.ok reply) (s.note c)) : Runs cfg (call c) s Φ :=
  ⟨h.note hc, fun reply _ => hΦ reply⟩

/-- A call, and what is done with its reply. -/
theorem runs_hear {f : RestartReply → Restart α} (h : Sound cfg s) (hc : CallOk cfg c s.file)
    (hf : ∀ reply, Runs cfg (f reply) (s.note c) Φ) : Runs cfg ((call c).bind f) s Φ :=
  ⟨h.note hc, fun reply _ => hf reply⟩

theorem runs_perform {Φ : Except CtlError Unit → RestartState → Prop} (h : Sound cfg s)
    (hc : CallOk cfg c s.file) (hok : Φ (.ok ()) (s.note c))
    (herror : ∀ e, Φ (.error e) (s.note c)) :
    Runs cfg (perform c) s Φ := by
  refine Warrants.bind (runs_call h hc (Φ := fun r t => (∃ x, r = .ok x) ∧ t = s.note c)
    fun reply => ⟨⟨reply, rfl⟩, rfl⟩) ?_ ?_
  · rintro reply t ⟨-, rfl⟩
    cases reply with
    | done =>
      exact hok
    | _ =>
      exact herror _
  · rintro e t ⟨⟨x, hx⟩, -⟩
    cases hx

theorem runs_save {Φ : Except CtlError Unit → RestartState → Prop} (h : Sound cfg s)
    (hΦ : Φ (.ok ()) (s.saved r)) : Runs cfg (save r) s Φ :=
  ⟨h, fun _ _ => hΦ⟩

theorem runs_saveThen {f : Unit → Restart α} (h : Sound cfg s)
    (hf : Runs cfg (f ()) (s.saved r) Φ) : Runs cfg ((save r).bind f) s Φ :=
  ⟨h, fun _ _ => hf⟩

theorem runs_withRun {f : RunState → Restart α} (hfile : s.file = some r) :
    Runs cfg (withRun f) s Φ ↔ Runs cfg (f r) s Φ := by
  unfold withRun
  rw [Runs, warrants_sync, hfile]
  rfl

theorem runs_update {Φ : Except CtlError Unit → RestartState → Prop}
    {f : RunState → Except CtlError RunState} (h : Sound cfg s) (hfile : s.file = some r)
    (hok : ∀ r', f r = .ok r' → Φ (.ok ()) (s.saved r'))
    (herror : ∀ e, f r = .error e → Φ (.error e) s) : Runs cfg (update f) s Φ := by
  refine (runs_withRun hfile).mpr ?_
  cases hf : f r with
  | ok r' =>
    exact runs_save h (hok r' hf)
  | error e =>
    exact herror e hf

/-- The program has gone well and `Q` holds, or it has failed with a sound log. -/
def OrFailed (cfg : RestartSettings) (Q : α → RestartState → Prop) (x : Except CtlError α)
    (t : RestartState) : Prop :=
  match x with
  | .ok b => Q b t
  | .error _ => Sound cfg t

abbrev Goes (cfg : RestartSettings) {α : Type} (p : Restart α) (s : RestartState)
    (Q : α → RestartState → Prop) : Prop :=
  Runs cfg p s (OrFailed cfg Q)

theorem goes_bind {Q : α → RestartState → Prop} {Q' : β → RestartState → Prop} {p : Restart α}
    {f : α → Restart β} (hp : Goes cfg p s Q) (hf : ∀ b t, Q b t → Goes cfg (f b) t Q') :
    Goes cfg (p.bind f) s Q' :=
  Warrants.bind hp hf fun _ _ h => h

theorem goes_lift {Q : α → RestartState → Prop} {x : Except CtlError β}
    {f : β → Restart α} (h : Sound cfg s)
    (hok : ∀ b, x = .ok b → Goes cfg (f b) s Q) : Goes cfg ((lift x).bind f) s Q := by
  cases x with
  | ok b =>
    exact hok b rfl
  | error e =>
    exact h

theorem goes_forEach {P : RestartState → Prop} {l : List β} {f : β → Restart Unit}
    (hf : ∀ x t, P t → Goes cfg (f x) t fun _ => P) (h : P s) :
    Goes cfg (forEach l f) s fun _ => P := by
  induction l generalizing s with
  | nil =>
    exact h
  | cons x rest ih =>
    exact goes_bind (hf x s h) fun _ _ ht => ih ht

end Steps

/-! ## What an invocation knows -/

/-- The old world is the one that was captured. -/
structure IsOldWorld (old : Dict String ProcessIdentity) (ids : List ProcessIdentity) : Prop where
  mem : ∀ i, i ∈ ids ↔ ∃ m ∈ members, old.get? m = some i
  named : ∀ m i, old.get? m = some i → i.member = m

/-- The guard has proofs of the old world, and all of them are in the file but one that waits. -/
def GuardOk (cfg : RestartSettings) (old : Dict String ProcessIdentity)
    (waiting : Option TerminationProof) (guard : Guard) (r : RunState) : Prop :=
  ∀ m p, guard.get? m = some p → m ∈ members ∧
    (∃ i, old.get? m = some i ∧ BindsProcess cfg i p) ∧
    (r.terminationProofs.get? m = some p ∨ waiting = some p)

/-- The run after its old world was captured, at a checkpoint. -/
structure Holding (cfg : RestartSettings) (old : Dict String ProcessIdentity) (k : Checkpoint)
    (waiting : Option TerminationProof) (s : RestartState) : Prop where
  sound : Sound cfg s
  run : ∃ r ids, s.file = some r ∧ r.checkpoint = k ∧ r.capturedIdentities = some ids ∧
    IsOldWorld old ids ∧ GuardOk cfg old waiting s.guard r

/-- A change that moves on and leaves alone what the log is judged by. -/
structure Onward (r r' : RunState) : Prop where
  rank : r.checkpoint.rank ≤ r'.checkpoint.rank
  captured : r'.capturedIdentities = r.capturedIdentities
  permit : r'.startupPermit = r.startupPermit
  proofs : ∀ m p, r.terminationProofs.get? m = some p → r'.terminationProofs.get? m = some p

/-- The same, at the same checkpoint. -/
structure Mild (r r' : RunState) : Prop where
  checkpoint : r'.checkpoint = r.checkpoint
  onward : Onward r r'

/-- An assertion that the calls which are allowed leave alone, and that does not say who is
watched. -/
structure Quiet (cfg : RestartSettings) (P : RestartState → Prop) : Prop where
  sound : ∀ {s}, P s → Sound cfg s
  note : ∀ {s c}, P s → CallOk cfg c s.file → P (s.note c)
  watches : ∀ {s} w, P s → P { s with watches := w }

section Knowing

variable {cfg : RestartSettings} {old : Dict String ProcessIdentity} {s : RestartState}
variable {r r' : RunState} {k : Checkpoint} {waiting : Option TerminationProof} {α : Type}

theorem Onward.precedes (h : Onward r r') : Precedes r r' :=
  ⟨h.rank, fun _ hids => h.captured.trans hids, fun _ hp => h.permit.trans hp⟩

/-- A change of parts that the judgement does not look at. -/
theorem mild_of_eq (hcheckpoint : r'.checkpoint = r.checkpoint)
    (hcaptured : r'.capturedIdentities = r.capturedIdentities)
    (hpermit : r'.startupPermit = r.startupPermit)
    (hproofs : r'.terminationProofs = r.terminationProofs) : Mild r r' :=
  ⟨hcheckpoint, hcheckpoint ▸ le_rfl, hcaptured, hpermit, fun _ _ h => hproofs ▸ h⟩

theorem onward_checkpoint {c : Checkpoint} (h : r.checkpoint.rank ≤ c.rank) :
    Onward r { r with checkpoint := c } :=
  ⟨h, rfl, rfl, fun _ _ hp => hp⟩

theorem Mild.trans {r₁ r₂ r₃ : RunState} (h : Mild r₁ r₂) (h' : Mild r₂ r₃) : Mild r₁ r₃ :=
  ⟨h'.checkpoint.trans h.checkpoint, h.onward.rank.trans h'.onward.rank,
    h'.onward.captured.trans h.onward.captured, h'.onward.permit.trans h.onward.permit,
    fun m p hp => h'.onward.proofs m p (h.onward.proofs m p hp)⟩

theorem FreshPermit.congr {p : StartupPermit} (h : FreshPermit r p)
    (hcaptured : ∀ ids, r.capturedIdentities = some ids → r'.capturedIdentities = some ids) :
    FreshPermit r' p := by
  obtain ⟨ids, hids, hdisjoint⟩ := h.disjoint
  exact ⟨h.keys, h.distinct, ids, hcaptured ids hids, hdisjoint⟩

/-- A file whose old world was captured is not a new one. -/
theorem RunState.Wf.rank_pos (h : r.Wf) {ids : List ProcessIdentity}
    (hids : r.capturedIdentities = some ids) : 0 < r.checkpoint.rank := by
  refine Nat.pos_of_ne_zero fun hzero => ?_
  rw [(h.created hzero).1] at hids
  cases hids

theorem RunState.Wf.onward (h : r.Wf) (hon : Onward r r') (hrank : 0 < r'.checkpoint.rank) :
    r'.Wf where
  created hzero := absurd hzero hrank.ne'
  unissued hle := by
    rw [hon.permit]
    exact h.unissued (hon.rank.trans hle)
  permit p hp := by
    rw [hon.permit] at hp
    exact (h.permit p hp).congr fun ids hids => hon.captured.trans hids

theorem GuardOk.onward {guard : Guard} (h : GuardOk cfg old waiting guard r)
    (hproofs : ∀ m p, r.terminationProofs.get? m = some p → r'.terminationProofs.get? m = some p) :
    GuardOk cfg old waiting guard r' := by
  intro m p hp
  obtain ⟨hm, hbinds, hdurable⟩ := h m p hp
  exact ⟨hm, hbinds, hdurable.imp (hproofs m p) id⟩

theorem Sound.onward (h : Sound cfg s) (hfile : s.file = some r) (hon : Onward r r')
    (hrank : 0 < r'.checkpoint.rank) : Sound cfg (s.saved r') := by
  refine h.saved (fun r₁ hr₁ => ?_) ((h.current r hfile).1.onward hon hrank)
  obtain rfl : r₁ = r := Option.some.inj (hr₁.symm.trans hfile)
  exact hon.precedes

variable {P : RestartState → Prop} {c : RestartCall}

/-- Nothing but the log and what the process keeps for itself may change otherwise. -/
theorem Holding.note (h : Holding cfg old k waiting s) (hc : CallOk cfg c s.file) :
    Holding cfg old k waiting (s.note c) :=
  ⟨h.sound.note hc, h.run⟩

/-- The file is written with a later checkpoint, or the same. -/
theorem Holding.onward (h : Holding cfg old k waiting s) (hfile : s.file = some r)
    (hon : Onward r r') : Holding cfg old r'.checkpoint waiting (s.saved r') := by
  obtain ⟨r₀, ids, hr₀, -, hids, hworld, hguard⟩ := h.run
  obtain rfl : r₀ = r := Option.some.inj (hr₀.symm.trans hfile)
  have hpos := ((h.sound.current r₀ hfile).1.rank_pos hids).trans_le hon.rank
  exact ⟨h.sound.onward hfile hon hpos, r', ids, rfl, rfl, hon.captured.trans hids, hworld,
    hguard.onward hon.proofs⟩

theorem Holding.mild (h : Holding cfg old k waiting s) (hfile : s.file = some r)
    (hmild : Mild r r') : Holding cfg old k waiting (s.saved r') := by
  obtain ⟨r₀, ids, hr₀, hk, -⟩ := h.run
  obtain rfl : r₀ = r := Option.some.inj (hr₀.symm.trans hfile)
  rw [← hk, ← hmild.checkpoint]
  exact h.onward hfile hmild.onward

theorem stays_lift (P : RestartState → Prop) (x : Except CtlError α) : Stays cfg P (lift x) := by
  intro s h
  exact (runs_lift x).mpr h

theorem quiet_sound : Quiet cfg (Sound cfg) :=
  ⟨fun h => h, fun h hc => h.note hc, fun _ h => h.congr rfl rfl⟩

theorem quiet_holding : Quiet cfg (Holding cfg old k waiting) :=
  ⟨fun h => h.sound, fun h hc => h.note hc, fun _ h => ⟨h.sound.congr rfl rfl, h.run⟩⟩

theorem stays_call (hP : Quiet cfg P) (hc : ∀ f, CallOk cfg c f) : Stays cfg P (call c) :=
  fun _ h => runs_call (hP.sound h) (hc _) fun _ => hP.note h (hc _)

theorem stays_perform (hP : Quiet cfg P) (hc : ∀ s, P s → CallOk cfg c s.file) :
    Stays cfg P (perform c) :=
  fun s h => runs_perform (hP.sound h) (hc s h) (hP.note h (hc s h)) fun _ => hP.note h (hc s h)

theorem Stays.goes (hP : Quiet cfg P) {p : Restart α} (hp : Stays cfg P p) {s : RestartState}
    (h : P s) : Goes cfg p s fun _ => P := by
  refine (hp s h).mono fun x t ht => ?_
  cases x with
  | ok b =>
    exact ht
  | error e =>
    exact hP.sound ht

theorem stays_withRun {f : RunState → Restart α}
    (hf : ∀ r, Stays cfg (Holding cfg old k waiting) (f r)) :
    Stays cfg (Holding cfg old k waiting) (withRun f) := by
  intro s h
  obtain ⟨r, ids, hfile, -⟩ := h.run
  exact (runs_withRun hfile).mpr (hf r s h)

theorem stays_save {r : RunState} {s : RestartState} (h : Holding cfg old k waiting s)
    (hfile : s.file = some r) (hmild : Mild r r') :
    Runs cfg (save r') s fun _ t => Holding cfg old k waiting t :=
  runs_save h.sound (h.mild hfile hmild)

theorem stays_update {f : RunState → Except CtlError RunState}
    (hf : ∀ r r', f r = .ok r' → Mild r r') :
    Stays cfg (Holding cfg old k waiting) (update f) := by
  intro s h
  obtain ⟨r, ids, hfile, -⟩ := h.run
  exact runs_update h.sound hfile (fun r' hr' => h.mild hfile (hf r r' hr')) fun _ _ => h

theorem mild_append (entry : JournalEntry) (r : RunState) : Mild r (r.append entry) :=
  mild_of_eq rfl rfl rfl rfl

theorem mild_recordProtocolEvent {name : String} (h : r.recordProtocolEvent name = .ok r') :
    Mild r r' := by
  obtain ⟨-, -, h⟩ := bind_eq_ok.mp h
  cases h
  exact mild_of_eq rfl rfl rfl rfl

theorem mild_appendObservation {sha : TerminationProof → String} {stage : Stage}
    {o : TerminationObservation} {status : Option String}
    (h : r.appendObservation sha stage o status = .ok r') : Mild r r' := by
  obtain ⟨-, -, h⟩ := bind_eq_ok.mp h
  cases h
  exact mild_append _ r

theorem mild_checkpointProof {p : TerminationProof} (h : r.checkpointProof p = .ok r') :
    Mild r r' ∧ r'.terminationProofs.get? p.member = some p := by
  obtain ⟨_, hprior, h⟩ := bind_eq_ok.mp h
  cases h
  refine ⟨⟨rfl, le_rfl, rfl, rfl, fun m q hq => ?_⟩, by simp⟩
  by_cases hm : m = p.member
  · subst hm
    have hsame := ensure_eq_ok.mp hprior
    rw [hq] at hsame
    have hqp : q = p := by simpa using hsame
    simp [hqp]
  · simpa [Dict.get?_set_of_ne _ _ hm] using hq

end Knowing

/-! ## Observing -/

section Observing

variable {cfg : RestartSettings} {old : Dict String ProcessIdentity} {k : Checkpoint}
variable {waiting : Option TerminationProof} {α : Type}

theorem stays_appendRaw (stage : Stage) (event : RawWatchEvent) :
    Stays cfg (Holding cfg old k waiting) (appendRawWatchObservation stage event) := by
  refine stays_update fun r r' h => ?_
  obtain ⟨-, -, h⟩ := bind_eq_ok.mp h
  cases h
  exact mild_append _ r

theorem stays_appendObservation (stage : Stage) (o : TerminationObservation)
    (status : Option String) :
    Stays cfg (Holding cfg old k waiting) (appendObservation cfg stage o status) :=
  stays_update fun _ _ h => mild_appendObservation h

theorem stays_append (entry : JournalEntry) :
    Stays cfg (Holding cfg old k waiting) (update fun r => .ok (r.append entry)) := by
  refine stays_update fun r r' h => ?_
  cases h
  exact mild_append entry r

theorem stays_recordEvent (name : String) :
    Stays cfg (Holding cfg old k waiting) (recordEvent name) :=
  stays_update fun _ _ h => mild_recordProtocolEvent h

theorem stays_appendIncomplete (stage : Stage) (f : ObservationFailure) :
    Stays cfg (Holding cfg old k waiting) (appendIncompleteObservation cfg stage f) := by
  have hlast : Stays cfg (Holding cfg old k waiting) (update fun r => do
      f.rawReference.check r.observationJournal
      return r.append (.observationIncomplete stage f.error)) := by
    refine stays_update fun r r' h => ?_
    obtain ⟨-, -, h⟩ := bind_eq_ok.mp h
    cases h
    exact mild_append _ r
  unfold appendIncompleteObservation
  split
  · exact hlast
  · exact (stays_update fun _ _ h => mild_appendObservation h).bind fun _ => hlast

theorem stays_failObservation (stage : Stage) (f : ObservationFailure) :
    Stays cfg (Holding cfg old k waiting) (failObservation cfg stage f : Restart α) :=
  (stays_appendIncomplete stage f).bind fun _ => Retains.raise _

theorem stays_observe (stage : Stage) {c : RestartCall} (hc : ∀ f, CallOk cfg c f) :
    Stays cfg (Holding cfg old k waiting) (observe cfg stage c) := by
  refine (stays_call quiet_holding hc).bind fun reply => ?_
  cases reply with
  | observed raws outcome =>
    refine Retains.bind (Retains.rescue (Retains.forEach fun e _ => stays_appendRaw stage e)
      fun e q hq => ?_) fun _ => ?_
    · cases hq
      exact stays_failObservation stage _
    · cases outcome with
      | ok o =>
        exact Retains.ret o
      | error f =>
        exact stays_failObservation stage f
  | _ =>
    exact stays_failObservation stage _

theorem stays_captureAmbiguous (identity : ProcessIdentity) :
    Stays cfg (Holding cfg old k waiting) (captureAmbiguousInjectionEvidence cfg identity) := by
  refine Retains.bind (Retains.rescue (Retains.bind (stays_observe _ fun _ => trivial)
    fun o => Retains.ret _) fun e q hq => ?_) fun found => ?_
  · cases hq
    exact Retains.ret _
  · cases found with
    | none =>
      exact Retains.ret _
    | some o =>
      exact stays_appendObservation _ o _

theorem stays_abandonInjection (identity : ProcessIdentity) (attempt : Nat) (e : CtlError) :
    Stays cfg (Holding cfg old k waiting) (abandonInjection cfg identity attempt e : Restart α) :=
  (stays_append _).bind fun _ => (stays_captureAmbiguous identity).bind fun _ => Retains.raise e

/-- A verdict about a fault leaves the guard as it is. -/
theorem stays_validateFault (stage : Stage) (sha256 : String) (x : Except CtlError Unit) :
    Stays cfg (Holding cfg old k waiting)
      (validateAndRecordSemantics stage sha256 fun s => x.map fun _ => s.guard) := by
  refine Retains.sync fun s h => ?_
  cases x with
  | error e =>
    exact (stays_append _).bind (fun _ => Retains.raise e) s h
  | ok u =>
    exact stays_append _ s h

theorem stays_observeFault (stage : Stage) {c : RestartCall} (hc : ∀ f, CallOk cfg c f)
    (eventName : String) (validate : TerminationProof → Except CtlError Unit) :
    Stays cfg (Holding cfg old k waiting) (observeFault cfg stage c eventName validate) := by
  refine (stays_observe stage hc).bind fun o => ?_
  refine Retains.bind (stays_update fun r r' h => ?_) fun _ => ?_
  · obtain ⟨-, -, h⟩ := bind_eq_ok.mp h
    exact mild_appendObservation h
  · exact (stays_validateFault stage _ _).bind fun _ =>
      (stays_recordEvent eventName).bind fun _ => Retains.ret _

theorem stays_injectWorkerCrash (identity : ProcessIdentity) :
    Stays cfg (Holding cfg old k waiting) (injectWorkerCrash cfg identity) := by
  intro s h
  obtain ⟨r, ids, hfile, -⟩ := h.run
  refine (runs_withRun hfile).mpr (Warrants.bind (stays_save h hfile (mild_append _ r)) ?_ ?_)
  · intro _ t ht
    refine (stays_call quiet_holding (c := .injectProcessFault identity) fun _ => trivial).bind
      (fun reply => ?_) t ht
    cases reply with
    | injected result =>
      dsimp only
      split
      · exact stays_abandonInjection identity _ _
      refine (stays_append _).bind fun _ => Retains.bind (stays_update fun r r' h => ?_)
        fun _ => stays_observeFault (c := .observeInjectedProcessTermination identity) _
          (fun _ => trivial) _ _
      cases h
      exact mild_of_eq rfl rfl rfl rfl
    | _ =>
      exact stays_abandonInjection identity _ _
  · exact fun _ _ ht => ht

theorem stays_oldProcess (P : RestartState → Prop) (member : String) :
    Stays cfg P (oldProcess old member) := by
  unfold oldProcess
  split
  · exact Retains.ret _
  · exact Retains.raise _

theorem stays_faultTermination (stage : Stage) (member : String)
    (validate : TerminationProof → Except CtlError Unit) {provoke : Restart TerminationProof}
    (hprovoke : Stays cfg (Holding cfg old k waiting) provoke) :
    Stays cfg (Holding cfg old k waiting) (faultTermination cfg stage member validate provoke) := by
  refine stays_withRun fun r => (stays_lift _ _).bind fun proofs => ?_
  split
  · exact (stays_lift _ _).bind fun _ => Retains.ret _
  refine Retains.sync fun s h => ?_
  split
  · exact h
  · exact hprovoke.bind (fun _ => Retains.ret _) s h

theorem stays_injectedTermination (a : RestartArguments) :
    Stays cfg (Holding cfg old k waiting) (injectedTermination cfg a old) := by
  unfold injectedTermination
  split
  · exact Retains.ret _
  · exact (stays_oldProcess _ _).bind fun identity =>
      stays_faultTermination _ _ _ (stays_injectWorkerCrash identity)

theorem stays_naturalTermination (a : RestartArguments) :
    Stays cfg (Holding cfg old k waiting) (naturalTermination cfg a old) := by
  unfold naturalTermination
  split
  · exact Retains.ret _
  exact (stays_oldProcess _ _).bind fun identity =>
    stays_faultTermination _ _ _
      (stays_observeFault (c := .observeNaturalWatchdogTermination identity) _
        (fun _ => trivial) _ _)

end Observing

/-! ## Stopping the old world -/

/-- What the guard has checked of a proof that it accepts. -/
theorem recordTermination_ok {cfg : RestartSettings} {old : Dict String ProcessIdentity}
    {p : TerminationProof} {guard guard' : Guard}
    (hnamed : ∀ m i, old.get? m = some i → i.member = m)
    (h : recordTermination cfg.payloadSha old p guard = .ok guard') :
    guard' = guard.set p.member p ∧ p.member ∈ members ∧
      (∀ q, guard.get? p.member = some q → q = p) ∧
      ∃ i, old.get? p.member = some i ∧ BindsProcess cfg i p := by
  unfold recordTermination at h
  obtain ⟨_, hmember, h⟩ := bind_eq_ok.mp h
  obtain ⟨_, -, h⟩ := bind_eq_ok.mp h
  obtain ⟨_, hcomplete, h⟩ := bind_eq_ok.mp h
  obtain ⟨record, hrecord, h⟩ := bind_eq_ok.mp h
  cases hold : old.get? p.member with
  | none =>
    rw [hold] at h
    cases h
  | some i =>
    rw [hold] at h
    obtain ⟨_, hphysical, h⟩ := bind_eq_ok.mp h
    obtain ⟨_, hprior, h⟩ := bind_eq_ok.mp h
    cases h
    have hdead : p.containerTerminated = true ∧ p.podDeleted = true := by
      simpa using ensure_eq_ok.mp hcomplete
    refine ⟨rfl, by simpa using ensure_eq_ok.mp hmember, fun q hq => ?_, i, rfl, ?_⟩
    · have hsame := ensure_eq_ok.mp hprior
      rw [hq] at hsame
      simpa using hsame
    · exact ⟨(hnamed _ i hold).symm, hdead.1, hdead.2, ⟨record, hrecord⟩,
        by simpa using ensure_eq_ok.mp hphysical⟩

section Stopping

variable {cfg : RestartSettings} {old : Dict String ProcessIdentity} {s : RestartState}
variable {r : RunState} {k : Checkpoint} {α : Type}

/-- A proof that the guard accepts waits to be written. -/
theorem Holding.accept {p : TerminationProof} {guard : Guard} (h : Holding cfg old k none s)
    (hok : recordTermination cfg.payloadSha old p s.guard = .ok guard) :
    Holding cfg old k (some p) { s with guard := guard } := by
  obtain ⟨r, ids, hfile, hk, hids, hworld, hguard⟩ := h.run
  obtain ⟨rfl, hmember, -, hbinds⟩ := recordTermination_ok hworld.named hok
  refine ⟨h.sound.congr rfl rfl, r, ids, hfile, hk, hids, hworld, fun m q hq => ?_⟩
  by_cases hm : m = p.member
  · subst hm
    have hqp : p = q := by simpa using hq
    subst hqp
    exact ⟨hmember, hbinds, Or.inr rfl⟩
  · have hold : s.guard.get? m = some q := by simpa [Dict.get?_set_of_ne _ _ hm] using hq
    obtain ⟨hm', hbinds', hdurable⟩ := hguard m q hold
    exact ⟨hm', hbinds', hdurable.imp id fun hnone => by cases hnone⟩

/-- The proof that waited is written. -/
theorem runs_checkpointProof {p : TerminationProof} (h : Holding cfg old k (some p) s) :
    Goes cfg (checkpointTerminationProof p) s fun _ => Holding cfg old k none := by
  obtain ⟨r, ids, hfile, -, hids, hworld, hguard⟩ := h.run
  refine runs_update h.sound hfile (fun r' hr' => ?_) fun _ _ => h.sound
  obtain ⟨hmild, hwritten⟩ := mild_checkpointProof hr'
  obtain ⟨hsound, r₁, ids₁, hfile₁, hk₁, hids₁, hworld₁, hguard₁⟩ := h.mild hfile hmild
  refine ⟨hsound, r₁, ids₁, hfile₁, hk₁, hids₁, hworld₁, fun m q hq => ?_⟩
  obtain ⟨hm, ⟨i, hi, hbinds⟩, hdurable⟩ := hguard₁ m q hq
  refine ⟨hm, ⟨i, hi, hbinds⟩, Or.inl ?_⟩
  rcases hdurable with hdurable | hwaits
  · exact hdurable
  cases hwaits
  cases hfile₁
  rw [← hworld.named m i hi, ← hbinds.member]
  exact hwritten

theorem runs_awaitTermination (prior : String → Option TerminationProof) (member : String)
    (h : Holding cfg old k none s) :
    Goes cfg (awaitTermination cfg old prior member) s fun _ => Holding cfg old k none := by
  change Runs cfg (if s.guard.contains member then _ else _) s _
  split
  · exact h
  refine goes_bind ((stays_oldProcess _ member).goes quiet_holding h) fun identity t ht => ?_
  refine goes_bind ((stays_observe (c := .observeTermination identity (prior member)) _
    fun _ => trivial).goes quiet_holding ht) fun o t ht => ?_
  refine goes_bind ((stays_appendObservation _ o none).goes quiet_holding ht) fun _ t ht => ?_
  refine goes_bind (Q := fun _ => Holding cfg old k (some o.proof)) ?_
    fun _ u hu => runs_checkpointProof hu
  unfold validateAndRecordSemantics Goes Runs
  rw [warrants_sync]
  cases haccept : acceptProof cfg old o.proof t with
  | error e =>
    exact Warrants.bind ((stays_append _ t ht)) (fun _ _ hu => hu.sound) fun _ _ hu => hu.sound
  | ok guard =>
    obtain ⟨_, -, hrecord⟩ := bind_eq_ok.mp haccept
    refine (stays_append _ _ (ht.accept hrecord)).mono fun x u hu => ?_
    cases x with
    | ok _ =>
      exact hu
    | error e =>
      exact hu.sound

theorem stays_stopMember (m : String) :
    Stays cfg (Holding cfg old k none) (perform (.stopMember m)) := by
  refine stays_perform quiet_holding fun s h => ?_
  obtain ⟨r, ids, hfile, -, hids, -⟩ := h.run
  exact ⟨r, ids, hfile, hids⟩

theorem stays_whenWatchdog (a : RestartArguments) {p : Restart Unit}
    (hp : Stays cfg (Holding cfg old k none) p) :
    Stays cfg (Holding cfg old k none) (whenWatchdog a p) := by
  unfold whenWatchdog
  split
  · exact hp
  · exact Retains.ret ()

theorem stays_checkTerminations (a : RestartArguments) :
    Stays cfg (Holding cfg old k none) (checkTerminations a) := by
  refine Retains.sync fun s h => ?_
  cases a.faultMember with
  | none =>
    exact stays_lift _ _ s h
  | some member =>
    dsimp only
    cases s.guard.get? member with
    | none =>
      exact h
    | some p =>
      exact (stays_lift _ _).bind (fun _ => stays_lift _ _) s h

/-- The four proofs are in the file when its checkpoint says so. -/
theorem runs_terminateOldWorld (a : RestartArguments) (h : Holding cfg old .captured none s) :
    Goes cfg (terminateOldWorld cfg a old) s fun _ => Holding cfg old .terminated none := by
  refine goes_bind ((stays_injectedTermination a).goes quiet_holding h) fun injected t ht => ?_
  refine goes_bind ((stays_naturalTermination a).goes quiet_holding ht) fun natural t ht => ?_
  refine goes_bind
    ((stays_whenWatchdog a (stays_recordEvent _)).goes quiet_holding ht) fun _ t ht => ?_
  refine goes_bind
    (Stays.goes quiet_holding (Retains.forEach fun m _ => stays_stopMember m) ht) fun _ t ht => ?_
  refine goes_bind
    (goes_forEach (fun m _ hu => runs_awaitTermination _ m hu) ht) fun _ t ht => ?_
  refine goes_bind ((stays_whenWatchdog a (Retains.sync fun u hu =>
    (stays_lift _ _).bind (fun _ => stays_recordEvent _) u hu)).goes quiet_holding ht)
    fun _ t ht => ?_
  refine goes_bind ((stays_checkTerminations a).goes quiet_holding ht) fun _ t ht => ?_
  obtain ⟨r, ids, hfile, hk, -⟩ := ht.run
  refine runs_update ht.sound hfile (fun r' hr' => ?_) fun _ he => by cases he
  cases hr'
  have hon := onward_checkpoint (r := r) (c := .terminated) (by simp [hk, Checkpoint.rank])
  exact ht.onward hfile hon

end Stopping

end PrismServe.Worldctl
