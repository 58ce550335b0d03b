import PrismServe.Properties.CleanupEvidence
import PrismServe.Scheduler.DeferredRuns
import PrismServe.Scheduler.Transfers

/-!
# The governor of the scheduling process

The process has one loop for a flush and the flushes inside of it, and a client
that its settings describe.  `Runs` has the recursion of the source and every
client, and `Works` further callbacks.  What the process does to its governor is
a run, and a run in which no hand-off fails is one of `Works`.
-/

namespace PrismServe

open Lib Lib.Prog

/-! ## Runs without failing hand-offs -/

/-- A hand-off has failed. -/
def TransferEvent.Failed : TransferEvent → Prop
  | .released _ _ (.withdrawn _) => True
  | .refusedLate _ _ => True
  | _ => False

def TransferEvent.handOff? : TransferEvent → Option TransferTask
  | .handedOff _ task => some task
  | _ => none

def QueueEvent.handOff? : QueueEvent → Option TransferTask
  | .dispatched _ _ _ task => some task
  | _ => none

/-- An operation as one on the queues. -/
def GovernorOp.onQueues : GovernorOp → QueueOp
  | .submit task => .submit task
  | .deliver _ _ => .handOff
  | .handOff => .handOff
  | .onComplete task => .onComplete task
  | .flush dst => .flush dst
  | .tick dsts => .tick dsts

/-- The operations that raise only if a hand-off fails. -/
def GovernorOp.sends : GovernorOp → Bool
  | .deliver _ _ => true
  | .flush _ => true
  | .tick _ => true
  | _ => false

namespace TransferGovernor

/-- A run in which no hand-off fails works on the queues, and hands off the same tasks. -/
theorem Runs.works {op : GovernorOp} {g g' : TransferGovernor} {log : List TransferEvent}
    {returned : Bool} (h : Runs op g log returned g') (hlog : ∀ event ∈ log, ¬ event.Failed) :
    (op.sends = true → returned = true) ∧
      ∃ log', Works op.onQueues g log' g' ∧
        log'.filterMap QueueEvent.handOff? = log.filterMap TransferEvent.handOff? := by
  induction h with
  | submitSends hsend _ ih =>
    obtain ⟨-, log', hworks, hsame⟩ := ih fun e he => hlog e (by simp [he])
    exact ⟨nofun, _, .submitSends hsend hworks, congrArg (_ :: ·) hsame⟩
  | submitDefers hsend =>
    exact ⟨nofun, _, .submitDefers hsend, rfl⟩
  | accepted _ ih =>
    exact ⟨fun _ => rfl, (ih hlog).2⟩
  | clientReturns =>
    exact ⟨nofun, [], .clientReturns _, rfl⟩
  | clientRaises =>
    exact ⟨nofun, [], .clientReturns _, rfl⟩
  | clientCallsBack _ _ ih ih' =>
    obtain ⟨-, log₁, hcall, hsame⟩ := ih fun e he => hlog e (by simp [he])
    obtain ⟨-, log₂, hrest, hsame'⟩ := ih' fun e he => hlog e (by simp [he])
    exact ⟨nofun, _, .clientCallsBack hcall hrest, by simp [hsame, hsame']⟩
  | stale hgone =>
    exact ⟨nofun, [], .stale hgone, rfl⟩
  | callbackRaised hheld =>
    exact ⟨nofun, [], .callbackRaises hheld (.callbackEnds _), rfl⟩
  | completed hheld _ ih =>
    obtain ⟨-, log', hflush, hsame⟩ := ih fun e he => hlog e (by simp [he])
    exact ⟨nofun, log', .completes hheld (.callbackEnds _) hflush, hsame⟩
  | flushEmpty hqueue =>
    exact ⟨fun _ => rfl, [], .flushEmpty hqueue, rfl⟩
  | flushStops hqueue hsend =>
    exact ⟨fun _ => rfl, [], .flushStops hqueue hsend, rfl⟩
  | flushSends hqueue hsend _ _ ih ih' =>
    obtain ⟨-, log₁, hclient, hsame⟩ := ih fun e he => hlog e (by simp [he])
    obtain ⟨hreturned, log₂, hrest, hsame'⟩ := ih' fun e he => hlog e (by simp [he])
    refine ⟨hreturned, _, .flushSends hqueue hsend hclient hrest, ?_⟩
    simp [hsame, hsame', QueueEvent.handOff?, TransferEvent.handOff?]
  | flushFails _ _ _ ih =>
    exact absurd ((ih fun e he => hlog e (by simp [he])).1 rfl) (by simp)
  | tickEnds =>
    exact ⟨fun _ => rfl, [], .tickEnds _, rfl⟩
  | tickSkips hqueue _ ih =>
    obtain ⟨hreturned, log', hrest, hsame⟩ := ih hlog
    exact ⟨hreturned, log', .tickSkips hqueue hrest, hsame⟩
  | tickFlushes hqueue _ _ ih ih' =>
    obtain ⟨-, log₁, hflush, hsame⟩ := ih fun e he => hlog e (by simp [he])
    obtain ⟨hreturned, log₂, hrest, hsame'⟩ := ih' fun e he => hlog e (by simp [he])
    exact ⟨hreturned, _, .tickFlushes hqueue hflush hrest, by simp [hsame, hsame']⟩
  | tickFails _ _ ih =>
    exact absurd ((ih hlog).1 rfl) (by simp)
  | _ =>
    exact absurd trivial (hlog _ (List.mem_append_right _ (List.mem_singleton.mpr rfl)))

/-! ## A flush, task by task -/

/-- How the loop of a flush ends: as a run does, and a further flush would send nothing. -/
structure FlushEnds (dst : String) (queue : List TransferTask) (g : TransferGovernor)
    (returned : Bool) (g' : TransferGovernor) : Prop where
  runs : ∃ log, Runs (.flush dst) g log returned g'
  again : returned = true → Runs (.flush dst) g' [] true g'
  inflight : ∀ reqId t, g'.inflightTasks.get? reqId = some t →
    g.inflightTasks.get? reqId = some t ∨ t ∈ queue

section Flush

variable {g g' : TransferGovernor} {dst : String} {task : TransferTask} {rest : List TransferTask}
variable {now : Time} {returned : Bool}

theorem queueOf_of_get? {queue : List TransferTask} (h : g.deferred.get? dst = some queue) :
    g.queueOf dst = queue := by
  simp [queueOf, h]

theorem inflight_charge (g : TransferGovernor) (task : TransferTask) :
    (g.charge task).inflightTasks.get? task.reqId = some task :=
  Dict.get?_set_self _ _ _

theorem inflight_discharge (g : TransferGovernor) (task : TransferTask) :
    (g.discharge task).inflightTasks.get? task.reqId = none :=
  Dict.get?_erase_self _ _

theorem setQueue_of_get? {queue : List TransferTask} (h : g.deferred.get? dst = some queue) :
    g.setQueue dst queue = g := by
  rw [setQueue, Dict.set_of_get? _ h]

theorem FlushEnds.empty (h : g.queueOf dst = []) :
    FlushEnds dst [] g true (g.setQueue dst []) := by
  have hget : (g.setQueue dst []).deferred.get? dst = some [] := Dict.get?_set_self _ _ _
  have hagain := Runs.flushEmpty (queueOf_of_get? hget)
  rw [setQueue_of_get? hget] at hagain
  exact ⟨⟨[], .flushEmpty h⟩, fun _ => hagain, fun _ _ ht => Or.inl ht⟩

theorem FlushEnds.stops {queue : List TransferTask} (hqueue : g.queueOf dst = task :: rest)
    (hsend : g.canSend now task = false) : FlushEnds dst queue g true g :=
  ⟨⟨[], .flushStops hqueue hsend⟩, fun _ => .flushStops hqueue hsend, fun _ _ ht => Or.inl ht⟩

/-- The client accepts the task. -/
theorem FlushEnds.accepted (hqueue : g.queueOf dst = task :: rest)
    (hsend : g.canSend now task = true)
    (h : FlushEnds dst rest ((g.setQueue dst rest).charge task) returned g') :
    FlushEnds dst (task :: rest) g returned g' := by
  obtain ⟨log, hlog⟩ := h.runs
  refine ⟨⟨_, .flushSends hqueue hsend (.accepted .clientReturns) hlog⟩, h.again, ?_⟩
  intro reqId t ht
  rcases h.inflight reqId t ht with ht | ht
  · by_cases hreq : reqId = task.reqId
    · rw [hreq, inflight_charge] at ht
      exact Or.inr (by simp [Option.some.inj ht])
    · rw [charge, Dict.get?_set_of_ne _ _ hreq] at ht
      exact Or.inl ht
  · exact Or.inr (List.mem_cons_of_mem _ ht)

/-- The entry of a task that has left the ledger again. -/
theorem inflight_returned {reqId : String} {t : TransferTask}
    (h : (((g.setQueue dst rest).charge task).discharge task).inflightTasks.get? reqId = some t) :
    g.inflightTasks.get? reqId = some t := by
  by_cases hreq : reqId = task.reqId
  · rw [hreq, inflight_discharge] at h
    cases h
  · rwa [discharge, Dict.get?_erase_of_ne _ hreq, charge, Dict.get?_set_of_ne _ _ hreq] at h

/-- The hand-off raises, or its completion does. -/
theorem FlushEnds.failed (hqueue : g.queueOf dst = task :: rest)
    (hsend : g.canSend now task = true) :
    FlushEnds dst (task :: rest) g false (((g.setQueue dst rest).charge task).discharge task) :=
  ⟨⟨_, .flushFails hqueue hsend (.withdrawn .clientRaises (inflight_charge _ _))⟩, nofun,
    fun _ _ ht => Or.inl (inflight_returned ht)⟩

/-- The client completes the task at once, which flushes the same queue. -/
theorem FlushEnds.completed (hqueue : g.queueOf dst = task :: rest) (hdst : task.dst = dst)
    (hnew : task ∉ rest) (hsend : g.canSend now task = true)
    (h : FlushEnds dst rest (((g.setQueue dst rest).charge task).discharge task) returned g') :
    FlushEnds dst (task :: rest) g returned g' := by
  subst hdst
  obtain ⟨log, hlog⟩ := h.runs
  have hcall := Runs.completed (inflight_charge (g.setQueue task.dst rest) task) hlog
  refine ⟨?_, h.again, fun reqId t ht => ?_⟩
  · cases returned with
    | true =>
      exact ⟨_, .flushSends hqueue hsend (.accepted (.clientCallsBack hcall .clientReturns))
        (h.again rfl)⟩
    | false =>
      refine ⟨_, .flushFails hqueue hsend (.refusedLate (.clientCallsBack hcall .clientRaises) ?_)⟩
      intro hheld
      rcases h.inflight _ _ hheld with hheld | hmem
      · rw [inflight_discharge] at hheld
        cases hheld
      · exact hnew hmem
  · rcases h.inflight reqId t ht with ht | ht
    · exact Or.inl (inflight_returned ht)
    · exact Or.inr (List.mem_cons_of_mem _ ht)

end Flush

end TransferGovernor

/-! ## The process -/

section Process

open TransferGovernor

variable {R : Surroundings} {s : Process} (cfg : Settings) {task : TransferTask} {dst : String}
variable {g : TransferGovernor}

theorem governor_onKvDone (reqId operationId : String) (g : TransferGovernor) :
    Upholds R (fun t => t.shared.governor = g) (Loop.onKvDone reqId operationId) := by
  have hattempt {α : Type} {f : World → Except Exc (α × World)}
      (hf : ∀ w a w', f w = .ok (a, w') → w'.governor = w.governor) :
      Upholds R (fun t => t.shared.governor = g) (Prog.attempt f : Loop α) :=
    Upholds.attempt fun s a w hs hw => (hf s.shared a w hw).trans hs
  have hwhen {b : Bool} {p : Loop Unit} (hp : Upholds R (fun t => t.shared.governor = g) p) :
      Upholds R (fun t => t.shared.governor = g) (Loop.when b p) := by
    cases b with
    | false =>
      exact Upholds.ret ()
    | true =>
      exact hp
  have htransition (new : SeqState) :
      Upholds R (fun t => t.shared.governor = g) (Loop.transition reqId new id) := by
    refine hattempt fun w a w' hw => ?_
    split at hw <;> cases hw
    rfl
  unfold Loop.onKvDone
  refine Upholds.bind Upholds.read fun w => ?_
  split
  · exact Upholds.ret ()
  dsimp only
  split
  · exact Upholds.ret ()
  refine Upholds.bind (hwhen (hattempt fun w a w' hw => ?_)) fun _ =>
    Upholds.bind (htransition _) fun _ => Upholds.bind (hattempt fun w a w' hw => ?_) fun o =>
      Upholds.bind (hwhen fun s hs => ⟨by simp, hs⟩) fun _ => hwhen (htransition _)
  · dsimp only at hw
    split at hw <;> cases hw
    rfl
  · split at hw <;> cases hw
    rfl

/-- A task in flight leaves the ledger, whether or not its callback raises. -/
theorem leads_completeTask (h : s.shared.governor.holds task = true) :
    Leads R (Loop.completeTask task) s fun _ r t =>
      r ≠ .ok false ∧ t.shared.governor = s.shared.governor.discharge task := by
  unfold Loop.completeTask
  rw [Prog.bind_eq, leads_bind, leads_read, after_ok, if_pos h]
  refine leads_modify_bind.mpr ?_
  refine Leads.bind (governor_onKvDone task.reqId task.operationId _ _ rfl) fun l r u hu => ?_
  cases r <;> exact ⟨nofun, hu.2⟩

/-- A task is in flight after a hand-off, or the hand-off or its completion has raised, or the
task has completed. -/
theorem leads_dispatch (task : TransferTask) :
    Leads R (Loop.dispatch cfg task) s fun _ r t =>
      r = .ok false ∧ t.shared.governor = s.shared.governor.charge task ∨
      r ≠ .ok false ∧
        t.shared.governor = (s.shared.governor.charge task).discharge task := by
  have hholds : (s.shared.governor.charge task).holds task = true := by
    simp [TransferGovernor.holds, inflight_charge]
  unfold Loop.dispatch
  refine leads_modify_bind.mpr (leads_read_bind.mpr ?_)
  split
  · split <;> exact Or.inl ⟨rfl, rfl⟩
  refine leads_modify_bind.mpr ?_
  split
  · exact Or.inl ⟨rfl, rfl⟩
  · exact Or.inr ⟨nofun, if_pos hholds⟩
  · refine leads_rescue.mpr ((leads_completeTask hholds).mono fun l r u hu => ?_)
    cases r with
    | ok completed =>
      exact Or.inr hu
    | error e =>
      -- the entry is gone already
      have hgone : u.shared.governor.holds task = false := by
        rw [hu.2]
        simp [TransferGovernor.holds, inflight_discharge]
      unfold Handled
      dsimp only
      split
      · exact Or.inr ⟨nofun, (if_neg (by simp [hgone])).trans hu.2⟩
      · exact Or.inr hu

/-- The queues hold tasks of their destinations, each once. -/
structure Queued (g : TransferGovernor) : Prop where
  placed : ∀ dst, ∀ t ∈ g.queueOf dst, t.dst = dst
  nodup : ∀ dst, (g.queueOf dst).Nodup

theorem leads_flushQueue : ∀ {queue : List TransferTask} {s : Process},
    s.shared.governor.deferred.get? dst = some queue → (∀ t ∈ queue, t.dst = dst) →
    queue.Nodup → Leads R (Loop.flushQueue cfg dst queue) s fun _ r t =>
      FlushEnds dst queue s.shared.governor r.isOk t.shared.governor
  | [], s, hqueue, _, _ => by
      have hends := FlushEnds.empty (queueOf_of_get? hqueue)
      rw [setQueue_of_get? hqueue] at hends
      exact hends
  | task :: rest, s, hqueue, hplaced, hnodup => by
      have hfront := queueOf_of_get? hqueue
      obtain ⟨hnew, hrest⟩ := List.nodup_cons.mp hnodup
      obtain ⟨hdst, htail⟩ := List.forall_mem_cons.mp hplaced
      unfold Loop.flushQueue
      refine leads_read_bind.mpr ?_
      split
      · rename_i hsend
        refine leads_modify_bind.mpr ?_
        refine Leads.bind (leads_dispatch cfg task) fun l r u hu => ?_
        change _ ∧ _ = (s.shared.governor.setQueue dst rest).charge task ∨
          _ ∧ _ = ((s.shared.governor.setQueue dst rest).charge task).discharge task at hu
        have hget : u.shared.governor.deferred.get? dst = some rest := by
          rcases hu with ⟨-, hu⟩ | ⟨-, hu⟩ <;> exact hu ▸ Dict.get?_set_self _ _ _
        have hflush := leads_flushQueue hget htail hrest
        rcases hu with ⟨rfl, hu⟩ | ⟨hr, hu⟩
        · refine hflush.mono fun l' r' t ht => ?_
          rw [hu] at ht
          exact ht.accepted hfront hsend
        · cases r with
          | error e =>
            have hfailed := FlushEnds.failed hfront hsend
            rw [← hu] at hfailed
            exact hfailed
          | ok completed =>
            refine hflush.mono fun l' r' t ht => ?_
            rw [hu] at ht
            exact ht.completed hfront hdst hnew hsend
      · rename_i hsend
        exact FlushEnds.stops hfront (by simpa using hsend)

theorem leads_flushDeferred (h : Queued s.shared.governor) :
    Leads R (Loop.flushDeferred cfg dst) s fun _ r t =>
      FlushEnds dst (s.shared.governor.queueOf dst) s.shared.governor r.isOk
        t.shared.governor := by
  unfold Loop.flushDeferred
  refine leads_read_bind.mpr (leads_modify_bind.mpr ?_)
  cases hget : s.shared.governor.deferred.get? dst with
  | none =>
    -- looking the queue up creates it
    have hnone : s.shared.governor.queueOf dst = [] := by
      simp [queueOf, hget]
    rw [hnone]
    exact FlushEnds.empty hnone
  | some queue =>
    refine (leads_flushQueue cfg (Dict.get?_set_self _ _ _) (h.placed dst)
      (h.nodup dst)).mono fun l r t ht => ?_
    change FlushEnds dst _ (setQueue dst _ s.shared.governor) _ _ at ht
    rwa [queueOf_of_get? hget, setQueue_of_get? hget, ← queueOf_of_get? hget] at ht

/-- The flush after a completion, as a run of the whole callback. -/
theorem leads_flushCompleted (h : Queued g) (hheld : g.inflightTasks.get? task.reqId = some task)
    (hs : s.shared.governor = g.discharge task) :
    Leads R (Loop.flushDeferred cfg task.dst) s fun _ r t =>
      (∃ log, Runs (.onComplete task) g log r.isOk t.shared.governor) ∧
        (task ∉ g.queueOf task.dst →
          t.shared.governor.inflightTasks.get? task.reqId ≠ some task) := by
  have hqueues : s.shared.governor.queueOf = g.queueOf := by
    rw [hs]
    exact funext (queueOf_congr rfl)
  have hqueued : Queued s.shared.governor := ⟨hqueues ▸ h.placed, hqueues ▸ h.nodup⟩
  refine (leads_flushDeferred cfg hqueued).mono fun l r t ht => ?_
  obtain ⟨log, hlog⟩ := ht.runs
  refine ⟨⟨_, .completed hheld (hs ▸ hlog)⟩, fun hnew hin => ?_⟩
  rcases ht.inflight _ _ hin with hin | hin
  · rw [hs, inflight_discharge] at hin
    cases hin
  · exact hnew (hqueues ▸ hin)

/-- Submitting a task is a run of the governor. -/
theorem submit_runs (h : Queued s.shared.governor)
    (hnew : task ∉ s.shared.governor.queueOf task.dst) :
    Leads R (Loop.submit cfg task) s fun _ r t =>
      ∃ log, Runs (.submit task) s.shared.governor log r.isOk t.shared.governor := by
  have hheld := inflight_charge s.shared.governor task
  have hcharged : Queued (s.shared.governor.charge task) := ⟨h.placed, h.nodup⟩
  unfold Loop.submit
  refine leads_read_bind.mpr ?_
  split
  · rename_i hsend
    refine Leads.bind (leads_dispatch cfg task) fun l r u hu => ?_
    rcases hu with ⟨rfl, hu⟩ | ⟨hr, hu⟩
    · exact ⟨_, hu ▸ Runs.sent hsend⟩
    cases r with
    | error e =>
      have hrun := Runs.submitSends hsend (.withdrawn .clientRaises hheld)
      rw [← hu] at hrun
      exact ⟨_, hrun⟩
    | ok completed =>
      obtain rfl : completed = true := by simpa using hr
      refine (leads_flushCompleted cfg hcharged hheld hu).mono fun l' r' t ht => ?_
      obtain ⟨⟨log, hcall⟩, hgone⟩ := ht
      cases r' with
      | ok _ =>
        exact ⟨_, .submitSends hsend (.accepted (.clientCallsBack hcall .clientReturns))⟩
      | error e =>
        exact ⟨_, .submitSends hsend
          (.refusedLate (.clientCallsBack hcall .clientRaises) (hgone hnew))⟩
  · rename_i hsend
    exact ⟨_, .submitDefers (by simpa using hsend)⟩

/-- The callback of a task is a run of the governor, if the task is told by its serial. -/
theorem onComplete_runs (h : Queued s.shared.governor)
    (hserial : ∀ t, s.shared.governor.inflightTasks.get? task.reqId = some t →
      t.serial = task.serial → t = task) :
    Leads R (Loop.onComplete cfg task) s fun _ r t =>
      ∃ log, Runs (.onComplete task) s.shared.governor log r.isOk t.shared.governor := by
  unfold Loop.onComplete
  by_cases hholds : s.shared.governor.holds task = true
  · have hheld : s.shared.governor.inflightTasks.get? task.reqId = some task := by
      simp only [TransferGovernor.holds, Option.any_eq_true, decide_eq_true_eq] at hholds
      obtain ⟨t, ht, hsame⟩ := hholds
      rwa [hserial t ht hsame] at ht
    refine Leads.bind (leads_completeTask hholds) fun l r u hu => ?_
    cases r with
    | error e =>
      exact ⟨_, hu.2 ▸ Runs.callbackRaised hheld⟩
    | ok current =>
      obtain rfl : current = true := by simpa using hu.1
      exact (leads_flushCompleted cfg h hheld hu.2).mono fun _ _ _ ht => ht.1
  · have hstale : s.shared.governor.inflightTasks.get? task.reqId ≠ some task := by
      intro hheld
      simp [TransferGovernor.holds, hheld] at hholds
    refine leads_bind.mpr ?_
    unfold Loop.completeTask
    rw [Prog.bind_eq, leads_bind, leads_read, after_ok, if_neg hholds]
    exact ⟨[], .stale hstale⟩

end Process

end PrismServe
