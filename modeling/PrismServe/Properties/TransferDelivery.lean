import PrismServe.Machine
import PrismServe.Properties.TransferTasks

/-!
# What becomes of a submitted transfer

Every submitted task is deferred, in flight, completed, cancelled, or has been
withdrawn because its hand-off raised.  The exception of a hand-off made by
`submit` reaches the code that submitted the task.  The exception of a hand-off
made by a flush does not: the flush has already taken the task from its queue,
and the exception ends whatever called the flush.
-/

namespace PrismServe

open Lib

namespace TransferEvent

def submission? : TransferEvent → Option TransferTask
  | .submitted task => some task
  | _ => none

def completion? : TransferEvent → Option TransferTask
  | .released _ task .completed => some task
  | _ => none

def cancellation? : TransferEvent → Option TransferTask
  | .released _ task .cancelled => some task
  | .dropped task => some task
  | _ => none

/-- The task of a dispatch error that `submit` raises to its caller. -/
def failure? : TransferEvent → Option TransferTask
  | .released _ task (.withdrawn true) => some task
  | .refusedLate true task => some task
  | _ => none

/-- The task that leaves the governor, for whatever reason. -/
def departure? : TransferEvent → Option TransferTask
  | .released _ task _ => some task
  | .dropped task => some task
  | _ => none

/--
A hand-off by a flush has not raised, and a hand-off that raised had not been
called back.
-/
def Delivered : TransferEvent → Prop
  | .released _ _ (.withdrawn bySubmit) => bySubmit = true
  | .refusedLate _ _ => False
  | _ => True

end TransferEvent

namespace TransferGovernor

section Lists

variable (log : List TransferEvent)

def submittedIn : List TransferTask := log.filterMap TransferEvent.submission?

def completedIn : List TransferTask := log.filterMap TransferEvent.completion?

def cancelledIn : List TransferTask := log.filterMap TransferEvent.cancellation?

def failedIn : List TransferTask := log.filterMap TransferEvent.failure?

def departedIn : List TransferTask := log.filterMap TransferEvent.departure?

end Lists

variable {log : List TransferEvent} {g g' : TransferGovernor}

/-- Under the condition a task leaves in one of three ways. -/
theorem departedIn_perm (h : ∀ event ∈ log, event.Delivered) :
    (departedIn log).Perm (completedIn log ++ cancelledIn log ++ failedIn log) := by
  induction log with
  | nil =>
    exact List.Perm.refl _
  | cons event rest ih =>
    have hrest := ih fun e he => h e (List.mem_cons_of_mem _ he)
    have hevent := h event List.mem_cons_self
    unfold departedIn completedIn cancelledIn failedIn at hrest ⊢
    cases event with
    | refusedLate bySubmit task =>
      exact hevent.elim
    | dropped task =>
      exact (hrest.cons task).trans (List.perm_middle.symm.append_right _)
    | released before task reason =>
      cases reason with
      | completed =>
        exact hrest.cons task
      | cancelled =>
        exact (hrest.cons task).trans (List.perm_middle.symm.append_right _)
      | withdrawn bySubmit =>
        obtain rfl : bySubmit = true := hevent
        exact (hrest.cons task).trans List.perm_middle.symm
    | _ =>
      exact hrest

/-! ## Conservation -/

theorem submittedIn_map_dropped (tasks : List TransferTask) :
    submittedIn (tasks.map .dropped) = [] := by
  simp [submittedIn, List.filterMap_map, Function.comp_def, TransferEvent.submission?]

theorem departedIn_map_dropped (tasks : List TransferTask) :
    departedIn (tasks.map .dropped) = tasks := by
  simp [departedIn, List.filterMap_map, Function.comp_def, TransferEvent.departure?]

/-- What a change puts in and takes out. -/
theorem Change.conserves {ok : TransferTask → Prop} {new : List TransferEvent}
    (h : Change ok g new g') (hdistinct : Distinct ok g) :
    (submittedIn new ++ g.liveTasks).Perm (g'.liveTasks ++ departedIn new) := by
  cases h with
  | @deferred task htask =>
    change (task :: g.liveTasks).Perm (_ ++ [])
    rw [List.append_nil]
    exact (liveTasks_defer g task).symm
  | @sentNew task now htask hsend =>
    change (task :: g.liveTasks).Perm (_ ++ [])
    rw [List.append_nil]
    exact (liveTasks_charge (hdistinct.fresh htask.fresh)).symm
  | @sentDeferred dst task rest now hqueue hsend =>
    change g.liveTasks.Perm (_ ++ [])
    rw [List.append_nil]
    have hfresh : (g.setQueue dst rest).inflightTasks.get? task.reqId = none :=
      hdistinct.front_fresh hqueue
    exact (liveTasks_setQueue hqueue).trans (liveTasks_charge hfresh).symm
  | @released task reason hheld =>
    change g.liveTasks.Perm (_ ++ [task])
    exact (liveTasks_discharge hheld).trans (List.perm_append_singleton _ _).symm
  | dropped reqId operationId =>
    rw [submittedIn_map_dropped, departedIn_map_dropped, List.nil_append]
    have hsplit := List.filter_append_perm (concerns reqId operationId) g.deferredTasks
    unfold liveTasks
    rw [deferredTasks_dropDeferred]
    have hlive := (hsplit.symm.trans List.perm_append_comm).append_right
      g.inflightTasks.values
    rw [List.append_assoc] at hlive ⊢
    exact hlive.trans (List.perm_append_comm.append_left _)
  | remarked hremark =>
    have hsame : g.liveTasks.Perm (g.liveTasks ++ []) := by rw [List.append_nil]
    cases hremark <;> exact hsame
  | retuned hsame =>
    change g.liveTasks.Perm (_ ++ [])
    rw [List.append_nil]
    exact (liveTasks_retune hsame).symm

/-- Whatever was submitted is live or has left. -/
theorem Changes.conserves {ok : TransferTask → Prop} {g₀ g : TransferGovernor} (hunused : g₀.Unused)
    (h : Changes ok g₀ log g) : (submittedIn log).Perm (g.liveTasks ++ departedIn log) := by
  induction h with
  | none =>
    simp [submittedIn, departedIn, liveTasks, deferredTasks, hunused.queues, hunused.tasks,
      Dict.values, Dict.empty]
  | @more g₁ g' log new hbefore hchange ih =>
    have hstep := hchange.conserves ((Distinct.unused hunused).changes hbefore)
    unfold submittedIn departedIn at ih hstep ⊢
    rw [List.filterMap_append, List.filterMap_append]
    have hold := (ih.append_right (new.filterMap TransferEvent.submission?)).trans
      List.perm_append_comm
    have hnew := hstep.append_right (log.filterMap TransferEvent.departure?)
    rw [List.append_assoc, List.append_assoc] at hnew
    exact (hold.trans hnew).trans (List.perm_append_comm.append_left _)

/-! ## Where the exceptions go -/

/-- The task whose dispatch error an operation raises to the caller of `submit`. -/
def GovernorOp.submitting? : GovernorOp → Option TransferTask
  | .submit task => some task
  | .deliver true task => some task
  | _ => none

@[simp] theorem failedIn_append (log log' : List TransferEvent) :
    failedIn (log ++ log') = failedIn log ++ failedIn log' :=
  List.filterMap_append

/-- A dispatch error counts as failed only in the `submit` of that task, which raises it. -/
theorem Runs.failed {op : GovernorOp} {returned : Bool} (h : Runs op g log returned g') :
    ∀ task ∈ failedIn log, GovernorOp.submitting? op = some task ∧ returned = false := by
  induction h with
  | submitSends hsend _ ih =>
    exact ih
  | accepted _ ih =>
    intro task htask
    exact absurd (ih task htask).1 nofun
  | @withdrawn g bySubmit task log g' _ hheld ih =>
    intro t ht
    rcases List.mem_append.mp (failedIn_append _ _ ▸ ht) with ht | ht
    · exact absurd (ih t ht).1 nofun
    cases bySubmit with
    | false =>
      cases ht
    | true =>
      obtain rfl := List.mem_singleton.mp ht
      exact ⟨rfl, rfl⟩
  | @refusedLate g bySubmit task log g' _ hgone ih =>
    intro t ht
    rcases List.mem_append.mp (failedIn_append _ _ ▸ ht) with ht | ht
    · exact absurd (ih t ht).1 nofun
    cases bySubmit with
    | false =>
      cases ht
    | true =>
      obtain rfl := List.mem_singleton.mp ht
      exact ⟨rfl, rfl⟩
  | clientCallsBack _ _ ih ih' =>
    intro t ht
    rcases List.mem_append.mp (failedIn_append _ _ ▸ ht) with ht | ht
    · exact absurd (ih t ht).1 nofun
    · exact ih' t ht
  | completed _ _ ih =>
    exact ih
  | flushSends _ _ _ _ ih ih' =>
    intro t ht
    rcases List.mem_append.mp (failedIn_append _ _ ▸ ht) with ht | ht
    · exact absurd (ih t ht).1 nofun
    · exact ih' t ht
  | flushFails _ _ _ ih =>
    intro t ht
    exact absurd (ih t ht).1 nofun
  | tickSkips _ _ ih =>
    exact ih
  | tickFlushes _ _ _ ih ih' =>
    intro t ht
    rcases List.mem_append.mp (failedIn_append _ _ ▸ ht) with ht | ht
    · exact absurd (ih t ht).1 nofun
    · exact ih' t ht
  | tickFails _ _ ih =>
    intro t ht
    exact absurd (ih t ht).1 nofun
  | _ =>
    exact nofun

/-- Why an operation may raise: never a flush, and a completion only by its callback. -/
def MayRaise : GovernorOp → List TransferEvent → Prop
  | .submit task, log => task ∈ failedIn log
  | .deliver bySubmit task, log => bySubmit = true ∧ task ∈ failedIn log
  | .handOff, _ => True
  | .onComplete task, log => .callbackRaised task ∈ log
  | .flush _, _ => False
  | .tick _, _ => False

theorem Runs.mayRaise {op : GovernorOp} {returned : Bool} (h : Runs op g log returned g')
    (hlog : ∀ event ∈ log, event.Delivered) (hraised : returned = false) : MayRaise op log := by
  induction h with
  | submitSends hsend _ ih =>
    exact (ih (fun e he => hlog e (by simp [he])) hraised).2
  | @withdrawn g bySubmit task log g' _ hheld ih =>
    have hsubmit : bySubmit = true := hlog (.released g' task (.withdrawn bySubmit)) (by simp)
    subst hsubmit
    refine ⟨rfl, ?_⟩
    rw [failedIn_append]
    exact List.mem_append_right _ List.mem_cons_self
  | @refusedLate g bySubmit task log g' _ hgone ih =>
    exact (hlog (.refusedLate bySubmit task) (by simp)).elim
  | clientRaises =>
    trivial
  | clientCallsBack _ _ ih ih' =>
    trivial
  | callbackRaised hheld =>
    simp [MayRaise]
  | completed _ _ ih =>
    exact (ih (fun e he => hlog e (by simp [he])) hraised).elim
  | flushSends _ _ _ _ ih ih' =>
    exact ih' (fun e he => hlog e (by simp [he])) hraised
  | flushFails _ _ _ ih =>
    exact absurd (ih (fun e he => hlog e (by simp [he])) hraised).1 nofun
  | tickSkips _ _ ih =>
    exact ih hlog hraised
  | tickFlushes _ _ _ ih ih' =>
    exact ih' (fun e he => hlog e (by simp [he])) hraised
  | tickFails _ _ ih =>
    exact ih hlog hraised
  | _ =>
    cases hraised

/--
As long as no hand-off of a flush raises, and none after it was called back,
every submitted task is at every moment in exactly one place: the multiset of
the submitted tasks is the union of the five.  A task counts as failed only
where its own `submit` raises; `submit` raises for no other reason, a flush or a
tick does not raise, and a completion only when its callback does.
-/
theorem submitted_transfers_accounted {ok : TransferTask → Prop} {g₀ g : TransferGovernor}
    {log : List TransferEvent} (hunused : g₀.Unused) (hreach : Reached ok g₀ log g)
    (hlog : ∀ event ∈ log, event.Delivered) :
    (∀ earlier m, Moment log g earlier m →
      (submittedIn earlier).Perm (m.deferredTasks ++ m.inflightTasks.values ++
        (completedIn earlier ++ cancelledIn earlier ++ failedIn earlier))) ∧
    ∀ op new returned g', Runs op g new returned g' → (∀ event ∈ new, event.Delivered) →
      (∀ task ∈ failedIn new, GovernorOp.submitting? op = some task ∧ returned = false) ∧
        (returned = false → MayRaise op new) := by
  constructor
  · intro earlier m hmoment
    have hearlier : ∀ event ∈ earlier, event.Delivered := by
      intro event hevent
      cases hmoment with
      | settled =>
        exact hlog event hevent
      | releasing hsplit =>
        exact hlog event (by simp [hsplit, hevent])
    have hconserved := (hreach.changes.moment hmoment).conserves hunused
    exact hconserved.trans ((departedIn_perm hearlier).append_left _)
  · intro op new returned g' hrun hnew
    exact ⟨hrun.failed, hrun.mayRaise hnew⟩

theorem smallSent_accounted :
    (∀ event ∈ smallSentLog, event.Delivered) ∧
      (submittedIn smallSentLog).Perm (smallSent.deferredTasks ++ smallSent.inflightTasks.values ++
        (completedIn smallSentLog ++ cancelledIn smallSentLog ++ failedIn smallSentLog)) := by
  have hlog : ∀ event ∈ smallSentLog, event.Delivered := by
    simp [smallSentLog, TransferEvent.Delivered]
  have hreach : Reached (fun _ => True) (openTo "d0" 100) smallSentLog smallSent :=
    smallSent_reached trivial trivial
  exact ⟨hlog, (submitted_transfers_accounted (openTo_unused "d0" 100) hreach hlog).1 _ _ .settled⟩

end TransferGovernor

/-- A legacy client that refuses every transfer. -/
def refusingSettings : Settings :=
  { smallSettings false false [] with transferResult := fun _ => .raised }

/-- The usage of the decode instance becomes known while a transfer waits for it. -/
def flushRefused : List Decision :=
  decodeStarts ++
    [.launch .scrape, .task 1 .ok, .task 1 (.usages [("d0", 0, "f1")]), .main .ok]

/--
The tick takes the waiting transfer from its queue and hands it off; the client
raises.  The transfer is nowhere, its request still waits for it, and the
exception has ended the scheduling loop.
-/
theorem refused_flush_loses_transfer :
    (smallWorld false).Initial ∧
      (runFrom refusingSettings (smallWorld false)
        decodeStarts).sys.shared.governor.deferredTasks.map
        TransferTask.reqId = ["r1"] ∧
      (runFrom refusingSettings (smallWorld false)
        flushRefused).sys.shared.governor.liveTasks = [] ∧
      ((runFrom refusingSettings (smallWorld false) flushRefused).sys.shared.tracker.info 0).state =
        .kvPending ∧
      (runFrom refusingSettings (smallWorld false) flushRefused).crash = some .transferDispatch :=
  ⟨smallWorld_initial false, by decide +kernel, by decide +kernel, by decide +kernel,
    by decide +kernel⟩

end PrismServe
