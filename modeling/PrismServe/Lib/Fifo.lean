import Mathlib.Data.List.Nodup
import Mathlib.Data.List.Infix

/-!
# Queues from which items are also removed

`Fifo log queue`: a queue that began empty and did what the log says now holds
`queue`.  Items come in at the end and leave at the front; a removal takes out
all items of a kind.  What came in and was not removed has left, in its order, up
to some point, and waits after it.
-/

namespace PrismServe.Lib

universe u

inductive FifoEvent (α : Type u)
  | enqueued (a : α)
  | dequeued (a : α)
  | removed (items : List α)

variable {α : Type u}

namespace FifoEvent

def entering : FifoEvent α → List α
  | .enqueued a => [a]
  | _ => []

def leaving : FifoEvent α → List α
  | .dequeued a => [a]
  | _ => []

def removing : FifoEvent α → List α
  | .removed items => items
  | _ => []

def enqueuedIn (log : List (FifoEvent α)) : List α := log.flatMap entering

def dequeuedIn (log : List (FifoEvent α)) : List α := log.flatMap leaving

def removedIn (log : List (FifoEvent α)) : List α := log.flatMap removing

@[simp] theorem enqueuedIn_snoc (log : List (FifoEvent α)) (event : FifoEvent α) :
    enqueuedIn (log ++ [event]) = enqueuedIn log ++ entering event := by
  simp [enqueuedIn]

@[simp] theorem dequeuedIn_snoc (log : List (FifoEvent α)) (event : FifoEvent α) :
    dequeuedIn (log ++ [event]) = dequeuedIn log ++ leaving event := by
  simp [dequeuedIn]

@[simp] theorem removedIn_snoc (log : List (FifoEvent α)) (event : FifoEvent α) :
    removedIn (log ++ [event]) = removedIn log ++ removing event := by
  simp [removedIn]

end FifoEvent

open FifoEvent

inductive Fifo : List (FifoEvent α) → List α → Prop
  | empty : Fifo [] []
  | enqueue {log : List (FifoEvent α)} {queue : List α} (a : α) (h : Fifo log queue) :
      Fifo (log ++ [.enqueued a]) (queue ++ [a])
  | dequeue {log : List (FifoEvent α)} {queue : List α} {a : α} (h : Fifo log (a :: queue)) :
      Fifo (log ++ [.dequeued a]) queue
  | remove {log : List (FifoEvent α)} {queue : List α} (p : α → Bool) (h : Fifo log queue) :
      Fifo (log ++ [.removed (queue.filter p)]) (queue.filter fun a => !p a)

namespace Fifo

variable {log : List (FifoEvent α)} {queue : List α}

/-- What has left at the front and what is still there, in the order in which it came in. -/
theorem order (h : Fifo log queue) : (dequeuedIn log ++ queue).Sublist (enqueuedIn log) := by
  induction h with
  | empty =>
    exact List.Sublist.refl _
  | enqueue a _ ih =>
    simpa [entering, leaving] using ih.append (List.Sublist.refl [a])
  | dequeue _ ih =>
    simpa [entering, leaving] using ih
  | remove p _ ih =>
    simpa [entering, leaving] using
      ((List.Sublist.refl _).append List.filter_sublist).trans ih

/-- Everything that came in has left at the front, was removed, or is still there. -/
theorem account (h : Fifo log queue) :
    (dequeuedIn log ++ queue ++ removedIn log).Perm (enqueuedIn log) := by
  induction h with
  | empty =>
    exact List.Perm.refl _
  | @enqueue log queue a _ ih =>
    have hswap : ([a] ++ removedIn log).Perm (removedIn log ++ [a]) := List.perm_append_comm
    have hlast : (dequeuedIn log ++ (queue ++ [a]) ++ removedIn log).Perm
        (dequeuedIn log ++ queue ++ removedIn log ++ [a]) := by
      simpa using hswap.append_left (dequeuedIn log ++ queue)
    simpa [entering, leaving, removing] using hlast.trans (ih.append_right [a])
  | dequeue _ ih =>
    simpa [entering, leaving, removing] using ih
  | @remove log queue p _ ih =>
    have hsplit : ((queue.filter fun a => !p a) ++ (removedIn log ++ queue.filter p)).Perm
        (queue ++ removedIn log) := by
      refine (List.perm_append_comm_assoc _ _ _).trans ?_
      refine (List.Perm.append_left _ List.perm_append_comm).trans ?_
      refine (List.Perm.append_left _ (List.filter_append_perm p queue)).trans ?_
      exact List.perm_append_comm
    have hall := hsplit.append_left (dequeuedIn log)
    simp only [← List.append_assoc] at hall
    simpa [entering, leaving, removing] using hall.trans ih

end Fifo

end PrismServe.Lib
