import SnappCollector.Machine.Pool
import SnappCollector.Machine.Runs

/-!
# A collection class as a transition system

The main thread of a class, its `k` workers and one call of `finalize` share the
queue of host indexes, its semaphore and the lock.  Each step is one access to
shared data, one lock or semaphore operation, or one `print_log` or sleep of the
main thread, the points at which a cancellation can end it.  The class has `n`
hosts, and the indexes in the queue are unbounded where the source has `int`: a class
is taken to have fewer than `2 ^ 31`.

`finalize` returns to the destructor of the object.  The main thread is detached and
nobody waits for it, so a step that it makes then touches an object that is gone.

The session semaphore is shared with the other classes, which take and return
sessions at any time.  `rounds` and `popped` are history: no step reads them.
-/

namespace SnappCollector.CollectionClass

def num_workers (host_size : Nat) : Nat :=
  let max_num_workers := 200
  if max_num_workers > host_size then host_size else max_num_workers

inductive Thread (k : Nat) where
  | main
  | worker (w : Fin k)
  | finalize
deriving DecidableEq

inductive MainPlace where
  /-- at the first `print_log` of the loop -/
  | iteration
  | lock
  /-- holding the lock, at the test on the queue -/
  | test
  /-- holding the lock, at the `print_log` about a queue that is not empty -/
  | queue_not_empty
  | push (i : Nat)
  | post (i : Nat)
  | unlock
  /-- at the `print_log` after the unlock -/
  | sent
  | sleep
  | slept
  | cancelled
deriving DecidableEq

inductive WorkerPlace where
  | waiting
  /-- past `worker_semaphore`, at the lock -/
  | taken
  /-- holding the lock, at `front()` and `pop()` -/
  | front
  | popped (collection_index : Int)
  | session_wait (collection_index : Int)
  | collecting (collection_index : Int)
  | collected
  | finished
  /-- took `front()` of an empty queue -/
  | fault
deriving DecidableEq

inductive FinalizePlace where
  | idle
  | lock
  | cancel
  | clear
  | push (i : Nat)
  | post (i : Nat)
  | unlock
  | join (i : Nat)
  | done
deriving DecidableEq

structure State (k : Nat) where
  pending_host_index_queue : List Int
  worker_semaphore : Nat
  lock : Option (Thread k)
  session_semaphore : Nat
  /-- sessions that other classes hold -/
  other_sessions : Nat
  main : MainPlace
  /-- the main thread has been cancelled and has not acted on it -/
  cancel : Bool
  worker : Fin k → WorkerPlace
  finalize : FinalizePlace
  rounds : Nat
  popped : List (Fin k × Int)

/-- The state after `initialize`, with the sessions that are free then. -/
def State.init (k sessions : Nat) : State k where
  pending_host_index_queue := []
  worker_semaphore := 0
  lock := none
  session_semaphore := sessions
  other_sessions := 0
  main := .iteration
  cancel := false
  worker _ := .waiting
  finalize := .idle
  rounds := 0
  popped := []

/-- The object is there: its destructor is still in `finalize`, or has not been called. -/
def State.live {k : Nat} (s : State k) : Bool := s.finalize ≠ .done

inductive Action (k : Nat) where
  | main
  | main_cancelled
  | worker (w : Fin k)
  | finalize
  | other_session_wait
  | other_session_post
deriving DecidableEq

/-- `nanosleep` and the `print_log`s. -/
def MainPlace.cancellation_point : MainPlace → Bool
  | .iteration | .queue_not_empty | .sent | .sleep | .slept => true
  | _ => false

section Step

variable {k : Nat}

/-- `SQL_Collection_Class::thread_start` of a class with `n` hosts. -/
def mainStep (n : Nat) (s : State k) : MainPlace → Option (State k)
  | .iteration => some { s with main := .lock }
  | .lock =>
      match s.lock with
      | some _ => none
      | none => some { s with lock := some .main, main := .test }
  | .test =>
      if s.pending_host_index_queue = [] then
        some { s with main := .push 0, rounds := s.rounds + 1 }
      else some { s with main := .queue_not_empty }
  | .queue_not_empty => some { s with main := .unlock }
  | .push i =>
      if i < n then
        some { s with
          pending_host_index_queue := s.pending_host_index_queue ++ [(i : Int)]
          main := .post i }
      else some { s with main := .unlock }
  | .post i => some { s with worker_semaphore := s.worker_semaphore + 1, main := .push (i + 1) }
  | .unlock => some { s with lock := none, main := .sent }
  | .sent => some { s with main := .sleep }
  -- a pending cancellation acts at the sleep
  | .sleep => if s.cancel then none else some { s with main := .slept }
  | .slept => some { s with main := .iteration }
  | .cancelled => none

def workerStep (s : State k) (w : Fin k) : WorkerPlace → Option (State k)
  | .waiting =>
      match s.worker_semaphore with
      | 0 => none
      | worker_semaphore + 1 =>
          some { s with worker_semaphore, worker := Function.update s.worker w .taken }
  | .taken =>
      match s.lock with
      | some _ => none
      | none =>
          some { s with
            lock := some (.worker w), worker := Function.update s.worker w .front }
  | .front =>
      match s.pending_host_index_queue with
      | [] => some { s with worker := Function.update s.worker w .fault }
      | collection_index :: pending_host_index_queue =>
          some { s with
            pending_host_index_queue
            worker := Function.update s.worker w (.popped collection_index)
            popped := s.popped ++ [(w, collection_index)] }
  | .popped collection_index =>
      if collection_index = -1 then
        some { s with lock := none, worker := Function.update s.worker w .finished }
      else
        some { s with
          lock := none, worker := Function.update s.worker w (.session_wait collection_index) }
  | .session_wait collection_index =>
      match s.session_semaphore with
      | 0 => none
      | session_semaphore + 1 =>
          some { s with
            session_semaphore, worker := Function.update s.worker w (.collecting collection_index) }
  | .collecting _ => some { s with worker := Function.update s.worker w .collected }
  | .collected =>
      some { s with
        session_semaphore := s.session_semaphore + 1
        worker := Function.update s.worker w .waiting }
  | .finished => none
  | .fault => none

def finalizeStep (s : State k) : FinalizePlace → Option (State k)
  | .idle => some { s with finalize := .lock }
  | .lock =>
      match s.lock with
      | some _ => none
      | none => some { s with lock := some .finalize, finalize := .cancel }
  | .cancel => some { s with cancel := true, finalize := .clear }
  | .clear =>
      match s.pending_host_index_queue with
      | [] => some { s with finalize := .push 0 }
      | _ :: pending_host_index_queue => some { s with pending_host_index_queue }
  | .push i =>
      if i < k then
        some { s with
          pending_host_index_queue := s.pending_host_index_queue ++ [-1], finalize := .post i }
      else some { s with finalize := .unlock }
  | .post i => some { s with worker_semaphore := s.worker_semaphore + 1, finalize := .push (i + 1) }
  | .unlock => some { s with lock := none, finalize := .join 0 }
  | .join i =>
      if hi : i < k then
        if s.worker ⟨i, hi⟩ = .finished then some { s with finalize := .join (i + 1) } else none
      else some { s with finalize := .done }
  | .done => none

def step (n : Nat) (s : State k) : Action k → Option (State k)
  | .main => mainStep n s s.main
  | .main_cancelled =>
      if s.cancel && s.main.cancellation_point then some { s with main := .cancelled } else none
  | .worker w => workerStep s w (s.worker w)
  | .finalize => finalizeStep s s.finalize
  | .other_session_wait =>
      match s.session_semaphore with
      | 0 => none
      | session_semaphore + 1 =>
          some { s with session_semaphore, other_sessions := s.other_sessions + 1 }
  | .other_session_post =>
      match s.other_sessions with
      | 0 => none
      | other_sessions + 1 =>
          some { s with other_sessions, session_semaphore := s.session_semaphore + 1 }

end Step

end SnappCollector.CollectionClass
