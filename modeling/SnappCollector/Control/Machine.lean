import Mathlib.Logic.Function.Basic

/-!
# The control threads as a transition system

The listen thread puts the descriptors that it accepts into `pending_fd`, and any number of
workers take them out and serve them.  Each step is one access to shared data or one lock or
semaphore operation; what a worker does for a connection is one step, which may take for
ever.

`accepted`, `taken` and `closed` are history: no step reads them but for the number that a
connection gets, which tells apart connections with one descriptor.
-/

namespace SnappCollector.Control

/-- A connection that was accepted: its descriptor, and its place in the order. -/
structure Accepted where
  fd : Int32
  number : Nat
deriving DecidableEq

inductive Owner (n : Nat) where
  | listen
  | worker (w : Fin n)
deriving DecidableEq

inductive ListenPlace where
  | accepting
  /-- at the lock of the queue -/
  | accepted (c : Accepted)
  /-- holding it, at `push` -/
  | locked (c : Accepted)
  | pushed
  | unlocked
deriving DecidableEq

inductive WorkerPlace where
  | waiting
  /-- past the wait, at the lock of the queue -/
  | woken
  /-- holding it, at `front()` -/
  | locked
  /-- at `pop()` -/
  | front (c : Accepted)
  | popped (c : Accepted)
  | handling (c : Accepted)
  /-- at `close` -/
  | handled (c : Accepted)
  /-- took `front()` or `pop()` of an empty queue -/
  | fault
deriving DecidableEq

structure State (n : Nat) where
  pending_fd : List Accepted
  queue_lock : Option (Owner n)
  pending_semaphore : Nat
  listen : ListenPlace
  worker : Fin n → WorkerPlace
  exited : Bool
  accepted : List Accepted
  taken : List (Fin n × Accepted)
  closed : List (Fin n × Accepted)

def State.init (n : Nat) : State n where
  pending_fd := []
  queue_lock := none
  pending_semaphore := 0
  listen := .accepting
  worker _ := .waiting
  exited := false
  accepted := []
  taken := []
  closed := []

inductive Action (n : Nat) where
  | accept (new_fd : Int32)
  | listen
  /-- `sem_wait` returns, early if a signal handler has interrupted it -/
  | wait (w : Fin n) (interrupted : Bool)
  | worker (w : Fin n)

section Step

variable {n : Nat}

def State.setPlace (s : State n) (w : Fin n) (place : WorkerPlace) : State n :=
  { s with worker := Function.update s.worker w place }

def acceptStep (s : State n) (new_fd : Int32) : State n :=
  if new_fd = -1 then { s with exited := true }
  else
    let c : Accepted := ⟨new_fd, s.accepted.length⟩
    { s with listen := .accepted c, accepted := s.accepted ++ [c] }

def listenStep (s : State n) : ListenPlace → Option (State n)
  | .accepting => none
  | .accepted c =>
      match s.queue_lock with
      | some _ => none
      | none => some { s with queue_lock := some .listen, listen := .locked c }
  | .locked c => some { s with pending_fd := s.pending_fd ++ [c], listen := .pushed }
  | .pushed => some { s with queue_lock := none, listen := .unlocked }
  | .unlocked =>
      some { s with pending_semaphore := s.pending_semaphore + 1, listen := .accepting }

/-- `sem_wait`, whose result nothing looks at. -/
def waitStep (s : State n) (w : Fin n) (interrupted : Bool) : Option (State n) :=
  if interrupted then some (s.setPlace w .woken)
  else
    match s.pending_semaphore with
    | 0 => none
    | pending_semaphore + 1 => some { s.setPlace w .woken with pending_semaphore }

def workerStep (s : State n) (w : Fin n) : WorkerPlace → Option (State n)
  | .waiting => none
  | .woken =>
      match s.queue_lock with
      | some _ => none
      | none => some { s.setPlace w .locked with queue_lock := some (.worker w) }
  | .locked =>
      match s.pending_fd with
      | [] => some (s.setPlace w .fault)
      | c :: _ => some (s.setPlace w (.front c))
  | .front c =>
      match s.pending_fd with
      | [] => some (s.setPlace w .fault)
      | _ :: pending_fd =>
          some { s.setPlace w (.popped c) with pending_fd, taken := s.taken ++ [(w, c)] }
  | .popped c => some { s.setPlace w (.handling c) with queue_lock := none }
  | .handling c => some (s.setPlace w (.handled c))
  | .handled c => some { s.setPlace w .waiting with closed := s.closed ++ [(w, c)] }
  | .fault => none

def step (s : State n) (action : Action n) : Option (State n) :=
  if s.exited then none
  else
    match action with
    | .accept new_fd => if s.listen = .accepting then some (acceptStep s new_fd) else none
    | .listen => listenStep s s.listen
    | .wait w interrupted =>
        if s.worker w = .waiting then waitStep s w interrupted else none
    | .worker w => workerStep s w (s.worker w)

end Step

end SnappCollector.Control
