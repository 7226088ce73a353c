import SnappCollector.Machine.Runs
import SnappCollector.Writer.Tables

/-!
# The writer as a transition system

Any number of `push_data` calls run against the `n` workers that
`RRD_Writer::initialize` started.  A call that waits for `RRD_Writer::lock` has
touched nothing shared yet, so a call enters the model when it takes the lock,
and at most one is inside.  Each step is one access to shared data or one lock
or semaphore operation.

`calls`, `popped` and `updates` are history: no step reads them.  An entry of a
queue carries the call it was made for, for the same purpose.
-/

namespace SnappCollector.Writer

open CLib

def num_threads (num_writers : UInt32) : Nat :=
  let num_threads := num_writers.toInt32.toInt
  if num_threads ≤ 0 ∨ num_threads > 400 then 400 else num_threads.toNat

theorem num_threads_bounds (num_writers : UInt32) :
    1 ≤ num_threads num_writers ∧ num_threads num_writers ≤ 400 := by
  simp only [num_threads]
  split <;> omega

/-- A datum in a queue, with the call it was made for. -/
structure Entry where
  datum : RRD_datum
  call : PushCall
deriving DecidableEq

inductive Owner (n : Nat) where
  | push
  | worker (w : Fin n)
deriving DecidableEq

structure RRD_queue (n : Nat) where
  datum_queue : List Entry
  semaphore : Nat
  lock : Option (Owner n)

inductive PushPlace where
  | entered
  | filled (datum : RRD_datum)
  | queue_locked (datum : RRD_datum)
  | pushed
  | posted
  | queue_unlocked
deriving DecidableEq

inductive Errno where
  | other
  | EINTR
  | ETIMEDOUT
deriving DecidableEq

inductive WorkerPlace where
  | waiting
  /-- past the wait, at the lock of its queue -/
  | taken
  /-- holding it, at `front()` and `pop()` -/
  | front
  | popped (entry : Entry)
  /-- at `RRD_Writer::lock` -/
  | queue_unlocked (entry : Entry)
  /-- holding it, at `file_info[filename_id]` and `rrd_template[template_id]` -/
  | reading (entry : Entry)
  | read (entry : Entry) (file_info : RRD_File_info) (rrd_template : CStr)
  /-- at the update of the rrd file -/
  | writing (entry : Entry) (file_info : RRD_File_info) (rrd_template : CStr)
  /-- took `front()` of an empty queue or indexed outside a vector -/
  | fault
deriving DecidableEq

structure RRD_Writer_worker where
  place : WorkerPlace
  errno : Errno

structure Popped (n : Nat) where
  worker : Fin n
  entry : Entry

/-- The arguments of a call of `rrd_update_r`, with the call of the datum. -/
structure Update where
  call : PushCall
  filename : CStr
  template_str : CStr
  value_str : Option CStr

structure State (n : Nat) where
  writer : RRD_Writer
  data_queue : Fin n → RRD_queue n
  worker : Fin n → RRD_Writer_worker
  lock : Option (Owner n)
  push : Option (PushCall × PushPlace)
  aborted : Bool
  calls : List PushCall
  popped : List (Popped n)
  updates : List Update

def State.init (n : Nat) : State n where
  writer := .empty
  data_queue _ := ⟨[], 0, none⟩
  worker _ := ⟨.waiting, .other⟩
  lock := none
  push := none
  aborted := false
  calls := []
  popped := []
  updates := []

inductive WaitResult where
  | success
  | timeout
  | interrupted
deriving DecidableEq

inductive Action (n : Nat) where
  /-- a call of `push_data` takes `RRD_Writer::lock` -/
  | call (call : PushCall)
  | push
  | wait (w : Fin n) (result : WaitResult)
  /-- the worker takes its next step, not at the wait or the update -/
  | worker (w : Fin n)
  /-- the worker updates the rrd file; `stack` is what its buffers hold behind a
  text that fills them -/
  | update (w : Fin n) (stack : CStr)

section Step

variable {n : Nat}

def State.setPlace (s : State n) (w : Fin n) (place : WorkerPlace) : State n :=
  { s with worker := Function.update s.worker w { s.worker w with place } }

def State.setQueue (s : State n) (q : Fin n) (queue : RRD_queue n) : State n :=
  { s with data_queue := Function.update s.data_queue q queue }

/-- `push_data` from one lock operation or shared access to the next. -/
def pushStep [NeZero n] (libc : Libc) (s : State n) (c : PushCall) :
    PushPlace → Option (State n)
  | .entered =>
      let (writer, new_datum) := s.writer.new_datum libc c
      match new_datum with
      | some datum =>
          if datum.num_ds > 0 then
            some { s with writer, push := some (c, .filled datum) }
          else
            -- the assertion on num_ds ends the process
            some { s with writer, aborted := true }
      | none =>
          -- strtok_r reads where there is no text
          some { s with writer, aborted := true }
  | .filled datum =>
      let q := queue_index n c.filename
      match (s.data_queue q).lock with
      | some _ => none
      | none =>
          some { s.setQueue q { s.data_queue q with lock := some .push } with
            push := some (c, .queue_locked datum) }
  | .queue_locked datum =>
      let q := queue_index n c.filename
      let datum_queue := (s.data_queue q).datum_queue ++ [⟨datum, c⟩]
      some { s.setQueue q { s.data_queue q with datum_queue } with push := some (c, .pushed) }
  | .pushed =>
      let q := queue_index n c.filename
      let semaphore := (s.data_queue q).semaphore + 1
      some { s.setQueue q { s.data_queue q with semaphore } with push := some (c, .posted) }
  | .posted =>
      let q := queue_index n c.filename
      some { s.setQueue q { s.data_queue q with lock := none } with
        push := some (c, .queue_unlocked) }
  | .queue_unlocked => some { s with lock := none, push := none }

/-- `sem_timedwait` and the tests on its result and `errno`. -/
def waitStep (s : State n) (w : Fin n) : WaitResult → Option (State n)
  | .success =>
      match (s.data_queue w).semaphore with
      | 0 => none
      | semaphore + 1 =>
          let s' := s.setQueue w { s.data_queue w with semaphore }
          -- a success leaves errno as it was, and the test reads it all the same
          if (s.worker w).errno = .EINTR then some s' else some (s'.setPlace w .taken)
  | .timeout =>
      some { s with worker := Function.update s.worker w ⟨.waiting, .ETIMEDOUT⟩ }
  | .interrupted =>
      some { s with worker := Function.update s.worker w ⟨.waiting, .EINTR⟩ }

def workerStep (s : State n) (w : Fin n) : WorkerPlace → Option (State n)
  | .waiting => none
  | .taken =>
      match (s.data_queue w).lock with
      | some _ => none
      | none =>
          some ((s.setQueue w { s.data_queue w with lock := some (.worker w) }).setPlace w .front)
  | .front =>
      match (s.data_queue w).datum_queue with
      | [] => some (s.setPlace w .fault)
      | entry :: datum_queue =>
          some { (s.setQueue w { s.data_queue w with datum_queue }).setPlace w (.popped entry) with
            popped := s.popped ++ [⟨w, entry⟩] }
  | .popped entry =>
      some ((s.setQueue w { s.data_queue w with lock := none }).setPlace w
        (.queue_unlocked entry))
  | .queue_unlocked entry =>
      match s.lock with
      | some _ => none
      | none => some { s.setPlace w (.reading entry) with lock := some (.worker w) }
  | .reading entry =>
      match s.writer.file_info[entry.datum.filename_id.toNat]?,
          s.writer.rrd_template[entry.datum.template_id.toNat]? with
      | some file_info, some rrd_template =>
          some (s.setPlace w (.read entry file_info rrd_template))
      | _, _ => some (s.setPlace w .fault)
  | .read entry file_info rrd_template =>
      some { s.setPlace w (.writing entry file_info rrd_template) with lock := none }
  | .writing .. => none
  | .fault => none

/-- The part of the loop after the last unlock: it touches the rrd file and the
thread's own variables only. -/
def updateStep (libc : Libc) (s : State n) (w : Fin n) (stack : CStr) :
    WorkerPlace → Option (State n)
  | .writing entry file_info rrd_template =>
      let update : Update :=
        { call := entry.call
          filename := strncpy stack file_info.filename (CONST_STRING_SIZE - 1)
          template_str := strncpy stack rrd_template (CONST_STRING_SIZE - 1)
          value_str := value_str libc entry.datum }
      some { s.setPlace w .waiting with updates := s.updates ++ [update] }
  | _ => none

def step [NeZero n] (libc : Libc) (s : State n) (action : Action n) : Option (State n) :=
  if s.aborted then none
  else
    match action with
    | .call c =>
        match s.lock with
        | some _ => none
        | none =>
            some { s with
              lock := some .push, push := some (c, .entered), calls := s.calls ++ [c] }
    | .push => s.push.bind fun (c, place) => pushStep libc s c place
    | .wait w result => if (s.worker w).place = .waiting then waitStep s w result else none
    | .worker w => workerStep s w (s.worker w).place
    | .update w stack => updateStep libc s w stack (s.worker w).place

end Step

end SnappCollector.Writer
