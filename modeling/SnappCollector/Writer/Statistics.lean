import SnappCollector.Writer.Load
import SnappCollector.Writer.Machine

/-!
# The statistics thread beside the writer

`calculate_new_stats` adds up the sizes of the queues one after the other, each under the
lock of its queue, and then updates the averages under `status_lock`.  The control workers
copy the averages with `get_writer_status`.  All of it runs while calls push data and workers
take them.

`pass`, `samples` and `reported` are history: no step reads them.
-/

namespace SnappCollector.Writer

open CLib

variable {n m : Nat}

/-! ## The averages -/

/-- The assignments of the two `CALC_LOAD`s, one by one. -/
def load_assignments (n : UInt64) : List (Writer_status → Writer_status) :=
  [fun st => { st with avg_queue_len_1min := st.avg_queue_len_1min * EXP_1 },
    fun st => { st with avg_queue_len_1min := st.avg_queue_len_1min + n * (FIXED_1 - EXP_1) },
    fun st => { st with avg_queue_len_1min := st.avg_queue_len_1min >>> FSHIFT },
    fun st => { st with avg_queue_len_5min := st.avg_queue_len_5min * EXP_5 },
    fun st => { st with avg_queue_len_5min := st.avg_queue_len_5min + n * (FIXED_1 - EXP_5) },
    fun st => { st with avg_queue_len_5min := st.avg_queue_len_5min >>> FSHIFT }]

theorem foldl_load_assignments (queue_sizes : List Nat) (st : Writer_status) :
    (load_assignments (avg_queue_len queue_sizes)).foldl (fun st f => f st) st =
      calculate_new_stats queue_sizes st := rfl

/-! ## Threads -/

inductive StatsPlace where
  | sleeping
  /-- at the head of the loop over the queues -/
  | queue (i : Nat) (avg_queue_len : UInt64)
  /-- holding the lock of queue `i`, at `size()` -/
  | size (i : Nat) (avg_queue_len : UInt64)
  | queue_unlock (i : Nat) (avg_queue_len : UInt64)
  | status_lock (avg_queue_len : UInt64)
  /-- holding `status_lock`, with so many assignments made -/
  | assign (done : Nat) (avg_queue_len : UInt64)
  | status_unlock
deriving DecidableEq

inductive ReaderPlace where
  | idle
  | status_lock
  | copy_1min
  | copy_5min (avg_queue_len_1min : UInt64)
  | status_unlock (writer_status : Writer_status)
deriving DecidableEq

inductive StatusOwner (m : Nat) where
  | stats
  | reader (j : Fin m)
deriving DecidableEq

/-- One pass over the queues: the sizes found, and the writer at the start and at the end. -/
structure Sample (n : Nat) where
  sizes : List Nat
  began : State n
  ended : State n

structure StatsState (n m : Nat) where
  writer : State n
  stats : StatsPlace
  reader : Fin m → ReaderPlace
  status_lock : Option (StatusOwner m)
  local_status : Writer_status
  pass : Sample n
  samples : List (Sample n)
  reported : List Writer_status

def StatsState.init (n m : Nat) : StatsState n m where
  writer := .init n
  stats := .sleeping
  reader _ := .idle
  status_lock := none
  local_status := ⟨0, 0⟩
  pass := ⟨[], .init n, .init n⟩
  samples := []
  reported := []

inductive StatsAction (n m : Nat) where
  | writer (a : Action n)
  | stats
  | reader (j : Fin m)

/-! ## Steps -/

/-- The queue whose lock a step of the writer takes. -/
def State.locks [NeZero n] (s : State n) : Action n → Option (Fin n)
  | .push =>
      match s.push with
      | some (c, .filled _) => some (queue_index n c.filename)
      | _ => none
  | .worker w => if (s.worker w).place = .taken then some w else none
  | .call _ | .wait _ _ | .update _ _ => none

def StatsPlace.holds : StatsPlace → Option Nat
  | .size i _ | .queue_unlock i _ => some i
  | _ => none

/-- `calculate_new_stats`, in the loop of `writer_status_thread`. -/
def statsStep (s : StatsState n m) : StatsPlace → Option (StatsState n m)
  | .sleeping => some { s with stats := .queue 0 0, pass := ⟨[], s.writer, s.writer⟩ }
  | .queue i avg_queue_len =>
      if hi : i < n then
        match (s.writer.data_queue ⟨i, hi⟩).lock with
        | some _ => none
        | none => some { s with stats := .size i avg_queue_len }
      else some { s with stats := .status_lock avg_queue_len, pass := { s.pass with ended := s.writer } }
  | .size i avg_queue_len =>
      if hi : i < n then
        let size := (s.writer.data_queue ⟨i, hi⟩).datum_queue.length
        some { s with
          stats := .queue_unlock i (avg_queue_len + UInt64.ofNat size)
          pass := { s.pass with sizes := s.pass.sizes ++ [size] } }
      else none
  | .queue_unlock i avg_queue_len => some { s with stats := .queue (i + 1) avg_queue_len }
  | .status_lock avg_queue_len =>
      match s.status_lock with
      | some _ => none
      | none => some { s with status_lock := some .stats, stats := .assign 0 avg_queue_len }
  | .assign done avg_queue_len =>
      match (load_assignments avg_queue_len)[done]? with
      | some f => some { s with
          local_status := f s.local_status, stats := .assign (done + 1) avg_queue_len }
      | none => some { s with stats := .status_unlock, samples := s.samples ++ [s.pass] }
  | .status_unlock => some { s with status_lock := none, stats := .sleeping }

def readerStep (s : StatsState n m) (j : Fin m) : ReaderPlace → Option (StatsState n m)
  | .idle => some { s with reader := Function.update s.reader j .status_lock }
  | .status_lock =>
      match s.status_lock with
      | some _ => none
      | none => some { s with
          status_lock := some (.reader j), reader := Function.update s.reader j .copy_1min }
  | .copy_1min =>
      some { s with
        reader := Function.update s.reader j (.copy_5min s.local_status.avg_queue_len_1min) }
  | .copy_5min avg_queue_len_1min =>
      some { s with
        reader := Function.update s.reader j
          (.status_unlock ⟨avg_queue_len_1min, s.local_status.avg_queue_len_5min⟩) }
  | .status_unlock writer_status =>
      some { s with
        status_lock := none
        reader := Function.update s.reader j .idle
        reported := s.reported ++ [writer_status] }

def stepWithStats [NeZero n] (libc : Libc) (s : StatsState n m) :
    StatsAction n m → Option (StatsState n m)
  | .writer a =>
      -- the statistics thread has the lock
      if (s.writer.locks a).any fun q => s.stats.holds = some q.val then none
      else (step libc s.writer a).map fun writer => { s with writer }
  | .stats => statsStep s s.stats
  | .reader j => readerStep s j (s.reader j)

end SnappCollector.Writer
